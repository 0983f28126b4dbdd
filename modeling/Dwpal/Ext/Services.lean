import Dwpal.Daemon.IfaceManager
import Mathlib.Data.Fintype.Basic
import Mathlib.Data.List.FinRange

/-! The table of services of `dwpal_ext.c`: a service for each attached interface, with the context
of the connection below it, and the calls that attach and detach interfaces. The calls hold
`attach_mutex`, and the threads that watch the sockets are cancelled while they work. -/

namespace Dwpal.Ext

open Daemon (DwpalRet)

/-- `DwpalConnectionType`. -/
inductive DwpalConnectionType where
  | hostap
  | driver
deriving DecidableEq, Repr

/-- `DWPAL_VAP_NAME_STRING_LENGTH`. -/
def dwpalVapNameStringLength : Nat := 16

/-- The number of places in `dwpalService`: `NUM_OF_SUPPORTED_VAPS + 1`. -/
def numOfServices : Nat := 65

instance : NeZero numOfServices := ⟨by decide⟩

/-- A pointer to a callback. -/
abbrev Callback := Nat

/-- `DwpalService`. -/
structure DwpalService where
  vapName : CString 16
  isConnectionEstablishNeeded : Bool
  isReconnectEventNeeded : Bool
  hostapEventCallback : Option Callback
  nlEventCallback : Option Callback
  nlNonVendorEventCallback : Option Callback
  connectionType : DwpalConnectionType

/-- `dwpalService[i]`, and whether `context[i]` is not `NULL`. -/
structure Slot where
  service : Option DwpalService
  context : Bool

abbrev Services := Fin numOfServices → Slot

/-- What is below a call: whether an allocation of a service succeeds, an attach, and the detach of
a context that is there; and what the command `STATUS` gives, `none` if no reply can be allocated
for it, with the success of the closing that follows its failure. -/
structure LowerLevel where
  calloc : Bool
  attach : Bool
  detach : Bool
  status : Option DwpalRet
  closes : Bool

/-- The test of `interfaceIndexGet`. -/
def DwpalService.named (connectionType : DwpalConnectionType) (vapName : List UInt8)
    (service : DwpalService) : Bool :=
  connectionType == service.connectionType &&
    strncmpEq vapName service.vapName.bytes dwpalVapNameStringLength

/-- `interfaceIndexGet`. -/
def interfaceIndexGet (t : Services) (connectionType : DwpalConnectionType) (vapName : List UInt8) :
    Option (Fin numOfServices) :=
  (List.finRange numOfServices).find? fun i =>
    (t i).service.any (DwpalService.named connectionType vapName)

/-- The new service of `interfaceIndexCreate`. `strcpy_s` leaves an empty name where the name does
not fit. -/
def newService (connectionType : DwpalConnectionType) (vapName : List UInt8) : DwpalService where
  vapName := CString.strcpyS vapName (by decide)
  isConnectionEstablishNeeded := false
  isReconnectEventNeeded := false
  hostapEventCallback := none
  nlEventCallback := none
  nlNonVendorEventCallback := none
  connectionType := connectionType

/-- `interfaceIndexCreate`: what it returns, `*idx`, and the table. -/
def interfaceIndexCreate (lower : LowerLevel) (t : Services) (connectionType : DwpalConnectionType)
    (vapName : List UInt8) : DwpalRet × Fin numOfServices × Services :=
  match interfaceIndexGet t connectionType vapName with
  | some idx => (if (t idx).context then .interfaceAlreadyUp else .success, idx, t)
  | none =>
    match (List.finRange numOfServices).find? fun i => (t i).service.isNone with
    | some i =>
      if lower.calloc then
        (.success, i, Function.update t i
          { t i with service := some (newService connectionType vapName) })
      else (.failure, 0, t)
    | none => (.failure, 0, t)

/-- `"ALL"`, the name of the driver's interface. -/
def allName : List UInt8 := ascii "ALL"

/-- `dwpal_ext_driver_nl_detach`, called in the listener thread (`listener`) or another one. -/
def dwpalExtDriverNlDetach (lower : LowerLevel) (listener : Bool) (t : Services) :
    DwpalRet × Services :=
  if listener then (.failure, t)
  else
    match interfaceIndexGet t .driver allName with
    | none => (.interfaceIsDown, t)
    | some idx =>
      -- without a context the detach fails, and one that fails leaves the context there
      if (t idx).context && lower.detach then (.success, Function.update t idx ⟨none, false⟩)
      else (.failure, Function.update t idx ⟨none, (t idx).context⟩)

/-- `dwpal_ext_driver_nl_attach`. -/
def dwpalExtDriverNlAttach (lower : LowerLevel) (listener : Bool) (t : Services)
    (nlEventCallback nlNonVendorEventCallback : Option Callback) : DwpalRet × Services :=
  if listener then (.failure, t)
  else if (interfaceIndexGet t .driver allName).any fun idx => (t idx).context then (.success, t)
  else
    match interfaceIndexCreate lower t .driver allName with
    | (.failure, idx, t) =>
      -- the label `end`: the service at `*idx` is freed
      (.failure, Function.update t idx { t idx with service := none })
    | (.interfaceAlreadyUp, _, t) => (.success, t)
    | (_, idx, t) =>
      if lower.attach then
        (.success, Function.update t idx
          { service := (t idx).service.map fun service =>
              { service with nlEventCallback, nlNonVendorEventCallback }
            context := true })
      else (.failure, Function.update t idx ⟨none, false⟩)

/-- `dwpal_ext_hostap_cmd_send` for the command `STATUS`. -/
def statusSend (lower : LowerLevel) (t : Services) (vapName : List UInt8) : Services :=
  match interfaceIndexGet t .hostap vapName with
  | none => t
  | some idx =>
    if (t idx).service.any DwpalService.isConnectionEstablishNeeded then t
    else if (t idx).context = false then t
    else if lower.status = some .socketFailure ∨ lower.status = some .failure then
      Function.update t idx
        { service := (t idx).service.map fun service =>
            { service with isConnectionEstablishNeeded := true }
          context := !lower.closes }
    else t

/-- What `interfaceConnectedOkSend` does to the table. -/
def interfaceConnectedOkSend (lower : LowerLevel) (t : Services) (idx : Fin numOfServices) :
    Services :=
  match (t idx).service, lower.status with
  | some service, some _ => statusSend lower t service.vapName.bytes
  | _, _ => t

/-- `dwpal_ext_hostap_interface_detach`. -/
def dwpalExtHostapInterfaceDetach (lower : LowerLevel) (listener : Bool) (t : Services)
    (vapName : Option (List UInt8)) : DwpalRet × Services :=
  match vapName with
  | none => (.failure, t)
  | some vapName =>
    if listener then (.failure, t)
    else
      match interfaceIndexGet t .hostap vapName with
      | none => (.interfaceIsDown, t)
      | some idx =>
        if (t idx).context && !lower.detach then
          (.failure, Function.update t idx ⟨none, (t idx).context⟩)
        else (.success, Function.update t idx ⟨none, false⟩)

/-- `dwpal_ext_hostap_interface_attach` once it has a service at `idx`. -/
def hostapAttachAt (lower : LowerLevel) (t : Services) (idx : Fin numOfServices)
    (hostapEventCallback : Callback) : DwpalRet × Services :=
  let up := (t idx).context || lower.attach
  let t := Function.update t idx
    { service := (t idx).service.map fun service =>
        { service with
          isConnectionEstablishNeeded := !up
          hostapEventCallback := some hostapEventCallback }
      context := up }
  if up then (.success, interfaceConnectedOkSend lower t idx) else (.interfaceIsDown, t)

/-- `dwpal_ext_hostap_interface_attach`. -/
def dwpalExtHostapInterfaceAttach (lower : LowerLevel) (listener : Bool) (t : Services)
    (vapName : Option (List UInt8)) (hostapEventCallback : Option Callback) : DwpalRet × Services :=
  match vapName, hostapEventCallback with
  | some vapName, some hostapEventCallback =>
    if listener then (.failure, t)
    else if (interfaceIndexGet t .hostap vapName).any fun idx => (t idx).context then (.success, t)
    else
      match interfaceIndexCreate lower t .hostap vapName with
      | (.failure, _, t) => (.failure, t)
      | (.interfaceAlreadyUp, _, t) => (.success, t)
      | (_, idx, t) => hostapAttachAt lower t idx hostapEventCallback
  | _, _ => (.failure, t)

/-- A call that attaches or detaches an interface. -/
inductive ServiceCall where
  | driverAttach (nlEventCallback nlNonVendorEventCallback : Option Callback)
  | driverDetach
  | hostapAttach (vapName : Option (List UInt8)) (hostapEventCallback : Option Callback)
  | hostapDetach (vapName : Option (List UInt8))

/-- What the call returns, and the table after it. -/
def ServiceCall.run (lower : LowerLevel) (listener : Bool) (t : Services) :
    ServiceCall → DwpalRet × Services
  | .driverAttach nlEventCallback nlNonVendorEventCallback =>
    dwpalExtDriverNlAttach lower listener t nlEventCallback nlNonVendorEventCallback
  | .driverDetach => dwpalExtDriverNlDetach lower listener t
  | .hostapAttach vapName hostapEventCallback =>
    dwpalExtHostapInterfaceAttach lower listener t vapName hostapEventCallback
  | .hostapDetach vapName => dwpalExtHostapInterfaceDetach lower listener t vapName

end Dwpal.Ext
