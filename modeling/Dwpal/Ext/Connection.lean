import Dwpal.Ext.Services
import Dwpal.Lib.Machine

/-! The connections of the hostap interfaces of `dwpal_ext.c`: commands, pings, recovery, attaches
and detaches in several threads, and the callbacks for interfaces that are lost and come back. A
step goes from one access to what the threads share to the next. A callback is a function of the
application, which may call the interface again. -/

namespace Dwpal.Ext

open Daemon (DwpalRet)

/-- The monitor thread, and the other threads. -/
inductive Thread (U : Type) where
  | monitor
  | user (u : U)
deriving DecidableEq

/-- Where a thread is in a function that the application can call, or that such a function calls. -/
inductive Frame where
  -- `dwpal_ext_hostap_cmd_send`
  | cmdFind (vapName : List UInt8)
  | cmdLock (i : Fin numOfServices)
  | cmdSent (i : Fin numOfServices)
  | cmdFails
  -- `interfaceDisconnectedSend` for the loss with a number
  | disconnectedSend (i : Fin numOfServices) (k : Nat)
  -- `dwpal_ext_hostap_interface_attach`
  | attachLock (vapName : List UInt8) (hostapEventCallback : Callback)
  | attachJoin (vapName : List UInt8) (hostapEventCallback : Callback)
  | attachCreate (vapName : List UInt8) (hostapEventCallback : Callback)
  | attachContext (i : Fin numOfServices) (hostapEventCallback : Callback)
  | attachCallback (i : Fin numOfServices) (hostapEventCallback : Callback) (up : Bool)
  | connectedStatus (i : Fin numOfServices)
  | connectedSend (i : Fin numOfServices)
  | attachEnd
  -- `dwpal_ext_hostap_interface_detach`
  | detachLock (vapName : List UInt8)
  | detachJoin (i : Fin numOfServices)
  | detachFree (i : Fin numOfServices)
  | detachContext (i : Fin numOfServices)
  -- a callback
  | callback
deriving DecidableEq

/-- Where the monitor thread is, outside the functions that it calls: in its loop, in
`interfacesPingCheck`, or in `interfacesRecoverIfNeeded`. It is `off` where `threadID` is 0. -/
inductive MonitorPhase where
  | off
  | exited
  | loop
  | ping (n : Nat)
  | pingSent (i : Fin numOfServices)
  | pingFailed (i : Fin numOfServices)
  | recover (n : Nat)
  | recovered (i : Fin numOfServices)
  | reconnectStatus (i : Fin numOfServices)
  | reconnectedSent (i : Fin numOfServices)
deriving DecidableEq

/-- What the monitor thread does next in its loop. -/
inductive MonitorRound where
  | ping
  | recover
  | exit
deriving DecidableEq

/-- What is not decided by the table: whether a call is refused at its beginning (for a parameter
that is `NULL`, in the listener thread, or in a thread that should stop), what
`dwpal_hostap_cmd_send` returns, whether a service has a socket, whether the monitor thread can be
created, what is below the calls, and the rounds of the monitor thread. -/
structure Outcome where
  refused : Bool
  sent : DwpalRet
  hasFd : Bool
  created : Bool
  lower : LowerLevel
  round : MonitorRound

/-- What happens to an interface, and the callbacks for it. The losses are numbered. -/
inductive Note where
  | sent
  | lost (k : Nat)
  | recovered
  | attached
  | attachFailed
  | disconnected (k : Nat)
  | reconnectedOk
  | connectedOk
deriving DecidableEq

def Note.isLost : Note → Bool
  | .lost _ => true
  | _ => false

/-- The table, the owners of `context_mutex` and `attach_mutex`, the functions that each thread is
in (the innermost first), what the last command of each thread returned, the monitor thread, whether
a thread used a service that is not there, and what happened to the interface of each service. -/
structure Connections (U : Type) where
  table : Services
  contextMutex : Option (Thread U)
  attachMutex : Option (Thread U)
  stack : Thread U → List Frame
  ret : Thread U → DwpalRet
  monitor : MonitorPhase
  crashed : Bool
  log : Fin numOfServices → List Note

variable {U : Type} [DecidableEq U]

namespace Connections

def setStack (s : Connections U) (t : Thread U) (frames : List Frame) : Connections U :=
  { s with stack := Function.update s.stack t frames }

/-- `dwpal_ext_hostap_cmd_send` returns. -/
def cmdReturn (s : Connections U) (t : Thread U) (rest : List Frame) (ret : DwpalRet) :
    Connections U :=
  { s.setStack t rest with ret := Function.update s.ret t ret }

def setSlot (s : Connections U) (i : Fin numOfServices) (slot : Slot) : Connections U :=
  { s with table := Function.update s.table i slot }

def setService (s : Connections U) (i : Fin numOfServices) (service : DwpalService) :
    Connections U :=
  s.setSlot i { s.table i with service := some service }

def note (s : Connections U) (i : Fin numOfServices) (n : Note) : Connections U :=
  { s with log := Function.update s.log i (s.log i ++ [n]) }

/-- The number of the next loss. -/
def losses (s : Connections U) (i : Fin numOfServices) : Nat :=
  (s.log i).countP Note.isLost

/-- A service is used, which should be there. -/
def withService (s : Connections U) (i : Fin numOfServices) (k : DwpalService → Connections U) :
    Connections U :=
  match (s.table i).service with
  | none => { s with crashed := true }
  | some service => k service

/-- `interfaceEventSend` in a state that goes on as `next`: the callback, if there is one. -/
def eventSend (s : Connections U) (t : Thread U) (i : Fin numOfServices) (n : Note)
    (next : Connections U) : Connections U :=
  s.withService i fun service =>
    if service.hostapEventCallback.isSome then
      (next.setStack t (.callback :: next.stack t)).note i n
    else next

/-- The interface needs to be recovered. -/
def lose (s : Connections U) (i : Fin numOfServices) (service : DwpalService) (context : Bool) :
    Connections U :=
  (s.setSlot i
    { service := some { service with isConnectionEstablishNeeded := true }
      context := context }).note i (.lost (s.losses i))

/-! ### `dwpal_ext_hostap_cmd_send` -/

def cmdFind (s : Connections U) (t : Thread U) (rest : List Frame) (o : Outcome)
    (vapName : List UInt8) : Connections U :=
  if o.refused then s.cmdReturn t rest .failure
  else
    match interfaceIndexGet s.table .hostap vapName with
    | none => s.cmdReturn t rest .interfaceIsDown
    | some i => s.setStack t (.cmdLock i :: rest)

def cmdLock (s : Connections U) (t : Thread U) (rest : List Frame) (i : Fin numOfServices) :
    Option (Connections U) :=
  if s.contextMutex.isSome then none
  else
    some <| s.withService i fun service =>
      if service.isConnectionEstablishNeeded then s.cmdReturn t rest .interfaceIsDown
      else if (s.table i).context = false then s.cmdReturn t rest .failure
      else { (s.setStack t (.cmdSent i :: rest)).note i .sent with contextMutex := some t }

/-- What `dwpal_hostap_cmd_send` returned is looked at, and the mutex is given back. -/
def cmdSent (s : Connections U) (t : Thread U) (rest : List Frame) (o : Outcome)
    (i : Fin numOfServices) : Connections U :=
  if o.sent = .socketFailure ∨ o.sent = .failure then
    s.withService i fun service =>
      { (s.setStack t (.disconnectedSend i (s.losses i) :: .cmdFails :: rest)).lose i service
          (!o.lower.closes) with
        contextMutex := none }
  else { s.cmdReturn t rest .success with contextMutex := none }

def disconnectedSend (s : Connections U) (t : Thread U) (rest : List Frame)
    (i : Fin numOfServices) (k : Nat) : Connections U :=
  s.eventSend t i (.disconnected k) (s.setStack t rest)

/-! ### `dwpal_ext_hostap_interface_attach` -/

def attachLock (s : Connections U) (t : Thread U) (rest : List Frame) (o : Outcome)
    (vapName : List UInt8) (hostapEventCallback : Callback) : Option (Connections U) :=
  if o.refused then some (s.setStack t rest)
  else if s.attachMutex.isSome then none
  else if (interfaceIndexGet s.table .hostap vapName).any fun i => (s.table i).context then
    some (s.setStack t rest)
  else
    some { s.setStack t (.attachJoin vapName hostapEventCallback :: rest) with
      attachMutex := some t }

/-- `threadSet` with `THREAD_CANCEL` for the monitor thread, which does nothing in that thread. -/
def threadCancel (s : Connections U) (t : Thread U) : Option (Connections U) :=
  if t = .monitor then some s
  else if s.monitor = .off ∨ s.monitor = .exited then some { s with monitor := .off }
  else none

def attachJoin (s : Connections U) (t : Thread U) (rest : List Frame) (vapName : List UInt8)
    (hostapEventCallback : Callback) : Option (Connections U) :=
  (s.threadCancel t).map fun s => s.setStack t (.attachCreate vapName hostapEventCallback :: rest)

/-- `interfaceIndexCreate` locks `context_mutex` where it finds a service. -/
def attachCreate (s : Connections U) (t : Thread U) (rest : List Frame) (o : Outcome)
    (vapName : List UInt8) (hostapEventCallback : Callback) : Option (Connections U) :=
  if (interfaceIndexGet s.table .hostap vapName).isSome ∧ s.contextMutex.isSome then none
  else
    match interfaceIndexCreate o.lower s.table .hostap vapName with
    | (.success, i, table) =>
      some { s.setStack t (.attachContext i hostapEventCallback :: rest) with
        table := table
        log := if (s.table i).service.isNone then Function.update s.log i [] else s.log }
    | _ => some (s.setStack t (.attachEnd :: rest))

def attachContext (s : Connections U) (t : Thread U) (rest : List Frame) (o : Outcome)
    (i : Fin numOfServices) (hostapEventCallback : Callback) : Option (Connections U) :=
  if s.contextMutex.isSome then none
  else
    some <| s.withService i fun service =>
      let up := (s.table i).context || o.lower.attach
      ((s.setSlot i
          { service := some { service with isConnectionEstablishNeeded := !up }
            context := up }).setStack t (.attachCallback i hostapEventCallback up :: rest)).note i
        (if up then .attached else .attachFailed)

def attachCallback (s : Connections U) (t : Thread U) (rest : List Frame) (i : Fin numOfServices)
    (hostapEventCallback : Callback) (up : Bool) : Connections U :=
  s.withService i fun service =>
    (s.setService i { service with hostapEventCallback := some hostapEventCallback }).setStack t
      ((if up then .connectedStatus i else .attachEnd) :: rest)

/-- `interfaceConnectedOkSend`; `activeVapsGet` allocates the reply first. -/
def connectedStatus (s : Connections U) (t : Thread U) (rest : List Frame) (o : Outcome)
    (i : Fin numOfServices) : Connections U :=
  s.withService i fun service =>
    if o.lower.status.isSome then
      s.setStack t (.cmdFind service.vapName.bytes :: .connectedSend i :: rest)
    else s.setStack t (.attachEnd :: rest)

def connectedSend (s : Connections U) (t : Thread U) (rest : List Frame)
    (i : Fin numOfServices) : Connections U :=
  if s.ret t = .success then s.eventSend t i .connectedOk (s.setStack t (.attachEnd :: rest))
  else s.setStack t (.attachEnd :: rest)

/-- `isAnyInterfaceActive`. -/
def isAnyInterfaceActive (t : Services) : Bool :=
  (List.finRange numOfServices).any fun i => (t i).service.isSome

/-- The label `end` of the attach and the detach. The monitor thread is created if it is not
there. -/
def attachEnd (s : Connections U) (t : Thread U) (rest : List Frame) (o : Outcome) :
    Connections U :=
  { s.setStack t rest with
    monitor :=
      if isAnyInterfaceActive s.table ∧ s.monitor = .off ∧ o.created then .loop else s.monitor
    attachMutex := none }

/-! ### `dwpal_ext_hostap_interface_detach` -/

def detachLock (s : Connections U) (t : Thread U) (rest : List Frame) (o : Outcome)
    (vapName : List UInt8) : Option (Connections U) :=
  if o.refused then some (s.setStack t rest)
  else if s.attachMutex.isSome then none
  else
    match interfaceIndexGet s.table .hostap vapName with
    | none => some (s.setStack t rest)
    | some i => some { s.setStack t (.detachJoin i :: rest) with attachMutex := some t }

def detachJoin (s : Connections U) (t : Thread U) (rest : List Frame) (i : Fin numOfServices) :
    Option (Connections U) :=
  (s.threadCancel t).map fun s => s.setStack t (.detachFree i :: rest)

def detachFree (s : Connections U) (t : Thread U) (rest : List Frame) (i : Fin numOfServices) :
    Connections U :=
  (s.setSlot i { s.table i with service := none }).setStack t (.detachContext i :: rest)

def detachContext (s : Connections U) (t : Thread U) (rest : List Frame) (o : Outcome)
    (i : Fin numOfServices) : Option (Connections U) :=
  if s.contextMutex.isSome then none
  else
    some <|
      (s.setSlot i { s.table i with context := (s.table i).context && !o.lower.detach }).setStack
        t (.attachEnd :: rest)

/-- The thread goes on in its innermost function. -/
def goOn (s : Connections U) (t : Thread U) (o : Outcome) (rest : List Frame) :
    Frame → Option (Connections U)
  | .cmdFind vapName => some (s.cmdFind t rest o vapName)
  | .cmdLock i => s.cmdLock t rest i
  | .cmdSent i => some (s.cmdSent t rest o i)
  | .cmdFails => some (s.cmdReturn t rest .failure)
  | .disconnectedSend i k => some (s.disconnectedSend t rest i k)
  | .attachLock vapName clb => s.attachLock t rest o vapName clb
  | .attachJoin vapName clb => s.attachJoin t rest vapName clb
  | .attachCreate vapName clb => s.attachCreate t rest o vapName clb
  | .attachContext i clb => s.attachContext t rest o i clb
  | .attachCallback i clb up => some (s.attachCallback t rest i clb up)
  | .connectedStatus i => some (s.connectedStatus t rest o i)
  | .connectedSend i => some (s.connectedSend t rest i)
  | .attachEnd => some (s.attachEnd t rest o)
  | .detachLock vapName => s.detachLock t rest o vapName
  | .detachJoin i => s.detachJoin t rest i
  | .detachFree i => some (s.detachFree t rest i)
  | .detachContext i => s.detachContext t rest o i
  | .callback => some (s.setStack t rest)

/-! ### The monitor thread -/

def setMonitor (s : Connections U) (phase : MonitorPhase) : Connections U :=
  { s with monitor := phase }

/-- The loop of `monitorThreadStart`. -/
def monitorLoop (s : Connections U) (o : Outcome) : Connections U :=
  match o.round with
  | .ping => s.setMonitor (.ping 0)
  | .recover => s.setMonitor (.recover 0)
  | .exit => s.setMonitor .exited

/-- The loop of `interfacesPingCheck`. -/
def ping (s : Connections U) (o : Outcome) (n : Nat) : Connections U :=
  if h : n < numOfServices then
    if (s.table ⟨n, h⟩).context = false then s.setMonitor (.ping (n + 1))
    else
      s.withService ⟨n, h⟩ fun service =>
        if service.connectionType = .hostap ∧ o.hasFd then
          (s.setMonitor (.pingSent ⟨n, h⟩)).setStack .monitor [.cmdFind service.vapName.bytes]
        else s.setMonitor (.ping (n + 1))
  else s.setMonitor .loop

def pingSent (s : Connections U) (i : Fin numOfServices) : Connections U :=
  if s.ret .monitor = .failure then
    -- `fd` of the service is set
    s.withService i fun _ => s.setMonitor (.pingFailed i)
  else s.setMonitor (.ping (i + 1))

def pingFailed (s : Connections U) (o : Outcome) (i : Fin numOfServices) : Option (Connections U) :=
  if s.contextMutex.isSome then none
  else
    some <| s.withService i fun service =>
      if service.isConnectionEstablishNeeded = false then
        ((s.setMonitor (.ping (i + 1))).setStack .monitor [.disconnectedSend i (s.losses i)]).lose i
          service ((s.table i).context && !o.lower.detach)
      else s.setMonitor (.ping (i + 1))

/-- `interfacesRecoverIfNeeded` at one service. The attach begins with setting the context to
`NULL`. -/
def recoverAt (s : Connections U) (o : Outcome) (i : Fin numOfServices) : Option (Connections U) :=
  match (s.table i).service with
  | none => some (s.setMonitor (.recover (i + 1)))
  | some service =>
    if service.connectionType ≠ .hostap then some (s.setMonitor (.recover (i + 1)))
    else if s.contextMutex.isSome then none
    else if service.isConnectionEstablishNeeded = false then some (s.setMonitor (.recovered i))
    else if o.lower.attach then
      some <| ((s.setMonitor (.recovered i)).setSlot i
        { service := some
            { service with
              isConnectionEstablishNeeded := false
              isReconnectEventNeeded := true }
          context := true }).note i .recovered
    else some ((s.setMonitor (.recovered i)).setSlot i { s.table i with context := false })

/-- The loop of `interfacesRecoverIfNeeded`. -/
def recover (s : Connections U) (o : Outcome) (n : Nat) : Option (Connections U) :=
  if h : n < numOfServices then s.recoverAt o ⟨n, h⟩ else some (s.setMonitor .loop)

/-- `interfaceReconnectedOkSent`, up to the command of `activeVapsGet`. -/
def recovered (s : Connections U) (o : Outcome) (i : Fin numOfServices) : Connections U :=
  s.withService i fun service =>
    if service.isReconnectEventNeeded ∧ o.lower.status.isSome then
      (s.setMonitor (.reconnectStatus i)).setStack .monitor [.cmdFind service.vapName.bytes]
    else s.setMonitor (.recover (i + 1))

def reconnectStatus (s : Connections U) (i : Fin numOfServices) : Connections U :=
  if s.ret .monitor = .success then
    s.eventSend .monitor i .reconnectedOk (s.setMonitor (.reconnectedSent i))
  else s.setMonitor (.recover (i + 1))

def reconnectedSent (s : Connections U) (i : Fin numOfServices) : Connections U :=
  s.withService i fun service =>
    (s.setService i { service with isReconnectEventNeeded := false }).setMonitor (.recover (i + 1))

/-- The monitor thread goes on, outside the functions that it calls. -/
def monitorStep (s : Connections U) (o : Outcome) : MonitorPhase → Option (Connections U)
  | .off | .exited => none
  | .loop => some (s.monitorLoop o)
  | .ping n => some (s.ping o n)
  | .pingSent i => some (s.pingSent i)
  | .pingFailed i => s.pingFailed o i
  | .recover n => s.recover o n
  | .recovered i => some (s.recovered o i)
  | .reconnectStatus i => some (s.reconnectStatus i)
  | .reconnectedSent i => some (s.reconnectedSent i)

/-- No interface is attached. -/
def initial : Connections U where
  table := fun _ => ⟨none, false⟩
  contextMutex := none
  attachMutex := none
  stack := fun _ => []
  ret := fun _ => .success
  monitor := .off
  crashed := false
  log := fun _ => []

/-- The thread is in the application. -/
def InApplication (s : Connections U) (t : Thread U) : Prop :=
  (s.stack t = [] ∧ t ≠ .monitor) ∨ (s.stack t).head? = some .callback

instance (s : Connections U) (t : Thread U) : Decidable (s.InApplication t) :=
  inferInstanceAs (Decidable (_ ∨ _))

end Connections

/-- A call of the application, for a hostap interface: the driver is neither attached nor
detached. -/
inductive Call where
  | cmdSend (vapName : List UInt8)
  | attach (vapName : List UInt8) (hostapEventCallback : Callback)
  | detach (vapName : List UInt8)

def Call.frame : Call → Frame
  | .cmdSend vapName => .cmdFind vapName
  | .attach vapName clb => .attachLock vapName clb
  | .detach vapName => .detachLock vapName

/-- A step: a thread of the application, or a callback, makes a call, a thread goes on in a
function, or the monitor thread goes on outside. -/
inductive ConnAction (U : Type) where
  | call (t : Thread U) (call : Call)
  | go (t : Thread U) (o : Outcome)
  | monitor (o : Outcome)

namespace Connections

def step (s : Connections U) : ConnAction U → Option (Connections U)
  | .call t call =>
    if s.crashed = false ∧ s.InApplication t then some (s.setStack t (call.frame :: s.stack t))
    else none
  | .go t o =>
    if s.crashed then none
    else
      match s.stack t with
      | [] => none
      | frame :: rest => s.goOn t o rest frame
  | .monitor o =>
    if s.crashed = false ∧ s.stack .monitor = [] then s.monitorStep o s.monitor else none

end Connections

end Dwpal.Ext
