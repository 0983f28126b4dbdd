import Dwpal.Daemon.NlMsg
import Dwpal.Ipc.Exchange

/-! The interface managers of `daemon/iface_manager.c`: one for hostap and one for the kernel, each
with the functions of its `manager_apis`, the interfaces attached through it, and the works that its
serializer executes one after the other. Allocations succeed. -/

namespace Dwpal.Daemon

open Ipc

/-- `DWPAL_Ret`. -/
inductive DwpalRet where
  | socketFailure
  | failure
  | success
  | noPendingMessages
  | missingParam
  | interfaceIsDown
  | interfaceAlreadyUp
deriving DecidableEq, Repr

def DwpalRet.toInt : DwpalRet → Int
  | .socketFailure => -2
  | .failure => -1
  | .success => 0
  | .noPendingMessages => 1
  | .missingParam => 2
  | .interfaceIsDown => 3
  | .interfaceAlreadyUp => 4

/-- What is outside the daemon while it executes one work: libnl, what the pool's objects and the
memory behind a data area hold, and what `dwpal_ext` answers. For a hostap command that is the
result and the reply, for a netlink command the result, `*cmd_res` and the messages that libnl hands
to the callback. -/
structure World where
  libnl : Libnl
  pool : Nat → Buffer waveIpcBuffSize
  beyond : List UInt8
  hostapInterfaceAttach : List UInt8 → DwpalRet
  hostapCmdSend : List UInt8 → List UInt8 → DwpalRet × List UInt8
  driverNlAttach : DwpalRet
  nl80211IdGet : DwpalRet × Int
  nl80211CmdSend : NlMsg → DwpalRet × Int × List NlMsg

def interfaceDwpalStateUnknown : UInt8 := 0

def interfaceDwpalStateConnected : UInt8 := 1

def interfaceDwpalStateDisconnected : UInt8 := 2

def dwpaldCmd : UInt8 := 1

def dwpaldCmdResp : UInt8 := 2

def dwpaldEvent : UInt8 := 3

def dwpaldDetachReq : UInt8 := 4

def dwpaldDetachResp : UInt8 := 5

def dwpaldAttachReq : UInt8 := 6

def dwpaldAttachResp : UInt8 := 7

def dwpaldUpdateEventReq : UInt8 := 8

def dwpaldUpdateEventResp : UInt8 := 9

def dwpaldIfTypeHostap : UInt8 := 1

def dwpaldIfTypeKernel : UInt8 := 3

/-- `IFNAMSIZ`. -/
def ifnamsiz : Nat := 16

/-- A `char ifname[IFNAMSIZ + 1]`. -/
abbrev IfName := CString 17

theorem ifName_pos : 0 < 17 := Nat.succ_pos 16

/-- `manager_apis`, for events of type `ε` and a module whose static variables are a `β`. The
functions return the status, and what they change. -/
structure ManagerApis (ε β : Type) where
  executeCommand : World → WvIpcMsg → Station → UInt8 → Nat × List Sent
  ifaceAttach : World → β → IfName → UInt8 → Nat × UInt8 × β
  ifaceDetach : β → β
  registerStaToEvents : List ε → Station → List UInt8 → Nat → Nat × List ε
  unregisterStaFromEvents : List ε → Station → Nat × List ε

/-- The arguments of `iface_manager_init` that the manager keeps for its whole life. -/
structure ManagerInit (ε β : Type) where
  manApis : ManagerApis ε β
  iftype : UInt8

/-- `attached_interface`. -/
structure AttachedInterface (ε : Type) where
  ifname : IfName
  state : UInt8
  events : List ε
  attachedClients : List Station
  keepAttached : Bool

/-- What changes in an `iface_manager`, with the static variables of its module and the interfaces
whose delayed detach works are in the serializer. -/
structure IfaceManager (ε β : Type) where
  attachedIfaces : List (AttachedInterface ε)
  static : β
  delayedDetach : List IfName

/-- `cmd_work`. -/
structure CmdWork where
  cmd : WvIpcMsg
  seqNum : UInt8
  ipsta : Station

/-- `detach_work`; a delayed one has no station. -/
structure DetachWork where
  ifname : IfName
  seqNum : UInt8
  ipsta : Option Station

/-- The works that a manager queues for its serializer. -/
inductive Work where
  | cmd (work : CmdWork)
  | attach (work : CmdWork)
  | detach (work : DetachWork)
  | disconn (ipsta : Station)
  | updateEvent (work : CmdWork)

/-- The test of the loops that look for an attached interface. -/
def AttachedInterface.named {ε : Type} (ifname : IfName) (tmp : AttachedInterface ε) : Bool :=
  strncmpEq tmp.ifname.bytes ifname.bytes 17

namespace IfaceManager

variable {ε β : Type} (m : IfaceManager ε β)

/-- The first attached interface of that name. -/
def find (ifname : IfName) : Option (AttachedInterface ε) :=
  m.attachedIfaces.find? (AttachedInterface.named ifname)

/-- The first attached interface of that name is now `iface`. -/
def replace (iface : AttachedInterface ε) : List (AttachedInterface ε) → List (AttachedInterface ε)
  | [] => []
  | tmp :: ifaces =>
    if AttachedInterface.named iface.ifname tmp then iface :: ifaces
    else tmp :: replace iface ifaces

/-- The interface is stored in place of the one of its name, or behind the others. -/
def store (iface : AttachedInterface ε) : IfaceManager ε β :=
  { m with attachedIfaces := if (m.find iface.ifname).isSome then replace iface m.attachedIfaces
      else m.attachedIfaces ++ [iface] }

end IfaceManager

section Works

variable {ε β : Type} (w : World) (init : ManagerInit ε β) (m : IfaceManager ε β)

/-- The response that a work sends: `header[0]`, the interface type and `header[2]`. -/
def sendResponse (ipsta : Station) (seqNum type state : UInt8) : List Sent :=
  let resp := (dwpaldHeaderPush (waveIpcMsgAlloc (w.pool 0)) ⟨type, init.iftype, state, 0, 0, 0⟩).2
  (waveIpcsSendResponseTo ipsta seqNum resp 0).2

/-- The label `err` of a work: the request has failed. -/
def requestFailed (ipsta : Station) (seqNum : UInt8) : Nat × IfaceManager ε β × List Sent :=
  (1, m, (waveIpcsSendReqFailedTo ipsta seqNum (w.pool 0)).2)

/-- `execute_cmd_work`. -/
def executeCmdWork (cmdW : CmdWork) : Nat × IfaceManager ε β × List Sent :=
  match init.manApis.executeCommand w cmdW.cmd cmdW.ipsta cmdW.seqNum with
  | (0, sent) => (0, m, sent)
  | (_, sent) =>
    let (ret, m, failed) := requestFailed w m cmdW.ipsta cmdW.seqNum
    (ret, m, sent ++ failed)

/-- `iface_attach_work` once it has read the name of the interface; `data` is the memory behind
it. -/
def attachTo (cmdW : CmdWork) (ifname : IfName) (data : List UInt8) (dataSize : Nat) :
    Nat × IfaceManager ε β × List Sent :=
  let iface := (m.find ifname).getD ⟨ifname, 0, [], [], false⟩
  let attached := init.manApis.ifaceAttach w m.static ifname iface.state
  let m := { m with static := attached.2.2 }
  if attached.1 ≠ 0 then requestFailed w m cmdW.ipsta cmdW.seqNum
  else
    let registered :=
      if dataSize ≠ 0 then init.manApis.registerStaToEvents iface.events cmdW.ipsta data dataSize
      else (0, iface.events)
    let m := m.store { iface with
      state := attached.2.1
      attachedClients := iface.attachedClients.erase cmdW.ipsta ++ [cmdW.ipsta]
      events := registered.2 }
    if registered.1 ≠ 0 then requestFailed w m cmdW.ipsta cmdW.seqNum
    else (0, m, sendResponse w init cmdW.ipsta cmdW.seqNum dwpaldAttachResp attached.2.1)

/-- `iface_update_event_work` once it has read the name of the interface. -/
def updateEventsOf (cmdW : CmdWork) (ifname : IfName) (data : List UInt8) (dataSize : Nat) :
    Nat × IfaceManager ε β × List Sent :=
  match m.find ifname with
  | none => requestFailed w m cmdW.ipsta cmdW.seqNum
  | some iface =>
    let unregistered := init.manApis.unregisterStaFromEvents iface.events cmdW.ipsta
    let registered :=
      if dataSize = 0 then (0, iface.events)
      else if unregistered.1 ≠ 0 then unregistered
      else init.manApis.registerStaToEvents unregistered.2 cmdW.ipsta data dataSize
    let m := m.store { iface with events := registered.2 }
    if registered.1 ≠ 0 then requestFailed w m cmdW.ipsta cmdW.seqNum
    else (0, m, sendResponse w init cmdW.ipsta cmdW.seqNum dwpaldUpdateEventResp 0)

/-- The beginning of `iface_attach_work` and of `iface_update_event_work`: the name of the interface
and the memory behind it go to `rest`. -/
def withIfname (cmdW : CmdWork)
    (rest : CmdWork → IfName → List UInt8 → Nat → Nat × IfaceManager ε β × List Sent) :
    Nat × IfaceManager ε β × List Sent :=
  match waveIpcMsgGetData cmdW.cmd with
  | none => requestFailed w m cmdW.ipsta cmdW.seqNum
  | some data =>
    if waveIpcMsgGetSize cmdW.cmd < 17 then requestFailed w m cmdW.ipsta cmdW.seqNum
    else rest cmdW (CString.copyFrom data 16 ifName_pos) ((data ++ w.beyond).drop 17)
      (waveIpcMsgGetSize cmdW.cmd - 17)

/-- `iface_attach_work`. -/
def ifaceAttachWork (cmdW : CmdWork) : Nat × IfaceManager ε β × List Sent :=
  withIfname w m cmdW (attachTo w init m)

/-- `iface_update_event_work`. -/
def ifaceUpdateEventWork (cmdW : CmdWork) : Nat × IfaceManager ε β × List Sent :=
  withIfname w m cmdW (updateEventsOf w init m)

/-- `iface_detach_work`. The delayed detach works of the interface are cancelled first. -/
def ifaceDetachWork (detachW : DetachWork) : Nat × IfaceManager ε β × List Sent :=
  let m := { m with delayedDetach := m.delayedDetach.filter (· ≠ detachW.ifname) }
  match m.find detachW.ifname, detachW.ipsta with
  | none, none => (1, m, [])
  | none, some ipsta => requestFailed w m ipsta detachW.seqNum
  | some iface, some ipsta =>
    let (_, events) := init.manApis.unregisterStaFromEvents iface.events ipsta
    let attachedClients := iface.attachedClients.erase ipsta
    let m := m.store { iface with events, attachedClients }
    let m := if !iface.keepAttached ∧ attachedClients = [] then
        { m with delayedDetach := m.delayedDetach ++ [detachW.ifname] }
      else m
    (0, m, sendResponse w init ipsta detachW.seqNum dwpaldDetachResp 0)
  | some iface, none =>
    if !iface.keepAttached ∧ iface.attachedClients = [] then
      (0, { m with
        static := init.manApis.ifaceDetach m.static
        attachedIfaces := m.attachedIfaces.eraseP (AttachedInterface.named detachW.ifname) }, [])
    else (0, m, [])

/-- `sta_disconnect_work`: the loop over the attached interfaces. -/
def staDisconnectWork (ipsta : Station) : Nat × IfaceManager ε β × List Sent :=
  let ifaces := m.attachedIfaces.map fun iface => { iface with
    events := (init.manApis.unregisterStaFromEvents iface.events ipsta).2
    attachedClients := iface.attachedClients.erase ipsta }
  let unused := (ifaces.filter fun iface => !iface.keepAttached ∧ iface.attachedClients = []).map
    AttachedInterface.ifname
  (0, { m with
    attachedIfaces := ifaces
    delayedDetach := unused.foldl (fun works ifname => works.filter (· ≠ ifname) ++ [ifname])
      m.delayedDetach }, [])

/-- What the serializer of the manager calls for a work. -/
def workFunc : Work → Nat × IfaceManager ε β × List Sent
  | .cmd work => executeCmdWork w init m work
  | .attach work => ifaceAttachWork w init m work
  | .detach work => ifaceDetachWork w init m work
  | .disconn ipsta => staDisconnectWork init m ipsta
  | .updateEvent work => ifaceUpdateEventWork w init m work

end Works

/-- The `switch` of `iface_manager_sta_cmd_async`: the work that it makes of a command, `none` when
it refuses the command. -/
def makeWork (cmdHdr : DwpaldHeader) (ipsta : Station) (seqNum : UInt8) (cmd : WvIpcMsg) :
    Option Work :=
  if cmdHdr.header0 = dwpaldCmd then some (.cmd ⟨cmd, seqNum, ipsta⟩)
  else if cmdHdr.header0 = dwpaldAttachReq then some (.attach ⟨cmd, seqNum, ipsta⟩)
  else if cmdHdr.header0 = dwpaldDetachReq then
    if waveIpcMsgGetSize cmd ≠ 17 then none
    else some (.detach
      ⟨CString.copyFrom ((waveIpcMsgGetData cmd).getD []) 16 ifName_pos, seqNum, some ipsta⟩)
  else if cmdHdr.header0 = dwpaldUpdateEventReq then some (.updateEvent ⟨cmd, seqNum, ipsta⟩)
  else none

/-- `iface_manager_sta_cmd_async` up to the submission of the work. -/
def ifaceManagerStaCmdAsync (ipsta : Station) (seqNum : UInt8) (cmd : WvIpcMsg) : Option Work :=
  match dwpaldHeaderPeek cmd with
  | .diverges | .failed _ => none
  | .popped cmdHdr cmd => makeWork cmdHdr ipsta seqNum cmd

namespace IfaceManager

variable {ε β : Type} {m : IfaceManager ε β}

theorem named_iff {ifname : IfName} {tmp : AttachedInterface ε} :
    tmp.named ifname = true ↔ tmp.ifname = ifname :=
  CString.strncmpEq_bytes tmp.ifname ifname

theorem ifname_of_find {ifname : IfName} {iface : AttachedInterface ε}
    (h : m.find ifname = some iface) : iface.ifname = ifname :=
  named_iff.mp (List.find?_some h)

theorem find_replace {iface : AttachedInterface ε} : ∀ {ifaces : List (AttachedInterface ε)},
    (ifaces.find? (AttachedInterface.named iface.ifname)).isSome = true →
      (replace iface ifaces).find? (AttachedInterface.named iface.ifname) = some iface := by
  intro ifaces
  induction ifaces with
  | nil =>
    intro h
    cases h
  | cons tmp ifaces ih =>
    intro h
    rw [replace]
    by_cases htmp : tmp.named iface.ifname = true
    · rw [if_pos htmp, List.find?_cons_of_pos (named_iff.mpr rfl)]
    · rw [if_neg htmp, List.find?_cons_of_neg htmp]
      rw [List.find?_cons_of_neg htmp] at h
      exact ih h

/-- The interface that was stored is found under its name. -/
theorem find_store (m : IfaceManager ε β) (iface : AttachedInterface ε) :
    (m.store iface).find iface.ifname = some iface := by
  rw [find, store]
  by_cases h : (m.find iface.ifname).isSome = true
  · simp only [h, if_true]
    exact find_replace h
  · simp only [h, Bool.false_eq_true, if_false]
    rw [Bool.not_eq_true, Option.isSome_eq_false_iff, Option.isNone_iff_eq_none] at h
    rw [List.find?_append, show m.attachedIfaces.find? _ = none from h, Option.none_or,
      List.find?_cons_of_pos (named_iff.mpr rfl)]

theorem find_replace_ne {iface : AttachedInterface ε} {ifname : IfName}
    (hne : ifname ≠ iface.ifname) : ∀ ifaces : List (AttachedInterface ε),
      (replace iface ifaces).find? (AttachedInterface.named ifname) =
        ifaces.find? (AttachedInterface.named ifname) := by
  have hmiss : ∀ tmp : AttachedInterface ε, tmp.ifname = iface.ifname →
      ¬ tmp.named ifname = true := fun tmp htmp hnamed =>
    hne ((named_iff.mp hnamed).symm.trans htmp)
  intro ifaces
  induction ifaces with
  | nil => rfl
  | cons tmp ifaces ih =>
    rw [replace]
    by_cases htmp : tmp.named iface.ifname = true
    · rw [if_pos htmp, List.find?_cons_of_neg (hmiss iface rfl),
        List.find?_cons_of_neg (hmiss tmp (named_iff.mp htmp))]
    · rw [if_neg htmp, List.find?_cons, List.find?_cons, ih]

/-- The other interfaces stay. -/
theorem find_store_ne (m : IfaceManager ε β) {iface : AttachedInterface ε} {ifname : IfName}
    (hne : ifname ≠ iface.ifname) : (m.store iface).find ifname = m.find ifname := by
  rw [find, store]
  by_cases h : (m.find iface.ifname).isSome = true
  · simp only [h, if_true]
    exact find_replace_ne hne m.attachedIfaces
  · simp only [h, Bool.false_eq_true, if_false]
    rw [List.find?_append, List.find?_cons_of_neg, List.find?_nil, Option.or_none, find]
    exact fun hnamed => hne (named_iff.mp hnamed).symm

end IfaceManager

/-- The interface that `iface_attach_work` works on: the attached one, or a new one. -/
theorem ifname_attaching {ε β : Type} (m : IfaceManager ε β) (ifname : IfName) :
    ((m.find ifname).getD ⟨ifname, 0, [], [], false⟩).ifname = ifname := by
  cases hfind : m.find ifname with
  | none => rfl
  | some iface => exact IfaceManager.ifname_of_find hfind

/-- An attach leaves the other interfaces alone. -/
theorem attachTo_find_ne {ε β : Type} (w : World) (init : ManagerInit ε β) (m : IfaceManager ε β)
    (cmdW : CmdWork) (ifname : IfName) (data : List UInt8) (dataSize : Nat) (other : IfName)
    (hne : other ≠ ifname) :
    (attachTo w init m cmdW ifname data dataSize).2.1.find other = m.find other := by
  have hname := ifname_attaching m ifname
  rw [attachTo]
  generalize (m.find ifname).getD ⟨ifname, 0, [], [], false⟩ = iface at hname ⊢
  simp only
  split_ifs
  · rfl
  all_goals
    refine (IfaceManager.find_store_ne _ ?_).trans rfl
    rw [hname]
    exact hne

/-- The station is a client of the interface once the interface is attached. -/
theorem attachTo_attached {ε β : Type} (w : World) (init : ManagerInit ε β)
    (m : IfaceManager ε β) (cmdW : CmdWork) (ifname : IfName) (data : List UInt8) (dataSize : Nat)
    (hok : ∀ state, (init.manApis.ifaceAttach w m.static ifname state).1 = 0) :
    ∃ iface, (attachTo w init m cmdW ifname data dataSize).2.1.find ifname = some iface ∧
      cmdW.ipsta ∈ iface.attachedClients := by
  have hname := ifname_attaching m ifname
  rw [attachTo]
  generalize (m.find ifname).getD ⟨ifname, 0, [], [], false⟩ = iface at hname ⊢
  simp only [hok, ne_eq, not_true_eq_false, if_false]
  have hfind := fun (m : IfaceManager ε β) (iface : AttachedInterface ε)
    (hname : iface.ifname = ifname) => hname ▸ IfaceManager.find_store m iface
  split_ifs
  all_goals
    refine ⟨_, hfind _ _ hname, ?_⟩
    exact List.mem_append_right _ (List.mem_singleton_self _)

end Dwpal.Daemon
