import Dwpal.Lib.Registry
import Dwpal.Daemon.IfaceManager

/-! The functions of `daemon/nl_iface.c` that the manager of the kernel interfaces calls: the
execution of a netlink command with the callback for each message that libnl delivers, and the
registrations of driver events. The events themselves are left out. -/

namespace Dwpal.Daemon

open Registry Ipc

/-- A `drv_event`: an nl_id and the stations registered to it. -/
abbrev DrvEvent := Entry UInt32 Station

/-- `dwpal_ext_nl80211_callback` for one message: the reply that it sends. -/
def dwpalExtNl80211Callback (libnl : Libnl) (ipsta : Station) (seqNum isMultiMsg : UInt8)
    (stale : Buffer waveIpcBuffSize) (msg : NlMsg) : List Sent :=
  match dwpaldHeaderPush (dwpaldIpcMsgFromNlMsg libnl msg stale)
      ⟨dwpaldCmdResp, dwpaldIfTypeKernel, 1, 0, UInt8.ofInt DwpalRet.success.toInt, 0⟩ with
  | (0, resp) => (waveIpcsSendResponseTo ipsta seqNum resp isMultiMsg).2
  | _ => []

/-- `to.is_multi_msg`. -/
def isMultiMsg (msg : NlMsg) : Bool := nlmsgFlags msg.mem &&& nlmFDump != 0

/-- `nl_execute_command`. -/
def nlExecuteCommand (w : World) (cmd : WvIpcMsg) (ipsta : Station) (seqNum : UInt8) :
    Nat × List Sent :=
  match dwpaldNlMsgFromIpcMsg w.libnl cmd w.beyond with
  | none => (1, [])
  | some msg =>
    let multi : UInt8 := if isMultiMsg msg then 1 else 0
    let (dpalRet, res, msgs) := w.nl80211CmdSend msg
    let forwarded := (msgs.mapIdx fun i msg =>
      dwpalExtNl80211Callback w.libnl ipsta seqNum multi (w.pool i) msg).flatten
    if msgs.isEmpty ∨ isMultiMsg msg then
      let resp := (dwpaldHeaderPush (waveIpcMsgAlloc (w.pool msgs.length))
        ⟨dwpaldCmdResp, dwpaldIfTypeKernel, 0, UInt8.ofInt res, UInt8.ofInt dpalRet.toInt, 0⟩).2
      (0, forwarded ++ (waveIpcsSendResponseTo ipsta seqNum resp 0).2)
    else (0, forwarded)

/-- `nl_iface_attach`; `isAttached` is the static variable of the module. -/
def nlIfaceAttach (w : World) (isAttached : Bool) (state : UInt8) : Nat × UInt8 × Bool :=
  if !isAttached ∧ w.driverNlAttach = .failure then (1, state, isAttached)
  else
    match w.nl80211IdGet with
    | (.success, nl80211Id) => (0, UInt8.ofInt nl80211Id, true)
    | _ => (1, state, true)

/-- `nl_manager_register_sta_to_drv_event`. -/
def nlManagerRegisterStaToDrvEvent (events : List DrvEvent) (ipsta : Station) (nlId : UInt32) :
    List DrvEvent :=
  register (fun tmp => tmp == nlId) nlId ipsta events

/-- The `uint32_t`s at `data`. -/
def nlIds (data : List UInt8) : Nat → List UInt32
  | 0 => []
  | n + 1 => UInt32.ofNat (le32 data) :: nlIds (data.drop 4) n

/-- `nl_register_sta_to_events`. -/
def nlRegisterStaToEvents (events : List DrvEvent) (ipsta : Station) (regStr : List UInt8)
    (len : Nat) : Nat × List DrvEvent :=
  if len = 0 then (1, events)
  else if len % 4 ≠ 0 then (1, events)
  else (0, (nlIds regStr (len / 4)).foldl
    (fun events nlId => nlManagerRegisterStaToDrvEvent events ipsta nlId) events)

/-- `nl_unregister_sta_from_events`. -/
def nlUnregisterStaFromEvents (events : List DrvEvent) (ipsta : Station) : Nat × List DrvEvent :=
  (0, withdrawAll ipsta events)

/-- `apis`. -/
def nlManApis : ManagerApis DrvEvent Bool where
  executeCommand := nlExecuteCommand
  ifaceAttach w isAttached _ state := nlIfaceAttach w isAttached state
  ifaceDetach _ := false
  registerStaToEvents := nlRegisterStaToEvents
  unregisterStaFromEvents := nlUnregisterStaFromEvents

end Dwpal.Daemon
