import Dwpal.Daemon.HostapIface
import Dwpal.Daemon.NlIface

/-! The daemon of `daemon/dwpal_daemon.c`: what it makes of the message of a station, with
`wave_ipcs_handle_station_msg` before it and the managers behind it. The commands of the debug tools
are left out. -/

namespace Dwpal.Daemon

open Ipc

/-- The two managers of `dwpald`. -/
structure Dwpald where
  hapMan : IfaceManager HostapEvent Unit
  nlMan : IfaceManager DrvEvent Bool

def hapInit : ManagerInit HostapEvent Unit := ⟨hostapManApis, dwpaldIfTypeHostap⟩

def nlInit : ManagerInit DrvEvent Bool := ⟨nlManApis, dwpaldIfTypeKernel⟩

inductive IfType where
  | hostap
  | kernel
deriving DecidableEq, Repr

/-- `header[1]` of the messages of a manager. -/
def IfType.byte : IfType → UInt8
  | .hostap => dwpaldIfTypeHostap
  | .kernel => dwpaldIfTypeKernel

/-- The `switch` of `dwpald_cmd_async`: the manager that a command goes to and the work that it
makes of it, `none` when the command is refused. -/
def dispatchCmd (cmdHdr : DwpaldHeader) (ipsta : Station) (seqNum : UInt8) (cmd : WvIpcMsg) :
    Option (IfType × Work) :=
  if cmdHdr.header0 = dwpaldCmd ∨ cmdHdr.header0 = dwpaldAttachReq ∨
      cmdHdr.header0 = dwpaldDetachReq ∨ cmdHdr.header0 = dwpaldUpdateEventReq then
    if cmdHdr.header1 = dwpaldIfTypeHostap then
      (ifaceManagerStaCmdAsync ipsta seqNum cmd).map (.hostap, ·)
    else if cmdHdr.header1 = dwpaldIfTypeKernel then
      (ifaceManagerStaCmdAsync ipsta seqNum cmd).map (.kernel, ·)
    else none
  else none

/-- `dwpald_cmd_async` up to the submission of the work. -/
def dwpaldCmdAsync (ipsta : Station) (seqNum : UInt8) (cmd : WvIpcMsg) : Option (IfType × Work) :=
  match dwpaldHeaderPeek cmd with
  | .diverges | .failed _ => none
  | .popped cmdHdr cmd => dispatchCmd cmdHdr ipsta seqNum cmd

/-- What becomes of a message of a station. -/
inductive Handled where
  | disconnect
  | response
  | refused (seqNum : UInt8)
  | work (ifType : IfType) (work : Work)

/-- `wave_ipcs_handle_station_msg` for a message that was received. -/
def waveIpcsHandleStationMsg (ipsta : Station) (msg : WvIpcMsg) : Handled :=
  match ipcHeaderPop msg with
  | .diverges | .failed _ => .disconnect
  | .popped hdr msg =>
    if hdr.header0 = waveIpcMsgCmd then
      match dwpaldCmdAsync ipsta hdr.header1 msg with
      | some (ifType, work) => .work ifType work
      | none => .refused hdr.header1
    else if hdr.header0 = waveIpcMsgResp then .response
    else .disconnect

/-- The serializer of a manager executes a work. -/
def Dwpald.execWork (w : World) (d : Dwpald) : IfType → Work → Dwpald × List Sent
  | .hostap, work =>
    let (_, m, sent) := workFunc w hapInit d.hapMan work
    ({ d with hapMan := m }, sent)
  | .kernel, work =>
    let (_, m, sent) := workFunc w nlInit d.nlMan work
    ({ d with nlMan := m }, sent)

/-- The message of a station is handled and its work, if there is one, is executed in the state
`d`. -/
def Dwpald.serve (w : World) (ipsta : Station) (d : Dwpald) (msg : WvIpcMsg) : Dwpald × List Sent :=
  match waveIpcsHandleStationMsg ipsta msg with
  | .disconnect | .response => (d, [])
  | .refused seqNum => (d, (waveIpcsSendReqFailedTo ipsta seqNum (w.pool 0)).2)
  | .work ifType work => d.execWork w ifType work

/-- A command with the two headers becomes the work that its header asks for. -/
theorem handleStationMsg_cmd {ipsta : Station} {msg : WvIpcMsg} {hdr : DwpaldHeader}
    {seqNum : UInt8}
    (hmsg : msg.Headers ([hdr.bytes] ++ [IpcHeader.bytes ⟨waveIpcMsgCmd, seqNum, 0, 0⟩])) :
    ∃ cmd, cmd.Headers [hdr.bytes] ∧ cmd.data = msg.data ∧ cmd.dataLen = msg.dataLen ∧
      waveIpcsHandleStationMsg ipsta msg =
        match dispatchCmd hdr ipsta seqNum cmd with
        | some (ifType, work) => .work ifType work
        | none => .refused seqNum := by
  obtain ⟨popped, hpop, hheaders, hdata, hlen⟩ := ipcHeaderPop_top hmsg
  obtain ⟨cmd, hpeek, hcmd, hdata', hlen'⟩ := dwpaldHeaderPeek_last hheaders
  refine ⟨cmd, hcmd, hdata'.trans hdata, hlen'.trans hlen, ?_⟩
  simp only [waveIpcsHandleStationMsg, hpop, if_true, dwpaldCmdAsync, hpeek]

/-- The manager makes the work of the same command. -/
theorem ifaceManagerStaCmdAsync_eq {ipsta : Station} {seqNum : UInt8} {msg : WvIpcMsg}
    {hdr : DwpaldHeader} (hmsg : msg.Headers [hdr.bytes]) :
    ∃ cmd, cmd.Headers [hdr.bytes] ∧ cmd.data = msg.data ∧ cmd.dataLen = msg.dataLen ∧
      ifaceManagerStaCmdAsync ipsta seqNum msg = makeWork hdr ipsta seqNum cmd := by
  obtain ⟨cmd, hpeek, hcmd, hdata, hlen⟩ := dwpaldHeaderPeek_last hmsg
  refine ⟨cmd, hcmd, hdata, hlen, ?_⟩
  simp only [ifaceManagerStaCmdAsync, hpeek]

/-- A command of the daemon's protocol for the manager of type `ifType` is served by executing the
work that the manager makes of it. -/
theorem serve_eq (w : World) (ipsta : Station) (d : Dwpald) {msg : WvIpcMsg} {hdr : DwpaldHeader}
    {seqNum : UInt8} {ifType : IfType}
    (hmsg : msg.Headers ([hdr.bytes] ++ [IpcHeader.bytes ⟨waveIpcMsgCmd, seqNum, 0, 0⟩]))
    (hreq : hdr.header0 = dwpaldCmd ∨ hdr.header0 = dwpaldAttachReq ∨
      hdr.header0 = dwpaldDetachReq ∨ hdr.header0 = dwpaldUpdateEventReq)
    (htype : hdr.header1 = ifType.byte) :
    ∃ cmd, cmd.Headers [hdr.bytes] ∧ cmd.data = msg.data ∧ cmd.dataLen = msg.dataLen ∧
      ∀ work, makeWork hdr ipsta seqNum cmd = some work →
        d.serve w ipsta msg = d.execWork w ifType work := by
  obtain ⟨cmd, hcmd, hdata, hlen, hhandle⟩ := handleStationMsg_cmd hmsg
  obtain ⟨cmd', hcmd', hdata', hlen', hmake⟩ :=
    ifaceManagerStaCmdAsync_eq hcmd
  refine ⟨cmd', hcmd', hdata'.trans hdata, hlen'.trans hlen, ?_⟩
  intro work hwork
  have hdispatch : dispatchCmd hdr ipsta seqNum cmd = some (ifType, work) := by
    rw [dispatchCmd, if_pos hreq, hmake, hwork]
    cases ifType with
    | hostap => rw [htype, IfType.byte, if_pos rfl, Option.map_some]
    | kernel => rw [htype, IfType.byte, if_neg (by decide), if_pos rfl, Option.map_some]
  rw [Dwpald.serve, hhandle, hdispatch]

/-- `dwpal_ext` where every call succeeds, with libnl delivering `msgs` for every netlink
command. -/
def deliveringWorld (msgs : List NlMsg) : World where
  libnl := .zeroing
  pool _ := Buffer.fill waveIpcBuffSize 0
  beyond := []
  hostapInterfaceAttach _ := .success
  hostapCmdSend _ _ := (.success, [])
  driverNlAttach := .success
  nl80211IdGet := (.success, 0)
  nl80211CmdSend _ := (.success, 0, msgs)

/-- The daemon before any interface is attached. -/
def startedDwpald : Dwpald := ⟨⟨[], (), []⟩, ⟨[], false, []⟩⟩

end Dwpal.Daemon
