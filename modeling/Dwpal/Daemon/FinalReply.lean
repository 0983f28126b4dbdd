import Dwpal.Daemon.DwpalDaemon

/-! The replies that the daemon sends for one command: which of them is the last one, and when there
is exactly one that is. -/

namespace Dwpal.Daemon

open Ipc Frames

/-- The ipc header of a message that was sent. -/
def sentHeader (x : Sent) : Option IpcHeader :=
  match ipcHeaderPop x.msg with
  | .popped hdr _ => some hdr
  | .diverges | .failed _ => none

/-- A response with `has_more`. -/
def PartReply (ipsta : Station) (seqNum : UInt8) (x : Sent) : Prop :=
  x.ipsta = ipsta ∧ ∃ hdr, sentHeader x = some hdr ∧ hdr.header1 = seqNum ∧
    hdr.header0 = waveIpcMsgResp ∧ hdr.header2 ≠ 0

/-- A response without `has_more`, or a request failure. -/
def FinalReply (ipsta : Station) (seqNum : UInt8) (x : Sent) : Prop :=
  x.ipsta = ipsta ∧ ∃ hdr, sentHeader x = some hdr ∧ hdr.header1 = seqNum ∧
    (hdr.header0 = waveIpcMsgReqFail ∨ hdr.header0 = waveIpcMsgResp ∧ hdr.header2 = 0)

/-- There is exactly one final reply, and all others come before it. -/
def OneFinalReply (ipsta : Station) (seqNum : UInt8) (sent : List Sent) : Prop :=
  ∃ parts final, sent = parts ++ [final] ∧ (∀ x ∈ parts, PartReply ipsta seqNum x) ∧
    FinalReply ipsta seqNum final

/-- The loop of `wave_ipc_msg_pop_hdr` does not end for a header that is read on the way of a
command: in `dwpald_cmd_async`, in `iface_manager_sta_cmd_async`, or in `hostap_execute_command`. -/
def hangs (cmd : WvIpcMsg) : Bool :=
  match dwpaldHeaderPeek cmd with
  | .diverges => true
  | .failed _ => false
  | .popped cmdHdr cmd =>
    if (cmdHdr.header0 = dwpaldCmd ∨ cmdHdr.header0 = dwpaldAttachReq ∨
        cmdHdr.header0 = dwpaldDetachReq ∨ cmdHdr.header0 = dwpaldUpdateEventReq) ∧
        (cmdHdr.header1 = dwpaldIfTypeHostap ∨ cmdHdr.header1 = dwpaldIfTypeKernel) then
      match dwpaldHeaderPeek cmd with
      | .diverges => true
      | .failed _ => false
      | .popped workHdr cmd =>
        if workHdr.header0 = dwpaldCmd ∧ cmdHdr.header1 = dwpaldIfTypeHostap then
          match dwpaldHeaderPop cmd with
          | .diverges => true
          | .failed _ | .popped _ _ => false
        else false
    else false

/-- The sequence number of a message that is a command, and the command without its ipc header. -/
def commandOf (msg : WvIpcMsg) : Option (UInt8 × WvIpcMsg) :=
  match ipcHeaderPop msg with
  | .diverges | .failed _ => none
  | .popped hdr cmd => if hdr.header0 = waveIpcMsgCmd then some (hdr.header1, cmd) else none

/-- What the daemon sends for a command, unless it hangs. -/
def Dwpald.replies (w : World) (ipsta : Station) (d : Dwpald) (msg : WvIpcMsg) :
    Option (List Sent) :=
  match commandOf msg with
  | none => none
  | some (_, cmd) => if hangs cmd then none else some (d.serve w ipsta msg).2

/-- The netlink command of a work for the kernel is a dump, or libnl delivers at most one message
for it. -/
def SingleReply (w : World) (ipsta : Station) (msg : WvIpcMsg) : Prop :=
  ∀ work, waveIpcsHandleStationMsg ipsta msg = .work .kernel (.cmd work) →
    ∀ nlmsg, dwpaldNlMsgFromIpcMsg w.libnl work.cmd w.beyond = some nlmsg →
      isMultiMsg nlmsg = true ∨ (w.nl80211CmdSend nlmsg).2.2.length ≤ 1

section Replies

variable {ipsta : Station} {seqNum : UInt8} {x : Sent} {fs : List (List UInt8)}
  {bytes : List UInt8} {hdr : IpcHeader}

theorem sentHeader_answers (h : Answers x ipsta hdr fs bytes) : sentHeader x = some hdr := by
  obtain ⟨_, hpop, -⟩ := ipcHeaderPop_top h.headers
  rw [sentHeader, hpop]

theorem FinalReply.response (h : Answers x ipsta ⟨waveIpcMsgResp, seqNum, 0, 0⟩ fs bytes) :
    FinalReply ipsta seqNum x :=
  ⟨h.ipsta_eq, _, sentHeader_answers h, rfl, .inr ⟨rfl, rfl⟩⟩

theorem FinalReply.reqFailed (h : Answers x ipsta ⟨waveIpcMsgReqFail, seqNum, 0, 0⟩ fs bytes) :
    FinalReply ipsta seqNum x :=
  ⟨h.ipsta_eq, _, sentHeader_answers h, rfl, .inl rfl⟩

theorem PartReply.response {hasMore : UInt8} (hmore : hasMore ≠ 0)
    (h : Answers x ipsta ⟨waveIpcMsgResp, seqNum, hasMore, 0⟩ fs bytes) :
    PartReply ipsta seqNum x :=
  ⟨h.ipsta_eq, _, sentHeader_answers h, rfl, rfl, hmore⟩

theorem PartReply.not_final (hpart : PartReply ipsta seqNum x) : ¬FinalReply ipsta seqNum x := by
  obtain ⟨-, hdr, hhdr, -, htype, hmore⟩ := hpart
  rintro ⟨-, hdr', hhdr', -, hfinal⟩
  rw [hhdr] at hhdr'
  cases hhdr'
  rcases hfinal with hfail | ⟨-, hzero⟩
  · rw [htype] at hfail
    cases hfail
  · exact hmore hzero

theorem OneFinalReply.single (h : FinalReply ipsta seqNum x) : OneFinalReply ipsta seqNum [x] :=
  ⟨[], x, rfl, nofun, h⟩

/-- Two final replies are too many. -/
theorem not_oneFinalReply {sent : List Sent} (hall : ∀ x ∈ sent, FinalReply ipsta seqNum x)
    (hlen : sent.length ≠ 1) : ¬OneFinalReply ipsta seqNum sent := by
  rintro ⟨parts, final, rfl, hparts, -⟩
  cases parts with
  | nil => exact hlen rfl
  | cons part parts =>
    have hpart := hparts part List.mem_cons_self
    exact hpart.not_final (hall part (by simp))

end Replies

section Works

variable {ε β : Type} (w : World) (init : ManagerInit ε β) (m : IfaceManager ε β)
  (ipsta : Station) (seqNum : UInt8)

theorem sendReqFailedTo_one (stale : Buffer waveIpcBuffSize) :
    OneFinalReply ipsta seqNum (waveIpcsSendReqFailedTo ipsta seqNum stale).2 := by
  obtain ⟨x, hsend, hanswers⟩ := sendReqFailedTo_answers ipsta seqNum stale
  rw [hsend]
  exact .single (.reqFailed hanswers)

theorem requestFailed_one : OneFinalReply ipsta seqNum (requestFailed w m ipsta seqNum).2.2 :=
  sendReqFailedTo_one ipsta seqNum _

theorem sendResponse_one (type state : UInt8) :
    OneFinalReply ipsta seqNum (sendResponse w init ipsta seqNum type state) := by
  obtain ⟨resp, hpush, hheaders, -, -⟩ :=
    dwpaldHeaderPush_first (headers_alloc (w.pool 0)) ⟨type, init.iftype, state, 0, 0, 0⟩
  obtain ⟨x, hsend, hanswers⟩ :=
    sendResponseTo_answers hheaders (by simp [encode_cons]) ipsta seqNum 0
  simp only [sendResponse, hpush, hsend]
  exact .single (.response hanswers)

/-- A command that fails without a reply gets the request failure. -/
theorem executeCmdWork_one (cmdW : CmdWork)
    (hfail : (init.manApis.executeCommand w cmdW.cmd cmdW.ipsta cmdW.seqNum).1 ≠ 0 →
      (init.manApis.executeCommand w cmdW.cmd cmdW.ipsta cmdW.seqNum).2 = []) :
    OneFinalReply cmdW.ipsta cmdW.seqNum (executeCmdWork w init m cmdW).2.2 ↔
      ((init.manApis.executeCommand w cmdW.cmd cmdW.ipsta cmdW.seqNum).1 = 0 →
        OneFinalReply cmdW.ipsta cmdW.seqNum
          (init.manApis.executeCommand w cmdW.cmd cmdW.ipsta cmdW.seqNum).2) := by
  rcases hexec : init.manApis.executeCommand w cmdW.cmd cmdW.ipsta cmdW.seqNum with ⟨ret, sent⟩
  rw [hexec] at hfail
  cases ret with
  | zero => simp [executeCmdWork, hexec]
  | succ ret =>
    have hsent : sent = [] := hfail (by simp)
    simp only [executeCmdWork, hexec, hsent]
    simpa using requestFailed_one w m cmdW.ipsta cmdW.seqNum

variable {ipsta seqNum} in
theorem OneFinalReply.ite {p : Prop} [Decidable p] {a b : Nat × IfaceManager ε β × List Sent}
    (ha : OneFinalReply ipsta seqNum a.2.2) (hb : OneFinalReply ipsta seqNum b.2.2) :
    OneFinalReply ipsta seqNum (if p then a else b).2.2 := by
  split
  · exact ha
  · exact hb

theorem withIfname_one (cmdW : CmdWork)
    (rest : CmdWork → IfName → List UInt8 → Nat → Nat × IfaceManager ε β × List Sent)
    (hrest : ∀ ifname data dataSize,
      OneFinalReply cmdW.ipsta cmdW.seqNum (rest cmdW ifname data dataSize).2.2) :
    OneFinalReply cmdW.ipsta cmdW.seqNum (withIfname w m cmdW rest).2.2 := by
  rw [withIfname]
  split
  · exact requestFailed_one w m _ _
  · exact .ite (requestFailed_one w m _ _) (hrest _ _ _)

theorem ifaceAttachWork_one (cmdW : CmdWork) :
    OneFinalReply cmdW.ipsta cmdW.seqNum (ifaceAttachWork w init m cmdW).2.2 := by
  apply withIfname_one
  intro ifname data dataSize
  apply OneFinalReply.ite
  · exact requestFailed_one w _ _ _
  · exact .ite (requestFailed_one w _ _ _) (sendResponse_one w init _ _ _ _)

theorem ifaceUpdateEventWork_one (cmdW : CmdWork) :
    OneFinalReply cmdW.ipsta cmdW.seqNum (ifaceUpdateEventWork w init m cmdW).2.2 := by
  apply withIfname_one
  intro ifname data dataSize
  rw [updateEventsOf]
  split
  · exact requestFailed_one w _ _ _
  · exact .ite (requestFailed_one w _ _ _) (sendResponse_one w init _ _ _ _)

theorem ifaceDetachWork_one (ifname : IfName) :
    OneFinalReply ipsta seqNum (ifaceDetachWork w init m ⟨ifname, seqNum, some ipsta⟩).2.2 := by
  simp only [ifaceDetachWork]
  split
  · next h => cases h
  · next hipsta =>
    cases hipsta
    exact requestFailed_one w _ _ _
  · next hipsta =>
    cases hipsta
    exact sendResponse_one w init _ _ _ _
  · next h => cases h

end Works

@[simp] theorem reserveData_hdr (msg : WvIpcMsg) (len : Nat) :
    (waveIpcMsgReserveData msg len).2.hdr = msg.hdr := by
  simp only [waveIpcMsgReserveData]
  split_ifs <;> rfl

@[simp] theorem shrinkData_hdr (msg : WvIpcMsg) (len : Nat) :
    (waveIpcMsgShrinkData msg len).2.hdr = msg.hdr := by
  simp only [waveIpcMsgShrinkData]
  split_ifs <;> rfl

theorem hostapResponse_headers (w : World) (dpalRet : DwpalRet) (reply : List UInt8) :
    (hostapResponse w dpalRet reply).Headers [DwpaldHeader.bytes
      ⟨dwpaldCmdResp, dwpaldIfTypeHostap, UInt8.ofInt dpalRet.toInt, 0, 0, 0⟩] := by
  have hempty : (if dpalRet = .success then
      { (waveIpcMsgShrinkData (waveIpcMsgReserveData (waveIpcMsgAlloc (w.pool 0))
          (4096 * 4 + 1)).2 (reply.length + 1)).2 with
        data := (waveIpcMsgReserveData (waveIpcMsgAlloc (w.pool 0)) (4096 * 4 + 1)).2.data.write 0
          (reply ++ [0]) }
      else (waveIpcMsgShrinkData (waveIpcMsgReserveData (waveIpcMsgAlloc (w.pool 0))
        (4096 * 4 + 1)).2 0).2).Headers [] := by
    apply headers_of_hdr (headers_alloc (w.pool 0))
    split <;> simp
  obtain ⟨resp, hpush, hheaders, -, -⟩ := dwpaldHeaderPush_first hempty
    ⟨dwpaldCmdResp, dwpaldIfTypeHostap, UInt8.ofInt dpalRet.toInt, 0, 0, 0⟩
  rw [hostapResponse, hpush]
  exact hheaders

theorem hostapExecuteCommand_one (w : World) (cmd : WvIpcMsg) (ipsta : Station) (seqNum : UInt8) :
    hostapExecuteCommand w cmd ipsta seqNum = (1, []) ∨
      (hostapExecuteCommand w cmd ipsta seqNum).1 = 0 ∧
        OneFinalReply ipsta seqNum (hostapExecuteCommand w cmd ipsta seqNum).2 := by
  rw [hostapExecuteCommand]
  split
  · exact .inl rfl
  · exact .inl rfl
  · split
    · exact .inl rfl
    · next vapName cmdData _ =>
      obtain ⟨x, hsend, hanswers⟩ := sendResponseTo_answers
        (hostapResponse_headers w (w.hostapCmdSend vapName (cstr cmdData)).1
          ((w.hostapCmdSend vapName (cstr cmdData)).2.take (4096 * 4)))
        (by simp [encode_cons]) ipsta seqNum 0
      simp only [hsend]
      exact .inr ⟨trivial, .single (.response hanswers)⟩

/-- The header of a response with a message of libnl. -/
def forwardHeader : DwpaldHeader :=
  ⟨dwpaldCmdResp, dwpaldIfTypeKernel, 1, 0, UInt8.ofInt DwpalRet.success.toInt, 0⟩

/-- The header of the response with the result of a netlink command. -/
def resultHeader (dpalRet : DwpalRet) (res : Int) : DwpaldHeader :=
  ⟨dwpaldCmdResp, dwpaldIfTypeKernel, 0, UInt8.ofInt res, UInt8.ofInt dpalRet.toInt, 0⟩

/-- A reply forwards a message of libnl. -/
def Forwards (ipsta : Station) (seqNum multi : UInt8) (msg : NlMsg) (x : Sent) : Prop :=
  Answers x ipsta ⟨waveIpcMsgResp, seqNum, multi, 0⟩ [forwardHeader.bytes] msg.payload

/-- Each message that libnl delivers is forwarded in one reply. -/
theorem dwpalExtNl80211Callback_forwards (libnl : Libnl) (ipsta : Station) (seqNum multi : UInt8)
    (stale : Buffer waveIpcBuffSize) (msg : NlMsg) :
    ∃ x, dwpalExtNl80211Callback libnl ipsta seqNum multi stale msg = [x] ∧
      Forwards ipsta seqNum multi msg x := by
  have hempty : (dwpaldIpcMsgFromNlMsg libnl msg stale).Headers [] :=
    headers_of_hdr (headers_alloc stale) (fillData_hdr _ _ _)
  obtain ⟨resp, hpush, hheaders, hdata, hlen⟩ := dwpaldHeaderPush_first hempty forwardHeader
  obtain ⟨x, hsend, hanswers⟩ :=
    sendResponseTo_answers hheaders (by simp [encode_cons]) ipsta seqNum multi
  rw [payload_eq_of_same hdata hlen, payload_fromNlMsg] at hanswers
  rw [forwardHeader] at hpush
  refine ⟨x, ?_, hanswers⟩
  simp only [dwpalExtNl80211Callback, hpush, hsend]

/-- The replies that forward the messages of libnl. -/
def forwarded (w : World) (ipsta : Station) (seqNum multi : UInt8) (msgs : List NlMsg) :
    List Sent :=
  (msgs.mapIdx fun i msg =>
    dwpalExtNl80211Callback w.libnl ipsta seqNum multi (w.pool i) msg).flatten

theorem forwarded_forwards (w : World) (ipsta : Station) (seqNum multi : UInt8)
    (msgs : List NlMsg) :
    List.Forall₂ (Forwards ipsta seqNum multi) msgs (forwarded w ipsta seqNum multi msgs) := by
  have hpool : ∀ pool : Nat → Buffer waveIpcBuffSize,
      List.Forall₂ (Forwards ipsta seqNum multi) msgs (msgs.mapIdx fun i msg =>
        dwpalExtNl80211Callback w.libnl ipsta seqNum multi (pool i) msg).flatten := by
    induction msgs with
    | nil => exact fun _ => .nil
    | cons msg msgs ih =>
      intro pool
      obtain ⟨x, hsent, hx⟩ :=
        dwpalExtNl80211Callback_forwards w.libnl ipsta seqNum multi (pool 0) msg
      rw [List.mapIdx_cons, List.flatten_cons, hsent]
      exact .cons hx (ih fun i => pool (i + 1))
  exact hpool w.pool

theorem length_forwarded (w : World) (ipsta : Station) (seqNum multi : UInt8)
    (msgs : List NlMsg) : (forwarded w ipsta seqNum multi msgs).length = msgs.length :=
  (forwarded_forwards w ipsta seqNum multi msgs).length_eq.symm

theorem forwarded_answers (w : World) (ipsta : Station) (seqNum multi : UInt8)
    (msgs : List NlMsg) : ∀ x ∈ forwarded w ipsta seqNum multi msgs,
      ∃ fs bytes, Answers x ipsta ⟨waveIpcMsgResp, seqNum, multi, 0⟩ fs bytes := by
  have hall := (forwarded_forwards w ipsta seqNum multi msgs).flip
  intro x hx
  obtain ⟨i, hi, rfl⟩ := List.mem_iff_getElem.mp hx
  exact ⟨_, _, List.forall₂_iff_get.mp hall |>.2 i hi (hall.length_eq ▸ hi)⟩

section NlExecuteCommand

variable {w : World} {cmd : WvIpcMsg} {msg : NlMsg} (ipsta : Station) (seqNum : UInt8)

/-- The result of a netlink command comes last, if nothing was forwarded or more could follow. -/
theorem nlExecuteCommand_result (hmsg : dwpaldNlMsgFromIpcMsg w.libnl cmd w.beyond = some msg)
    (hresult : isMultiMsg msg = true ∨ (w.nl80211CmdSend msg).2.2 = []) :
    ∃ x, nlExecuteCommand w cmd ipsta seqNum =
        (0, forwarded w ipsta seqNum 1 (w.nl80211CmdSend msg).2.2 ++ [x]) ∧
      ∃ bytes, Answers x ipsta ⟨waveIpcMsgResp, seqNum, 0, 0⟩
        [(resultHeader (w.nl80211CmdSend msg).1 (w.nl80211CmdSend msg).2.1).bytes] bytes := by
  obtain ⟨resp, hpush, hheaders, -, -⟩ := dwpaldHeaderPush_first
    (headers_alloc (w.pool (w.nl80211CmdSend msg).2.2.length))
    (resultHeader (w.nl80211CmdSend msg).1 (w.nl80211CmdSend msg).2.1)
  obtain ⟨x, hsend, hanswers⟩ :=
    sendResponseTo_answers hheaders (by simp [encode_cons]) ipsta seqNum 0
  rw [resultHeader] at hpush
  refine ⟨x, ?_, _, hanswers⟩
  rcases hresult with hmulti | hnone
  · simp [nlExecuteCommand, hmsg, hmulti, forwarded, hpush, hsend]
  · rw [hnone, List.length_nil] at hpush
    simp [nlExecuteCommand, hmsg, hnone, forwarded, hpush, hsend]

theorem nlExecuteCommand_some (hmsg : dwpaldNlMsgFromIpcMsg w.libnl cmd w.beyond = some msg)
    (hresult : ¬(isMultiMsg msg = true ∨ (w.nl80211CmdSend msg).2.2 = [])) :
    nlExecuteCommand w cmd ipsta seqNum =
      (0, forwarded w ipsta seqNum 0 (w.nl80211CmdSend msg).2.2) := by
  rw [not_or, Bool.not_eq_true] at hresult
  simp [nlExecuteCommand, hmsg, hresult.1, hresult.2, forwarded]

/-- A netlink command is answered by exactly one final reply just when it is a dump or libnl has
delivered at most one message. -/
theorem nlExecuteCommand_one (hmsg : dwpaldNlMsgFromIpcMsg w.libnl cmd w.beyond = some msg) :
    (nlExecuteCommand w cmd ipsta seqNum).1 = 0 ∧
      (OneFinalReply ipsta seqNum (nlExecuteCommand w cmd ipsta seqNum).2 ↔
        (isMultiMsg msg = true ∨ (w.nl80211CmdSend msg).2.2.length ≤ 1)) := by
  by_cases hresult : isMultiMsg msg = true ∨ (w.nl80211CmdSend msg).2.2 = []
  · obtain ⟨x, hsent, bytes, hanswers⟩ := nlExecuteCommand_result ipsta seqNum hmsg hresult
    rw [hsent]
    refine ⟨rfl, iff_of_true ⟨_, x, rfl, ?_, .response hanswers⟩ ?_⟩
    · intro part hpart
      obtain ⟨fs, bytes, hpart⟩ := forwarded_answers w ipsta seqNum 1 _ part hpart
      exact .response (by decide) hpart
    · exact hresult.imp_right fun hnone => by rw [hnone]; exact Nat.zero_le 1
  · have hfinals : ∀ x ∈ forwarded w ipsta seqNum 0 (w.nl80211CmdSend msg).2.2,
        FinalReply ipsta seqNum x := by
      intro x hx
      obtain ⟨fs, bytes, hanswers⟩ := forwarded_answers w ipsta seqNum 0 _ x hx
      exact .response hanswers
    rw [nlExecuteCommand_some ipsta seqNum hmsg hresult]
    rw [not_or] at hresult
    rw [or_iff_right hresult.1]
    have hpos := List.length_pos_of_ne_nil hresult.2
    refine ⟨rfl, fun hone => ?_, fun hle => ?_⟩
    · by_contra hmany
      apply not_oneFinalReply hfinals _ hone
      rw [length_forwarded]
      omega
    · obtain ⟨x, hx⟩ : ∃ x, forwarded w ipsta seqNum 0 (w.nl80211CmdSend msg).2.2 = [x] := by
        rw [← List.length_eq_one_iff, length_forwarded]
        omega
      rw [hx] at hfinals ⊢
      exact .single (hfinals x List.mem_cons_self)

end NlExecuteCommand

/-- The work of a command of `ipsta`. -/
def Work.ForCommand (ipsta : Station) (seqNum : UInt8) : Work → Prop
  | .cmd work | .attach work | .updateEvent work => work.ipsta = ipsta ∧ work.seqNum = seqNum
  | .detach work => work.ipsta = some ipsta ∧ work.seqNum = seqNum
  | .disconn _ => False

section Commands

variable {ipsta : Station} {seqNum : UInt8}

theorem makeWork_forCommand {cmdHdr : DwpaldHeader} {cmd : WvIpcMsg} {work : Work}
    (h : makeWork cmdHdr ipsta seqNum cmd = some work) : work.ForCommand ipsta seqNum := by
  simp only [makeWork] at h
  split_ifs at h <;> cases h <;> exact ⟨rfl, rfl⟩

theorem ifaceManagerStaCmdAsync_forCommand {cmd : WvIpcMsg} {work : Work}
    (h : ifaceManagerStaCmdAsync ipsta seqNum cmd = some work) : work.ForCommand ipsta seqNum := by
  rw [ifaceManagerStaCmdAsync] at h
  split at h
  · cases h
  · cases h
  · exact makeWork_forCommand h

theorem dwpaldCmdAsync_forCommand {cmd : WvIpcMsg} {ifType : IfType} {work : Work}
    (h : dwpaldCmdAsync ipsta seqNum cmd = some (ifType, work)) :
    work.ForCommand ipsta seqNum := by
  rw [dwpaldCmdAsync] at h
  split at h
  · cases h
  · cases h
  · simp only [dispatchCmd] at h
    split_ifs at h
    · obtain ⟨_, hwork, hpair⟩ := Option.map_eq_some_iff.mp h
      cases hpair
      exact ifaceManagerStaCmdAsync_forCommand hwork
    · obtain ⟨_, hwork, hpair⟩ := Option.map_eq_some_iff.mp h
      cases hpair
      exact ifaceManagerStaCmdAsync_forCommand hwork

/-- Every work but a command is answered by one final reply. -/
theorem workFunc_one {ε β : Type} (w : World) (init : ManagerInit ε β) (m : IfaceManager ε β)
    {work : Work} (hwork : work.ForCommand ipsta seqNum) (hcmd : ∀ cmdW, work ≠ .cmd cmdW) :
    OneFinalReply ipsta seqNum (workFunc w init m work).2.2 := by
  cases work with
  | cmd cmdW => exact (hcmd cmdW rfl).elim
  | attach cmdW =>
    obtain ⟨rfl, rfl⟩ := hwork
    exact ifaceAttachWork_one w init m cmdW
  | detach detachW =>
    obtain ⟨ifname, seqNum, ipsta⟩ := detachW
    obtain ⟨rfl, rfl⟩ := hwork
    exact ifaceDetachWork_one w init m _ _ ifname
  | disconn _ => exact hwork.elim
  | updateEvent cmdW =>
    obtain ⟨rfl, rfl⟩ := hwork
    exact ifaceUpdateEventWork_one w init m cmdW

theorem hostapWork_one (w : World) (d : Dwpald) {work : Work}
    (hwork : work.ForCommand ipsta seqNum) :
    OneFinalReply ipsta seqNum (d.execWork w .hostap work).2 := by
  by_cases hcmd : ∃ cmdW, work = .cmd cmdW
  · obtain ⟨cmdW, rfl⟩ := hcmd
    obtain ⟨rfl, rfl⟩ := hwork
    apply (executeCmdWork_one w hapInit d.hapMan cmdW _).mpr
    · intro hzero
      rcases hostapExecuteCommand_one w cmdW.cmd cmdW.ipsta cmdW.seqNum with hfail | ⟨-, hone⟩
      · cases (congrArg Prod.fst hfail).symm.trans hzero
      · exact hone
    · intro hret
      rcases hostapExecuteCommand_one w cmdW.cmd cmdW.ipsta cmdW.seqNum with hfail | ⟨hzero, -⟩
      · exact congrArg Prod.snd hfail
      · exact (hret hzero).elim
  · exact workFunc_one w hapInit d.hapMan hwork fun cmdW hcmdW => hcmd ⟨cmdW, hcmdW⟩

theorem kernelWork_one (w : World) (d : Dwpald) {work : Work}
    (hwork : work.ForCommand ipsta seqNum) :
    OneFinalReply ipsta seqNum (d.execWork w .kernel work).2 ↔
      ∀ cmdW, work = .cmd cmdW → ∀ nlmsg, dwpaldNlMsgFromIpcMsg w.libnl cmdW.cmd w.beyond =
        some nlmsg → isMultiMsg nlmsg = true ∨ (w.nl80211CmdSend nlmsg).2.2.length ≤ 1 := by
  by_cases hcmd : ∃ cmdW, work = .cmd cmdW
  · obtain ⟨cmdW, rfl⟩ := hcmd
    obtain ⟨rfl, rfl⟩ := hwork
    have hwork : (∀ other, Work.cmd cmdW = .cmd other →
          ∀ nlmsg, dwpaldNlMsgFromIpcMsg w.libnl other.cmd w.beyond = some nlmsg →
            isMultiMsg nlmsg = true ∨ (w.nl80211CmdSend nlmsg).2.2.length ≤ 1) ↔
        ∀ nlmsg, dwpaldNlMsgFromIpcMsg w.libnl cmdW.cmd w.beyond = some nlmsg →
          isMultiMsg nlmsg = true ∨ (w.nl80211CmdSend nlmsg).2.2.length ≤ 1 := by
      refine ⟨fun h => h cmdW rfl, ?_⟩
      rintro h _ ⟨⟩
      exact h
    rw [hwork]
    cases hmsg : dwpaldNlMsgFromIpcMsg w.libnl cmdW.cmd w.beyond with
    | none =>
      have hfail : nlExecuteCommand w cmdW.cmd cmdW.ipsta cmdW.seqNum = (1, []) := by
        simp [nlExecuteCommand, hmsg]
      refine ⟨fun _ _ h => by (cases h), fun _ => ?_⟩
      apply (executeCmdWork_one w nlInit d.nlMan cmdW fun _ => congrArg Prod.snd hfail).mpr
      intro hzero
      cases (congrArg Prod.fst hfail).symm.trans hzero
    | some msg =>
      obtain ⟨hzero, hiff⟩ := nlExecuteCommand_one cmdW.ipsta cmdW.seqNum hmsg
      have hexec := executeCmdWork_one w nlInit d.nlMan cmdW fun hret => (hret hzero).elim
      refine hexec.trans ⟨fun h _ hsome => ?_, fun h _ => hiff.mpr (h msg rfl)⟩
      cases hsome
      exact hiff.mp (h hzero)
  · refine ⟨fun _ cmdW hcmdW => (hcmd ⟨cmdW, hcmdW⟩).elim, fun _ => ?_⟩
    exact workFunc_one w nlInit d.nlMan hwork fun cmdW hcmdW => hcmd ⟨cmdW, hcmdW⟩

/-- A command that the daemon does not hang at is answered by exactly one final reply just when it
is no netlink command that is not a dump and for which libnl delivers several messages. -/
theorem serve_one (w : World) (d : Dwpald) {msg cmd : WvIpcMsg}
    (hcmd : commandOf msg = some (seqNum, cmd)) :
    OneFinalReply ipsta seqNum (d.serve w ipsta msg).2 ↔ SingleReply w ipsta msg := by
  rw [commandOf] at hcmd
  split at hcmd
  · cases hcmd
  · cases hcmd
  · next hdr popped hpop =>
    rw [Option.ite_none_right_eq_some] at hcmd
    obtain ⟨htype, hcmd⟩ := hcmd
    cases hcmd
    cases hasync : dwpaldCmdAsync ipsta hdr.header1 cmd with
    | none =>
      have hhandle : waveIpcsHandleStationMsg ipsta msg = .refused hdr.header1 := by
        simp only [waveIpcsHandleStationMsg, hpop, htype, if_true, hasync]
      refine ⟨fun _ _ hwork => ?_, fun _ => ?_⟩
      · rw [hhandle] at hwork
        cases hwork
      · simp only [Dwpald.serve, hhandle]
        exact sendReqFailedTo_one ipsta _ _
    | some result =>
      obtain ⟨ifType, work⟩ := result
      have hfor := dwpaldCmdAsync_forCommand hasync
      have hhandle : waveIpcsHandleStationMsg ipsta msg = .work ifType work := by
        simp only [waveIpcsHandleStationMsg, hpop, htype, if_true, hasync]
      simp only [Dwpald.serve, SingleReply, hhandle]
      cases ifType with
      | hostap =>
        refine ⟨fun _ _ hwork => ?_, fun _ => hostapWork_one w d hfor⟩
        cases hwork
      | kernel =>
        rw [kernelWork_one w d hfor]
        refine ⟨fun h cmdW hcmdW => ?_, fun h cmdW hcmdW => ?_⟩
        · cases hcmdW
          exact h cmdW rfl
        · cases hcmdW
          exact h cmdW rfl

/-- The loop over an empty stack of headers ends at once. -/
theorem dwpaldHeaderPeek_none {msg : WvIpcMsg} (hmsg : msg.Headers []) :
    dwpaldHeaderPeek msg = .failed msg := by
  have harea : msg.hdr.bytes = List.replicate 32 0 := by simpa [ipcMsgHdrSize] using hmsg.area
  have hpop : waveIpcMsgPopHdr msg 7 = .error := by
    rw [waveIpcMsgPopHdr, if_neg (by decide), harea]
    rfl
  simp only [dwpaldHeaderPeek, dwpaldHeaderPop, headerPop, hpop]

/-- A command with one header of the daemon's protocol, or with none, is no command that the daemon
hangs at. -/
theorem hangs_headers {cmd : WvIpcMsg} {hdrs : List DwpaldHeader} (hle : hdrs.length ≤ 1)
    (hcmd : cmd.Headers (hdrs.map DwpaldHeader.bytes)) : hangs cmd = false := by
  cases hdrs with
  | nil => simp only [hangs, dwpaldHeaderPeek_none hcmd]
  | cons hdr hdrs =>
    have hnil : hdrs = [] := by
      rw [List.length_cons] at hle
      exact List.length_eq_zero_iff.mp (by omega)
    rw [hnil] at hcmd
    obtain ⟨atMan, hpeek, hatMan, -, -⟩ := dwpaldHeaderPeek_last hcmd
    obtain ⟨atWork, hpeek', hatWork, -, -⟩ := dwpaldHeaderPeek_last hatMan
    obtain ⟨_, hpop, -, -, -⟩ := dwpaldHeaderPop_last hatWork
    simp [hangs, hpeek, hpeek', hpop]

theorem commandOf_headers {msg : WvIpcMsg} {fs : List (List UInt8)}
    (hmsg : msg.Headers (fs ++ [IpcHeader.bytes ⟨waveIpcMsgCmd, seqNum, 0, 0⟩])) :
    ∃ cmd, commandOf msg = some (seqNum, cmd) ∧ cmd.Headers fs := by
  obtain ⟨cmd, hpop, hcmd, -, -⟩ := ipcHeaderPop_top hmsg
  refine ⟨cmd, ?_, hcmd⟩
  simp only [commandOf, hpop, if_true]

/-- A command is answered, and by exactly one final reply, just when the loops over its headers end
and it is no netlink command that is not a dump and for which libnl delivers several messages. -/
theorem oneFinalReply (w : World) (d : Dwpald) {msg cmd : WvIpcMsg}
    (hcmd : commandOf msg = some (seqNum, cmd)) :
    (∃ sent, d.replies w ipsta msg = some sent ∧ OneFinalReply ipsta seqNum sent) ↔
      hangs cmd = false ∧ SingleReply w ipsta msg := by
  rw [← serve_one w d hcmd]
  simp only [Dwpald.replies, hcmd]
  cases hhangs : hangs cmd with
  | true => simp
  | false => simp

end Commands

/-- A netlink message that is a header without flags. -/
def bareNlMsg : NlMsg := ⟨[16, 0, 0, 0, 0, 0, 0, 0, 0, 0, 0, 0, 0, 0, 0, 0], by decide⟩

/-- The message that brings a netlink command to the daemon. -/
def nlCommand (seqNum : UInt8) (nlmsg : NlMsg) : WvIpcMsg :=
  (ipcHeaderPush
    (dwpaldHeaderPush (dwpaldIpcMsgFromNlMsg .zeroing nlmsg (Buffer.fill waveIpcBuffSize 0))
    ⟨dwpaldCmd, dwpaldIfTypeKernel, 0, 0, 0, 0⟩).2 ⟨waveIpcMsgCmd, seqNum, 0, 0⟩).2

theorem nlCommand_spec (seqNum : UInt8) (nlmsg : NlMsg) :
    (nlCommand seqNum nlmsg).Headers
        ([DwpaldHeader.bytes ⟨dwpaldCmd, dwpaldIfTypeKernel, 0, 0, 0, 0⟩] ++
          [IpcHeader.bytes ⟨waveIpcMsgCmd, seqNum, 0, 0⟩]) ∧
      (nlCommand seqNum nlmsg).data =
        (dwpaldIpcMsgFromNlMsg .zeroing nlmsg (Buffer.fill waveIpcBuffSize 0)).data ∧
      (nlCommand seqNum nlmsg).dataLen =
        (dwpaldIpcMsgFromNlMsg .zeroing nlmsg (Buffer.fill waveIpcBuffSize 0)).dataLen := by
  have hempty : (dwpaldIpcMsgFromNlMsg .zeroing nlmsg (Buffer.fill waveIpcBuffSize 0)).Headers [] :=
    headers_of_hdr (headers_alloc _) (fillData_hdr _ _ _)
  obtain ⟨cmd, hpush, hcmd, hdata, hlen⟩ :=
    dwpaldHeaderPush_first hempty ⟨dwpaldCmd, dwpaldIfTypeKernel, 0, 0, 0, 0⟩
  obtain ⟨msg, hpush', hmsg, hdata', hlen'⟩ :=
    ipcHeaderPush_top hcmd (by simp [encode_cons]) ⟨waveIpcMsgCmd, seqNum, 0, 0⟩
  rw [nlCommand, hpush, hpush']
  exact ⟨hmsg, hdata'.trans hdata, hlen'.trans hlen⟩

theorem oneFinalReply_bare :
    ∃ sent, startedDwpald.replies (deliveringWorld [bareNlMsg]) 3 (nlCommand 7 bareNlMsg) =
      some sent ∧ OneFinalReply 3 7 sent := by
  obtain ⟨hmsg, -, -⟩ := nlCommand_spec 7 bareNlMsg
  obtain ⟨cmd, hcmd, hheaders⟩ := commandOf_headers hmsg
  apply (oneFinalReply (deliveringWorld [bareNlMsg]) startedDwpald hcmd).mpr
  have hhangs : hangs cmd = false :=
    @hangs_headers cmd [⟨dwpaldCmd, dwpaldIfTypeKernel, 0, 0, 0, 0⟩] (Nat.le_refl 1) hheaders
  refine ⟨hhangs, ?_⟩
  intro _ _ _ _
  exact .inr (Nat.le_refl 1)

/-- The work that the command becomes, at its kernel manager. -/
theorem handle_nlCommand (ipsta : Station) (seqNum : UInt8) (nlmsg : NlMsg) :
    ∃ cmd, waveIpcsHandleStationMsg ipsta (nlCommand seqNum nlmsg) =
        .work .kernel (.cmd ⟨cmd, seqNum, ipsta⟩) ∧
      cmd.data = (dwpaldIpcMsgFromNlMsg .zeroing nlmsg (Buffer.fill waveIpcBuffSize 0)).data ∧
      cmd.dataLen =
        (dwpaldIpcMsgFromNlMsg .zeroing nlmsg (Buffer.fill waveIpcBuffSize 0)).dataLen := by
  obtain ⟨hmsg, hdata, hlen⟩ := nlCommand_spec seqNum nlmsg
  obtain ⟨atDaemon, hdaemon, hdata', hlen', hhandle⟩ := @handleStationMsg_cmd ipsta _ _ _ hmsg
  obtain ⟨atMan, -, hdata'', hlen'', hmake⟩ :=
    @ifaceManagerStaCmdAsync_eq ipsta seqNum _ _ hdaemon
  refine ⟨atMan, ?_, hdata''.trans (hdata'.trans hdata), hlen''.trans (hlen'.trans hlen)⟩
  have hdispatch : dispatchCmd ⟨dwpaldCmd, dwpaldIfTypeKernel, 0, 0, 0, 0⟩ ipsta seqNum atDaemon =
      some (.kernel, .cmd ⟨atMan, seqNum, ipsta⟩) := by
    rw [dispatchCmd, if_pos (.inl rfl), if_neg (by decide), if_pos rfl, hmake]
    rfl
  rw [hhandle, hdispatch]

/-- Two messages of libnl for a command that is no dump make two final replies. -/
theorem two_final_replies :
    (∃ cmd, commandOf (nlCommand 7 bareNlMsg) = some (7, cmd)) ∧
      ¬∃ sent, startedDwpald.replies (deliveringWorld [bareNlMsg, bareNlMsg]) 3
          (nlCommand 7 bareNlMsg) = some sent ∧ OneFinalReply 3 7 sent := by
  obtain ⟨hmsg, -, -⟩ := nlCommand_spec 7 bareNlMsg
  obtain ⟨cmd, hcmd, -⟩ := commandOf_headers hmsg
  refine ⟨⟨cmd, hcmd⟩, ?_⟩
  rintro ⟨sent, hsent, hone⟩
  obtain ⟨work, hhandle, hdata, hlen⟩ := handle_nlCommand 3 7 bareNlMsg
  have hserve : sent = (startedDwpald.serve (deliveringWorld [bareNlMsg, bareNlMsg]) 3
      (nlCommand 7 bareNlMsg)).2 := by
    simp only [Dwpald.replies, hcmd] at hsent
    split_ifs at hsent
    exact (Option.some.inj hsent).symm
  rw [hserve, serve_one _ _ hcmd] at hone
  have hfill : dwpaldIpcMsgFromNlMsg .zeroing bareNlMsg (Buffer.fill waveIpcBuffSize 0) =
      { waveIpcMsgAlloc (Buffer.fill waveIpcBuffSize 0) with
        data := (Buffer.fill waveIpcBuffSize 0).memcpyS 0 bareNlMsg.mem
        dataLen := 16
        dataLen_le := by decide } := rfl
  have hget : waveIpcMsgGetData work = some work.data.bytes := by
    rw [waveIpcMsgGetData, if_neg]
    rw [hlen, hfill]
    decide
  have hbytes : ∀ i < 16, work.data.bytes.getD i 0 = bareNlMsg.mem.getD i 0 := by
    intro i hi
    have htake : work.data.bytes.take 16 = bareNlMsg.mem := by
      have hfit : 0 + bareNlMsg.mem.length ≤ waveIpcBuffSize := by decide
      rw [hdata, hfill, Buffer.memcpyS_eq hfit]
      exact Buffer.take_write hfit
    rw [← htake, getD_take, if_pos hi]
  have hmsg : dwpaldNlMsgFromIpcMsg .zeroing work [] =
      some (Libnl.zeroing.nlmsgConvert work.data.bytes) := by
    rw [dwpaldNlMsgFromIpcMsg, hget, Option.map_some, List.append_nil]
  rcases hone ⟨work, 7, 3⟩ hhandle _ hmsg with hmulti | hmany
  · have hlen16 : nlmsgLen work.data.bytes = 16 := by
      simp only [nlmsgLen, le32, hbytes 0 (by decide), hbytes 1 (by decide), hbytes 2 (by decide),
        hbytes 3 (by decide)]
      decide
    have hflags : nlmsgFlags (Libnl.zeroing.nlmsgConvert work.data.bytes).mem = 0 := by
      simp only [Libnl.zeroing, Libnl.nlmsgConvertMem, nlmsgFlags, getD_append_zeros,
        getD_take, hlen16, hbytes 6 (by decide), hbytes 7 (by decide)]
      decide
    simp [isMultiMsg, hflags] at hmulti
  · simp [deliveringWorld] at hmany

end Dwpal.Daemon
