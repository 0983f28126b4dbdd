import Dwpal.Client.HostapEvents
import Dwpal.Daemon.HostapRegistration

/-! The registration of hostap events from end to end: the request that `daemon/dwpald_client.c`
encodes for an attach or an update of the events, the way over the socket, and what the daemon
leaves registered for the station. -/

namespace Dwpal.Client

open Ipc Daemon Frames

/-- `dwpald_ret`. -/
inductive DwpaldRet where
  | success
  | disconnected
  | dwpalFailure
  | dwpalIfaceIsDown
  | failed
  | error
deriving DecidableEq, Repr

/-- `dwpald_hostap_attachment`; `common_event` may be `NULL`. -/
structure DwpaldHostapAttachment where
  ifname : IfName
  commonEvent : Option Clb
  hostapEvents : List DwpaldHostapEventWithId
  state : UInt8

/-- `char ifname[IFNAMSIZ + 1]` from the name that the caller passes. -/
def ifName (ifname : List UInt8) : IfName := CString.copyFrom ifname ifnamsiz ifName_pos

/-- The attachment that `dwpald_hostap_attach_ex_with_id` makes before it sends the attach. -/
def newAttachment (ifname : List UInt8) (commonEvent : Option Clb)
    (hapEvents : List DwpaldHostapEventWithId) : DwpaldHostapAttachment :=
  ⟨ifName ifname, commonEvent, hapEvents, interfaceDwpalStateDisconnected⟩

/-- The length of the request: the name of the interface, the events, and a last zero byte. -/
def reqLen (hapEvents : List DwpaldHostapEventWithId) : Nat :=
  ifnamsiz + 1 + (hapEvents.map fun hapEvent => hapEvent.opCodeLen.toNat + 1).sum + 1

/-- The loop that writes the events into the request: the length byte, and the op_code as `%s`
prints it, with the terminator that the next event overwrites. -/
def putHostapEvents {n : Nat} : List DwpaldHostapEventWithId → Buffer n → Nat → Buffer n
  | [], regRequest, _ => regRequest
  | hapEvent :: hapEvents, regRequest, written =>
    putHostapEvents hapEvents
      (regRequest.write written (hapEvent.opCodeLen :: (hapEvent.opCode ++ [0])))
      (written + (1 + hapEvent.opCode.length))

/-- The request of `dwpald_send_hostap_attach` and of `dwpald_send_hostap_update_event`. -/
def regRequest (ifname : List UInt8) (hapEvents : List DwpaldHostapEventWithId) :
    Buffer (reqLen hapEvents) :=
  putHostapEvents hapEvents
    ((Buffer.fill (reqLen hapEvents) 0).write 0
      (strncpyS (reqLen hapEvents) ifname ifnamsiz ++ [0]))
    (ifnamsiz + 1)

/-- What is outside a client while it has the daemon serve one request. -/
structure Path where
  link : Link
  ipsta : Station
  world : World
  pool : Buffer waveIpcBuffSize

/-- The `switch` of `dwpald_send_attach_cmd` and of `dwpald_send_update_event_cmd`. The header of
the response is the one thing of it that the callers use. -/
def regCmdResult (respType ifType : UInt8) :
    WvIpcRet × List WvIpcMsg × Dwpald → DwpaldRet × Option DwpaldHeader × Dwpald
  | (.success, resp :: _, d) =>
    match dwpaldHeaderPop resp with
    | .popped respHdr _ =>
      if respHdr.header0 = respType ∧ respHdr.header1 = ifType then (.success, some respHdr, d)
      else (.error, none, d)
    | _ => (.error, none, d)
  | (.success, [], d) | (.error, _, d) | (.cmdFailed, _, d) => (.error, none, d)
  | (_, _, d) => (.disconnected, none, d)

/-- The message that carries a registration request. A request that does not fit is not filled in,
and the failure is not looked at. -/
def regCmd (reqType ifType : UInt8) (pool : Buffer waveIpcBuffSize) (regRequest : List UInt8) :
    WvIpcMsg :=
  let regCmd := (dwpaldHeaderPush (waveIpcMsgAlloc pool) ⟨reqType, ifType, 0, 0, 0, 0⟩).2
  (waveIpcMsgFillData regCmd (some regRequest) regRequest.length).2

/-- `dwpald_send_attach_cmd` and `dwpald_send_update_event_cmd`, which differ in the type of the
request and of the response. -/
def sendRegCmd (reqType respType : UInt8) (p : Path) (d : Dwpald) (regRequest : List UInt8)
    (ifType : UInt8) : DwpaldRet × Option DwpaldHeader × Dwpald :=
  regCmdResult respType ifType (waveIpccSendCmd p.link p.ipsta (Dwpald.serve p.world p.ipsta) d
    (regCmd reqType ifType p.pool regRequest))

/-- `dwpald_send_attach_cmd`. -/
def dwpaldSendAttachCmd (p : Path) (d : Dwpald) (regRequest : List UInt8) (ifType : UInt8) :
    DwpaldRet × Option DwpaldHeader × Dwpald :=
  sendRegCmd dwpaldAttachReq dwpaldAttachResp p d regRequest ifType

/-- `dwpald_send_update_event_cmd`. -/
def dwpaldSendUpdateEventCmd (p : Path) (d : Dwpald) (regRequest : List UInt8) (ifType : UInt8) :
    DwpaldRet × Option DwpaldHeader × Dwpald :=
  sendRegCmd dwpaldUpdateEventReq dwpaldUpdateEventResp p d regRequest ifType

/-- `dwpald_send_hostap_attach`: the status, the attachment with its state, and the daemon. -/
def dwpaldSendHostapAttach (p : Path) (d : Dwpald) (hapAttach : DwpaldHostapAttachment) :
    DwpaldRet × DwpaldHostapAttachment × Dwpald :=
  match dwpaldSendAttachCmd p d (regRequest hapAttach.ifname.bytes hapAttach.hostapEvents).bytes
      dwpaldIfTypeHostap with
  | (ret, some respHdr, d) => (ret, { hapAttach with state := respHdr.header2 }, d)
  | (ret, none, d) => (ret, hapAttach, d)

/-- `dwpald_send_hostap_update_event`. -/
def dwpaldSendHostapUpdateEvent (p : Path) (d : Dwpald) (ifname : List UInt8)
    (hapEvents : List DwpaldHostapEventWithId) : DwpaldRet × Dwpald :=
  match dwpaldSendUpdateEventCmd p d (regRequest ifname hapEvents).bytes dwpaldIfTypeHostap with
  | (ret, _, d) => (ret, d)

/-- The message that `dwpald_send_hostap_detach` sends: the bytes behind the name are those of the
pooled object. -/
def detachCmd (pool : Buffer waveIpcBuffSize) (ifname : List UInt8) : WvIpcMsg :=
  let cmd := (waveIpcMsgReserveData (waveIpcMsgAlloc pool) (ifnamsiz + 1)).2
  let cmd := { cmd with
    data := cmd.data.write 0 (strncpyS (ifnamsiz + 1) ifname ifnamsiz ++ [0]) }
  (dwpaldHeaderPush cmd ⟨dwpaldDetachReq, dwpaldIfTypeHostap, 0, 0, 0, 0⟩).2

/-- `dwpald_send_hostap_detach`. -/
def dwpaldSendHostapDetach (p : Path) (d : Dwpald) (ifname : List UInt8) : DwpaldRet × Dwpald :=
  match regCmdResult dwpaldDetachResp dwpaldIfTypeHostap
      (waveIpccSendCmd p.link p.ipsta (Dwpald.serve p.world p.ipsta) d
        (detachCmd p.pool ifname)) with
  | (ret, _, d) => (ret, d)

/-! The request as a list of bytes. -/

/-- The events as they stand in the request. -/
def eventFrames (hapEvents : List DwpaldHostapEventWithId) : List UInt8 :=
  hapEvents.flatMap fun hapEvent => hapEvent.opCodeLen :: hapEvent.opCode

/-- The request behind the name of the interface. -/
def reqEvents (hapEvents : List DwpaldHostapEventWithId) : List UInt8 :=
  eventFrames hapEvents ++
    List.replicate (reqLen hapEvents - (ifnamsiz + 1) - (eventFrames hapEvents).length) 0

/-- The name of the interface, padded with zeros. -/
def reqIfname (ifname : List UInt8) : List UInt8 :=
  (cstr ifname).take ifnamsiz ++
    List.replicate (ifnamsiz + 1 - ((cstr ifname).take ifnamsiz).length) 0

theorem length_reqIfname (ifname : List UInt8) : (reqIfname ifname).length = 17 := by
  simp [reqIfname, ifnamsiz]

theorem length_eventFrames_lt (hapEvents : List DwpaldHostapEventWithId) :
    ifnamsiz + 1 + (eventFrames hapEvents).length < reqLen hapEvents := by
  have hle : (eventFrames hapEvents).length ≤
      (hapEvents.map fun hapEvent => hapEvent.opCodeLen.toNat + 1).sum := by
    induction hapEvents with
    | nil => exact Nat.le_refl 0
    | cons hapEvent hapEvents ih =>
      have := hapEvent.length_le
      simp only [eventFrames, List.flatMap_cons, List.length_append, List.length_cons,
        List.map_cons, List.sum_cons] at ih ⊢
      omega
  rw [reqLen]
  omega

theorem length_reqEvents (hapEvents : List DwpaldHostapEventWithId) :
    (reqEvents hapEvents).length + 17 = reqLen hapEvents := by
  have := length_eventFrames_lt hapEvents
  simp only [ifnamsiz] at this
  rw [reqEvents, List.length_append, List.length_replicate, ifnamsiz]
  omega

/-- Writing into the zeros behind what is there. -/
theorem write_zeros {n k : Nat} {buf : Buffer n} {pre : List UInt8}
    (hbuf : buf.bytes = pre ++ List.replicate k 0) (xs : List UInt8) (hfit : xs.length + 1 ≤ k) :
    (buf.write pre.length (xs ++ [0])).bytes = pre ++ xs ++ List.replicate (k - xs.length) 0 := by
  have hlen := buf.length_eq
  rw [hbuf, List.length_append, List.length_replicate] at hlen
  rw [Buffer.write_bytes (by simp; omega), hbuf, List.take_left' rfl, List.drop_append,
    List.drop_of_length_le (by omega), List.nil_append, Nat.add_sub_cancel_left,
    List.drop_replicate, List.append_assoc, List.append_assoc, List.append_assoc]
  congr 2
  rw [List.length_append, List.length_singleton, ← List.replicate_one,
    List.replicate_append_replicate]
  congr 1
  omega

/-- The loop appends the events to what is written. -/
theorem putHostapEvents_bytes {n : Nat} : ∀ {hapEvents : List DwpaldHostapEventWithId}
    {buf : Buffer n} {pre : List UInt8} {k : Nat}, buf.bytes = pre ++ List.replicate k 0 →
      (eventFrames hapEvents).length + 1 ≤ k →
        (putHostapEvents hapEvents buf pre.length).bytes =
          pre ++ eventFrames hapEvents ++ List.replicate
            (k - (eventFrames hapEvents).length) 0 := by
  intro hapEvents
  induction hapEvents with
  | nil =>
    intro buf pre k hbuf _
    simpa [putHostapEvents, eventFrames] using hbuf
  | cons hapEvent hapEvents ih =>
    intro buf pre k hbuf hfit
    have hframes : eventFrames (hapEvent :: hapEvents) =
        (hapEvent.opCodeLen :: hapEvent.opCode) ++ eventFrames hapEvents := by
      simp [eventFrames]
    rw [hframes, List.length_append, List.length_cons] at hfit
    have hwrite := write_zeros hbuf (hapEvent.opCodeLen :: hapEvent.opCode)
      (by rw [List.length_cons]; omega)
    rw [putHostapEvents, show pre.length + (1 + hapEvent.opCode.length) =
      (pre ++ hapEvent.opCodeLen :: hapEvent.opCode).length by simp; omega]
    rw [List.cons_append] at hwrite
    rw [ih hwrite (by rw [List.length_cons]; omega), hframes, List.length_append, Nat.sub_sub,
      List.append_assoc pre]

/-- The request: the name of the interface, and the events. -/
theorem regRequest_bytes (ifname : List UInt8) (hapEvents : List DwpaldHostapEventWithId) :
    (regRequest ifname hapEvents).bytes = reqIfname ifname ++ reqEvents hapEvents := by
  have hlt := length_eventFrames_lt hapEvents
  have hname : strncpyS (reqLen hapEvents) ifname ifnamsiz = (cstr ifname).take ifnamsiz :=
    strncpyS_eq (by omega)
  have hle : ((cstr ifname).take ifnamsiz).length ≤ ifnamsiz := List.length_take_le ..
  have hfill : (Buffer.fill (reqLen hapEvents) 0).bytes =
      [] ++ List.replicate (reqLen hapEvents) 0 := rfl
  have hwrite := write_zeros hfill ((cstr ifname).take ifnamsiz) (by omega)
  rw [List.nil_append] at hwrite
  have hpad : (cstr ifname).take ifnamsiz ++
      List.replicate (reqLen hapEvents - ((cstr ifname).take ifnamsiz).length) 0 =
        reqIfname ifname ++ List.replicate (reqLen hapEvents - (ifnamsiz + 1)) 0 := by
    rw [reqIfname, List.append_assoc, List.replicate_append_replicate]
    congr 2
    omega
  rw [hpad] at hwrite
  rw [regRequest, hname, show ifnamsiz + 1 = (reqIfname ifname).length from
    (length_reqIfname ifname).symm]
  rw [show (0 : Nat) = ([] : List UInt8).length from rfl,
    putHostapEvents_bytes hwrite (by omega), reqEvents, List.append_assoc]

/-! The request on its way to the daemon and the reply on its way back. -/

/-- What arrives of a request: all of it, or nothing when it does not fit into a message. -/
def carried (regRequest : List UInt8) : List UInt8 :=
  if regRequest.length ≤ waveIpcBuffSize then regRequest else []

theorem regCmd_spec (reqType ifType : UInt8) (pool : Buffer waveIpcBuffSize)
    (regRequest : List UInt8) :
    (regCmd reqType ifType pool regRequest).Headers
        [DwpaldHeader.bytes ⟨reqType, ifType, 0, 0, 0, 0⟩] ∧
      (regCmd reqType ifType pool regRequest).payload = carried regRequest := by
  obtain ⟨msg, hpush, hheaders, hdata, hlen⟩ :=
    dwpaldHeaderPush_first (headers_alloc pool) ⟨reqType, ifType, 0, 0, 0, 0⟩
  have hempty : msg.dataLen = 0 := hlen
  simp only [regCmd, hpush]
  refine ⟨⟨hheaders.fits, hheaders.room, ?_⟩, ?_⟩
  · rw [fillData_hdr, hheaders.area]
  · rw [carried]
    split
    · next hfit => exact (fillData_payload hempty hfit).2
    · next hlong =>
      rw [fillData_tooLong (Nat.not_le.mp hlong)]
      exact List.take_eq_nil_iff.mpr (Or.inl hempty)

/-- The daemon executes the work of a request that holds what is carried of it, in front of what the
object of the daemon held before. -/
theorem sendRegCmd_eq {reqType ifType : UInt8} {ifTy : IfType} (p : Path) (d : Dwpald)
    (regRequest : List UInt8) (respType : UInt8)
    (hreq : reqType = dwpaldCmd ∨ reqType = dwpaldAttachReq ∨ reqType = dwpaldDetachReq ∨
      reqType = dwpaldUpdateEventReq)
    (htype : ifType = ifTy.byte) :
    ∃ cmd : WvIpcMsg, cmd.data = p.link.serverPool.write 0 (carried regRequest) ∧
      cmd.dataLen = (carried regRequest).length ∧
      ∀ work, makeWork ⟨reqType, ifType, 0, 0, 0, 0⟩ p.ipsta p.link.seqNum cmd = some work →
        sendRegCmd reqType respType p d regRequest ifType =
          regCmdResult respType ifType (p.link.finish p.ipsta (d.execWork p.world ifTy work)) := by
  obtain ⟨hheaders, hpayload⟩ := regCmd_spec reqType ifType p.pool regRequest
  obtain ⟨msg, hmsg, hlen, hdata, hsend⟩ :=
    waveIpccSendCmd_eq p.link p.ipsta (Dwpald.serve p.world p.ipsta) d hheaders
  obtain ⟨cmd, hcmd, hdata', hlen', hserve⟩ := serve_eq p.world p.ipsta d hmsg hreq htype
  refine ⟨cmd, by rw [hdata', hdata, hpayload], ?_, ?_⟩
  · rw [hlen', hlen, ← hpayload, WvIpcMsg.length_payload]
  · intro work hwork
    rw [sendRegCmd, hsend, hserve work hwork]

/-- Whatever the client makes of the answer, the daemon is as it is after it. -/
theorem regCmdResult_daemon (respType ifType : UInt8) (link : Link) (ipsta : Station)
    (answer : Dwpald × List Sent) :
    (regCmdResult respType ifType (link.finish ipsta answer)).2.2 = answer.1 := by
  obtain ⟨d, sent⟩ := answer
  simp only [Link.finish]
  cases link.failure with
  | some ret => cases ret <;> rfl
  | none =>
    generalize awaitReply link.seqNum [] (link.receive ipsta sent) = reply
    obtain ⟨ret, parts⟩ := reply
    cases ret <;> cases parts <;> simp only [regCmdResult]
    next resp parts => split <;> [split; skip] <;> rfl

/-- A request that has failed fails for the client. -/
theorem regCmdResult_reqFailed {ε β : Type} (p : Path) (m : IfaceManager ε β)
    (respType ifType : UInt8) (d : Dwpald) :
    ∃ ret, ret ≠ DwpaldRet.success ∧
      regCmdResult respType ifType (p.link.finish p.ipsta
        (d, (requestFailed p.world m p.ipsta p.link.seqNum).2.2)) = (ret, none, d) := by
  obtain ⟨x, hsent, hx⟩ := requestFailed_answers p.world m p.ipsta p.link.seqNum
  rw [hsent, Link.finish]
  cases p.link.failure with
  | some ret => cases ret <;> exact ⟨_, DwpaldRet.noConfusion, rfl⟩
  | none =>
    obtain ⟨msg, hawait⟩ := awaitReply_reqFail hx (p.link.clientPool 0) []
    refine ⟨.error, DwpaldRet.noConfusion, ?_⟩
    simp only [Link.receive_single p.link hx.ipsta_eq, hawait]
    rfl

/-- The client takes a response, unless the link fails it. -/
theorem regCmdResult_response {ε β : Type} (p : Path) (init : ManagerInit ε β)
    (respType state : UInt8) (d : Dwpald) :
    (p.link.failure = none → regCmdResult respType init.iftype (p.link.finish p.ipsta
        (d, sendResponse p.world init p.ipsta p.link.seqNum respType state)) =
      (.success, some ⟨respType, init.iftype, state, 0, 0, 0⟩, d)) ∧
    (p.link.failure ≠ none → ∃ ret, ret ≠ DwpaldRet.success ∧
      regCmdResult respType init.iftype (p.link.finish p.ipsta
        (d, sendResponse p.world init p.ipsta p.link.seqNum respType state)) = (ret, none, d)) := by
  obtain ⟨x, hsent, hx⟩ := sendResponse_answers p.world init p.ipsta p.link.seqNum respType state
  rw [hsent, Link.finish]
  cases p.link.failure with
  | some ret =>
    refine ⟨fun h => (by cases h), fun _ => ?_⟩
    cases ret <;> exact ⟨_, DwpaldRet.noConfusion, rfl⟩
  | none =>
    refine ⟨fun _ => ?_, fun h => absurd rfl h⟩
    obtain ⟨msg, hawait, hheaders, -⟩ := awaitReply_final hx (p.link.clientPool 0) [] []
    obtain ⟨msg', hpop, -⟩ := dwpaldHeaderPop_last hheaders
    simp only [Link.receive_single p.link hx.ipsta_eq, hawait, List.nil_append]
    simp [regCmdResult, hpop]

theorem dwpaldSendHostapAttach_eq (p : Path) (d : Dwpald) (hapAttach : DwpaldHostapAttachment) :
    (dwpaldSendHostapAttach p d hapAttach).1 =
        (sendRegCmd dwpaldAttachReq dwpaldAttachResp p d
          (regRequest hapAttach.ifname.bytes hapAttach.hostapEvents).bytes dwpaldIfTypeHostap).1 ∧
      (dwpaldSendHostapAttach p d hapAttach).2.2 =
        (sendRegCmd dwpaldAttachReq dwpaldAttachResp p d
          (regRequest hapAttach.ifname.bytes hapAttach.hostapEvents).bytes
          dwpaldIfTypeHostap).2.2 := by
  simp only [dwpaldSendHostapAttach, dwpaldSendAttachCmd]
  generalize sendRegCmd dwpaldAttachReq dwpaldAttachResp p d
    (regRequest hapAttach.ifname.bytes hapAttach.hostapEvents).bytes dwpaldIfTypeHostap = result
  obtain ⟨ret, respHdr, d'⟩ := result
  cases respHdr <;> exact ⟨rfl, rfl⟩

theorem dwpaldSendHostapUpdateEvent_eq (p : Path) (d : Dwpald) (ifname : List UInt8)
    (hapEvents : List DwpaldHostapEventWithId) :
    dwpaldSendHostapUpdateEvent p d ifname hapEvents =
      ((sendRegCmd dwpaldUpdateEventReq dwpaldUpdateEventResp p d
          (regRequest ifname hapEvents).bytes dwpaldIfTypeHostap).1,
        (sendRegCmd dwpaldUpdateEventReq dwpaldUpdateEventResp p d
          (regRequest ifname hapEvents).bytes dwpaldIfTypeHostap).2.2) := by
  simp only [dwpaldSendHostapUpdateEvent, dwpaldSendUpdateEventCmd]

end Dwpal.Client
