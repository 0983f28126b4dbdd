import Dwpal.Ipc.Header

/-! One command and its replies: what the server sends to a station, and what
`wave_ipcc_send_cmd` makes of the replies that arrive. The sends of both sides succeed. -/

namespace Dwpal.Ipc

open Frames

def waveIpcMsgCmd : UInt8 := 1

def waveIpcMsgResp : UInt8 := 2

def waveIpcMsgReqFail : UInt8 := 4

def waveIpcMsgEvent : UInt8 := 5

/-- A `wv_ipstation`. -/
abbrev Station := Nat

/-- A message that the server has sent to a station. -/
structure Sent where
  ipsta : Station
  msg : WvIpcMsg

/-- `wave_ipcs_send_response_to`: the reply with its ipc header, if there is room for one. -/
def waveIpcsSendResponseTo (ipsta : Station) (seqNum : UInt8) (reply : WvIpcMsg)
    (hasMore : UInt8) : WvIpcRet × List Sent :=
  match ipcHeaderPush reply ⟨waveIpcMsgResp, seqNum, hasMore, 0⟩ with
  | (0, reply) => (.success, [⟨ipsta, reply⟩])
  | _ => (.error, [])

/-- `wave_ipcs_send_req_failed_to`; the pool hands out an object that holds `stale`. -/
def waveIpcsSendReqFailedTo (ipsta : Station) (seqNum : UInt8)
    (stale : Buffer waveIpcBuffSize) : WvIpcRet × List Sent :=
  match ipcHeaderPush (waveIpcMsgAlloc stale) ⟨waveIpcMsgReqFail, seqNum, 0, 0⟩ with
  | (0, reply) => (.success, [⟨ipsta, reply⟩])
  | _ => (.error, [])

/-- The loop of `wave_ipcc_send_cmd_no_listener` over the messages that arrive, with the parts
`multiOut` of the reply that are there: what it returns, and the reply. A message whose header
cannot be read ends the connection, and when no further message arrives the call times out. -/
def awaitReply (seqNum : UInt8) : List WvIpcMsg → List WvIpcMsg → WvIpcRet × List WvIpcMsg
  | _, [] => (.error, [])
  | multiOut, out :: incoming =>
    match ipcHeaderPop out with
    | .diverges | .failed _ => (.disconnected, [])
    | .popped hdr out =>
      if hdr.header0 = waveIpcMsgResp ∨ hdr.header0 = waveIpcMsgReqFail then
        if hdr.header1 = seqNum then
          if hdr.header0 = waveIpcMsgReqFail then (.cmdFailed, [out])
          else if hdr.header2 = 0 then (.success, multiOut ++ [out])
          else awaitReply seqNum (multiOut ++ [out]) incoming
        else awaitReply seqNum multiOut incoming
      else awaitReply seqNum multiOut incoming

/-- What is outside the two parties while one command is exchanged: the sequence number, the
contents of the pooled objects that the command and the replies are received into, and the failure
that the call ends with, if the connection or the time fails it. -/
structure Link where
  seqNum : UInt8
  serverPool : Buffer waveIpcBuffSize
  clientPool : Nat → Buffer waveIpcBuffSize
  failure : Option WvIpcRet

/-- The messages to `ipsta` as they are in the objects of the client. -/
def Link.receive (link : Link) (ipsta : Station) (sent : List Sent) : List WvIpcMsg :=
  (sent.filter fun x => x.ipsta = ipsta).mapIdx fun i x => waveIpcTransfer x.msg (link.clientPool i)

/-- `wave_ipcc_send_cmd` of station `ipsta`: the command goes to `serve`, which handles it in its
state and answers. -/
def waveIpccSendCmd {δ : Type} (link : Link) (ipsta : Station)
    (serve : δ → WvIpcMsg → δ × List Sent)
    (d : δ) (cmd : WvIpcMsg) : WvIpcRet × List WvIpcMsg × δ :=
  match ipcHeaderPush cmd ⟨waveIpcMsgCmd, link.seqNum, 0, 0⟩ with
  | (0, cmd) =>
    let (d, sent) := serve d (waveIpcTransfer cmd link.serverPool)
    match link.failure with
    | some ret => (ret, [], d)
    | none =>
      let (ret, reply) := awaitReply link.seqNum [] (link.receive ipsta sent)
      (ret, reply, d)
  | _ => (.error, [], d)

@[simp] theorem length_ipcHeader (hdr : IpcHeader) : hdr.bytes.length = 5 := rfl

@[simp] theorem length_dwpaldHeader (hdr : DwpaldHeader) : hdr.bytes.length = 7 := rfl

theorem fits_ipcHeader (hdr : IpcHeader) : Fits hdr.bytes := by simp [Fits]

theorem fits_dwpaldHeader (hdr : DwpaldHeader) : Fits hdr.bytes := by simp [Fits]

/-- The first header on an empty stack. -/
theorem dwpaldHeaderPush_first {msg : WvIpcMsg} (hmsg : msg.Headers []) (hdr : DwpaldHeader) :
    ∃ msg', dwpaldHeaderPush msg hdr = (0, msg') ∧ msg'.Headers [hdr.bytes] ∧
      msg'.data = msg.data ∧ msg'.dataLen = msg.dataLen :=
  headerPush_headers hmsg (fits_dwpaldHeader hdr) (by simp [ipcMsgHdrSize])

theorem dwpaldHeaderPop_last {msg : WvIpcMsg} {hdr : DwpaldHeader}
    (hmsg : msg.Headers [hdr.bytes]) :
    ∃ msg', dwpaldHeaderPop msg = .popped hdr msg' ∧ msg'.Headers [] ∧
      msg'.data = msg.data ∧ msg'.dataLen = msg.dataLen :=
  headerPop_headers (List.nil_append [hdr.bytes] ▸ hmsg) (by simp) (DwpaldHeader.ofBytes_bytes hdr)

theorem dwpaldHeaderPeek_last {msg : WvIpcMsg} {hdr : DwpaldHeader}
    (hmsg : msg.Headers [hdr.bytes]) :
    ∃ msg', dwpaldHeaderPeek msg = .popped hdr msg' ∧ msg'.Headers [hdr.bytes] ∧
      msg'.data = msg.data ∧ msg'.dataLen = msg.dataLen := by
  obtain ⟨popped, hpop, hempty, hdata, hlen⟩ := dwpaldHeaderPop_last hmsg
  obtain ⟨msg', hpush, hheaders, hdata', hlen'⟩ := dwpaldHeaderPush_first hempty hdr
  refine ⟨msg', ?_, hheaders, hdata'.trans hdata, hlen'.trans hlen⟩
  simp only [dwpaldHeaderPeek, hpop, hpush]

/-- The ipc header on top of the header of the daemon's protocol, or alone. -/
theorem ipcHeaderPush_top {msg : WvIpcMsg} {fs : List (List UInt8)} (hmsg : msg.Headers fs)
    (hroom : (encode fs).length ≤ 8) (hdr : IpcHeader) :
    ∃ msg', ipcHeaderPush msg hdr = (0, msg') ∧ msg'.Headers (fs ++ [hdr.bytes]) ∧
      msg'.data = msg.data ∧ msg'.dataLen = msg.dataLen :=
  headerPush_headers hmsg (fits_ipcHeader hdr) (by simp [ipcMsgHdrSize]; omega)

theorem ipcHeaderPop_top {msg : WvIpcMsg} {fs : List (List UInt8)} {hdr : IpcHeader}
    (hmsg : msg.Headers (fs ++ [hdr.bytes])) :
    ∃ msg', ipcHeaderPop msg = .popped hdr msg' ∧ msg'.Headers fs ∧
      msg'.data = msg.data ∧ msg'.dataLen = msg.dataLen :=
  headerPop_headers hmsg (by simp) (IpcHeader.ofBytes_bytes hdr)

theorem payload_eq_of_same {msg msg' : WvIpcMsg} (hdata : msg'.data = msg.data)
    (hlen : msg'.dataLen = msg.dataLen) : msg'.payload = msg.payload := by
  rw [WvIpcMsg.payload, WvIpcMsg.payload, hdata, hlen]

/-- A reply carries `fs` below an ipc header that names the sequence number and says whether more
parts follow. -/
structure Answers (x : Sent) (ipsta : Station) (hdr : IpcHeader) (fs : List (List UInt8))
    (bytes : List UInt8) : Prop where
  ipsta_eq : x.ipsta = ipsta
  headers : x.msg.Headers (fs ++ [hdr.bytes])
  payload : x.msg.payload = bytes

/-- `wave_ipcs_send_response_to` of a message with at most one header. -/
theorem sendResponseTo_answers {reply : WvIpcMsg} {fs : List (List UInt8)}
    (hreply : reply.Headers fs) (hroom : (encode fs).length ≤ 8) (ipsta : Station)
    (seqNum hasMore : UInt8) :
    ∃ x, waveIpcsSendResponseTo ipsta seqNum reply hasMore = (.success, [x]) ∧
      Answers x ipsta ⟨waveIpcMsgResp, seqNum, hasMore, 0⟩ fs reply.payload := by
  obtain ⟨msg, hpush, hheaders, hdata, hlen⟩ :=
    ipcHeaderPush_top hreply hroom ⟨waveIpcMsgResp, seqNum, hasMore, 0⟩
  refine ⟨⟨ipsta, msg⟩, ?_, rfl, hheaders, payload_eq_of_same hdata hlen⟩
  simp only [waveIpcsSendResponseTo, hpush]

theorem sendReqFailedTo_answers (ipsta : Station) (seqNum : UInt8)
    (stale : Buffer waveIpcBuffSize) :
    ∃ x, waveIpcsSendReqFailedTo ipsta seqNum stale = (.success, [x]) ∧
      Answers x ipsta ⟨waveIpcMsgReqFail, seqNum, 0, 0⟩ [] [] := by
  obtain ⟨msg, hpush, hheaders, hdata, hlen⟩ :=
    ipcHeaderPush_top (headers_alloc stale) (by simp) ⟨waveIpcMsgReqFail, seqNum, 0, 0⟩
  refine ⟨⟨ipsta, msg⟩, ?_, rfl, hheaders, ?_⟩
  · simp only [waveIpcsSendReqFailedTo, hpush]
  · exact payload_eq_of_same hdata hlen

/-- A reply at the client, without its ipc header. -/
theorem Answers.receive {x : Sent} {ipsta : Station} {hdr : IpcHeader} {fs : List (List UInt8)}
    {bytes : List UInt8} (h : Answers x ipsta hdr fs bytes) (stale : Buffer waveIpcBuffSize) :
    ∃ msg, ipcHeaderPop (waveIpcTransfer x.msg stale) = .popped hdr msg ∧ msg.Headers fs ∧
      msg.payload = bytes := by
  obtain ⟨msg, hpop, hheaders, hdata, hlen⟩ := ipcHeaderPop_top (headers_transfer h.headers stale)
  refine ⟨msg, hpop, hheaders, ?_⟩
  rw [payload_eq_of_same hdata hlen, payload_transfer, h.payload]

/-- A single reply that says that the request failed. -/
theorem awaitReply_reqFail {x : Sent} {ipsta : Station} {seqNum : UInt8} {bytes : List UInt8}
    (h : Answers x ipsta ⟨waveIpcMsgReqFail, seqNum, 0, 0⟩ [] bytes)
    (stale : Buffer waveIpcBuffSize) (multiOut : List WvIpcMsg) :
    ∃ msg, awaitReply seqNum multiOut [waveIpcTransfer x.msg stale] = (.cmdFailed, [msg]) := by
  obtain ⟨msg, hpop, -, -⟩ := h.receive stale
  refine ⟨msg, ?_⟩
  simp [awaitReply, hpop]

/-- A final reply ends the wait. -/
theorem awaitReply_final {x : Sent} {ipsta : Station} {seqNum : UInt8} {fs : List (List UInt8)}
    {bytes : List UInt8} (h : Answers x ipsta ⟨waveIpcMsgResp, seqNum, 0, 0⟩ fs bytes)
    (stale : Buffer waveIpcBuffSize) (multiOut incoming : List WvIpcMsg) :
    ∃ msg, awaitReply seqNum multiOut (waveIpcTransfer x.msg stale :: incoming) =
        (.success, multiOut ++ [msg]) ∧ msg.Headers fs ∧ msg.payload = bytes := by
  obtain ⟨msg, hpop, hheaders, hpayload⟩ := h.receive stale
  refine ⟨msg, ?_, hheaders, hpayload⟩
  simp [awaitReply, hpop, waveIpcMsgResp, waveIpcMsgReqFail]

/-- What a call ends with after the server has answered. -/
def Link.finish {δ : Type} (link : Link) (ipsta : Station) (answer : δ × List Sent) :
    WvIpcRet × List WvIpcMsg × δ :=
  match link.failure with
  | some ret => (ret, [], answer.1)
  | none =>
    ((awaitReply link.seqNum [] (link.receive ipsta answer.2)).1,
      (awaitReply link.seqNum [] (link.receive ipsta answer.2)).2, answer.1)

/-- The server gets the command with its ipc header, in an object whose data area holds what was
there before behind the payload. -/
theorem waveIpccSendCmd_eq {δ : Type} (link : Link) (ipsta : Station)
    (serve : δ → WvIpcMsg → δ × List Sent) (d : δ) {cmd : WvIpcMsg} {hdr : DwpaldHeader}
    (hcmd : cmd.Headers [hdr.bytes]) :
    ∃ msg, msg.Headers ([hdr.bytes] ++ [IpcHeader.bytes ⟨waveIpcMsgCmd, link.seqNum, 0, 0⟩]) ∧
      msg.dataLen = cmd.dataLen ∧ msg.data = link.serverPool.write 0 cmd.payload ∧
      waveIpccSendCmd link ipsta serve d cmd = link.finish ipsta (serve d msg) := by
  obtain ⟨pushed, hpush, hheaders, hdata, hlen⟩ :=
    ipcHeaderPush_top hcmd (by simp [encode_cons]) ⟨waveIpcMsgCmd, link.seqNum, 0, 0⟩
  refine ⟨waveIpcTransfer pushed link.serverPool, headers_transfer hheaders _, hlen, ?_, ?_⟩
  · rw [waveIpcTransfer, payload_eq_of_same hdata hlen]
  · simp only [waveIpccSendCmd, hpush, Link.finish]

/-- The only message to the station is received. -/
theorem Link.receive_single (link : Link) {x : Sent} {ipsta : Station} (h : x.ipsta = ipsta) :
    link.receive ipsta [x] = [waveIpcTransfer x.msg (link.clientPool 0)] := by
  simp [Link.receive, h]

end Dwpal.Ipc
