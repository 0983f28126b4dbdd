import Dwpal.Lib.Machine
import Dwpal.Ipc.Msg

/-! One direction of a connection: `wave_ipc_send_msg` at one end of the socket, `wave_ipc_recv_msg`
at the other, and between them a stream of bytes that `send` and `recv` cut as they like. -/

namespace Dwpal.Ipc

open Machine WvIpcMsg

/-- `sizeof(wv_ipc_msg_info)`. -/
def sizeofInfo : Nat := 2 + ipcMsgHdrSize

/-- The bytes of `packet` that are to be sent: `data_len`, the header area, and the payload. Both
ends are on one host, so the order of the bytes of `data_len` is the same at both. -/
def WvIpcMsg.packet (msg : WvIpcMsg) : List UInt8 :=
  UInt8.ofNat (msg.dataLen % 256) :: UInt8.ofNat (msg.dataLen / 256) ::
    (msg.hdr.bytes ++ msg.payload)

/-- What `send` and `recv` come back with: -1 for a call that would block, -1 for another error, or
a number of bytes. -/
inductive SocketRes where
  | again
  | failed
  | count (n : Nat)
deriving DecidableEq

/-- `wave_ipc_send_msg` after its `send`. -/
def waveIpcSendMsg : SocketRes → WvIpcRet
  | .again => .cmdWouldBlock
  | .failed => .error
  | .count _ => .success

/-- Where `wave_ipc_recv_msg` is: it has returned an error or a message, or it goes on to receive
the payload. -/
inductive RecvProgress where
  | failed (ret : WvIpcRet)
  | received (msg : WvIpcMsg)
  | wantsData (msg : WvIpcMsg)

theorem length_hdrBytes {bytes : List UInt8} (h : ¬bytes.length < sizeofInfo) :
    ((bytes.drop 2).take ipcMsgHdrSize).length = ipcMsgHdrSize := by
  rw [sizeofInfo] at h
  rw [List.length_take, List.length_drop]
  omega

/-- `wave_ipc_recv_msg` behind its first `recv`, which has stored `info`, or returned -1; the pool
has handed out an object that holds `stale`. -/
def waveIpcRecvInfo (stale : Buffer waveIpcBuffSize) : Option (List UInt8) → RecvProgress
  | none => .failed .error
  | some info =>
    if info.length = 0 then .failed .disconnected
    else if hinfo : info.length < sizeofInfo then .failed .error
    else
      let dataLen := (info.getD 0 0).toNat + 256 * (info.getD 1 0).toNat
      if hlen : dataLen > waveIpcBuffSize then .failed .error
      else
        let msg : WvIpcMsg :=
          ⟨dataLen, Nat.le_of_not_gt hlen,
            ⟨(info.drop 2).take ipcMsgHdrSize, length_hdrBytes hinfo⟩, stale⟩
        if dataLen ≠ 0 then .wantsData msg else .received msg

/-- `wave_ipc_recv_msg` behind its second `recv`. -/
def waveIpcRecvData (msg : WvIpcMsg) : Option (List UInt8) → RecvProgress
  | none => .failed .error
  | some data =>
    if data.length ≠ msg.dataLen then .failed .error
    else .received { msg with data := msg.data.write 0 data }

/-- A connection. `stream` holds the bytes that are written and not yet read, `sent` the messages
whose `wave_ipc_send_msg` has returned `WAVE_IPC_SUCCESS`, `received` those that `wave_ipc_recv_msg`
has returned, and `reading` the message of a call that is between its two `recv`s. -/
structure Connection where
  stream : List UInt8
  closed : Bool
  sent : List WvIpcMsg
  reading : Option WvIpcMsg
  received : List WvIpcMsg
  dropped : Bool

def Connection.init : Connection := ⟨[], false, [], none, [], false⟩

/-- What happens on a connection: a call of `wave_ipc_send_msg`, the end of the sender, a call of
`wave_ipc_recv_msg` for which the pool has no object, and the two `recv`s of other calls. -/
inductive StreamAction where
  | sendMsg (msg : WvIpcMsg) (res : SocketRes)
  | close
  | recvNoMsg
  | recvInfo (stale : Buffer waveIpcBuffSize) (res : SocketRes)
  | recvData (res : SocketRes)

namespace Connection

/-- What `recv` of at most `len` bytes stores, `none` for -1. A count of 0 stands for the end of the
stream; a count that the stream cannot give is not enabled. -/
def recv (conn : Connection) (len : Nat) : SocketRes → Option (Option (List UInt8))
  | .again | .failed => some none
  | .count n =>
    if n ≤ len ∧ n ≤ conn.stream.length ∧ (n = 0 → conn.stream = [] ∧ conn.closed = true) then
      some (some (conn.stream.take n))
    else none

/-- The receiver goes on; where `wave_ipc_recv_msg` fails it drops the connection. -/
def progress (conn : Connection) : RecvProgress → Connection
  | .failed _ => { conn with reading := none, dropped := true }
  | .received msg => { conn with reading := none, received := conn.received ++ [msg] }
  | .wantsData msg => { conn with reading := some msg }

def step (conn : Connection) : StreamAction → Option Connection
  | .sendMsg msg res =>
    if conn.closed then none
    else
      match res with
      | .count n =>
        if 1 ≤ n ∧ n ≤ msg.packet.length then
          some { conn with
            stream := conn.stream ++ msg.packet.take n
            sent := if waveIpcSendMsg res = .success then conn.sent ++ [msg] else conn.sent }
        else none
      | _ => some { conn with
          sent := if waveIpcSendMsg res = .success then conn.sent ++ [msg] else conn.sent }
  | .close => some { conn with closed := true }
  | .recvNoMsg =>
    if conn.dropped ∨ conn.reading.isSome then none
    else some (conn.progress (.failed .error))
  | .recvInfo stale res =>
    if conn.dropped ∨ conn.reading.isSome then none
    else (conn.recv sizeofInfo res).map fun info =>
      { conn with stream := conn.stream.drop (info.getD []).length }.progress
        (waveIpcRecvInfo stale info)
  | .recvData res =>
    match conn.reading with
    | none => none
    | some msg => (conn.recv msg.dataLen res).map fun data =>
      { conn with stream := conn.stream.drop (data.getD []).length }.progress
        (waveIpcRecvData msg data)

end Connection

/-- What the user of a message sees: its headers and its payload. -/
structure Transmitted where
  hdr : List UInt8
  payload : List UInt8
deriving DecidableEq

def WvIpcMsg.transmitted (msg : WvIpcMsg) : Transmitted := ⟨msg.hdr.bytes, msg.payload⟩

/-- The messages received are the first ones of those sent, and all of them once a connection that
is not dropped has nothing more to read. -/
def Framed (conn : Connection) : Prop :=
  conn.received.map transmitted <+: conn.sent.map transmitted ∧
    (conn.dropped = false → conn.stream = [] →
      conn.received.map transmitted = conn.sent.map transmitted)

/-- A `send` that writes writes the whole packet. -/
def WholeSend (_ : Connection) : StreamAction → Prop
  | .sendMsg msg (.count n) => n = msg.packet.length
  | _ => True

/-- The messages `inflight` are the ones under way: their packets make up the stream, of which the
receiver has read the front of the first packet when it waits for a payload. -/
def UnderWay (inflight : List WvIpcMsg) (stream : List UInt8) : Option WvIpcMsg → Prop
  | none => stream = inflight.flatMap packet
  | some msg => ∃ next rest, inflight = next :: rest ∧ next.dataLen ≠ 0 ∧
      msg.dataLen = next.dataLen ∧ msg.hdr = next.hdr ∧
      stream = next.payload ++ rest.flatMap packet

structure StreamInv (conn : Connection) : Prop where
  ordered : conn.received.map transmitted <+: conn.sent.map transmitted
  idle : conn.dropped = true → conn.reading = none
  framed : conn.dropped = false → ∃ inflight : List WvIpcMsg,
    conn.sent.map transmitted = conn.received.map transmitted ++ inflight.map transmitted ∧
      UnderWay inflight conn.stream conn.reading

theorem length_packet (msg : WvIpcMsg) : msg.packet.length = sizeofInfo + msg.dataLen := by
  simp only [packet, List.length_cons, List.length_append, msg.hdr.length_eq, length_payload,
    sizeofInfo]
  omega

/-- The front of a packet, and what is behind it. -/
theorem packet_append (msg : WvIpcMsg) (rest : List UInt8) :
    (msg.packet ++ rest).take sizeofInfo =
        UInt8.ofNat (msg.dataLen % 256) :: UInt8.ofNat (msg.dataLen / 256) :: msg.hdr.bytes ∧
      (msg.packet ++ rest).drop sizeofInfo = msg.payload ++ rest := by
  have hsplit : msg.packet ++ rest =
      (UInt8.ofNat (msg.dataLen % 256) :: UInt8.ofNat (msg.dataLen / 256) :: msg.hdr.bytes) ++
        (msg.payload ++ rest) := by
    simp [packet]
  have hlen : (UInt8.ofNat (msg.dataLen % 256) :: UInt8.ofNat (msg.dataLen / 256) ::
      msg.hdr.bytes).length = sizeofInfo := by
    simp only [List.length_cons, msg.hdr.length_eq, sizeofInfo]
    omega
  rw [hsplit]
  exact ⟨List.take_left' hlen, List.drop_left' hlen⟩

/-- The two bytes of `data_len` read back. -/
theorem dataLen_bytes (msg : WvIpcMsg) :
    (UInt8.ofNat (msg.dataLen % 256)).toNat + 256 * (UInt8.ofNat (msg.dataLen / 256)).toNat =
      msg.dataLen := by
  have hle : msg.dataLen ≤ 20 * 1024 := msg.dataLen_le
  have hlo : (msg.dataLen % 256) % 2 ^ 8 = msg.dataLen % 256 := by omega
  have hhi : (msg.dataLen / 256) % 2 ^ 8 = msg.dataLen / 256 := by omega
  rw [UInt8.toNat_ofNat', UInt8.toNat_ofNat', hlo, hhi]
  omega

/-- What the first `recv` makes of the front of a packet. -/
theorem recvInfo_packet (msg : WvIpcMsg) (rest : List UInt8) (stale : Buffer waveIpcBuffSize) :
    waveIpcRecvInfo stale (some ((msg.packet ++ rest).take sizeofInfo)) =
      if msg.dataLen ≠ 0 then .wantsData { msg with data := stale }
      else .received { msg with data := stale } := by
  obtain ⟨dataLen, hle, ⟨hdr, hhdr⟩, data⟩ := msg
  have hbytes := dataLen_bytes ⟨dataLen, hle, ⟨hdr, hhdr⟩, data⟩
  have hlen : (UInt8.ofNat (dataLen % 256) :: UInt8.ofNat (dataLen / 256) :: hdr).length =
      sizeofInfo := by
    simp only [List.length_cons, hhdr, sizeofInfo]
    omega
  simp only [(packet_append _ rest).1, waveIpcRecvInfo]
  rw [if_neg (by simp), dif_neg (by omega)]
  simp only [List.getD_cons_zero, List.getD_cons_succ, List.drop_succ_cons,
    List.drop_zero] at hbytes ⊢
  simp only [hbytes, List.take_of_length_le (Nat.le_of_eq hhdr)]
  rw [dif_neg (Nat.not_lt.mpr hle)]

/-- What the second `recv` makes of a payload, or of the front of one. -/
theorem recvData_payload {msg next : WvIpcMsg} (hlen : msg.dataLen = next.dataLen)
    (hhdr : msg.hdr = next.hdr) (rest : List UInt8) {n : Nat} (hn : n ≤ next.dataLen) :
    (n = next.dataLen ∧ ∃ msg', waveIpcRecvData msg (some ((next.payload ++ rest).take n)) =
        .received msg' ∧ msg'.transmitted = next.transmitted) ∨
      waveIpcRecvData msg (some ((next.payload ++ rest).take n)) = .failed .error := by
  have htake : ((next.payload ++ rest).take n).length = n := by
    rw [List.length_take, List.length_append, length_payload]
    omega
  by_cases hall : n = next.dataLen
  · left
    have hpayload : (next.payload ++ rest).take n = next.payload :=
      List.take_left' ((length_payload next).trans hall.symm)
    refine ⟨hall, { msg with data := msg.data.write 0 next.payload }, ?_, ?_⟩
    · rw [hpayload, waveIpcRecvData, if_neg (by rw [length_payload, hlen]; exact fun h => h rfl)]
    · have hfit : 0 + next.payload.length ≤ waveIpcBuffSize := by
        rw [length_payload, Nat.zero_add]
        exact next.dataLen_le
      have hwrite := @Buffer.take_write _ msg.data 0 next.payload hfit
      rw [Nat.zero_add, length_payload, List.take_zero, List.nil_append] at hwrite
      show (⟨msg.hdr.bytes, (msg.data.write 0 next.payload).bytes.take msg.dataLen⟩ : Transmitted) =
        ⟨next.hdr.bytes, next.payload⟩
      rw [hhdr, hlen, hwrite]
  · right
    rw [waveIpcRecvData, if_pos (by rw [htake, hlen]; exact hall)]

/-- A call whose first `recv` gets less than the information ends with an error. -/
theorem recvInfo_short {info : List UInt8} (h : info.length < sizeofInfo)
    (stale : Buffer waveIpcBuffSize) : ∃ ret, waveIpcRecvInfo stale (some info) = .failed ret := by
  rw [waveIpcRecvInfo]
  by_cases hempty : info.length = 0
  · exact ⟨.disconnected, if_pos hempty⟩
  · exact ⟨.error, by rw [if_neg hempty, dif_pos h]⟩

theorem UnderWay.send {inflight : List WvIpcMsg} {stream : List UInt8} {reading : Option WvIpcMsg}
    (h : UnderWay inflight stream reading) (msg : WvIpcMsg) :
    UnderWay (inflight ++ [msg]) (stream ++ msg.packet) reading := by
  cases reading with
  | none =>
    have hstream : stream = inflight.flatMap packet := h
    simp [UnderWay, hstream]
  | some cur =>
    obtain ⟨next, rest, rfl, hdata, hlen, hhdr, rfl⟩ := h
    refine ⟨next, rest ++ [msg], rfl, hdata, hlen, hhdr, ?_⟩
    simp

/-- The stream behind the front of the first packet. -/
theorem recv_eq_some {conn : Connection} {len n : Nat} {got : Option (List UInt8)}
    (h : conn.recv len (.count n) = some got) :
    got = some (conn.stream.take n) ∧ n ≤ len ∧ n ≤ conn.stream.length ∧
      (n = 0 → conn.stream = []) := by
  simp only [Connection.recv] at h
  split at h
  · next hn =>
    cases h
    exact ⟨rfl, hn.1, hn.2.1, fun hzero => (hn.2.2 hzero).1⟩
  · cases h

namespace StreamInv

theorem init : StreamInv .init where
  ordered := List.prefix_rfl
  idle _ := rfl
  framed _ := ⟨[], rfl, rfl⟩

/-- A connection that is dropped keeps what was received. -/
theorem failed {conn : Connection} (h : StreamInv conn) (ret : WvIpcRet) (stream : List UInt8) :
    StreamInv ({ conn with stream := stream }.progress (.failed ret)) where
  ordered := h.ordered
  idle _ := rfl
  framed hdropped := by cases hdropped

theorem sendMsg {conn : Connection} (h : StreamInv conn) (msg : WvIpcMsg) :
    StreamInv { conn with stream := conn.stream ++ msg.packet, sent := conn.sent ++ [msg] } where
  ordered := by
    rw [List.map_append]
    exact h.ordered.trans (List.prefix_append _ _)
  idle := h.idle
  framed hdropped := by
    obtain ⟨inflight, hsent, hway⟩ := h.framed hdropped
    refine ⟨inflight ++ [msg], ?_, hway.send msg⟩
    simp only [List.map_append]
    rw [hsent, List.append_assoc]

/-- The next message under way is received. -/
theorem receive {conn : Connection} {msg next : WvIpcMsg} {rest : List WvIpcMsg}
    {stream : List UInt8}
    (hsent : conn.sent.map transmitted =
      conn.received.map transmitted ++ (next :: rest).map transmitted)
    (hmsg : msg.transmitted = next.transmitted) (hstream : stream = rest.flatMap packet) :
    StreamInv ({ conn with stream := stream }.progress (.received msg)) := by
  have hsent' : conn.sent.map transmitted =
      (conn.received ++ [msg]).map transmitted ++ rest.map transmitted := by
    rw [hsent, List.map_append, List.map_singleton, hmsg, List.append_assoc]
    rfl
  refine ⟨?_, fun _ => rfl, fun _ => ⟨rest, hsent', hstream⟩⟩
  show (conn.received ++ [msg]).map transmitted <+: conn.sent.map transmitted
  rw [hsent']
  exact List.prefix_append _ _

theorem recvInfo {conn : Connection} (h : StreamInv conn) (hdropped : conn.dropped = false)
    (hreading : conn.reading = none) (stale : Buffer waveIpcBuffSize) {n : Nat}
    (hn : n ≤ sizeofInfo) (hlen : n ≤ conn.stream.length) (hend : n = 0 → conn.stream = []) :
    StreamInv ({ conn with stream := conn.stream.drop n }.progress
      (waveIpcRecvInfo stale (some (conn.stream.take n)))) := by
  obtain ⟨inflight, hsent, hway⟩ := h.framed hdropped
  rw [hreading] at hway
  have hstream : conn.stream = inflight.flatMap packet := hway
  by_cases hshort : n < sizeofInfo
  · have htake : (conn.stream.take n).length < sizeofInfo := by
      rw [List.length_take]
      omega
    obtain ⟨ret, hret⟩ := recvInfo_short htake stale
    rw [hret]
    exact h.failed ret _
  obtain rfl : n = sizeofInfo := by omega
  cases inflight with
  | nil =>
    rw [hstream] at hlen
    exact absurd hlen (by simp [sizeofInfo])
  | cons next rest =>
    rw [List.flatMap_cons] at hstream
    rw [hstream, recvInfo_packet, (packet_append next _).2]
    by_cases hdata : next.dataLen ≠ 0
    · rw [if_pos hdata]
      refine ⟨h.ordered, fun hd => absurd (hdropped.symm.trans hd) (by decide), fun _ =>
        ⟨next :: rest, hsent, next, rest, rfl, hdata, rfl, rfl, rfl⟩⟩
    · rw [if_neg hdata]
      have hnil : next.payload = [] := by
        rw [← List.length_eq_zero_iff, length_payload]
        omega
      refine receive hsent ?_ (by rw [hnil, List.nil_append])
      show (⟨next.hdr.bytes, stale.bytes.take next.dataLen⟩ : Transmitted) =
        ⟨next.hdr.bytes, next.payload⟩
      rw [hnil, not_not.mp hdata, List.take_zero]

theorem recvData {conn : Connection} (h : StreamInv conn) (hdropped : conn.dropped = false)
    {msg : WvIpcMsg} (hreading : conn.reading = some msg) {n : Nat} (hn : n ≤ msg.dataLen) :
    StreamInv ({ conn with stream := conn.stream.drop n }.progress
      (waveIpcRecvData msg (some (conn.stream.take n)))) := by
  obtain ⟨inflight, hsent, hway⟩ := h.framed hdropped
  rw [hreading] at hway
  obtain ⟨next, rest, rfl, -, hlen, hhdr, hstream⟩ := hway
  rw [hlen] at hn
  rw [hstream]
  rcases recvData_payload hlen hhdr (rest.flatMap packet) hn with ⟨hall, msg', hret, hsame⟩ | hret
  · rw [hret]
    refine receive hsent hsame ?_
    rw [hall]
    exact List.drop_left' (length_payload next)
  · rw [hret]
    exact h.failed .error _

theorem step {conn conn' : Connection} {a : StreamAction} (h : StreamInv conn)
    (hwhole : WholeSend conn a) (hstep : conn.step a = some conn') : StreamInv conn' := by
  cases a with
  | sendMsg msg res =>
    simp only [Connection.step] at hstep
    split at hstep
    · cases hstep
    · cases res with
      | again =>
        cases hstep
        exact h
      | failed =>
        cases hstep
        exact h
      | count n =>
        obtain rfl : n = msg.packet.length := hwhole
        simp only [waveIpcSendMsg, if_true, List.take_length,
          Option.ite_none_right_eq_some] at hstep
        obtain ⟨-, hstep⟩ := hstep
        cases hstep
        exact h.sendMsg msg
  | close =>
    cases hstep
    exact ⟨h.ordered, h.idle, h.framed⟩
  | recvNoMsg =>
    simp only [Connection.step, Option.ite_none_left_eq_some] at hstep
    obtain ⟨-, hstep⟩ := hstep
    cases hstep
    exact h.failed .error _
  | recvInfo stale res =>
    simp only [Connection.step, Option.ite_none_left_eq_some, Option.map_eq_some_iff] at hstep
    obtain ⟨hidle, got, hrecv, rfl⟩ := hstep
    obtain ⟨hdropped, hreading⟩ := not_or.mp hidle
    cases res with
    | again =>
      cases hrecv
      exact h.failed .error _
    | failed =>
      cases hrecv
      exact h.failed .error _
    | count n =>
      obtain ⟨rfl, hn, hlen, hend⟩ := recv_eq_some hrecv
      simp only [Option.getD_some, List.length_take, Nat.min_eq_left hlen]
      exact h.recvInfo (by simpa using hdropped) (by simpa using hreading) stale hn hlen hend
  | recvData res =>
    simp only [Connection.step] at hstep
    split at hstep
    · cases hstep
    · next msg hreading =>
      simp only [Option.map_eq_some_iff] at hstep
      obtain ⟨got, hrecv, rfl⟩ := hstep
      have hdropped : conn.dropped = false := by
        by_contra hd
        rw [h.idle (by simpa using hd)] at hreading
        cases hreading
      cases res with
      | again =>
        cases hrecv
        exact h.failed .error _
      | failed =>
        cases hrecv
        exact h.failed .error _
      | count n =>
        obtain ⟨rfl, hn, hlen, -⟩ := recv_eq_some hrecv
        simp only [Option.getD_some, List.length_take, Nat.min_eq_left hlen]
        exact h.recvData hdropped hreading hn

/-- A receiver that has read everything has received everything. -/
theorem drained {conn : Connection} (h : StreamInv conn) : Framed conn := by
  refine ⟨h.ordered, fun hdropped hstream => ?_⟩
  obtain ⟨inflight, hsent, hway⟩ := h.framed hdropped
  cases hreading : conn.reading with
  | some msg =>
    rw [hreading, hstream] at hway
    obtain ⟨next, rest, -, hdata, -, -, hnil⟩ := hway
    have hpayload := (List.append_eq_nil_iff.mp hnil.symm).1
    rw [← List.length_eq_zero_iff, length_payload] at hpayload
    exact absurd hpayload hdata
  | none =>
    rw [hreading, hstream] at hway
    cases inflight with
    | nil => simpa using hsent.symm
    | cons next rest =>
      have hlen := congrArg List.length (show [] = (next :: rest).flatMap packet from hway)
      rw [List.flatMap_cons, List.length_append, length_packet] at hlen
      rw [List.length_nil, sizeofInfo] at hlen
      omega

end StreamInv

/-- In every run in which no `send` writes a part of a packet only, whatever the receiver's `recv`s
return, the messages are received as they were sent, or the connection is dropped. -/
theorem framing {conn : Connection} {acts : List StreamAction}
    (hwhole : Along Connection.step WholeSend .init acts)
    (hrun : exec Connection.step .init acts = some conn) : Framed conn :=
  (exec_along (fun h => h.step) StreamInv.init hwhole hrun).drained

/-- A message with no headers whose payload is `len` bytes `b`. -/
def plainMsg (b : UInt8) (len : Nat) (h : len ≤ waveIpcBuffSize) : WvIpcMsg :=
  ⟨len, h, Buffer.fill _ 0, Buffer.fill _ b⟩

/-- Two messages under way, the first one received in two parts. -/
def wholeRun : List StreamAction :=
  [.sendMsg (plainMsg 7 3 (by decide)) (.count 37), .sendMsg (plainMsg 9 0 (by decide)) (.count 34),
    .recvInfo (Buffer.fill _ 1) (.count 34), .recvData (.count 3)]

theorem wholeRun_whole : Along Connection.step WholeSend .init wholeRun := by
  refine ⟨(length_packet (plainMsg 7 3 (by decide))).symm, ?_⟩
  exact ⟨(length_packet (plainMsg 9 0 (by decide))).symm, trivial, trivial, trivial⟩

theorem framing_wholeRun : ∃ conn, exec Connection.step .init wholeRun = some conn ∧ Framed conn :=
  ⟨_, rfl, framing wholeRun_whole rfl⟩

/-- The first packet is written without its last byte, and the call reports success: the receiver
completes the payload with the first byte of the second packet. -/
def shortRun : List StreamAction :=
  [.sendMsg (plainMsg 7 3 (by decide)) (.count 36), .sendMsg (plainMsg 9 0 (by decide)) (.count 34),
    .recvInfo (Buffer.fill _ 1) (.count 34), .recvData (.count 3)]

theorem shortSend_breaks_framing :
    ¬∀ (conn : Connection) (acts : List StreamAction),
      exec Connection.step .init acts = some conn → Framed conn := by
  intro h
  have hordered := (h _ shortRun rfl).1
  revert hordered
  decide +kernel

end Dwpal.Ipc
