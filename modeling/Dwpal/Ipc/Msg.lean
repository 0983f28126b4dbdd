import Dwpal.Lib.Bytes
import Dwpal.Lib.Frames

/-! The messages of `wv_ipc/wave_ipc_core.c`: a payload of at most `WAVE_IPC_BUFF_SIZE` bytes in a
pooled buffer and a stack of headers in a 32-byte area, with the operations on both. -/

namespace Dwpal.Ipc

def waveIpcBuffSize : Nat := 20 * 1024

def ipcMsgHdrSize : Nat := 32

inductive WvIpcRet where
  | success
  | disconnected
  | error
  | cmdFailed
  | cmdWouldBlock
deriving DecidableEq, Repr

/-- A `wv_ipc_msg`, of which `packet` goes over the socket. The bytes of `data` beyond `dataLen` are
what earlier users of the pooled object have left there. -/
structure WvIpcMsg where
  dataLen : Nat
  dataLen_le : dataLen ≤ waveIpcBuffSize
  hdr : Buffer ipcMsgHdrSize
  data : Buffer waveIpcBuffSize

namespace WvIpcMsg

/-- The payload. -/
def payload (msg : WvIpcMsg) : List UInt8 := msg.data.bytes.take msg.dataLen

theorem length_payload (msg : WvIpcMsg) : msg.payload.length = msg.dataLen := by
  rw [payload, List.length_take, msg.data.length_eq]
  exact Nat.min_eq_left msg.dataLen_le

end WvIpcMsg

open WvIpcMsg

/-- `wave_ipc_msg_alloc`: the pool hands out an object whose data area holds `stale`. -/
def waveIpcMsgAlloc (stale : Buffer waveIpcBuffSize) : WvIpcMsg where
  dataLen := 0
  dataLen_le := Nat.zero_le _
  hdr := Buffer.fill ipcMsgHdrSize 0
  data := stale

/-- `wave_ipc_msg_fill_data`; `data` is the memory at the pointer, `none` for `NULL`. -/
def waveIpcMsgFillData (msg : WvIpcMsg) (data : Option (List UInt8)) (len : Nat) :
    WvIpcRet × WvIpcMsg :=
  if hlen : len > waveIpcBuffSize then (.error, msg)
  else
    match data with
    | none =>
      if len ≠ 0 then (.error, msg)
      else (.success, { msg with dataLen := 0, dataLen_le := Nat.zero_le _ })
    | some bytes =>
      if msg.dataLen ≠ 0 then (.error, msg)
      else (.success, { msg with
        data := msg.data.memcpyS 0 (bytes.take len)
        dataLen := len
        dataLen_le := Nat.le_of_not_gt hlen })

/-- `wave_ipc_msg_append_data`. The sum of the lengths is a `size_t`, and `data_len` a
`uint16_t`. -/
def waveIpcMsgAppendData (msg : WvIpcMsg) (data : Option (List UInt8)) (len : Nat) :
    WvIpcRet × WvIpcMsg :=
  match data with
  | none => (.error, msg)
  | some bytes =>
    if len = 0 then (.error, msg)
    else if hfit : (len + msg.dataLen) % 2 ^ 64 > waveIpcBuffSize then (.error, msg)
    else (.success, { msg with
      data := if len ≤ waveIpcBuffSize - msg.dataLen then msg.data.memcpyS msg.dataLen
        (bytes.take len)
        else msg.data.write msg.dataLen (List.replicate (waveIpcBuffSize - msg.dataLen) 0)
      dataLen := (msg.dataLen + len) % 2 ^ 16
      dataLen_le := by
        simp only [waveIpcBuffSize] at hfit ⊢
        omega })

/-- `wave_ipc_msg_reserve_data`. -/
def waveIpcMsgReserveData (msg : WvIpcMsg) (len : Nat) : WvIpcRet × WvIpcMsg :=
  if len = 0 then (.error, msg)
  else if hlen : len > waveIpcBuffSize then (.error, msg)
  else if msg.dataLen ≠ 0 then (.error, msg)
  else (.success, { msg with dataLen := len, dataLen_le := Nat.le_of_not_gt hlen })

/-- `wave_ipc_msg_shrink_data`. -/
def waveIpcMsgShrinkData (msg : WvIpcMsg) (len : Nat) : WvIpcRet × WvIpcMsg :=
  if h : msg.dataLen < len then (.error, msg)
  else (.success, { msg with
    dataLen := len
    dataLen_le := Nat.le_trans (Nat.le_of_not_gt h) msg.dataLen_le })

/-- `wave_ipc_msg_get_data`: the memory at the pointer, up to the end of the data area. -/
def waveIpcMsgGetData (msg : WvIpcMsg) : Option (List UInt8) :=
  if msg.dataLen = 0 then none else some msg.data.bytes

/-- `wave_ipc_msg_get_size`. -/
def waveIpcMsgGetSize (msg : WvIpcMsg) : Nat := msg.dataLen

/-- The loop of `wave_ipc_msg_push_hdr`: the offset behind the last header, from offset `i` on. -/
def headerEnd (hdr : List UInt8) : Nat → Nat → Nat
  | 0, i => i
  | fuel + 1, i =>
    if i < ipcMsgHdrSize ∧ hdr.getD i 0 ≠ 0 then headerEnd hdr fuel (i + (hdr.getD i 0).toNat + 1)
    else i

/-- `wave_ipc_msg_push_hdr`; the length of `hdr` is a `uint8_t`. The offset grows in every round of
the loop, so 32 rounds are enough. -/
def waveIpcMsgPushHdr (msg : WvIpcMsg) (hdr : List UInt8) : WvIpcRet × WvIpcMsg :=
  if hdr.length = 0 then (.error, msg)
  else
    let i := headerEnd msg.hdr.bytes ipcMsgHdrSize 0
    if i ≥ ipcMsgHdrSize then (.error, msg)
    else if i + hdr.length + 1 > ipcMsgHdrSize then (.error, msg)
    else (.success, { msg with hdr := msg.hdr.write i (UInt8.ofNat hdr.length :: hdr) })

/-- The loop of `wave_ipc_msg_pop_hdr`, with its `uint8_t` offset `i`; `j` is the offset of the last
header passed. `none` when the rounds do not suffice. -/
def popScan (hdr : List UInt8) : Nat → Nat → Nat → Option (Nat × Nat)
  | 0, _, _ => none
  | fuel + 1, i, j =>
    if i < ipcMsgHdrSize ∧ hdr.getD i 0 ≠ 0 then
      popScan hdr fuel ((i + (hdr.getD i 0).toNat + 1) % 256) i
    else some (i, j)

/-- What `wave_ipc_msg_pop_hdr` does: it never returns, it returns an error, or it hands out the
last header and leaves the message without it. -/
inductive PopResult where
  | diverges
  | error
  | popped (hdr : List UInt8) (msg : WvIpcMsg)

/-- `wave_ipc_msg_pop_hdr` into a buffer of `room` bytes. The offset takes at most 32 values inside
the loop, so a loop that has not ended after 33 rounds never ends. -/
def waveIpcMsgPopHdr (msg : WvIpcMsg) (room : Nat) : PopResult :=
  if room = 0 then .error
  else
    match popScan msg.hdr.bytes (ipcMsgHdrSize + 1) 0 ipcMsgHdrSize with
    | none => .diverges
    | some (i, j) =>
      let len := (msg.hdr.bytes.getD j 0).toNat
      if i = 0 then .error
      else if j ≥ ipcMsgHdrSize ∨ j + len ≥ ipcMsgHdrSize then .error
      else if len > room then .error
      else .popped ((msg.hdr.bytes.drop (j + 1)).take len)
        { msg with hdr := msg.hdr.write j (List.replicate (len + 1) 0) }

/-- The header area is the encoding of the headers `fs`, the last one on top. -/
structure WvIpcMsg.Headers (msg : WvIpcMsg) (fs : List (List UInt8)) : Prop where
  fits : ∀ f ∈ fs, Frames.Fits f
  room : (Frames.encode fs).length ≤ ipcMsgHdrSize
  area : msg.hdr.bytes =
    Frames.encode fs ++ List.replicate (ipcMsgHdrSize - (Frames.encode fs).length) 0

end Dwpal.Ipc
