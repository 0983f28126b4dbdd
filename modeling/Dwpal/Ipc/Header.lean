import Dwpal.Ipc.Msg

/-! The header stack of a message: what `wave_ipc_msg_push_hdr` and `wave_ipc_msg_pop_hdr` do to an
area that encodes a stack, the headers of the ipc layer and of the daemon, and the way of a message
over the socket. -/

namespace Dwpal.Ipc

open Frames WvIpcMsg

theorem getD_area (pre rest : List UInt8) (b : UInt8) :
    (pre ++ b :: rest).getD pre.length 0 = b := by
  simp [List.getD_eq_getElem?_getD]

theorem getD_area_end (pre : List UInt8) (k : Nat) :
    (pre ++ List.replicate k 0).getD pre.length 0 = 0 := by
  cases k with
  | zero => simp [List.getD_eq_getElem?_getD]
  | succ k => exact getD_area pre _ 0

/-- The loop of `wave_ipc_msg_push_hdr` walks over the headers that are there. -/
theorem headerEnd_eq (fs : List (List UInt8)) (pre : List UInt8) (k : Nat) {fuel : Nat}
    (hfits : ∀ f ∈ fs, Fits f) (hlen : (pre ++ encode fs).length ≤ ipcMsgHdrSize)
    (hfuel : fs.length ≤ fuel) :
    headerEnd (pre ++ encode fs ++ List.replicate k 0) fuel pre.length =
      (pre ++ encode fs).length := by
  induction fs generalizing pre fuel with
  | nil =>
    cases fuel with
    | zero => simp [headerEnd]
    | succ fuel =>
      have hend := getD_area_end pre k
      simp only [encode_nil, List.append_nil]
      rw [headerEnd, if_neg fun hc => hc.2 hend]
  | cons f fs ih =>
    obtain ⟨fuel, rfl⟩ : ∃ n, fuel = n + 1 := ⟨fuel - 1, by simp at hfuel; omega⟩
    have hf := hfits f List.mem_cons_self
    have harea : pre ++ encode (f :: fs) ++ List.replicate k 0 =
        (pre ++ UInt8.ofNat f.length :: f) ++ encode fs ++ List.replicate k 0 := by
      simp [encode_cons]
    have hpre : pre.length < ipcMsgHdrSize := by
      simp only [encode_cons, List.length_append, List.length_cons] at hlen
      omega
    have hget : (pre ++ encode (f :: fs) ++ List.replicate k 0).getD pre.length 0 =
        UInt8.ofNat f.length := by
      simp only [encode_cons, List.append_assoc, List.cons_append]
      exact getD_area pre _ _
    rw [headerEnd, if_pos ⟨hpre, by rw [hget]; exact hf.ne_zero⟩, hget, hf.toNat, harea]
    have := ih (pre ++ UInt8.ofNat f.length :: f)
      (fun g hg => hfits g (List.mem_cons_of_mem f hg))
      (by simpa [encode_cons] using hlen) (by simp at hfuel; omega)
    rw [show pre.length + f.length + 1 = (pre ++ UInt8.ofNat f.length :: f).length by
      simp; omega, this]
    simp [encode_cons]

/-- The loop of `wave_ipc_msg_pop_hdr` stops behind the last header, at which `j` stays. -/
theorem popScan_eq (fs : List (List UInt8)) (h pre : List UInt8) (j k : Nat) {fuel : Nat}
    (hfits : ∀ f ∈ fs ++ [h], Fits f)
    (hlen : (pre ++ encode (fs ++ [h])).length ≤ ipcMsgHdrSize) (hfuel : fs.length + 2 ≤ fuel) :
    popScan (pre ++ encode (fs ++ [h]) ++ List.replicate k 0) fuel pre.length j =
      some ((pre ++ encode (fs ++ [h])).length, (pre ++ encode fs).length) := by
  induction fs generalizing pre fuel j with
  | nil =>
    obtain ⟨fuel, rfl⟩ : ∃ n, fuel = n + 2 := ⟨fuel - 2, by simp at hfuel; omega⟩
    have hh := hfits h (by simp)
    simp only [List.nil_append, encode_cons, encode_nil, List.append_nil] at hlen ⊢
    have hlen' : pre.length + (h.length + 1) ≤ 32 := by simpa [ipcMsgHdrSize] using hlen
    have hget : (pre ++ UInt8.ofNat h.length :: h ++ List.replicate k 0).getD pre.length 0 =
        UInt8.ofNat h.length := by
      rw [List.append_assoc, List.cons_append]
      exact getD_area pre _ _
    have hend : (pre ++ UInt8.ofNat h.length :: h ++ List.replicate k 0).getD
        (pre.length + h.length + 1) 0 = 0 := by
      have := getD_area_end (pre ++ UInt8.ofNat h.length :: h) k
      rwa [show (pre ++ UInt8.ofNat h.length :: h).length = pre.length + h.length + 1 by
        simp; omega] at this
    have hpre : pre.length < ipcMsgHdrSize := by rw [ipcMsgHdrSize]; omega
    rw [popScan, if_pos ⟨hpre, by rw [hget]; exact hh.ne_zero⟩, hget, hh.toNat,
      Nat.mod_eq_of_lt (by omega), popScan, if_neg (fun hc => hc.2 hend)]
    simp
    omega
  | cons f fs ih =>
    obtain ⟨fuel, rfl⟩ : ∃ n, fuel = n + 1 := ⟨fuel - 1, by simp at hfuel; omega⟩
    have hf := hfits f (by simp)
    have harea : pre ++ encode (f :: fs ++ [h]) ++ List.replicate k 0 =
        (pre ++ UInt8.ofNat f.length :: f) ++ encode (fs ++ [h]) ++ List.replicate k 0 := by
      simp [encode_cons]
    have hlen' : pre.length + (f.length + 1) ≤ 32 := by
      simp only [List.cons_append, encode_cons, List.length_append, List.length_cons,
        ipcMsgHdrSize] at hlen
      omega
    have hget : (pre ++ encode (f :: fs ++ [h]) ++ List.replicate k 0).getD pre.length 0 =
        UInt8.ofNat f.length := by
      simp only [encode_cons, List.append_assoc, List.cons_append]
      exact getD_area pre _ _
    have hpre : pre.length < ipcMsgHdrSize := by rw [ipcMsgHdrSize]; omega
    have := ih (pre ++ UInt8.ofNat f.length :: f) pre.length
      (fun g hg => hfits g (List.mem_cons_of_mem f hg))
      (by simpa [encode_cons] using hlen) (by simp at hfuel; omega)
    rw [popScan, if_pos ⟨hpre, by rw [hget]; exact hf.ne_zero⟩, hget, hf.toNat,
      Nat.mod_eq_of_lt (by omega), harea, show pre.length + f.length + 1 =
        (pre ++ UInt8.ofNat f.length :: f).length by simp; omega, this]
    simp [encode_cons]

theorem WvIpcMsg.Headers.length_le {msg : WvIpcMsg} {fs : List (List UInt8)} (h : msg.Headers fs) :
    fs.length ≤ ipcMsgHdrSize := by
  refine Nat.le_trans ?_ h.room
  rw [length_encode]
  have hle : ∀ gs : List (List UInt8), gs.length ≤ (gs.map fun f => f.length + 1).sum := by
    intro gs
    induction gs with
    | nil => exact Nat.le_refl 0
    | cons g gs ih => simp; omega
  exact hle fs

theorem headers_alloc (stale : Buffer waveIpcBuffSize) : (waveIpcMsgAlloc stale).Headers [] where
  fits f hf := by cases hf
  room := Nat.zero_le _
  area := by simp [waveIpcMsgAlloc, Buffer.fill]

theorem headers_of_hdr {msg msg' : WvIpcMsg} {fs : List (List UInt8)} (h : msg.Headers fs)
    (hhdr : msg'.hdr = msg.hdr) : msg'.Headers fs :=
  ⟨h.fits, h.room, hhdr ▸ h.area⟩

/-- The offset at which `wave_ipc_msg_push_hdr` puts a header. -/
theorem WvIpcMsg.Headers.headerEnd_eq {msg : WvIpcMsg} {fs : List (List UInt8)}
    (h : msg.Headers fs) : headerEnd msg.hdr.bytes ipcMsgHdrSize 0 = (encode fs).length := by
  rw [h.area]
  have hwalk := Ipc.headerEnd_eq fs [] (ipcMsgHdrSize - (encode fs).length) h.fits h.room
    h.length_le
  simpa using hwalk

theorem WvIpcMsg.Headers.length_snoc {msg : WvIpcMsg} {fs : List (List UInt8)} {top : List UInt8}
    (h : msg.Headers (fs ++ [top])) :
    (encode fs).length + (top.length + 1) ≤ ipcMsgHdrSize := by
  have hroom := h.room
  rw [encode_append, List.length_append, encode_cons] at hroom
  simpa using hroom

/-- The offsets with which the loop of `wave_ipc_msg_pop_hdr` ends. -/
theorem WvIpcMsg.Headers.popScan_eq {msg : WvIpcMsg} {fs : List (List UInt8)} {top : List UInt8}
    (h : msg.Headers (fs ++ [top])) :
    popScan msg.hdr.bytes (ipcMsgHdrSize + 1) 0 ipcMsgHdrSize =
      some ((encode (fs ++ [top])).length, (encode fs).length) := by
  have hfs := h.length_le
  rw [List.length_append, List.length_singleton] at hfs
  rw [h.area]
  have hscan := Ipc.popScan_eq fs top [] ipcMsgHdrSize
    (ipcMsgHdrSize - (encode (fs ++ [top])).length) h.fits h.room
    (show fs.length + 2 ≤ ipcMsgHdrSize + 1 by omega)
  simpa using hscan

/-- The area from the top of the stack on. -/
theorem WvIpcMsg.Headers.area_top {msg : WvIpcMsg} {fs : List (List UInt8)} {top : List UInt8}
    (h : msg.Headers (fs ++ [top])) :
    msg.hdr.bytes = encode fs ++ UInt8.ofNat top.length :: (top ++
      List.replicate (ipcMsgHdrSize - (encode (fs ++ [top])).length) 0) := by
  rw [h.area, encode_append]
  simp [encode_cons]

theorem WvIpcMsg.Headers.getD_top {msg : WvIpcMsg} {fs : List (List UInt8)} {top : List UInt8}
    (h : msg.Headers (fs ++ [top])) :
    msg.hdr.bytes.getD (encode fs).length 0 = UInt8.ofNat top.length := by
  rw [h.area_top]
  exact getD_area _ _ _

/-- A push onto a stack that has room for one more header. -/
theorem pushHdr_headers {msg : WvIpcMsg} {fs : List (List UInt8)} {h : List UInt8}
    (hmsg : msg.Headers fs) (hh : Fits h)
    (hroom : (encode fs).length + (h.length + 1) ≤ ipcMsgHdrSize) :
    (waveIpcMsgPushHdr msg h).1 = .success ∧ (waveIpcMsgPushHdr msg h).2.Headers (fs ++ [h]) := by
  have hlen : (encode (fs ++ [h])).length = (encode fs).length + (h.length + 1) := by
    simp [encode_append, encode_cons]
  have hpush : waveIpcMsgPushHdr msg h = (.success, { msg with
      hdr := msg.hdr.write (encode fs).length (UInt8.ofNat h.length :: h) }) := by
    rw [waveIpcMsgPushHdr, if_neg (Nat.pos_iff_ne_zero.mp hh.1)]
    simp only [hmsg.headerEnd_eq]
    rw [if_neg (by omega), if_neg (by omega)]
  rw [hpush]
  refine ⟨rfl, ?_, by omega, ?_⟩
  · intro f hf
    rcases List.mem_append.mp hf with hf | hf
    · exact hmsg.fits f hf
    · exact List.mem_singleton.mp hf ▸ hh
  · show (msg.hdr.write (encode fs).length (UInt8.ofNat h.length :: h)).bytes = _
    rw [Buffer.write_bytes (by simpa using hroom), hmsg.area, List.take_left' rfl,
      List.drop_append, List.drop_of_length_le (by omega), List.nil_append,
      Nat.add_sub_cancel_left, List.drop_replicate, hlen, encode_append]
    simp [encode_cons, Nat.sub_sub]

/-- A pop with enough room takes the last header pushed. -/
theorem popHdr_headers {msg : WvIpcMsg} {fs : List (List UInt8)} {h : List UInt8} {room : Nat}
    (hmsg : msg.Headers (fs ++ [h])) (hroom : h.length ≤ room) :
    ∃ msg', waveIpcMsgPopHdr msg room = .popped h msg' ∧ msg'.Headers fs ∧
      msg'.data = msg.data ∧ msg'.dataLen = msg.dataLen := by
  have hh : Fits h := hmsg.fits h (by simp)
  have hsize := hmsg.length_snoc
  have harea := hmsg.area_top
  have hlen : (encode (fs ++ [h])).length = (encode fs).length + (h.length + 1) := by
    simp [encode_append, encode_cons]
  have hpos := hh.1
  refine ⟨{ msg with hdr := msg.hdr.write (encode fs).length (List.replicate (h.length + 1) 0) },
    ?_, ?_, rfl, rfl⟩
  · rw [waveIpcMsgPopHdr, if_neg (by omega), hmsg.popScan_eq]
    simp only [hmsg.getD_top, hh.toNat]
    rw [if_neg (by omega), if_neg (by omega), if_neg (by omega), harea]
    congr 1
    rw [List.drop_append, List.drop_of_length_le (by omega), Nat.add_sub_cancel_left,
      List.drop_succ_cons, List.drop_zero, List.nil_append, List.take_left' rfl]
  · refine ⟨fun f hf => hmsg.fits f (List.mem_append_left _ hf), by omega, ?_⟩
    show (msg.hdr.write (encode fs).length (List.replicate (h.length + 1) 0)).bytes = _
    rw [Buffer.write_bytes (by simp; omega), harea, List.take_left' rfl, List.length_replicate,
      List.drop_append, List.drop_of_length_le (by omega), Nat.add_sub_cancel_left,
      List.drop_succ_cons, List.drop_left' rfl, hlen, List.nil_append, List.append_assoc,
      List.replicate_append_replicate]
    congr 2
    omega

@[simp] theorem pushHdr_data (msg : WvIpcMsg) (h : List UInt8) :
    (waveIpcMsgPushHdr msg h).2.data = msg.data := by
  simp only [waveIpcMsgPushHdr]
  split_ifs <;> rfl

@[simp] theorem pushHdr_dataLen (msg : WvIpcMsg) (h : List UInt8) :
    (waveIpcMsgPushHdr msg h).2.dataLen = msg.dataLen := by
  simp only [waveIpcMsgPushHdr]
  split_ifs <;> rfl

/-! The headers of the two layers. -/

def ipcHdrMagic : UInt8 := 0xA1

/-- `ipc_header`: the type of the message, its sequence number, whether more parts follow, and a
byte that is not used. -/
structure IpcHeader where
  header0 : UInt8
  header1 : UInt8
  header2 : UInt8
  header3 : UInt8
deriving DecidableEq, Repr

def dwpaldHdrMagic : UInt8 := 0x55

/-- `dwpald_header`. -/
structure DwpaldHeader where
  header0 : UInt8
  header1 : UInt8
  header2 : UInt8
  header3 : UInt8
  header4 : UInt8
  header5 : UInt8
deriving DecidableEq, Repr

def IpcHeader.bytes (hdr : IpcHeader) : List UInt8 :=
  [ipcHdrMagic, hdr.header0, hdr.header1, hdr.header2, hdr.header3]

def IpcHeader.ofBytes : List UInt8 → Option IpcHeader
  | [magic, h0, h1, h2, h3] => if magic = ipcHdrMagic then some ⟨h0, h1, h2, h3⟩ else none
  | _ => none

def DwpaldHeader.bytes (hdr : DwpaldHeader) : List UInt8 :=
  [dwpaldHdrMagic, hdr.header0, hdr.header1, hdr.header2, hdr.header3, hdr.header4, hdr.header5]

def DwpaldHeader.ofBytes : List UInt8 → Option DwpaldHeader
  | [magic, h0, h1, h2, h3, h4, h5] =>
    if magic = dwpaldHdrMagic then some ⟨h0, h1, h2, h3, h4, h5⟩ else none
  | _ => none

/-- Pushing a typed header: 0 on success, 1 on failure, and the message. -/
def headerPush (msg : WvIpcMsg) (bytes : List UInt8) : Nat × WvIpcMsg :=
  match waveIpcMsgPushHdr msg bytes with
  | (.success, msg) => (0, msg)
  | (_, msg) => (1, msg)

/-- What popping a typed header does: it never returns, it fails and leaves the message as it then
is, or it yields the header. -/
inductive HeaderPop (α : Type) where
  | diverges
  | failed (msg : WvIpcMsg)
  | popped (hdr : α) (msg : WvIpcMsg)

/-- Popping a header of `size` bytes that `ofBytes` recognises. -/
def headerPop {α : Type} (size : Nat) (ofBytes : List UInt8 → Option α) (msg : WvIpcMsg) :
    HeaderPop α :=
  match waveIpcMsgPopHdr msg size with
  | .diverges => .diverges
  | .error => .failed msg
  | .popped bytes msg =>
    match ofBytes bytes with
    | some hdr => .popped hdr msg
    | none => .failed msg

/-- `ipc_header_push`. -/
def ipcHeaderPush (msg : WvIpcMsg) (hdr : IpcHeader) : Nat × WvIpcMsg := headerPush msg hdr.bytes

/-- `ipc_header_pop`. -/
def ipcHeaderPop (msg : WvIpcMsg) : HeaderPop IpcHeader := headerPop 5 IpcHeader.ofBytes msg

/-- `dwpald_header_push`. -/
def dwpaldHeaderPush (msg : WvIpcMsg) (hdr : DwpaldHeader) : Nat × WvIpcMsg :=
  headerPush msg hdr.bytes

/-- `dwpald_header_pop`. -/
def dwpaldHeaderPop (msg : WvIpcMsg) : HeaderPop DwpaldHeader :=
  headerPop 7 DwpaldHeader.ofBytes msg

/-- `dwpald_header_peek`. -/
def dwpaldHeaderPeek (msg : WvIpcMsg) : HeaderPop DwpaldHeader :=
  match dwpaldHeaderPop msg with
  | .popped hdr msg =>
    match dwpaldHeaderPush msg hdr with
    | (0, msg) => .popped hdr msg
    | (_, msg) => .failed msg
  | result => result

@[simp] theorem IpcHeader.ofBytes_bytes (hdr : IpcHeader) : ofBytes hdr.bytes = some hdr := by
  simp [ofBytes, bytes]

@[simp] theorem DwpaldHeader.ofBytes_bytes (hdr : DwpaldHeader) : ofBytes hdr.bytes = some hdr := by
  simp [ofBytes, bytes]

/-- Pushing a header onto a stack with room. -/
theorem headerPush_headers {msg : WvIpcMsg} {fs : List (List UInt8)} {bytes : List UInt8}
    (hmsg : msg.Headers fs) (hb : Fits bytes)
    (hroom : (encode fs).length + (bytes.length + 1) ≤ ipcMsgHdrSize) :
    ∃ msg', headerPush msg bytes = (0, msg') ∧ msg'.Headers (fs ++ [bytes]) ∧
      msg'.data = msg.data ∧ msg'.dataLen = msg.dataLen := by
  obtain ⟨hret, hheaders⟩ := pushHdr_headers hmsg hb hroom
  refine ⟨(waveIpcMsgPushHdr msg bytes).2, ?_, hheaders, pushHdr_data msg bytes,
    pushHdr_dataLen msg bytes⟩
  unfold headerPush
  split
  · next h => rw [h]
  · next h => exact absurd (by rw [h] at hret; exact hret) (by simp_all)

/-- Popping the header that is on top of the stack. -/
theorem headerPop_headers {α : Type} {msg : WvIpcMsg} {fs : List (List UInt8)}
    {bytes : List UInt8} {size : Nat} {ofBytes : List UInt8 → Option α} {hdr : α}
    (hmsg : msg.Headers (fs ++ [bytes])) (hsize : bytes.length ≤ size)
    (hof : ofBytes bytes = some hdr) :
    ∃ msg', headerPop size ofBytes msg = .popped hdr msg' ∧ msg'.Headers fs ∧
      msg'.data = msg.data ∧ msg'.dataLen = msg.dataLen := by
  obtain ⟨msg', hpop, hrest⟩ := popHdr_headers hmsg hsize
  refine ⟨msg', ?_, hrest⟩
  simp only [headerPop, hpop, hof]

/-! The way over the socket: `wave_ipc_send_msg` of a message whose bytes all arrive, and
`wave_ipc_recv_msg` into an object from the receiver's pool. -/

/-- The message that the receiver has in a pooled object whose data area holds `stale`. -/
def waveIpcTransfer (msg : WvIpcMsg) (stale : Buffer waveIpcBuffSize) : WvIpcMsg where
  dataLen := msg.dataLen
  dataLen_le := msg.dataLen_le
  hdr := msg.hdr
  data := stale.write 0 msg.payload

theorem payload_transfer (msg : WvIpcMsg) (stale : Buffer waveIpcBuffSize) :
    (waveIpcTransfer msg stale).payload = msg.payload := by
  have hlen := msg.length_payload
  have hfit : 0 + msg.payload.length ≤ waveIpcBuffSize := by
    rw [hlen, Nat.zero_add]
    exact msg.dataLen_le
  have htake : (stale.write 0 msg.payload).bytes.take (0 + msg.payload.length) =
      stale.bytes.take 0 ++ msg.payload := Buffer.take_write hfit
  rw [Nat.zero_add, hlen, List.take_zero, List.nil_append] at htake
  exact htake

theorem headers_transfer {msg : WvIpcMsg} {fs : List (List UInt8)} (h : msg.Headers fs)
    (stale : Buffer waveIpcBuffSize) : (waveIpcTransfer msg stale).Headers fs :=
  ⟨h.fits, h.room, h.area⟩

/-- Filling an empty message. -/
theorem fillData_payload {msg : WvIpcMsg} {bytes : List UInt8} (hempty : msg.dataLen = 0)
    (hfit : bytes.length ≤ waveIpcBuffSize) :
    (waveIpcMsgFillData msg (some bytes) bytes.length).1 = .success ∧
      (waveIpcMsgFillData msg (some bytes) bytes.length).2.payload = bytes := by
  have hwrite : 0 + bytes.length ≤ waveIpcBuffSize := by omega
  rw [waveIpcMsgFillData, dif_neg (by omega)]
  simp only [hempty, ne_eq, not_true_eq_false, if_false, List.take_length, true_and]
  rw [WvIpcMsg.payload, Buffer.memcpyS_eq hwrite]
  have htake : (msg.data.write 0 bytes).bytes.take (0 + bytes.length) =
      msg.data.bytes.take 0 ++ bytes := Buffer.take_write hwrite
  rwa [Nat.zero_add, List.take_zero, List.nil_append] at htake

theorem fillData_tooLong {msg : WvIpcMsg} {data : Option (List UInt8)} {len : Nat}
    (h : waveIpcBuffSize < len) : waveIpcMsgFillData msg data len = (.error, msg) := by
  rw [waveIpcMsgFillData, dif_pos h]

@[simp] theorem fillData_hdr (msg : WvIpcMsg) (data : Option (List UInt8)) (len : Nat) :
    (waveIpcMsgFillData msg data len).2.hdr = msg.hdr := by
  cases data <;> (simp only [waveIpcMsgFillData]; split_ifs <;> rfl)

end Dwpal.Ipc
