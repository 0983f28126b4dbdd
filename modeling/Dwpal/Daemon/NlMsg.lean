import Dwpal.Ipc.Header

/-! The netlink messages that `daemon/dwpal_daemon.h` puts into messages of the ipc layer and takes
out of them, on a little-endian machine. The functions of libnl are a parameter. -/

namespace Dwpal.Daemon

open Ipc

/-- The `uint32_t` at the start of `mem`; what is not there reads as zero. -/
def le32 (mem : List UInt8) : Nat :=
  (mem.getD 0 0).toNat + 256 * (mem.getD 1 0).toNat + 65536 * (mem.getD 2 0).toNat +
    16777216 * (mem.getD 3 0).toNat

/-- The bytes of a `uint32_t`, or of an `int` with the same bits. -/
def nlIdBytes (nlId : UInt32) : List UInt8 :=
  [UInt8.ofNat nlId.toNat, UInt8.ofNat (nlId.toNat / 256), UInt8.ofNat (nlId.toNat / 65536),
    UInt8.ofNat (nlId.toNat / 16777216)]

/-- `hdr->nlmsg_len`. -/
def nlmsgLen (mem : List UInt8) : Nat := le32 mem

/-- `hdr->nlmsg_flags`. -/
def nlmsgFlags (mem : List UInt8) : Nat := (mem.getD 6 0).toNat + 256 * (mem.getD 7 0).toNat

def nlmFDump : Nat := 0x300

/-- `NLMSG_ALIGN` of a length that does not overflow. -/
def nlmsgAlign (len : Nat) : Nat := (len + 3) / 4 * 4

/-- An `nl_msg`: the memory that libnl holds for it, which is never shorter than the aligned length
in its header. -/
structure NlMsg where
  mem : List UInt8
  align_le : nlmsgAlign (nlmsgLen mem) ≤ mem.length

/-- The bytes of the message. -/
def NlMsg.bytes (msg : NlMsg) : List UInt8 := msg.mem.take (nlmsgLen msg.mem)

/-- The functions of libnl that the code calls for the message with its header at the start of
`hdr`, with what it relies on. `nlmsg_total_size(nlmsg_datalen(hdr))` is an aligned length as an
`int`, which where it has no room is 0, or negative and as a `size_t` huge. `nlmsg_convert` copies
`nlmsg_len` bytes. -/
structure Libnl where
  nlmsgTotalSize : List UInt8 → Nat
  nlmsgConvert : List UInt8 → NlMsg
  totalSize_aligned : ∀ hdr, nlmsgAlign (nlmsgLen hdr) < 2 ^ 31 →
    nlmsgTotalSize hdr = nlmsgAlign (nlmsgLen hdr)
  totalSize_noRoom : ∀ hdr, 2 ^ 31 ≤ nlmsgAlign (nlmsgLen hdr) →
    nlmsgTotalSize hdr = 0 ∨ 2 ^ 31 ≤ nlmsgTotalSize hdr
  bytes_nlmsgConvert : ∀ hdr, nlmsgLen hdr ≤ hdr.length →
    (nlmsgConvert hdr).bytes = hdr.take (nlmsgLen hdr)

/-- `dwpald_nl_msg_from_ipc_msg`; `beyond` is the memory behind the data area. -/
def dwpaldNlMsgFromIpcMsg (libnl : Libnl) (ipcMsg : WvIpcMsg) (beyond : List UInt8) :
    Option NlMsg :=
  (waveIpcMsgGetData ipcMsg).map fun hdr => libnl.nlmsgConvert (hdr ++ beyond)

/-- `dwpald_ipc_msg_from_nl_msg`; the pool hands out an object that holds `stale`. -/
def dwpaldIpcMsgFromNlMsg (libnl : Libnl) (nlmsg : NlMsg) (stale : Buffer waveIpcBuffSize) :
    WvIpcMsg :=
  (waveIpcMsgFillData (waveIpcMsgAlloc stale) (some nlmsg.mem) (libnl.nlmsgTotalSize nlmsg.mem)).2

/-- The payload that is made of a message: its bytes with the padding, if they fit. -/
def NlMsg.payload (msg : NlMsg) : List UInt8 :=
  if nlmsgLen msg.mem ≤ waveIpcBuffSize then msg.mem.take (nlmsgAlign (nlmsgLen msg.mem)) else []

theorem nlmsgLen_lt (mem : List UInt8) : nlmsgLen mem < 2 ^ 32 := by
  have h0 := (mem.getD 0 0).toNat_lt
  have h1 := (mem.getD 1 0).toNat_lt
  have h2 := (mem.getD 2 0).toNat_lt
  have h3 := (mem.getD 3 0).toNat_lt
  rw [nlmsgLen, le32]
  omega

theorem le32_nlIdBytes_append (nlId : UInt32) (rest : List UInt8) :
    le32 (nlIdBytes nlId ++ rest) = nlId.toNat := by
  have hlt := nlId.toNat_lt
  simp [le32, nlIdBytes]
  omega

theorem le32_nlIdBytes (nlId : UInt32) : le32 (nlIdBytes nlId) = nlId.toNat := by
  simpa using le32_nlIdBytes_append nlId []

theorem getD_append_zeros (xs : List UInt8) (k i : Nat) :
    (xs ++ List.replicate k 0).getD i 0 = xs.getD i 0 := by
  simp only [List.getD_eq_getElem?_getD]
  by_cases h : i < xs.length
  · rw [List.getElem?_append_left h]
  · rw [List.getElem?_append_right (Nat.le_of_not_lt h), List.getElem?_eq_none (Nat.le_of_not_lt h),
      List.getElem?_replicate]
    split <;> rfl

theorem getD_take (xs : List UInt8) (n i : Nat) :
    (xs.take n).getD i 0 = if i < n then xs.getD i 0 else 0 := by
  simp only [List.getD_eq_getElem?_getD, List.getElem?_take]
  split <;> rfl

/-- A length below 4 is in the first byte, so the copied part of a header holds it too. -/
theorem le32_take_le32 (mem : List UInt8) : le32 (mem.take (le32 mem)) = le32 mem := by
  obtain ⟨n, hn⟩ : ∃ n, n = le32 mem := ⟨_, rfl⟩
  have h (i : Nat) : ((mem.take n).getD i 0).toNat = if i < n then (mem.getD i 0).toNat else 0 := by
    rw [getD_take]
    split <;> rfl
  rw [← hn, le32, h, h, h, h]
  rw [le32] at hn
  split_ifs <;> omega

/-- A message that is too long, or whose length wraps, leaves the payload empty. -/
theorem payload_fromNlMsg (libnl : Libnl) (msg : NlMsg) (stale : Buffer waveIpcBuffSize) :
    (dwpaldIpcMsgFromNlMsg libnl msg stale).payload = msg.payload := by
  have haligned := libnl.totalSize_aligned msg.mem
  have hnoRoom := libnl.totalSize_noRoom msg.mem
  rw [dwpaldIpcMsgFromNlMsg, NlMsg.payload]
  by_cases hfit : nlmsgLen msg.mem ≤ waveIpcBuffSize
  · have hsize : nlmsgAlign (nlmsgLen msg.mem) ≤ waveIpcBuffSize := by
      rw [waveIpcBuffSize] at hfit ⊢
      rw [nlmsgAlign]
      omega
    have htake := List.length_take_of_le msg.align_le
    have hpayload := (@fillData_payload (waveIpcMsgAlloc stale)
      (msg.mem.take (nlmsgAlign (nlmsgLen msg.mem))) rfl (by rwa [htake])).2
    rw [htake] at hpayload
    rw [if_pos hfit, haligned (Nat.lt_of_le_of_lt hsize (by decide))]
    simpa only [waveIpcMsgFillData, List.take_take, Nat.min_self] using hpayload
  · rw [if_neg hfit]
    have hlong : waveIpcBuffSize < nlmsgAlign (nlmsgLen msg.mem) := by
      rw [waveIpcBuffSize] at hfit ⊢
      rw [nlmsgAlign]
      omega
    have hsize : libnl.nlmsgTotalSize msg.mem = 0 ∨
        waveIpcBuffSize < libnl.nlmsgTotalSize msg.mem := by
      rcases Nat.lt_or_ge (nlmsgAlign (nlmsgLen msg.mem)) (2 ^ 31) with hroom | hroom
      · rw [haligned hroom]
        exact .inr hlong
      · exact (hnoRoom hroom).imp_right (Nat.lt_of_lt_of_le (by decide))
    rcases hsize with hzero | hlong
    · rw [hzero]
      rfl
    · rw [fillData_tooLong hlong]
      rfl

namespace Libnl

/-- The memory that `nlmsg_convert` allocates and copies `nlmsg_len` bytes of `mem` into. -/
def nlmsgConvertMem (mem : List UInt8) : List UInt8 :=
  mem.take (nlmsgLen mem) ++
    List.replicate (max 16 (nlmsgAlign (nlmsgLen mem)) - (mem.take (nlmsgLen mem)).length) 0

theorem nlmsgLen_convertMem (mem : List UInt8) : nlmsgLen (nlmsgConvertMem mem) = nlmsgLen mem := by
  have hzeros : ∀ xs k, le32 (xs ++ List.replicate k 0) = le32 xs := by
    intro xs k
    simp only [le32, getD_append_zeros]
  rw [nlmsgLen, nlmsgConvertMem, hzeros]
  exact le32_take_le32 mem

theorem align_le_convertMem (mem : List UInt8) :
    nlmsgAlign (nlmsgLen (nlmsgConvertMem mem)) ≤ (nlmsgConvertMem mem).length := by
  rw [nlmsgLen_convertMem, nlmsgConvertMem, List.length_append, List.length_replicate]
  omega

theorem bytes_convertMem {mem : List UInt8} (h : nlmsgLen mem ≤ mem.length) :
    (nlmsgConvertMem mem).take (nlmsgLen (nlmsgConvertMem mem)) = mem.take (nlmsgLen mem) := by
  rw [nlmsgLen_convertMem, nlmsgConvertMem]
  exact List.take_left' (List.length_take_of_le h)

/-- An aligned length that is computed in `unsigned int` and returned as an `int`, as a `size_t`. -/
def totalSize (len : Nat) : Nat :=
  let size := (len + 3) % 2 ^ 32 / 4 * 4
  if size < 2 ^ 31 then size else 2 ^ 64 - 2 ^ 32 + size

theorem totalSize_eq {len : Nat} (h : nlmsgAlign len < 2 ^ 31) :
    totalSize len = nlmsgAlign len := by
  rw [nlmsgAlign] at h ⊢
  rw [totalSize]
  split_ifs <;> omega

theorem totalSize_wraps {len : Nat} (hlen : len < 2 ^ 32) (h : 2 ^ 31 ≤ nlmsgAlign len) :
    totalSize len = 0 ∨ 2 ^ 31 ≤ totalSize len := by
  rw [nlmsgAlign] at h
  rw [totalSize]
  split_ifs <;> omega

/-- A libnl that fills the memory that it allocates with zeros. -/
def zeroing : Libnl where
  nlmsgTotalSize hdr := totalSize (nlmsgLen hdr)
  nlmsgConvert hdr := ⟨nlmsgConvertMem hdr, align_le_convertMem hdr⟩
  totalSize_aligned _ := totalSize_eq
  totalSize_noRoom hdr := totalSize_wraps (nlmsgLen_lt hdr)
  bytes_nlmsgConvert _ := bytes_convertMem

end Libnl

end Dwpal.Daemon
