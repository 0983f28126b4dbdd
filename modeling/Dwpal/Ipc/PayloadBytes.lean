import Dwpal.Ipc.Header
import Dwpal.Lib.Machine

/-! The payload of a message as a byte list: what `wave_ipc_msg_fill_data`,
`wave_ipc_msg_append_data`, `wave_ipc_msg_reserve_data` and `wave_ipc_msg_shrink_data` make of it,
in any order of calls. -/

namespace Dwpal.Ipc

open Machine WvIpcMsg

/-- A pointer and a length that a caller passes. `none` stands for `NULL`; the memory at the pointer
has to be there only for a length that is copied. -/
structure DataArg where
  bytes : Option (List UInt8)
  len : UInt64
  readable : ∀ mem, bytes = some mem → len.toNat ≤ waveIpcBuffSize → len.toNat ≤ mem.length

/-- The bytes that the caller means. -/
def DataArg.data (arg : DataArg) : List UInt8 := (arg.bytes.getD []).take arg.len.toNat

inductive PayloadCall where
  | fill (arg : DataArg)
  | append (arg : DataArg)
  | reserve (len : UInt64)
  | shrink (len : UInt64)

/-- What a call returns, and the message after it. -/
def payloadCall (msg : WvIpcMsg) : PayloadCall → WvIpcRet × WvIpcMsg
  | .fill arg => waveIpcMsgFillData msg arg.bytes arg.len.toNat
  | .append arg => waveIpcMsgAppendData msg arg.bytes arg.len.toNat
  | .reserve len => waveIpcMsgReserveData msg len.toNat
  | .shrink len => waveIpcMsgShrinkData msg len.toNat

def payloadStep (msg : WvIpcMsg) (call : PayloadCall) : Option WvIpcMsg := (payloadCall msg call).2

/-- The payload that `wave_ipc_msg_get_data` and `wave_ipc_msg_get_size` show. -/
def shownPayload (msg : WvIpcMsg) : List UInt8 :=
  ((waveIpcMsgGetData msg).getD []).take (waveIpcMsgGetSize msg)

/-- When a call on a byte list succeeds. -/
def Succeeds (old : List UInt8) : PayloadCall → Prop
  | .fill arg => arg.bytes = none ∧ arg.len.toNat = 0 ∨
      arg.bytes ≠ none ∧ old = [] ∧ arg.len.toNat ≤ waveIpcBuffSize
  | .append arg => arg.bytes ≠ none ∧ arg.len.toNat ≠ 0 ∧
      old.length + arg.len.toNat ≤ waveIpcBuffSize
  | .reserve len => len.toNat ≠ 0 ∧ old = [] ∧ len.toNat ≤ waveIpcBuffSize
  | .shrink len => len.toNat ≤ old.length

/-- What a call that succeeds makes of a byte list. -/
def Makes (old : List UInt8) (new : List UInt8) : PayloadCall → Prop
  | .fill arg => new = arg.data
  | .append arg => new = old ++ arg.data
  | .reserve len => new.length = len.toNat
  | .shrink len => new = old.take len.toNat

/-- The call does to the payload what it does to a byte list, and if it fails nothing. -/
structure RefinesBytes (msg : WvIpcMsg) (call : PayloadCall) : Prop where
  bounded : (shownPayload (payloadCall msg call).2).length ≤ waveIpcBuffSize
  succeeds : (payloadCall msg call).1 = .success ↔ Succeeds (shownPayload msg) call
  makes : (payloadCall msg call).1 = .success →
    Makes (shownPayload msg) (shownPayload (payloadCall msg call).2) call
  fails : (payloadCall msg call).1 ≠ .success →
    (payloadCall msg call).1 = .error ∧ (payloadCall msg call).2 = msg

/-- The sum of the lengths that `wave_ipc_msg_append_data` computes does not wrap. -/
def NoWrap (msg : WvIpcMsg) : PayloadCall → Prop
  | .append arg => arg.bytes ≠ none → arg.len.toNat + (shownPayload msg).length < 2 ^ 64
  | _ => True

theorem shownPayload_eq (msg : WvIpcMsg) : shownPayload msg = msg.payload := by
  unfold shownPayload waveIpcMsgGetData waveIpcMsgGetSize payload
  split
  · next h => rw [h, List.take_zero, List.take_zero]
  · rfl

theorem length_shownPayload (msg : WvIpcMsg) : (shownPayload msg).length = msg.dataLen := by
  rw [shownPayload_eq, length_payload]

theorem shownPayload_eq_nil (msg : WvIpcMsg) : shownPayload msg = [] ↔ msg.dataLen = 0 := by
  rw [← length_shownPayload, List.length_eq_zero_iff]

variable {msg : WvIpcMsg} {arg : DataArg} {len : UInt64}

theorem DataArg.length_data {mem : List UInt8} (hmem : arg.bytes = some mem)
    (hlen : arg.len.toNat ≤ waveIpcBuffSize) : arg.data.length = arg.len.toNat := by
  rw [data, hmem, Option.getD_some, List.length_take]
  exact Nat.min_eq_left (arg.readable mem hmem hlen)

/-- What is written at the end of a payload, and counted, is behind it. -/
theorem payload_write (msg : WvIpcMsg) (xs : List UInt8) {msg' : WvIpcMsg}
    (hroom : msg.dataLen + xs.length ≤ waveIpcBuffSize)
    (hdata : msg'.data = msg.data.memcpyS msg.dataLen xs)
    (hlen : msg'.dataLen = msg.dataLen + xs.length) : msg'.payload = msg.payload ++ xs := by
  rw [payload, payload, hdata, Buffer.memcpyS_eq hroom, hlen, Buffer.take_write hroom]

theorem length_shownPayload_le (msg : WvIpcMsg) : (shownPayload msg).length ≤ waveIpcBuffSize :=
  length_shownPayload msg ▸ msg.dataLen_le

/-- A call that fails as it should. -/
theorem RefinesBytes.refused {call : PayloadCall} (hcall : payloadCall msg call = (.error, msg))
    (hnot : ¬Succeeds (shownPayload msg) call) : RefinesBytes msg call where
  bounded := length_shownPayload_le _
  succeeds := by
    rw [hcall]
    exact iff_of_false nofun hnot
  makes h := by
    rw [hcall] at h
    cases h
  fails _ := by
    rw [hcall]
    exact ⟨rfl, rfl⟩

/-- A call that succeeds as it should. -/
theorem RefinesBytes.done {call : PayloadCall} {msg' : WvIpcMsg}
    (hcall : payloadCall msg call = (.success, msg')) (hsucceeds : Succeeds (shownPayload msg) call)
    (hmakes : Makes (shownPayload msg) (shownPayload msg') call) : RefinesBytes msg call where
  bounded := length_shownPayload_le _
  succeeds := by
    rw [hcall]
    exact iff_of_true rfl hsucceeds
  makes _ := by
    rw [hcall]
    exact hmakes
  fails h := by
    rw [hcall] at h
    exact absurd rfl h

theorem fill_refines : RefinesBytes msg (.fill arg) := by
  cases hbytes : arg.bytes with
  | none =>
    rcases Nat.eq_zero_or_pos arg.len.toNat with hzero | hpos
    · have hcall : payloadCall msg (.fill arg) =
          (.success, { msg with dataLen := 0, dataLen_le := Nat.zero_le _ }) := by
        simp only [payloadCall, hbytes, hzero, waveIpcMsgFillData]
        rfl
      refine .done hcall (.inl ⟨hbytes, hzero⟩) ?_
      rw [Makes, DataArg.data, hzero, List.take_zero]
      exact (shownPayload_eq_nil _).mpr rfl
    · refine .refused ?_ fun hs => ?_
      · simp only [payloadCall, hbytes, waveIpcMsgFillData]
        split_ifs with hbig hlen
        · rfl
        · rfl
        · exact absurd (not_not.mp hlen) (Nat.ne_of_gt hpos)
      · rcases hs with ⟨-, hzero⟩ | ⟨hne, -⟩
        · omega
        · exact hne hbytes
  | some mem =>
    by_cases hok : msg.dataLen = 0 ∧ arg.len.toNat ≤ waveIpcBuffSize
    · obtain ⟨hempty, hlen⟩ := hok
      have hcall : payloadCall msg (.fill arg) = (.success, { msg with
          data := msg.data.memcpyS 0 (mem.take arg.len.toNat)
          dataLen := arg.len.toNat
          dataLen_le := hlen }) := by
        simp only [payloadCall, hbytes, waveIpcMsgFillData]
        rw [dif_neg (Nat.not_lt.mpr hlen), if_neg (not_not.mpr hempty)]
      refine .done hcall
        (.inr ⟨by rw [hbytes]; exact Option.some_ne_none mem, (shownPayload_eq_nil msg).mpr hempty,
        hlen⟩) ?_
      have hdata : arg.data = mem.take arg.len.toNat := by
        rw [DataArg.data, hbytes, Option.getD_some]
      have hlength := DataArg.length_data hbytes hlen
      have hpayload : msg.payload = [] := by
        rw [← shownPayload_eq]
        exact (shownPayload_eq_nil msg).mpr hempty
      rw [Makes, shownPayload_eq, payload_write msg arg.data, hpayload,
        List.nil_append]
      · omega
      · rw [hdata, hempty]
      · rw [hlength, hempty, Nat.zero_add]
    · refine .refused ?_ fun hs => hok ?_
      · simp only [payloadCall, hbytes, waveIpcMsgFillData]
        split_ifs with hbig hfull
        · rfl
        · rfl
        · exact absurd ⟨not_not.mp hfull, Nat.le_of_not_gt hbig⟩ hok
      · rcases hs with ⟨hnone, -⟩ | ⟨-, hempty, hlen⟩
        · cases hbytes.symm.trans hnone
        · exact ⟨(shownPayload_eq_nil msg).mp hempty, hlen⟩

theorem reserve_refines : RefinesBytes msg (.reserve len) := by
  by_cases hok : len.toNat ≠ 0 ∧ msg.dataLen = 0 ∧ len.toNat ≤ waveIpcBuffSize
  · obtain ⟨hpos, hempty, hlen⟩ := hok
    have hcall : payloadCall msg (.reserve len) =
        (.success, { msg with dataLen := len.toNat, dataLen_le := hlen }) := by
      simp only [payloadCall, waveIpcMsgReserveData]
      rw [if_neg hpos, dif_neg (Nat.not_lt.mpr hlen), if_neg (not_not.mpr hempty)]
    exact .done hcall ⟨hpos, (shownPayload_eq_nil msg).mpr hempty, hlen⟩ (length_shownPayload _)
  · refine .refused ?_ fun hs => hok ⟨hs.1, (shownPayload_eq_nil msg).mp hs.2.1, hs.2.2⟩
    simp only [payloadCall, waveIpcMsgReserveData]
    split_ifs with hzero hbig hfull
    · rfl
    · rfl
    · rfl
    · exact absurd ⟨hzero, not_not.mp hfull, Nat.le_of_not_gt hbig⟩ hok

theorem shrink_refines : RefinesBytes msg (.shrink len) := by
  by_cases hlen : len.toNat ≤ msg.dataLen
  · have hcall : payloadCall msg (.shrink len) = (.success, { msg with
        dataLen := len.toNat
        dataLen_le := Nat.le_trans hlen msg.dataLen_le }) := by
      simp only [payloadCall, waveIpcMsgShrinkData]
      rw [dif_neg (Nat.not_lt.mpr hlen)]
    refine .done hcall ?_ ?_
    · rwa [Succeeds, length_shownPayload]
    · rw [Makes, shownPayload_eq, shownPayload_eq, payload, payload, List.take_take,
        Nat.min_eq_left hlen]
  · refine .refused ?_ fun hs => hlen ?_
    · simp only [payloadCall, waveIpcMsgShrinkData]
      rw [dif_pos (Nat.lt_of_not_le hlen)]
    · rwa [Succeeds, length_shownPayload] at hs

theorem append_refines (hwrap : NoWrap msg (.append arg)) : RefinesBytes msg (.append arg) := by
  cases hbytes : arg.bytes with
  | none =>
    refine .refused ?_ fun hs => hs.1 hbytes
    simp only [payloadCall, hbytes, waveIpcMsgAppendData]
  | some mem =>
    have hsum : (arg.len.toNat + msg.dataLen) % 2 ^ 64 = arg.len.toNat + msg.dataLen := by
      have := hwrap (by rw [hbytes]; exact nofun)
      rw [length_shownPayload] at this
      exact Nat.mod_eq_of_lt this
    by_cases hok : arg.len.toNat ≠ 0 ∧ msg.dataLen + arg.len.toNat ≤ waveIpcBuffSize
    · obtain ⟨hpos, hfit⟩ := hok
      have hlen16 : (msg.dataLen + arg.len.toNat) % 2 ^ 16 = msg.dataLen + arg.len.toNat := by
        refine Nat.mod_eq_of_lt ?_
        simp only [waveIpcBuffSize] at hfit
        omega
      have hcall : payloadCall msg (.append arg) = (.success, { msg with
          data := msg.data.memcpyS msg.dataLen (mem.take arg.len.toNat)
          dataLen := msg.dataLen + arg.len.toNat
          dataLen_le := hfit }) := by
        simp only [payloadCall, hbytes, waveIpcMsgAppendData]
        rw [if_neg hpos, dif_neg (by omega)]
        simp only [hlen16, if_pos (show arg.len.toNat ≤ waveIpcBuffSize - msg.dataLen by omega)]
      have hdata : arg.data = mem.take arg.len.toNat := by
        rw [DataArg.data, hbytes, Option.getD_some]
      have hlength := DataArg.length_data hbytes (by omega)
      refine .done hcall ⟨by rw [hbytes]; exact nofun, hpos, by rwa [length_shownPayload]⟩ ?_
      rw [Makes, shownPayload_eq, shownPayload_eq, payload_write msg arg.data]
      · omega
      · rw [hdata]
      · rw [hlength]
    · refine .refused ?_ fun hs => hok ⟨hs.2.1, by rw [← length_shownPayload]; exact hs.2.2⟩
      simp only [payloadCall, hbytes, waveIpcMsgAppendData]
      by_cases hzero : arg.len.toNat = 0
      · rw [if_pos hzero]
      · rw [if_neg hzero, dif_pos]
        exact Nat.lt_of_not_le fun hle => hok ⟨hzero, by omega⟩

/-- Where the sum wraps the call succeeds, and should not. -/
theorem append_wraps (h : RefinesBytes msg (.append arg)) : NoWrap msg (.append arg) := by
  intro hbytes
  obtain ⟨mem, hmem⟩ := Option.ne_none_iff_exists'.mp hbytes
  rw [length_shownPayload]
  refine Nat.not_le.mp fun hwrap => ?_
  have hlen := arg.len.toNat_lt
  have hroom := msg.dataLen_le
  have hsum : ¬(arg.len.toNat + msg.dataLen) % 2 ^ 64 > waveIpcBuffSize := by
    simp only [waveIpcBuffSize] at hroom ⊢
    omega
  have hpos : ¬arg.len.toNat = 0 := by
    simp only [waveIpcBuffSize] at hroom
    omega
  have hsuccess : (payloadCall msg (.append arg)).1 = .success := by
    simp only [payloadCall, hmem, waveIpcMsgAppendData]
    rw [if_neg hpos, dif_neg hsum]
  have hfit := (h.succeeds.mp hsuccess).2.2
  simp only [waveIpcBuffSize] at hfit hroom
  omega

theorem refinesBytes_iff {call : PayloadCall} : RefinesBytes msg call ↔ NoWrap msg call := by
  cases call with
  | fill arg => exact iff_of_true fill_refines trivial
  | append arg => exact ⟨append_wraps, append_refines⟩
  | reserve len => exact iff_of_true reserve_refines trivial
  | shrink len => exact iff_of_true shrink_refines trivial

/-- From a message of the pool on, the calls do what they do to a byte list exactly if no sum of
lengths wraps. -/
theorem payloadRefines (stale : Buffer waveIpcBuffSize) (calls : List PayloadCall) :
    Along payloadStep RefinesBytes (waveIpcMsgAlloc stale) calls ↔
      Along payloadStep NoWrap (waveIpcMsgAlloc stale) calls := by
  constructor
  · exact Along.mono fun _ _ => refinesBytes_iff.mp
  · exact Along.mono fun _ _ => refinesBytes_iff.mpr

/-- Five bytes, and then `2 ^ 64 - 3` more: the call succeeds. -/
theorem payload_wrapped :
    ¬ Along payloadStep RefinesBytes (waveIpcMsgAlloc (Buffer.fill waveIpcBuffSize 0))
      [.fill ⟨some [1, 2, 3, 4, 5], 5, fun _ heq _ => by cases heq; decide⟩,
        .append ⟨some [6], 0xfffffffffffffffd, fun _ _ hlen => absurd hlen (by decide)⟩] := by
  intro h
  have hrefines : RefinesBytes _ (.append ⟨some [6], 0xfffffffffffffffd, _⟩) := h.2.1
  have hwrap := append_wraps hrefines nofun
  rw [length_shownPayload] at hwrap
  exact absurd hwrap (by decide)

end Dwpal.Ipc
