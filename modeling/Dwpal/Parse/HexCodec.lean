import Dwpal.Lib.Stores
import Dwpal.Parse.ParamRoundTrip

/-! `dwpald_str_to_hex` and `dwpald_hex_to_str` with the stores that they make to their output. -/

namespace Dwpal.Parse

open CNumber Stores

/-- A string that a caller has in memory: an object is not larger than half of the address space. -/
structure CallerString where
  bytes : List UInt8
  zero_notMem : 0 ∉ bytes
  length_lt : bytes.length < 2 ^ 63

/-- The loop of `dwpald_str_to_hex`, which goes up to the terminator, with the output at offset
`i`. -/
def strToHexStoresLoop (p : Platform) (i : Nat) : List UInt8 → Option (List (Store UInt8))
  | [] => some [⟨i, [0]⟩]
  | c :: str =>
    match charToHex p c with
    | none => none
    | some hex => (strToHexStoresLoop p (i + 2) str).map fun stores => ⟨i, hex⟩ :: stores

/-- `dwpald_str_to_hex`: what it returns, and its stores to the output. -/
def strToHexStores (p : Platform) (size : UInt64) (str : List UInt8) :
    Option (Bool × List (Store UInt8)) :=
  if min str.length hostapdToDwpalValueStringLength * 2 + 1 > size.toNat then
    some (false, [⟨0, [0]⟩])
  else (strToHexStoresLoop p 0 str).map fun stores => (true, stores)

/-- The loop of `dwpald_hex_to_str` with the output at offset `i`. Behind a single character is the
terminator, which is no digit. -/
def hexToStrStoresLoop (i : Nat) : List UInt8 → Bool × List (Store UInt8)
  | hi :: lo :: hexStr =>
    match hexToNum hi, hexToNum lo with
    | some h, some l =>
      let (ret, stores) := hexToStrStoresLoop (i + 1) hexStr
      (ret, ⟨i, [UInt8.ofNat (h * 16 + l)]⟩ :: stores)
    | _, _ => (false, [⟨i, [0]⟩])
  | [] => (true, [⟨i, [0]⟩])
  | [_] => (false, [⟨i, [0]⟩])

/-- `dwpald_hex_to_str`. The limit of the length is a `size_t`. -/
def hexToStrStores (size : UInt64) (hexStr : List UInt8) : Bool × List (Store UInt8) :=
  let len := min hexStr.length ((size + 1) * 2).toNat
  if size = 0 then (false, [])
  else if len / 2 + 1 > size.toNat then (false, [⟨0, [0]⟩])
  else if len % 2 ≠ 0 then (false, [⟨0, [0]⟩])
  else hexToStrStoresLoop 0 hexStr

/-! What the two are for. -/

/-- An even number of hex digits. -/
def HexText (text : List UInt8) : Prop := text.length % 2 = 0 ∧ ∀ c ∈ text, isDigit 16 c = true

instance (text : List UInt8) : Decidable (HexText text) := inferInstanceAs (Decidable (_ ∧ _))

/-- The two digits of each byte. -/
def pairs : List UInt8 → List (UInt8 × UInt8)
  | hi :: lo :: text => (hi, lo) :: pairs text
  | _ => []

/-- A hex digit in upper case. -/
def upperCase (c : UInt8) : UInt8 := if 97 ≤ c ∧ c ≤ 122 then c - 32 else c

/-- The stores leave a string at the beginning of the output. -/
def Leaves (stores : List (Store UInt8)) (text : List UInt8) : Prop :=
  ∀ m, bytesAt (runAll stores m) 0 (text ++ [0]).length = text ++ [0]

/-- All stores are inside an output of `size` bytes. -/
def Inside (size : UInt64) (stores : List (Store UInt8)) : Prop :=
  ∀ a, Touches stores a → a < size.toNat

section Digits

variable {p : Platform} {c hi lo : UInt8} {n : Nat} {text : List UInt8}

theorem hexToNum_spec (c : UInt8) : (hexToNum c).isSome = isDigit 16 c ∧
    ∀ n ∈ hexToNum c,
      n < 16 ∧ digitByte n = upperCase c ∧ (n = 0 ↔ c = 48) ∧ (n < 8 ↔ c < 56) := by
  have hall : ∀ k < 256, (hexToNum (UInt8.ofNat k)).isSome = isDigit 16 (UInt8.ofNat k) ∧
      ∀ n ∈ hexToNum (UInt8.ofNat k), n < 16 ∧ digitByte n = upperCase (UInt8.ofNat k) ∧
        (n = 0 ↔ UInt8.ofNat k = 48) ∧ (n < 8 ↔ UInt8.ofNat k < 56) := by decide +kernel
  have hc := hall c.toNat c.toNat_lt
  rwa [UInt8.ofNat_toNat] at hc

theorem hexToNum_of_isDigit (h : isDigit 16 c = true) : ∃ n, hexToNum c = some n :=
  Option.isSome_iff_exists.mp ((hexToNum_spec c).1.trans h)

theorem isDigit_of_hexToNum (h : hexToNum c = some n) : isDigit 16 c = true := by
  rw [← (hexToNum_spec c).1, h]
  rfl

@[simp] theorem hexText_nil : HexText [] := ⟨rfl, fun _ hc => absurd hc List.not_mem_nil⟩

@[simp] theorem not_hexText_singleton : ¬HexText [c] := fun h => absurd h.1 (by simp)

@[simp] theorem hexText_cons_cons :
    HexText (hi :: lo :: text) ↔ isDigit 16 hi = true ∧ isDigit 16 lo = true ∧ HexText text := by
  simp only [HexText, List.length_cons, List.forall_mem_cons, Nat.add_assoc, Nat.add_mod_right]
  tauto

theorem not_hexText_of (h : ∀ h l, hexToNum hi = some h → hexToNum lo = some l → False) :
    ¬HexText (hi :: lo :: text) := fun hhex => by
  obtain ⟨hhi, hlo, -⟩ := hexText_cons_cons.mp hhex
  obtain ⟨h', hh⟩ := hexToNum_of_isDigit hhi
  obtain ⟨l, hl⟩ := hexToNum_of_isDigit hlo
  exact h h' l hh hl

/-- The digits of a byte that two digits stand for. -/
theorem hexOfByte_ofNat {h l : Nat} (hh : h < 16) (hl : l < 16) :
    hexOfByte (UInt8.ofNat (h * 16 + l)) = [digitByte h, digitByte l] := by
  have hlt : h * 16 + l < 256 := by omega
  rw [hexOfByte, UInt8.toNat_ofNat_of_lt' hlt, show (h * 16 + l) / 16 = h by omega,
    show (h * 16 + l) % 16 = l by omega]

theorem zero_eq_ofNat {h l : Nat} (hh : h < 16) (hl : l < 16) :
    0 = UInt8.ofNat (h * 16 + l) ↔ h = 0 ∧ l = 0 := by
  have hlt : h * 16 + l < 256 := by omega
  rw [← UInt8.toNat_inj, UInt8.toNat_ofNat_of_lt' hlt]
  change 0 = _ ↔ _
  omega

theorem ofNat_lt_half {h l : Nat} (hh : h < 16) (hl : l < 16) :
    UInt8.ofNat (h * 16 + l) < 128 ↔ h < 8 := by
  have hlt : h * 16 + l < 256 := by omega
  rw [UInt8.lt_iff_toNat_lt, UInt8.toNat_ofNat_of_lt' hlt]
  change _ < 128 ↔ _
  omega

end Digits

section Loops

variable {p : Platform} {s text : List UInt8} {b : UInt8} {i : Nat}

theorem strToHexStoresLoop_eq (h : p.charSigned = true → ∀ b ∈ s, b < 128) :
    ∃ stores, strToHexStoresLoop p i s = some stores ∧
      Writes stores i (s.flatMap hexOfByte ++ [0]) := by
  induction s generalizing i with
  | nil => exact ⟨_, rfl, .single⟩
  | cons c s ih =>
    obtain ⟨stores, hstores, hwrites⟩ :=
      @ih (i + 2) fun hsigned b hb => h hsigned b (List.mem_cons_of_mem c hb)
    have hc : charToHex p c = some (hexOfByte c) :=
      if_neg fun hneg => absurd (h hneg.1 c List.mem_cons_self) (UInt8.not_lt.mpr hneg.2)
    refine ⟨⟨i, hexOfByte c⟩ :: stores, ?_, ?_⟩
    · simp only [strToHexStoresLoop, hc, hstores, Option.map_some]
    · rw [List.flatMap_cons, List.append_assoc]
      exact hwrites.cons

/-- A negative character has no result. -/
theorem strToHexStoresLoop_none (hsigned : p.charSigned = true) (hb : b ∈ s) (hneg : 128 ≤ b) :
    strToHexStoresLoop p i s = none := by
  induction s generalizing i with
  | nil => cases hb
  | cons c s ih =>
    rcases List.mem_cons.mp hb with rfl | hb
    · have hnone : charToHex p b = none := if_pos ⟨hsigned, hneg⟩
      simp only [strToHexStoresLoop, hnone]
    · rw [strToHexStoresLoop]
      split
      · rfl
      · rw [ih hb]
        rfl

theorem hexToStrStoresLoop_eq : (hexToStrStoresLoop i text).1 = (hexToStrLoop text).1 ∧
    Writes (hexToStrStoresLoop i text).2 i ((hexToStrLoop text).2 ++ [0]) := by
  fun_induction hexToStrLoop text generalizing i with
  | case1 hi lo text h l hl hh ok rest heq ih =>
    obtain ⟨hret, hwrites⟩ := @ih (i + 1)
    rw [heq] at hret hwrites
    simp only [hexToStrStoresLoop, hh, hl]
    exact ⟨hret, hwrites.cons⟩
  | case2 hi lo text hnone =>
    rw [hexToStrStoresLoop]
    split
    · next h l hh hl => exact absurd hl (hnone h l hh)
    · exact ⟨rfl, .single⟩
  | case3 => exact ⟨rfl, .single⟩
  | case4 c => exact ⟨rfl, .single⟩

theorem hexToStrLoop_length : 2 * (hexToStrLoop text).2.length ≤ text.length := by
  fun_induction hexToStrLoop text with
  | case1 hi lo text h l hl hh ok rest heq ih =>
    rw [heq] at ih
    simp only [List.length_cons] at ih ⊢
    omega
  | case2 hi lo text hnone => exact Nat.zero_le _
  | case3 => exact Nat.le_refl _
  | case4 c => exact Nat.zero_le _

theorem hexToStrLoop_fst : (hexToStrLoop text).1 = true ↔ HexText text := by
  fun_induction hexToStrLoop text with
  | case1 hi lo text h l hl hh ok rest heq ih =>
    rw [heq] at ih
    simp only [hexText_cons_cons, isDigit_of_hexToNum hh, isDigit_of_hexToNum hl, true_and]
    exact ih
  | case2 hi lo text hnone => exact iff_of_false (by simp) (not_hexText_of hnone)
  | case3 => simp
  | case4 c => simp

/-- What the loop decodes from hex digits. -/
theorem hexToStrLoop_snd (h : HexText text) :
    (hexToStrLoop text).2.flatMap hexOfByte = text.map upperCase ∧
      (0 ∈ (hexToStrLoop text).2 ↔ (48, 48) ∈ pairs text) ∧
      ((∀ b ∈ (hexToStrLoop text).2, b < 128) ↔ ∀ pair ∈ pairs text, pair.1 < 56) := by
  fun_induction hexToStrLoop text with
  | case1 hi lo text h' l hl hh ok rest heq ih =>
    obtain ⟨hhi, hlo, htext⟩ := hexText_cons_cons.mp h
    obtain ⟨hhex, hzero, hlow⟩ := ih htext
    rw [heq] at hhex hzero hlow
    obtain ⟨hlth, hdigith, hzeroh, hlowh⟩ := (hexToNum_spec hi).2 h' hh
    obtain ⟨hltl, hdigitl, hzerol, -⟩ := (hexToNum_spec lo).2 l hl
    refine ⟨?_, ?_, ?_⟩
    · rw [List.flatMap_cons, hhex, hexOfByte_ofNat hlth hltl, hdigith, hdigitl]
      rfl
    · have hbyte : 0 = UInt8.ofNat (h' * 16 + l) ↔ 48 = hi ∧ 48 = lo := by
        rw [@eq_comm _ 48 hi, @eq_comm _ 48 lo, ← hzeroh, ← hzerol]
        exact zero_eq_ofNat hlth hltl
      rw [List.mem_cons, hzero, pairs, List.mem_cons, Prod.mk.injEq, hbyte]
    · have hbyte : UInt8.ofNat (h' * 16 + l) < 128 ↔ hi < 56 := by
        rw [← hlowh]
        exact ofNat_lt_half hlth hltl
      rw [List.forall_mem_cons, hlow, pairs, List.forall_mem_cons, hbyte]
  | case2 hi lo text hnone => exact absurd h (not_hexText_of hnone)
  | case3 => simp [pairs]
  | case4 c => exact absurd h not_hexText_singleton

end Loops

section Calls

variable {p : Platform} {size : UInt64} {s text hexStr : List UInt8} {stores : List (Store UInt8)}

/-- The limit of the length is even, also where it does not fit. -/
theorem limit_eq : ((size + 1) * 2).toNat = (2 * size.toNat + 2) % 2 ^ 64 := by
  rw [UInt64.toNat_mul, UInt64.toNat_add]
  change (size.toNat + 1) % 2 ^ 64 * 2 % 2 ^ 64 = _
  omega

theorem strToHexStores_eq (hsize : s.length * 2 + 1 ≤ size.toNat)
    (h : p.charSigned = true → ∀ b ∈ s, b < 128) :
    ∃ stores, strToHexStores p size s = some (true, stores) ∧
      Writes stores 0 (s.flatMap hexOfByte ++ [0]) := by
  obtain ⟨stores, hstores, hwrites⟩ := @strToHexStoresLoop_eq p s 0 h
  refine ⟨stores, ?_, hwrites⟩
  rw [strToHexStores, if_neg (by omega), hstores]
  rfl

/-- What `dwpald_str_to_hex` does with a string that the limit of the length lets pass. -/
theorem strToHexStores_some {ret : Bool}
    (hpass : min s.length hostapdToDwpalValueStringLength * 2 + 1 ≤ size.toNat)
    (h : strToHexStores p size s = some (ret, stores)) :
    ret = true ∧ (p.charSigned = true → ∀ b ∈ s, b < 128) ∧
      Writes stores 0 (s.flatMap hexOfByte ++ [0]) := by
  rw [strToHexStores, if_neg (by omega), Option.map_eq_some_iff] at h
  obtain ⟨written, hloop, heq⟩ := h
  obtain ⟨rfl, rfl⟩ := Prod.mk.inj heq
  have hlow : p.charSigned = true → ∀ b ∈ s, b < 128 := fun hsigned b hb => by
    by_contra hneg
    rw [strToHexStoresLoop_none hsigned hb (UInt8.not_lt.mp hneg)] at hloop
    cases hloop
  obtain ⟨stores, hstores, hwrites⟩ := @strToHexStoresLoop_eq p s 0 hlow
  obtain rfl := Option.some.inj (hstores.symm.trans hloop)
  exact ⟨rfl, hlow, hwrites⟩

theorem hexToStrStores_eq (hsize : hexStr.length / 2 + 1 ≤ size.toNat) (h : HexText hexStr) :
    hexToStrStores size hexStr = hexToStrStoresLoop 0 hexStr := by
  have heven := h.1
  have hne : size ≠ 0 := fun heq => by
    rw [heq] at hsize
    exact absurd hsize (Nat.not_succ_le_zero _)
  rw [hexToStrStores, limit_eq]
  rw [if_neg hne, if_neg (by omega), if_neg (by omega)]

theorem hexToStrStores_rejects (h : ¬HexText hexStr) : (hexToStrStores size hexStr).1 = false := by
  have hloop := (@hexToStrStoresLoop_eq hexStr 0).1
  rw [Bool.eq_false_iff.mpr fun hret => h (hexToStrLoop_fst.mp hret)] at hloop
  rw [hexToStrStores]
  split_ifs <;> first | rfl | exact hloop

theorem hexToStrStores_small (hlength : hexStr.length < 2 ^ 63)
    (hsize : size.toNat < hexStr.length / 2 + 1) :
    hexToStrStores size hexStr = (false, if size = 0 then [] else [⟨0, [0]⟩]) := by
  rw [hexToStrStores, limit_eq]
  split_ifs with hzero hlen heven
  · rfl
  · rfl
  · rfl
  · exact absurd hlen (by omega)

/-- The single store of a failure is inside an output that has a byte. -/
theorem inside_failure (h : size ≠ 0) : Inside size [⟨0, [0]⟩] := fun a ha => by
  have hpos : 0 < size.toNat := Nat.pos_of_ne_zero fun heq => h (UInt64.toNat_inj.mp heq)
  exact Writes.single.inside hpos a ha

theorem hexToStrStores_inside (hlength : hexStr.length < 2 ^ 63) :
    Inside size (hexToStrStores size hexStr).2 := by
  by_cases hsize : size.toNat < hexStr.length / 2 + 1
  · rw [hexToStrStores_small hlength hsize]
    dsimp only
    split_ifs with hzero
    · exact fun a ha => absurd ha not_touches_nil
    · exact inside_failure hzero
  · have hwrites := (@hexToStrStoresLoop_eq hexStr 0).2
    have hle := @hexToStrLoop_length hexStr
    rw [hexToStrStores]
    split_ifs with hzero
    · exact fun a ha => absurd ha not_touches_nil
    · exact inside_failure hzero
    · exact inside_failure hzero
    · exact hwrites.inside (by rw [List.length_append, List.length_singleton]; omega)

end Calls

/-! The round trips. -/

/-- The string is back after both conversions with buffers that are large enough. -/
def StrRoundTrip (p : Platform) (s : List UInt8) : Prop :=
  ∀ hexSize size : UInt64, s.length * 2 + 1 ≤ hexSize.toNat → s.length + 1 ≤ size.toNat →
    ∃ stores hex, strToHexStores p hexSize s = some (true, stores) ∧ 0 ∉ hex ∧ Leaves stores hex ∧
      (hexToStrStores size hex).1 = true ∧ Leaves (hexToStrStores size hex).2 s

/-- The hex digits are back, in upper case. -/
def HexRoundTrip (p : Platform) (hexStr : List UInt8) : Prop :=
  ∀ size hexSize : UInt64, hexStr.length / 2 + 1 ≤ size.toNat → hexStr.length + 1 ≤ hexSize.toNat →
    (hexToStrStores size hexStr).1 = true ∧
    ∃ str stores, 0 ∉ str ∧ Leaves (hexToStrStores size hexStr).2 str ∧
      strToHexStores p hexSize str = some (true, stores) ∧ Leaves stores (hexStr.map upperCase)

/-- The two functions are a codec for a string and for a hex string. -/
structure HexCodec (p : Platform) (s hexStr : List UInt8) : Prop where
  str : StrRoundTrip p s
  hex : HexText hexStr → (48, 48) ∉ pairs hexStr → HexRoundTrip p hexStr
  rejects : ¬HexText hexStr → ∀ size, (hexToStrStores size hexStr).1 = false

section RoundTrips

variable {p : Platform} {s hexStr text text' : List UInt8} {stores : List (Store UInt8)}

/-- There is one string at the beginning of the output. -/
theorem Leaves.unique (h : Leaves stores text) (h' : Leaves stores text') (hzero : 0 ∉ text)
    (hzero' : 0 ∉ text') : text = text' :=
  eq_of_bytesAt (h fun _ => 0) (h' fun _ => 0) hzero hzero'

/-- Sizes for a string that is in memory. -/
theorem exists_size {n : Nat} (h : n < 2 ^ 64) : ∃ size : UInt64, size.toNat = n :=
  ⟨UInt64.ofNat n, UInt64.toNat_ofNat_of_lt' h⟩

theorem strRoundTrip_iff (s : CallerString) :
    StrRoundTrip p s.bytes ↔ (p.charSigned = true → ∀ b ∈ s.bytes, b < 128) := by
  have hlt := s.length_lt
  constructor
  · intro h
    obtain ⟨hexSize, hhexSize⟩ := @exists_size (s.bytes.length * 2 + 1) (by omega)
    obtain ⟨size, hsize⟩ := @exists_size (s.bytes.length + 1) (by omega)
    obtain ⟨stores, hex, hstores, -⟩ := h hexSize size (by omega) (by omega)
    exact (strToHexStores_some (by omega) hstores).2.1
  · intro h hexSize size hhexSize hsize
    obtain ⟨stores, hstores, hwrites⟩ := strToHexStores_eq hhexSize h
    have hloop := @hexToStrLoop_hexOfByte s.bytes
    have hlength := @length_hexOfByte s.bytes
    have hhex : HexText (s.bytes.flatMap hexOfByte) := hexToStrLoop_fst.mp (by rw [hloop])
    have hback := @hexToStrStoresLoop_eq (s.bytes.flatMap hexOfByte) 0
    rw [hloop] at hback
    refine ⟨stores, _, hstores, fun hzero => ?_, hwrites.left, ?_⟩
    · exact absurd (hhex.2 0 hzero) (by decide)
    · rw [hexToStrStores_eq (by omega) hhex]
      exact ⟨hback.1, hback.2.left⟩

theorem hexRoundTrip_iff (hexStr : CallerString) (hhex : HexText hexStr.bytes)
    (hpairs : (48, 48) ∉ pairs hexStr.bytes) :
    HexRoundTrip p hexStr.bytes ↔
      (p.charSigned = true → ∀ pair ∈ pairs hexStr.bytes, pair.1 < 56) := by
  have hlt := hexStr.length_lt
  have hret := hexToStrLoop_fst.mpr hhex
  have hlength := @hexToStrLoop_length hexStr.bytes
  obtain ⟨hupper, hzero, hlow⟩ := hexToStrLoop_snd hhex
  obtain ⟨hfst, hwrites⟩ := @hexToStrStoresLoop_eq hexStr.bytes 0
  rw [← hlow]
  constructor
  · intro h
    obtain ⟨size, hsize⟩ := @exists_size (hexStr.bytes.length / 2 + 1) (by omega)
    obtain ⟨hexSize, hhexSize⟩ := @exists_size (hexStr.bytes.length + 1) (by omega)
    obtain ⟨-, str, stores, hstr, hleaves, hstores, -⟩ := h size hexSize (by omega) (by omega)
    rw [hexToStrStores_eq (by omega) hhex] at hleaves
    have heq := hleaves.unique hwrites.left hstr (by rwa [hzero])
    rw [heq] at hstores
    exact (strToHexStores_some (by omega) hstores).2.1
  · intro h size hexSize hsize hhexSize
    obtain ⟨stores, hstores, hwrites'⟩ :=
      @strToHexStores_eq p hexSize (hexToStrLoop hexStr.bytes).2 (by omega) h
    rw [hupper] at hwrites'
    rw [hexToStrStores_eq (by omega) hhex, hfst]
    exact ⟨hret, _, stores, by rwa [hzero], hwrites.left, hstores, hwrites'.left⟩

/-- The conversions lose nothing, but a negative character has no hex digits: it is converted to
`unsigned` and not to `unsigned char`. -/
theorem hexCodec_iff (p : Platform) (s hexStr : CallerString) :
    HexCodec p s.bytes hexStr.bytes ↔
      (p.charSigned = true → (∀ b ∈ s.bytes, b < 128) ∧
        (HexText hexStr.bytes → (48, 48) ∉ pairs hexStr.bytes →
          ∀ pair ∈ pairs hexStr.bytes, pair.1 < 56)) := by
  constructor
  · intro h hsigned
    exact ⟨(strRoundTrip_iff s).mp h.str hsigned, fun hhex hpairs =>
      (hexRoundTrip_iff hexStr hhex hpairs).mp (h.hex hhex hpairs) hsigned⟩
  · intro h
    exact ⟨(strRoundTrip_iff s).mpr fun hsigned => (h hsigned).1, fun hhex hpairs =>
      (hexRoundTrip_iff hexStr hhex hpairs).mpr fun hsigned => (h hsigned).2 hhex hpairs,
      fun hhex size => hexToStrStores_rejects hhex⟩

/-- Where characters are signed, a letter of two bytes has no hex digits. -/
theorem letter_lost : ¬HexCodec platform64 [0xC3, 0xA9] [0x41, 0x42] := fun h => by
  obtain ⟨stores, hex, hstores, -⟩ := h.str 5 3 (by decide) (by decide)
  cases hstores

end RoundTrips

/-! The bounds of the output. -/

/-- A conversion to `size` bytes stays inside, terminates what it makes, and succeeds just when the
input is valid and the converted form fits. -/
structure Bounded (size : UInt64) (valid : Prop) (length : Nat) (ret : Bool)
    (stores : List (Store UInt8)) : Prop where
  inside : Inside size stores
  terminated : ret = true → ∃ a < size.toNat, ∀ m, runAll stores m a = 0
  succeeds : ret = true ↔ valid ∧ length + 1 ≤ size.toNat

/-- `dwpald_str_to_hex` is defined and takes every string. -/
def StrToHexBounded (p : Platform) (size : UInt64) (s : List UInt8) : Prop :=
  ∃ ret stores, strToHexStores p size s = some (ret, stores) ∧
    Bounded size True (s.length * 2) ret stores

def HexToStrBounded (size : UInt64) (hexStr : List UInt8) : Prop :=
  Bounded size (HexText hexStr) (hexStr.length / 2) (hexToStrStores size hexStr).1
    (hexToStrStores size hexStr).2

section Bounds

variable {p : Platform} {size : UInt64}

theorem hexToStrBounded (hexStr : CallerString) : HexToStrBounded size hexStr.bytes := by
  have hlt := hexStr.length_lt
  have hsucceeds : (hexToStrStores size hexStr.bytes).1 = true ↔
      HexText hexStr.bytes ∧ hexStr.bytes.length / 2 + 1 ≤ size.toNat := by
    constructor
    · intro hret
      refine ⟨?_, ?_⟩
      · by_contra hhex
        rw [hexToStrStores_rejects hhex] at hret
        cases hret
      · by_contra hsize
        rw [hexToStrStores_small hlt (by omega)] at hret
        cases hret
    · rintro ⟨hhex, hsize⟩
      rw [hexToStrStores_eq hsize hhex, hexToStrStoresLoop_eq.1]
      exact hexToStrLoop_fst.mpr hhex
  refine ⟨hexToStrStores_inside hlt, fun hret => ?_, hsucceeds⟩
  obtain ⟨hhex, hsize⟩ := hsucceeds.mp hret
  have hlength := @hexToStrLoop_length hexStr.bytes
  rw [hexToStrStores_eq hsize hhex]
  exact ⟨0 + (hexToStrLoop hexStr.bytes).2.length, by omega, (hexToStrStoresLoop_eq.2).last⟩

theorem strToHexBounded_iff (s : CallerString) : StrToHexBounded p size s.bytes ↔
    0 < size ∧ (size.toNat < min s.bytes.length hostapdToDwpalValueStringLength * 2 + 1 ∨
      s.bytes.length * 2 + 1 ≤ size.toNat ∧ (p.charSigned = true → ∀ b ∈ s.bytes, b < 128)) := by
  constructor
  · rintro ⟨ret, stores, hstores, hbounded⟩
    by_cases hpass : size.toNat < min s.bytes.length hostapdToDwpalValueStringLength * 2 + 1
    · rw [strToHexStores, if_pos hpass] at hstores
      obtain ⟨rfl, rfl⟩ := Prod.mk.inj (Option.some.inj hstores)
      have hpos := hbounded.inside 0 ((Writes.single.touches 0).mpr (by decide))
      exact ⟨UInt64.lt_iff_toNat_lt.mpr hpos, .inl hpass⟩
    · obtain ⟨hret, hlow, -⟩ := strToHexStores_some (by omega) hstores
      have hsize := (hbounded.succeeds.mp hret).2
      exact ⟨UInt64.lt_iff_toNat_lt.mpr (Nat.lt_of_lt_of_le (Nat.succ_pos _) hsize),
        .inr ⟨hsize, hlow⟩⟩
  · rintro ⟨hpos, hsmall | ⟨hsize, hlow⟩⟩
    · refine ⟨false, _, if_pos hsmall, inside_failure ?_, nofun, ?_⟩
      · rintro rfl
        exact absurd hpos (by decide)
      · exact iff_of_false nofun fun hfits => absurd hfits.2 (by omega)
    · obtain ⟨stores, hstores, hwrites⟩ := strToHexStores_eq hsize hlow
      have hlength := @length_hexOfByte s.bytes
      refine ⟨true, stores, hstores, ?_, fun _ => ?_, iff_of_true rfl ⟨trivial, hsize⟩⟩
      · exact hwrites.inside (by rw [List.length_append, List.length_singleton]; omega)
      · exact ⟨0 + (s.bytes.flatMap hexOfByte).length, by omega, hwrites.last⟩

/-- Both conversions keep to the output, except that `dwpald_str_to_hex` writes to an output of no
bytes, writes past the limit of a length and has no digits for a negative character. -/
theorem hexCodec_bounds (p : Platform) (size : UInt64) (s : CallerString) :
    StrToHexBounded p size s.bytes ∧ HexToStrBounded size s.bytes ↔
      0 < size ∧ (size.toNat < min s.bytes.length hostapdToDwpalValueStringLength * 2 + 1 ∨
        s.bytes.length * 2 + 1 ≤ size.toNat ∧ (p.charSigned = true → ∀ b ∈ s.bytes, b < 128)) := by
  rw [← strToHexBounded_iff]
  exact and_iff_left (hexToStrBounded s)

def longText : CallerString where
  bytes := List.replicate 4097 97
  zero_notMem h := absurd (List.eq_of_mem_replicate h) (by decide)
  length_lt := by rw [List.length_replicate]; decide

/-- The terminator is written to an output of no bytes, and the end of a long string behind the
output. -/
theorem strToHex_overflows :
    ¬StrToHexBounded platform64 0 [] ∧ ¬StrToHexBounded platform64 8193 longText.bytes := by
  refine ⟨?_, fun h => ?_⟩
  · rintro ⟨ret, stores, hstores, hbounded⟩
    obtain ⟨rfl, rfl⟩ := Prod.mk.inj (Option.some.inj hstores)
    exact absurd (hbounded.inside 0 ((Writes.single.touches 0).mpr (by decide))) (by decide)
  · obtain ⟨-, hsmall | ⟨hsize, -⟩⟩ := (strToHexBounded_iff longText).mp h
    · exact absurd hsmall (by rw [longText, List.length_replicate]; decide)
    · exact absurd hsize (by rw [longText, List.length_replicate]; decide)

end Bounds

end Dwpal.Parse
