import Dwpal.Lib.CNumber
import Mathlib.Data.List.TakeWhile
import Mathlib.Data.Nat.Digits.Lemmas

/-! The texts that the conversions `%u`, `%d` and `%X` write for numbers, and that `strtol` and
`strtoul` read the numbers back. -/

namespace Dwpal.CNumber

/-- A digit of a base up to 16. -/
def digitByte (d : Nat) : UInt8 := if d < 10 then UInt8.ofNat (48 + d) else UInt8.ofNat (55 + d)

/-- A natural number in a base. -/
def natText (base n : Nat) : List UInt8 :=
  if n = 0 then [48] else (Nat.digits base n).reverse.map digitByte

/-- An integer in base 10. -/
def intText (z : Int) : List UInt8 :=
  if z < 0 then 45 :: natText 10 z.natAbs else natText 10 z.natAbs

theorem digitValue_digitByte {d : Nat} (h : d < 16) : digitValue (digitByte d) = some d := by
  interval_cases d <;> decide

theorem isDigit_digitByte {base d : Nat} (hbase : base ≤ 16) (h : d < base) :
    isDigit base (digitByte d) = true := by
  rw [isDigit, digitValue_digitByte (Nat.lt_of_lt_of_le h hbase)]
  exact decide_eq_true h

theorem digitByte_eq_zero {d : Nat} (h : d < 16) : digitByte d = 48 ↔ d = 0 := by
  interval_cases d <;> decide

section NatText

variable {base n : Nat}

theorem isDigit_of_mem_natText (hbase : 1 < base) (hle : base ≤ 16) {b : UInt8}
    (h : b ∈ natText base n) : isDigit base b = true := by
  rw [natText] at h
  split at h
  · rw [List.mem_singleton.mp h]
    exact isDigit_digitByte (d := 0) hle (by omega)
  · obtain ⟨d, hd, rfl⟩ := List.mem_map.mp h
    exact isDigit_digitByte hle (Nat.digits_lt_base hbase (List.mem_reverse.mp hd))

theorem natText_ne_nil : natText base n ≠ [] := by
  rw [natText]
  split
  · exact List.cons_ne_nil _ _
  · next hn => simpa [Nat.digits_eq_nil_iff_eq_zero] using hn

/-- A text of more than one digit does not begin with a zero. -/
theorem natText_zero {rest : List UInt8} (hbase : 1 < base) (hle : base ≤ 16)
    (h : natText base n = 48 :: rest) : rest = [] := by
  rw [natText] at h
  split at h
  · exact (List.cons.inj h).2.symm
  · next hn =>
    exfalso
    have hne := Nat.digits_ne_nil_iff_ne_zero (b := base).mpr hn
    have hlast := Nat.getLast_digit_ne_zero base hn
    have hlt := Nat.digits_lt_base hbase (List.getLast_mem hne)
    rw [← List.dropLast_append_getLast hne, List.reverse_append, List.reverse_singleton,
      List.singleton_append, List.map_cons] at h
    exact hlast ((digitByte_eq_zero (Nat.lt_of_lt_of_le hlt hle)).mp (List.cons.inj h).1)

theorem ofDigits_map {digits : List Nat} (h : ∀ d ∈ digits, d < 16) :
    ofDigits base (digits.reverse.map digitByte) = Nat.ofDigits base digits := by
  induction digits with
  | nil => rfl
  | cons d digits ih =>
    obtain ⟨hd, hdigits⟩ := List.forall_mem_cons.mp h
    have hrest := ih hdigits
    rw [ofDigits] at hrest ⊢
    rw [List.reverse_cons, List.map_append, List.foldl_append, hrest, List.map_singleton,
      List.foldl_cons, List.foldl_nil, digitValue_digitByte hd, Option.getD_some, Nat.ofDigits_cons,
      Nat.mul_comm, Nat.add_comm]

theorem ofDigits_natText (hbase : 1 < base) (hle : base ≤ 16) :
    ofDigits base (natText base n) = n := by
  rw [natText]
  split
  · next hn =>
    rw [hn]
    exact Nat.zero_mul base
  · rw [ofDigits_map fun d hd => Nat.lt_of_lt_of_le (Nat.digits_lt_base hbase hd) hle,
      Nat.ofDigits_digits]

/-- A digit is neither a sign nor white space. -/
theorem isSpace_of_isDigit {b : UInt8} (h : isDigit base b = true) : isSpace b = false := by
  by_contra hspace
  have hlt : b < 48 := by
    rw [Bool.not_eq_false, isSpace, Bool.or_eq_true, Bool.and_eq_true] at hspace
    rcases hspace with heq | ⟨-, hle⟩
    · rw [eq_of_beq heq]
      decide
    · exact UInt8.lt_of_le_of_lt (of_decide_eq_true hle) (by decide)
  have hnone : digitValue b = none := by
    rw [digitValue, if_neg, if_neg, if_neg]
    all_goals
      rintro ⟨hle, -⟩
      exact absurd (UInt8.le_trans (by decide : (48 : UInt8) ≤ _) hle) (UInt8.not_le.mpr hlt)
  rw [isDigit, hnone] at h
  cases h

theorem exists_natText (hbase : 1 < base) (hle : base ≤ 16) :
    ∃ b text, natText base n = b :: text ∧ isDigit base b = true ∧ (b = 48 → text = []) := by
  cases htext : natText base n with
  | nil => exact absurd htext natText_ne_nil
  | cons b text =>
    refine ⟨b, text, rfl, ?_, fun hb => natText_zero hbase hle (hb ▸ htext)⟩
    exact isDigit_of_mem_natText hbase hle (htext ▸ List.mem_cons_self)

theorem splitSign_digits {text : List UInt8} (hne : text ≠ [])
    (hall : ∀ b ∈ text, isDigit base b = true) :
    splitSign (text.dropWhile isSpace) = (false, text) := by
  obtain ⟨b, rest, rfl⟩ := List.exists_cons_of_ne_nil hne
  have hdigit := hall b List.mem_cons_self
  rw [List.dropWhile_cons_of_neg (by rw [isSpace_of_isDigit hdigit]; decide)]
  unfold splitSign
  split
  · next heq =>
    rw [(List.cons.inj heq).1] at hdigit
    cases hdigit
  · next heq =>
    rw [(List.cons.inj heq).1] at hdigit
    cases hdigit
  · rfl

theorem splitBase_digits {text : List UInt8} (hbase : base ≠ 0) (hle : base ≤ 16)
    (hall : ∀ b ∈ text, isDigit base b = true) : splitBase base text = (base, text) := by
  unfold splitBase
  split
  · next x digit rest =>
    have hx : isDigit 16 x = true := isDigit_le hle (hall x (by simp))
    rw [if_neg, if_neg hbase]
    rintro ⟨-, rfl | rfl, -⟩
    · cases hx
    · cases hx
  · rw [if_neg hbase]
  · rw [if_neg hbase]

/-- Digits are read as the number that they stand for, with or without a sign. -/
theorem scan_digits {text : List UInt8} (hbase : base ≠ 0) (hle : base ≤ 16) (hne : text ≠ [])
    (hall : ∀ b ∈ text, isDigit base b = true) :
    scan base text = some ⟨false, ofDigits base text, []⟩ ∧
      scan base (45 :: text) = some ⟨true, ofDigits base text, []⟩ := by
  have htake := List.takeWhile_eq_self_iff.mpr hall
  have hdrop := List.dropWhile_eq_nil_iff.mpr hall
  obtain ⟨b, rest, rfl⟩ := List.exists_cons_of_ne_nil hne
  have hminus : splitSign ((45 :: b :: rest).dropWhile isSpace) = (true, b :: rest) := rfl
  constructor
  · rw [scan, splitSign_digits hne hall]
    dsimp only
    rw [splitBase_digits hbase hle hall, htake, hdrop]
  · rw [scan, hminus]
    dsimp only
    rw [splitBase_digits hbase hle hall, htake, hdrop]

/-- The number that is read from its text, with or without a sign. -/
theorem scan_natText (hbase : 1 < base) (hle : base ≤ 16) :
    scan base (natText base n) = some ⟨false, n, []⟩ ∧
      scan base (45 :: natText base n) = some ⟨true, n, []⟩ := by
  have hscan := scan_digits (by omega) hle (@natText_ne_nil base n)
    fun b hb => isDigit_of_mem_natText hbase hle hb
  rwa [ofDigits_natText hbase hle] at hscan

theorem leadingZero_natText : leadingZero (natText 10 n) = false ∧
    leadingZero (45 :: natText 10 n) = false := by
  have hplain : ∀ text, (splitSign (text.dropWhile isSpace)).2 = natText 10 n →
      leadingZero text = false := by
    intro text hunsigned
    obtain ⟨b, rest, htext, -, hzero⟩ := @exists_natText 10 n (by decide) (by decide)
    rw [leadingZero, hunsigned, htext]
    split
    · next heq =>
      have hnil := hzero (List.cons.inj heq).1
      rw [hnil] at heq
      cases (List.cons.inj heq).2
    · rfl
  constructor
  · refine hplain _ ?_
    rw [splitSign_digits natText_ne_nil fun b hb =>
      isDigit_of_mem_natText (by decide) (by decide) hb]
  · exact hplain _ rfl

end NatText

section Read

variable {bits n : Nat}

/-- What base 0 and base 10 read of `%d`. -/
theorem scan_intText {base : Nat} (hbase : base = 0 ∨ base = 10) (z : Int) :
    scan base (intText z) = some ⟨decide (z < 0), z.natAbs, []⟩ := by
  have hten : scan 10 (intText z) = some ⟨decide (z < 0), z.natAbs, []⟩ := by
    have hscan := @scan_natText 10 z.natAbs (by decide) (by decide)
    rw [intText]
    split
    · next hz => rw [hscan.2, decide_eq_true hz]
    · next hz => rw [hscan.1, decide_eq_false hz]
  have hzero : leadingZero (intText z) = false := by
    rw [intText]
    split
    · exact leadingZero_natText.2
    · exact leadingZero_natText.1
  rcases hbase with rfl | rfl
  · rw [scan_zero hzero, hten]
  · exact hten

/-- `strtol` in base 0 or base 10 of what `%d` writes. -/
theorem strtol_intText {base : Nat} (hbase : base = 0 ∨ base = 10) {z : Int}
    (hlow : -2 ^ (bits - 1) ≤ z) (hhigh : z < 2 ^ (bits - 1)) :
    (strtol bits base (intText z)).1 = z := by
  rw [strtol, scan_intText hbase]
  dsimp only
  split
  · next hz =>
    have hz := of_decide_eq_true hz
    omega
  · next hz =>
    have hz : ¬z < 0 := by simpa using hz
    omega

/-- `strtoul` in base 0 of what `%u` writes. -/
theorem strtoul_natText (h : n < 2 ^ bits) : (strtoul bits 0 (natText 10 n)).1 = n := by
  rw [strtoul, scan_zero leadingZero_natText.1, (scan_natText (by decide) (by decide)).1]
  dsimp only
  rw [if_neg (Nat.not_le.mpr h), if_neg Bool.false_ne_true]

/-- `strtol` in base 16 of what `%X` writes: the numbers are unsigned. -/
theorem strtol_hexText :
    (strtol bits 16 (natText 16 n)).1 = min (2 ^ (bits - 1) - 1) (n : Int) := by
  rw [strtol, (scan_natText (by decide) (by decide)).1]
  dsimp only
  rw [if_neg Bool.false_ne_true]

end Read

end Dwpal.CNumber
