import Mathlib.Algebra.Group.Int.Defs
import Mathlib.Algebra.GroupWithZero.Nat
import Mathlib.Data.List.Basic

/-! Numbers in text, as the functions of the C library read them: white space, a sign, a prefix that
gives the base, digits, and what is left. -/

namespace Dwpal.CNumber

/-- `isspace`. -/
def isSpace (b : UInt8) : Bool := b == 32 || (9 ≤ b && b ≤ 13)

/-- The value of a digit in any base up to 36. -/
def digitValue (b : UInt8) : Option Nat :=
  if 48 ≤ b ∧ b ≤ 57 then some (b.toNat - 48)
  else if 65 ≤ b ∧ b ≤ 90 then some (b.toNat - 55)
  else if 97 ≤ b ∧ b ≤ 122 then some (b.toNat - 87)
  else none

def isDigit (base : Nat) (b : UInt8) : Bool := (digitValue b).any (· < base)

/-- The number that digits stand for. -/
def ofDigits (base : Nat) (digits : List UInt8) : Nat :=
  digits.foldl (fun value b => value * base + (digitValue b).getD 0) 0

/-- Whether a sign says that the number is negative, and the text behind the sign. -/
def splitSign : List UInt8 → Bool × List UInt8
  | 45 :: text => (true, text)
  | 43 :: text => (false, text)
  | text => (false, text)

/-- The base, and the text behind a prefix of base 16. In base 0 the text gives the base. -/
def splitBase (base : Nat) (text : List UInt8) : Nat × List UInt8 :=
  match text with
  | 48 :: x :: digit :: rest =>
    if (base = 0 ∨ base = 16) ∧ (x = 120 ∨ x = 88) ∧ isDigit 16 digit = true then
      (16, digit :: rest)
    else (if base = 0 then 8 else base, text)
  | 48 :: _ => (if base = 0 then 8 else base, text)
  | _ => (if base = 0 then 10 else base, text)

/-- A number in a text: its sign, its magnitude, and the text behind it. -/
structure Number where
  negative : Bool
  magnitude : Nat
  rest : List UInt8

/-- The number at the beginning of a text, if there is one. -/
def scan (base : Nat) (text : List UInt8) : Option Number :=
  let (negative, text) := splitSign (text.dropWhile isSpace)
  let (base, text) := splitBase base text
  match text.takeWhile (isDigit base) with
  | [] => none
  | digits => some ⟨negative, ofDigits base digits, text.dropWhile (isDigit base)⟩

/-- `strtoul`, for an unsigned type of `bits` bits, and the text at `*endptr`. -/
def strtoul (bits base : Nat) (text : List UInt8) : Nat × List UInt8 :=
  match scan base text with
  | none => (0, text)
  | some number =>
    let value :=
      if 2 ^ bits ≤ number.magnitude then 2 ^ bits - 1
      else if number.negative then (2 ^ bits - number.magnitude) % 2 ^ bits
      else number.magnitude
    (value, number.rest)

/-- `strtol`, for a signed type of `bits` bits, and the text at `*endptr`. -/
def strtol (bits base : Nat) (text : List UInt8) : Int × List UInt8 :=
  match scan base text with
  | none => (0, text)
  | some number =>
    let value : Int :=
      if number.negative then max (-(2 ^ (bits - 1))) (-number.magnitude)
      else min (2 ^ (bits - 1) - 1) number.magnitude
    (value, number.rest)

/-- Behind the sign of a number there is a zero with more digits behind it, or the prefix of base
16. -/
def leadingZero (text : List UInt8) : Bool :=
  match (splitSign (text.dropWhile isSpace)).2 with
  | 48 :: b :: rest => isDigit 10 b || (b = 120 || b = 88) && rest.head?.any (isDigit 16)
  | _ => false

theorem splitBase_zero_of_ne {text : List UInt8} (h : text.head? ≠ some 48) :
    splitBase 0 text = splitBase 10 text := by
  unfold splitBase
  split
  · exact absurd rfl h
  · exact absurd rfl h
  · rfl

theorem isDigit_le {base base' : Nat} {b : UInt8} (hle : base ≤ base') (h : isDigit base b = true) :
    isDigit base' b = true := by
  unfold isDigit at h ⊢
  cases hvalue : digitValue b with
  | none =>
    rw [hvalue] at h
    cases h
  | some value =>
    rw [hvalue, Option.any_some, decide_eq_true_eq] at h
    exact decide_eq_true (Nat.lt_of_lt_of_le h hle)

/-- A zero without a digit behind it stands for itself in every base. -/
theorem takeWhile_zero {base : Nat} {b : UInt8} {rest : List UInt8} (hbase : 0 < base)
    (h : isDigit base b = false) :
    (48 :: b :: rest).takeWhile (isDigit base) = [48] ∧
      (48 :: b :: rest).dropWhile (isDigit base) = b :: rest := by
  have hzero : isDigit base 48 = true := decide_eq_true hbase
  constructor
  · rw [List.takeWhile_cons_of_pos hzero, List.takeWhile_cons_of_neg (by rw [h]; decide)]
  · rw [List.dropWhile_cons_of_pos hzero, List.dropWhile_cons_of_neg (by rw [h]; decide)]

/-- Without a leading zero, base 0 is base 10. -/
theorem scan_zero {text : List UInt8} (h : leadingZero text = false) :
    scan 0 text = scan 10 text := by
  rw [leadingZero] at h
  rw [scan, scan]
  generalize splitSign (text.dropWhile isSpace) = signed at h ⊢
  obtain ⟨negative, text⟩ := signed
  dsimp only at h ⊢
  by_cases hhead : text.head? = some 48
  · match text, hhead with
    | [_], rfl => rfl
    | _ :: b :: rest, rfl =>
      simp only [Bool.or_eq_false_iff] at h
      have hten := h.1
      have height : isDigit 8 b = false := by
        by_contra hdigit
        have hle : 8 ≤ 10 := by decide
        rw [isDigit_le hle (by simpa using hdigit)] at hten
        cases hten
      have hbase : splitBase 0 (48 :: b :: rest) = (8, 48 :: b :: rest) := by
        cases rest with
        | nil => rfl
        | cons digit rest =>
          rw [splitBase, if_neg]
          · rfl
          · rintro ⟨-, hx, hdigit⟩
            have hprefix := h.2
            rw [List.head?_cons, Option.any_some, hdigit] at hprefix
            rcases hx with rfl | rfl
            · cases hprefix
            · cases hprefix
      have hbase' : splitBase 10 (48 :: b :: rest) = (10, 48 :: b :: rest) := by
        cases rest <;> simp [splitBase]
      rw [hbase, hbase', (takeWhile_zero (by decide) height).1,
        (takeWhile_zero (by decide) height).2,
        (takeWhile_zero (by decide) hten).1, (takeWhile_zero (by decide) hten).2]
      rfl
  · rw [splitBase_zero_of_ne hhead]

end Dwpal.CNumber
