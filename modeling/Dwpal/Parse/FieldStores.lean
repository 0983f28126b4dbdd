import Dwpal.Lib.Stores
import Dwpal.Parse.FieldValues

/-! The bytes that `set_field` and `arrayValuesGet` of `dwpald_hostap_parse.c` store, at addresses
from the beginning of the field on. -/

namespace Dwpal.Parse

open CText Stores

/-- What the compiler decides besides: the bytes of a number of some width. -/
structure Target extends Platform where
  numBytes : (width : Nat) → Int → List UInt8
  length_numBytes : ∀ width value, (numBytes width value).length = width
  numBytes_zero : ∀ width, numBytes width 0 = List.replicate width 0

/-- `strncpy_s` of at most `n` bytes of a text to a buffer of `dmax` bytes: whether it succeeds, and
its stores. -/
def strncpyStores (t : Target) (dmax : Nat) (src : List UInt8) (n : Nat) :
    Bool × List (Store UInt8) :=
  let copied := src.take n
  if dmax = 0 then (false, [])
  else if copied.length < dmax then
    let zeros := if t.nullSlack then dmax - copied.length else 1
    (true, [⟨0, copied ++ List.replicate zeros 0⟩])
  else (false, [⟨0, copied.take dmax⟩, ⟨0, List.replicate (if t.nullSlack then dmax else 1) 0⟩])

/-- `strcpy_s`. -/
def strcpyStores (t : Target) (dmax : Nat) (src : List UInt8) : Bool × List (Store UInt8) :=
  strncpyStores t dmax src src.length

/-- `dwpald_hex_to_str`. -/
def dwpaldHexToStrStores (size : Nat) (hexStr : List UInt8) : Bool × List (Store UInt8) :=
  if size = 0 then (false, [])
  else
    let len := min hexStr.length ((size + 1) * 2)
    if size < len / 2 + 1 ∨ len % 2 ≠ 0 then (false, [⟨0, [0]⟩])
    else
      let (ok, bytes) := hexToStrLoop hexStr
      (ok, [⟨0, bytes ++ [0]⟩])

/-- The bytes of a value that is no string or array. -/
def FieldValue.scalarBytes (t : Target) (width : Nat) : FieldValue → List UInt8
  | .char b => [b]
  | .num value => t.numBytes width value
  | .bool value => t.numBytes width value.toNat
  | _ => []

/-- `set_field` of a field that is not `NULL`. -/
def setFieldStores (t : Target) (f : FieldToParse) (stringOfValues : List UInt8) :
    Bool × List (Store UInt8) :=
  match f.type with
  | .dummy => (true, [])
  | .str => strcpyStores t f.totalSizeOfArg stringOfValues
  | .hexstr => dwpaldHexToStrStores f.totalSizeOfArg stringOfValues
  | .strArray | .intArray | .hexArray => (false, [])
  | type =>
    (true, [⟨0, (readScalar t.toPlatform stringOfValues type).scalarBytes t (getFieldSize f)⟩])

/-- How far apart the elements of an array are. -/
def elementWidth (type : FieldType) : Nat :=
  if type = .strArray then hostapdToDwpalValueStringLength else 4

/-- The bytes of an element: of an `int`, or of a string and its terminator. -/
def elementBytes (t : Target) (type : FieldType) (param : List UInt8) : List UInt8 :=
  match type with
  | .hexArray => t.numBytes 4 ((strtolLong t.toPlatform 16 param).bmod (2 ^ 32))
  | .intArray => t.numBytes 4 ((strtolLong t.toPlatform 0 param).bmod (2 ^ 32))
  | _ => param ++ [0]

/-- The stores of element `idx`. -/
def elementStores (t : Target) (type : FieldType) (idx : Nat) (param : List UInt8) :
    List (Store UInt8) :=
  match type with
  | .hexArray | .intArray => [⟨4 * idx, elementBytes t type param⟩]
  | _ =>
    (strcpyStores t hostapdToDwpalValueStringLength param).2.map
      (Store.shift (idx * hostapdToDwpalValueStringLength))

/-- The loop of `arrayValuesGet` from element `idx` on, for the tokens that are left. At their end
it stores an `int` of zero; behind the 512th element it does not look for their end. -/
def arrayLoop (t : Target) (type : FieldType) (total : Nat) :
    (idx : Nat) → List (List UInt8) → List (Store UInt8)
  | idx, [] => if idx < dwpalMaxNumOfElements then [⟨4 * idx, t.numBytes 4 0⟩] else []
  | idx, param :: params =>
    (if idx < total then elementStores t type idx param else []) ++
      arrayLoop t type total (idx + 1) params

/-- `arrayValuesGet` of an array: whether it succeeds, its stores, and how many elements it
counts. -/
def arrayValuesStores (t : Target) (stringOfValues : List UInt8) (totalSizeOfArg : Nat)
    (type : FieldType) : Bool × List (Store UInt8) × Nat :=
  let params := tokens blank dwpalMaxNumOfElements
    (min stringOfValues.length dwpalToHostapdMsgLength) stringOfValues
  let total := totalSizeOfArg / elementWidth type
  (decide (params.length ≤ total), arrayLoop t type total 0 params, min params.length total)

section Inside

variable {t : Target} {dmax n a : Nat} {src param : List UInt8} {type : FieldType} {idx : Nat}

/-- A copy stays inside the buffer whose size it is given. -/
theorem strncpyStores_inside (h : Touches (strncpyStores t dmax src n).2 a) : a < dmax := by
  rw [strncpyStores] at h
  dsimp only at h
  split_ifs at h with hzero hfits hslack
  · exact absurd h not_touches_nil
  all_goals
    simp only [touches_cons, not_touches_nil, Store.Covers, List.length_append, List.length_take,
      List.length_replicate, or_false] at h hfits
    omega

/-- A copy that fits stores what it copies and a terminator, and the rest of the buffer if it is
cleared. -/
theorem touches_strncpyStores (hfits : (src.take n).length < dmax) :
    Touches (strncpyStores t dmax src n).2 a ↔
      a < if t.nullSlack then dmax else (src.take n).length + 1 := by
  rw [strncpyStores]
  dsimp only
  rw [if_neg (by omega), if_pos hfits]
  simp only [touches_cons, not_touches_nil, or_false, Store.Covers, List.length_append,
    List.length_replicate]
  split_ifs <;> omega

/-- A string that fits is copied with its terminator. -/
theorem strcpyStores_bytes {m : Memory UInt8} (hfits : src.length < dmax) :
    bytesAt (runAll (strcpyStores t dmax src).2 m) 0 (src ++ [0]).length = src ++ [0] := by
  rw [strcpyStores, strncpyStores]
  dsimp only
  rw [if_neg (by omega), List.take_length, if_pos hfits]
  refine @bytesAt_runAll_concat _ ⟨0, _⟩ [] m _ ((List.prefix_append_right_inj src).mpr ?_)
  split_ifs
  · obtain ⟨zeros, hzeros⟩ := Nat.exists_eq_succ_of_ne_zero (Nat.sub_ne_zero_of_lt hfits)
    rw [hzeros, List.replicate_succ]
    exact List.singleton_prefix_cons_iff.mpr rfl
  · exact List.prefix_rfl

end Inside

end Dwpal.Parse
