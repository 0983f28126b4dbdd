import Dwpal.Lib.Bytes
import Dwpal.Lib.CNumber
import Dwpal.Lib.CText

/-! The fields that are parsed from the text of hostapd: their descriptions, the values they get,
and `set_field` of `dwpald_hostap_parse.c`. -/

namespace Dwpal.Parse

/-- What the compiler and the string library decide: the width of `long`, whether `char` is signed,
and whether the library clears the rest of a buffer behind a string. -/
structure Platform where
  longBits : Nat
  le_longBits : 32 ≤ longBits
  charSigned : Bool
  nullSlack : Bool

theorem le_64 : 32 ≤ 64 := by decide

/-- A platform with 64 bits whose string library stores no more than a string. -/
def platform64 : Platform := ⟨64, le_64, true, false⟩

def hostapdToDwpalMsgLength : Nat := 4096 * 4
def hostapdToDwpalValueStringLength : Nat := 4096
def dwpalToHostapdMsgLength : Nat := 512
def dwpalFieldNameLength : Nat := 128
def dwpalMaxNumOfElements : Nat := 512

/-- A blank, an equals sign and the end of a line. -/
def blank : UInt8 := 32
def equals : UInt8 := 61
def newline : UInt8 := 10

/-- `dwpald_type`, without the ends of lists. -/
inductive FieldType where
  | str
  | hexstr
  | char
  | int8
  | uint8
  | short
  | ushort
  | int
  | uint
  | int64
  | uint64
  | bool
  | hex
  | strArray
  | intArray
  | hexArray
  | dummy
deriving DecidableEq, Repr

/-- `is_array_field`. -/
def FieldType.isArray : FieldType → Bool
  | .strArray | .intArray | .hexArray => true
  | _ => false

/-- `dwpald_fields_to_parse`: whether `field` and `numOfValidArgs` are not `NULL`, and the string in
front of the value, `NULL` for a field that has its place at the beginning of the line. -/
structure FieldToParse where
  field : Bool
  numOfValidArgs : Bool
  type : FieldType
  name : Option (List UInt8)
  totalSizeOfArg : Nat

/-- The contents of a field. Of an array they are the elements that were stored. -/
inductive FieldValue where
  | text (bytes : List UInt8)
  | char (b : UInt8)
  | num (value : Int)
  | bool (value : Bool)
  | ints (elements : List Int)
  | texts (elements : List (List UInt8))
deriving DecidableEq

/-- The contents of a field that is all zeros. -/
def FieldType.zero : FieldType → FieldValue
  | .str | .hexstr => .text []
  | .char => .char 0
  | .bool => .bool false
  | .strArray => .texts []
  | .intArray | .hexArray => .ints []
  | _ => .num 0

/-- `get_field_size`. -/
def getFieldSize (f : FieldToParse) : Nat :=
  if f.field = false then 0
  else
    match f.type with
    | .dummy => 0
    | .str | .hexstr | .strArray | .intArray | .hexArray => f.totalSizeOfArg
    | .char | .int8 | .uint8 | .bool => 1
    | .short | .ushort => 2
    | .int | .uint | .hex => 4
    | .int64 | .uint64 => 8

/-- The structures of the caller, one for each line, and the counters. A value is found by its line
and the place of its field in the list; different fields do not overlap. -/
@[ext] structure Outputs where
  value : Nat → Nat → FieldValue
  count : Nat → Nat

def Outputs.store (out : Outputs) (line i : Nat) (value : FieldValue) : Outputs :=
  { out with value := Function.update out.value line (Function.update (out.value line) i value) }

def Outputs.addCount (out : Outputs) (i n : Nat) : Outputs :=
  { out with count := Function.update out.count i (out.count i + n) }

/-- `_hex_to_num`. -/
def hexToNum (c : UInt8) : Option Nat :=
  if 48 ≤ c ∧ c ≤ 57 then some (c.toNat - 48)
  else if 97 ≤ c ∧ c ≤ 102 then some (c.toNat - 97 + 10)
  else if 65 ≤ c ∧ c ≤ 70 then some (c.toNat - 65 + 10)
  else none

/-- The loop of `dwpald_hex_to_str`, with the bytes that are written before it ends. -/
def hexToStrLoop : List UInt8 → Bool × List UInt8
  | hi :: lo :: hex =>
    match hexToNum hi, hexToNum lo with
    | some h, some l =>
      let (ok, rest) := hexToStrLoop hex
      (ok, UInt8.ofNat (h * 16 + l) :: rest)
    | _, _ => (false, [])
  | [] => (true, [])
  | [_] => (false, [])

/-- `dwpald_hex_to_str`, with the string in the buffer of `size` bytes, if it writes one. -/
def dwpaldHexToStr (size : Nat) (hexStr : List UInt8) : Bool × Option (List UInt8) :=
  if size = 0 then (false, none)
  else
    let len := min hexStr.length ((size + 1) * 2)
    if size < len / 2 + 1 ∨ len % 2 ≠ 0 then (false, some [])
    else
      let (ok, bytes) := hexToStrLoop hexStr
      (ok, some (cstr bytes))

/-- The value of `strtol` for a `long`. -/
def strtolLong (p : Platform) (base : Nat) (s : List UInt8) : Int :=
  (CNumber.strtol p.longBits base s).1

/-- `atoi`. -/
def atoi (p : Platform) (s : List UInt8) : Int := (strtolLong p 10 s).bmod (2 ^ 32)

/-- The conversion of a value in `set_field`, for the types that it always succeeds for. -/
def readScalar (p : Platform) (s : List UInt8) : FieldType → FieldValue
  | .char => .char (s.headD 0)
  | .int8 => .num ((strtolLong p 0 s).bmod (2 ^ 8))
  | .uint8 => .num (strtolLong p 0 s % 2 ^ 8)
  | .short => .num ((strtolLong p 0 s).bmod (2 ^ 16))
  | .ushort => .num (strtolLong p 0 s % 2 ^ 16)
  | .int => .num ((strtolLong p 0 s).bmod (2 ^ 32))
  | .uint => .num ((CNumber.strtoul p.longBits 0 s).1 % 2 ^ 32 : Nat)
  | .int64 => .num (CNumber.strtol 64 0 s).1
  | .uint64 => .num (CNumber.strtoul 64 0 s).1
  | .hex => .num (strtolLong p 16 s % 2 ^ 32)
  | .bool => .bool (atoi p s != 0)
  | type => type.zero

/-- `set_field`: whether it succeeds, and what it writes to the field. -/
def setField (p : Platform) (f : FieldToParse) (stringOfValues : List UInt8) :
    Bool × Option FieldValue :=
  match f.type with
  | .dummy => (true, none)
  | .str =>
    if f.totalSizeOfArg = 0 then (false, none)
    else if stringOfValues.length < f.totalSizeOfArg then (true, some (.text stringOfValues))
    else (false, some (.text []))
  | .hexstr =>
    let (ok, bytes) := dwpaldHexToStr f.totalSizeOfArg stringOfValues
    (ok, bytes.map .text)
  | .strArray | .intArray | .hexArray => (false, none)
  | type => (true, some (readScalar p stringOfValues type))

end Dwpal.Parse
