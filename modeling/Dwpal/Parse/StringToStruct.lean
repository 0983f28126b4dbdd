import Dwpal.Parse.Response

/-! `dwpal_string_to_struct_parse` of `dwpal.c`, for the types of fields that the macros for
compatibility give to its own. Memory is allocated. -/

namespace Dwpal.Parse

open CText

/-- A field name in its buffer in `endFieldName`. A name of 128 bytes is written behind the buffer
and has no result. -/
def endFieldNameCopy (name : List UInt8) : Option (List UInt8) :=
  if name.length = dwpalFieldNameLength then none
  else some (if name.length < dwpalFieldNameLength then name else [])

/-- How many bytes of a value are copied where it may have blanks: up to an equals sign, but not
behind the last blank in front of it. -/
def ssidCopied : (numOfCharactersToCopy i : Nat) → List UInt8 → Nat
  | _, i, [] => i + 1
  | numOfCharactersToCopy, i, b :: value =>
    if b = blank then ssidCopied (i + 1) (i + 1) value
    else if b = equals then numOfCharactersToCopy
    else ssidCopied numOfCharactersToCopy (i + 1) value

/-- How many bytes of a value are copied in `dwpal.c`. The names are searched in their order, and
the last of them is left in `localEndFieldName`. -/
def dwpalCopied (type : FieldType) (names : List (List UInt8)) (numOfCharactersToCopy : Nat)
    (value : List UInt8) : Nat :=
  if type.isArray then copiedLength true value
  else if (endFieldNames names).getLast? = some (ascii "SSID=") then
    ssidCopied numOfCharactersToCopy 0 value
  else copiedLength false value

/-- `fieldValuesGet` of `dwpal.c`. -/
def fieldValuesGetDwpal (p : Platform) (line : List UInt8) (type : FieldType) (name : List UInt8)
    (names : List (List UInt8)) : Option (Bool × List UInt8) :=
  if dwpalFieldNameLength ≤ (blank :: name).length then some (false, [])
  else
    (valueLoop p (dwpalCopied type names) (blank :: name) names (line.length + 2) true false 0
        (blank :: line) []).map fun (found, values) =>
      (found, cstr (values.rdropWhile (· == blank)))

/-- `arrayValuesGet` of `dwpal.c`, which takes `totalSizeOfArg` for the number of elements. -/
def arrayValuesGetDwpal (p : Platform) (stringOfValues : List UInt8) (totalSizeOfArg : Nat)
    (type : FieldType) : Bool × FieldValue × Nat :=
  let unit := if type = .strArray then hostapdToDwpalValueStringLength else 4
  let (_, elements, n) := arrayValuesGet p stringOfValues (totalSizeOfArg * unit) type
  let params := tokens blank dwpalMaxNumOfElements
    (min stringOfValues.length dwpalToHostapdMsgLength) stringOfValues
  (decide (params.length < totalSizeOfArg), elements, n)

/-- The integer types, whose text may be `UNKNOWN`. -/
def FieldType.isInteger : FieldType → Bool
  | .int8 | .uint8 | .short | .int | .uint | .int64 | .uint64 => true
  | _ => false

/-- The types of scalar fields that both parsers have. -/
def FieldType.isCommonScalar (type : FieldType) : Bool :=
  type.isInteger || type = .str || type = .hex || type = .bool

/-- `dwpal.c` has no such type. -/
def FieldType.isUnknown : FieldType → Bool
  | .hexstr | .char | .ushort => true
  | _ => false

/-- The conversion of a value of a common scalar type that is no string. -/
def readScalarDwpal (p : Platform) (s : List UInt8) : FieldType → FieldValue
  | .int8 => .num ((atoi p s).bmod (2 ^ 8))
  | .uint8 => .num (atoi p s % 2 ^ 8)
  | .short => .num ((atoi p s).bmod (2 ^ 16))
  | .int => .num (atoi p s)
  | .uint => .num ((CNumber.strtoul p.longBits 10 s).1 % 2 ^ 32 : Nat)
  | .int64 => .num (CNumber.strtol 64 10 s).1
  | .uint64 => .num (CNumber.strtoul 64 10 s).1
  | .hex => .num (strtolLong p 16 s % 2 ^ 32)
  | .bool => .bool (atoi p s != 0)
  | type => type.zero

def Outputs.resetCount (out : Outputs) (i : Nat) : Outputs :=
  { out with count := Function.update out.count i 0 }

/-- A counter is set only if the caller has one. -/
def countArgs (f : FieldToParse) (i n : Nat) (out : Outputs) : Outputs :=
  if f.numOfValidArgs then out.addCount i n else out

/-- The value of a named field is stored and counted, in the order of the code. -/
def storeFieldDwpal (p : Platform) (f : FieldToParse) (line i : Nat) (s : List UInt8)
    (out : Outputs) : Bool × Outputs :=
  match f.type with
  | .str =>
    let out := countArgs f i 1 out
    if f.totalSizeOfArg < s.length + 1 then (false, out) else (true, out.store line i (.text s))
  | .strArray | .intArray | .hexArray =>
    let (ok, elements, n) := arrayValuesGetDwpal p s f.totalSizeOfArg f.type
    (ok || f.type ≠ .hexArray, countArgs f i n (out.store line i elements))
  | type =>
    if type.isInteger ∧ (ascii "UNKNOWN").isPrefixOf s then
      (true, (if f.numOfValidArgs then out.resetCount i else out).store line i type.zero)
    else (true, (countArgs f i 1 out).store line i (readScalarDwpal p s type))

/-- A named field of a line, if it is there. -/
def parseNamedDwpal (p : Platform) (names : List (List UInt8)) (f : FieldToParse)
    (name : List UInt8)
    (line : List UInt8) (lineIdx i : Nat) (out : Outputs) : Option (Bool × Outputs) :=
  if f.field = false then some (true, out)
  else
    match fieldValuesGetDwpal p line f.type name names with
    | none => none
    | some (false, _) => some (true, out)
    | some (true, s) => some (storeFieldDwpal p f lineIdx i s out)

/-- What is left of the copy of a line from which the fields without a name are taken; `none` before
the first of them. -/
abbrev MandatoryDwpal := Option (List UInt8)

/-- A string without a name, copied into the field by `mandatoryFieldValueGet`. -/
def parseMandatoryDwpal (f : FieldToParse) (line : List UInt8) (lineIdx i : Nat)
    (mandatory : MandatoryDwpal) (out : Outputs) : Bool × Outputs × MandatoryDwpal :=
  match strtokS blank (min line.length hostapdToDwpalMsgLength) (mandatory.getD line) with
  | none => (false, out, mandatory)
  | some (param, text, _) =>
    if f.field then
      if param.length < f.totalSizeOfArg then
        (true, countArgs f i 1 (out.store lineIdx i (.text param)), some text)
      else (false, out.store lineIdx i (.text []), some text)
    else (true, countArgs f i 1 out, some text)

/-- The size of the structure in `dwpal.c`. -/
def sizeOfStructDwpal (fields : List FieldToParse) : Nat :=
  (fields.map fun f =>
    if f.type = .intArray ∨ f.type = .hexArray then 4 * getFieldSize f else getFieldSize f).sum

/-- A field of a line. A search for a field without a name is for a null pointer and has no
result. -/
def parseFieldDwpal (p : Platform) (fields : List FieldToParse) (names : List (List UInt8))
    (userBufLen : Nat) (line : List UInt8) (lineIdx i : Nat) (f : FieldToParse)
    (mandatory : MandatoryDwpal) (out : Outputs) : Option (Bool × Outputs × MandatoryDwpal) :=
  if f.field ∧ userBufLen ≤ lineIdx * sizeOfStructDwpal fields then some (false, out, mandatory)
  else if f.type = .dummy then some (true, out, mandatory)
  else if f.type.isUnknown then some (false, out, mandatory)
  else
    match f.name with
    | some name =>
      (parseNamedDwpal p names f name line lineIdx i out).map fun (ok, out) => (ok, out, mandatory)
    | none =>
      if f.type = .str then some (parseMandatoryDwpal f line lineIdx i mandatory out)
      else if names = [] then some (false, out, mandatory)
      else if f.field then none
      else some (true, out, mandatory)

/-- The fields of a line from field `i` on. -/
def parseFieldsDwpal (p : Platform) (fields : List FieldToParse) (names : List (List UInt8))
    (userBufLen : Nat) (line : List UInt8) (lineIdx : Nat) :
    (i : Nat) → List FieldToParse → MandatoryDwpal → Outputs → Option (Bool × Outputs)
  | _, [], _, out => some (true, out)
  | i, f :: rest, mandatory, out =>
    match parseFieldDwpal p fields names userBufLen line lineIdx i f mandatory out with
    | none => none
    | some (false, out, _) => some (false, out)
    | some (true, out, mandatory) =>
      parseFieldsDwpal p fields names userBufLen line lineIdx (i + 1) rest mandatory out

/-- The lines from line `lineIdx` on. -/
def parseLinesDwpal (p : Platform) (fields : List FieldToParse) (names : List (List UInt8))
    (userBufLen : Nat) : (lineIdx : Nat) → List (List UInt8) → Outputs → Option (Bool × Outputs)
  | _, [], out => some (true, out)
  | lineIdx, line :: lines, out =>
    match parseFieldsDwpal p fields names userBufLen line lineIdx 0 fields none out with
    | some (true, out) => parseLinesDwpal p fields names userBufLen (lineIdx + 1) lines out
    | result => result

/-- The counters of the fields up to the last one with a name are zero. -/
def resetCounters (out : Outputs) : (i : Nat) → List FieldToParse → Outputs
  | _, [] => out
  | i, f :: fields => resetCounters (if f.numOfValidArgs then out.resetCount i else out)
    (i + 1) fields

/-- The lines of a message, or one line if it is a column; the copy of the message that is looked at
for this has at most as many bytes as are read. -/
def messageRowsDwpal (names : List (List UInt8)) (msg : List UInt8) : List (List UInt8) :=
  let msg := cstr msg
  let msgStringLen := min msg.length hostapdToDwpalMsgLength
  let isColumn := (messageLines msgStringLen (msg.take msgStringLen)).all fun line =>
    isColumnOfFields 0 line (endFieldNames names)
  messageLines msgStringLen
    (if names ≠ [] ∧ isColumn then
      (msg.take msgStringLen).map fun b => if b = newline then blank else b
    else msg)

/-- A string or an array must have a size. -/
def emptySize (f : FieldToParse) : Bool :=
  f.field && f.totalSizeOfArg = 0 && (f.type.isArray || f.type = .str)

/-- `dwpal_string_to_struct_parse`: whether it succeeds, and the structures and counters of the
caller after it. -/
def dwpalStringToStructParse (p : Platform) (msg : Option (List UInt8)) (msgLen : Nat)
    (fields : List FieldToParse) (userBufLen : Nat) (out : Outputs) : Option (Bool × Outputs) :=
  match msg with
  | none => some (false, out)
  | some msg =>
    if msgLen = 0 then some (false, out)
    else if msgLen < min (cstr msg).length hostapdToDwpalMsgLength then some (false, out)
    else if fields.any emptySize ∨ fields.any fun f =>
      f.field && f.type.isUnknown then some (false, out)
    else
      ((fields.filterMap FieldToParse.name).mapM endFieldNameCopy).bind fun names =>
        parseLinesDwpal p fields names userBufLen 0 (messageRowsDwpal names msg)
          (resetCounters out 0 (fields.rdropWhile fun f => f.name = none))

end Dwpal.Parse
