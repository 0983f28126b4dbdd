import Dwpal.Parse.FieldValues

/-! `dwpald_hostap_response_parse`: the lines of a message, the fields of a line. -/

namespace Dwpal.Parse

open CText

/-- `isColumnOfFields`, from `numOfFieldsInLine` on: at most one of the names is found in the
line. -/
def isColumnOfFields (numOfFieldsInLine : Nat) (line : List UInt8) : List (List UInt8) → Bool
  | [] => true
  | name :: names =>
    if (strstr name line).isSome then
      if numOfFieldsInLine + 1 > 1 then false
      else isColumnOfFields (numOfFieldsInLine + 1) (line.drop name.length) names
    else isColumnOfFields numOfFieldsInLine line names

/-- The lines of a message of which `dmax` bytes may be read. -/
def messageLines (dmax : Nat) (msg : List UInt8) : List (List UInt8) :=
  tokens newline (msg.length + 1) dmax msg

/-- `columnOfParamsToRowConvert`. -/
def columnOfParamsToRowConvert (msgLen : Nat) (names : List (List UInt8)) (msg : List UInt8) :
    List UInt8 :=
  if (messageLines msgLen msg).all fun line => isColumnOfFields 0 line (endFieldNames names) then
    (msg.take msgLen).map fun b => if b = newline then blank else b
  else msg

/-- `cleanup_all_fields`: the counters are zero, and the fields of the first structure. -/
def cleanupAllFields (out : Outputs) : (i : Nat) → List FieldToParse → Outputs
  | _, [] => out
  | i, f :: fields =>
    let out := if f.numOfValidArgs then { out with count := Function.update out.count i 0 } else out
    let out := if getFieldSize f ≠ 0 then out.store 0 i f.type.zero else out
    cleanupAllFields out (i + 1) fields

/-- The check of the size of a field. -/
def sizeChecked (f : FieldToParse) : Bool :=
  f.type = .dummy || !f.field || getFieldSize f ≠ 0 &&
    match f.type with
    | .strArray => getFieldSize f % hostapdToDwpalValueStringLength = 0
    | .intArray | .hexArray => getFieldSize f % 4 = 0
    | _ => true

/-- The size of the structure: the fields one behind the other. -/
def sizeOfStruct (fields : List FieldToParse) : Nat :=
  ((fields.filter fun f => f.type ≠ .dummy).map getFieldSize).sum

/-- `endFieldName`: as many names as the fields that are no dummies have, the first there are. -/
def allNames (fields : List FieldToParse) : List (List UInt8) :=
  (fields.filterMap FieldToParse.name).take
    ((fields.filter fun f => f.type ≠ .dummy).filterMap FieldToParse.name).length

/-- The names of all fields. -/
def knownNames (fields : List FieldToParse) : List (List UInt8) :=
  fields.filterMap FieldToParse.name

theorem allNames_eq {fields : List FieldToParse}
    (h : ∀ g ∈ fields, g.type = .dummy → g.name = none) : allNames fields = knownNames fields := by
  have hnames : (fields.filter fun f => f.type ≠ .dummy).filterMap FieldToParse.name =
      fields.filterMap FieldToParse.name := by
    rw [List.filterMap_filter]
    refine List.filterMap_congr fun f hf => ?_
    by_cases hdummy : f.type = .dummy
    · rw [h f hf hdummy]
      simp
    · simp [hdummy]
  rw [allNames, hnames, List.take_length]
  rfl

/-- The value of a field is set, and its counter. -/
def storeField (p : Platform) (f : FieldToParse) (line i : Nat) (stringOfValues : List UInt8)
    (out : Outputs) : Bool × Outputs :=
  let (ok, value) := setField p f stringOfValues
  let out := value.elim out (out.store line i)
  (ok, if ok ∧ f.numOfValidArgs then out.addCount i 1 else out)

/-- The elements of an array are stored, and counted. -/
def storeArray (p : Platform) (f : FieldToParse) (line i : Nat) (stringOfValues : List UInt8)
    (out : Outputs) : Bool × Outputs :=
  let (ok, elements, n) := arrayValuesGet p stringOfValues f.totalSizeOfArg f.type
  let out := out.store line i elements
  (ok, if f.numOfValidArgs then out.addCount i n else out)

/-- A named field of a line, if it is there. There is no result if the search for it has none. -/
def parseNamed (p : Platform) (names : List (List UInt8)) (f : FieldToParse) (name : List UInt8)
    (line : List UInt8) (lineIdx i : Nat) (out : Outputs) : Option (Bool × Outputs) :=
  if f.field = false then some (true, out)
  else
    match fieldValuesGet p line f.type name names with
    | none => none
    | some (false, _) => some (true, out)
    | some (true, stringOfValues) =>
      if f.type.isArray then some (storeArray p f lineIdx i stringOfValues out)
      else some (storeField p f lineIdx i stringOfValues out)

/-- What is left of the copy of a line from which the fields without a name are taken, with the
bytes that may be read of it. -/
abbrev Mandatory := Option (List UInt8 × Nat)

/-- `mandatoryFieldValueGet` and `set_field`. Without a copy it reads through a null pointer, and
has no result. -/
def parseMandatory (p : Platform) (f : FieldToParse) (lineIdx i : Nat) (mandatory : Mandatory)
    (out : Outputs) : Option (Bool × Outputs × Mandatory) :=
  match mandatory with
  | none => none
  | some (text, dmax) =>
    match strtokS blank dmax text with
    | none => some (false, out, mandatory)
    | some (param, text, dmax) =>
      if hostapdToDwpalValueStringLength ≤ param.length then some (false, out, some (text, dmax))
      else if f.field then
        let (ok, out) := storeField p f lineIdx i param out
        some (ok, out, some (text, dmax))
      else some (true, out, some (text, dmax))

/-- A field of a line that is no dummy. The copy of the line is made for the first field only. -/
def parseField (p : Platform) (fields : List FieldToParse) (userBufLen : Nat) (line : List UInt8)
    (lineIdx i : Nat) (f : FieldToParse) (mandatory : Mandatory) (isFirst : Bool) (out : Outputs) :
    Option (Bool × Outputs × Mandatory) :=
  if f.field ∧ userBufLen ≤ lineIdx * sizeOfStruct fields then some (false, out, mandatory)
  else
    match f.name with
    | some name =>
      (parseNamed p (allNames fields) f name line lineIdx i out).map fun (ok, out) =>
        (ok, out, mandatory)
    | none =>
      if f.type.isArray then
        if allNames fields = [] then some (false, out, mandatory)
        -- the search is for a null pointer
        else if f.field then none
        else some (true, out, mandatory)
      else
        parseMandatory p f lineIdx i
          (if isFirst then some (line, min line.length hostapdToDwpalMsgLength) else mandatory) out

/-- The fields of a line from field `i` on. -/
def parseFields (p : Platform) (fields : List FieldToParse) (userBufLen : Nat) (line : List UInt8)
    (lineIdx : Nat) : (i : Nat) → List FieldToParse → Mandatory → (isFirst : Bool) → Outputs →
    Option (Bool × Outputs)
  | _, [], _, _, out => some (true, out)
  | i, f :: rest, mandatory, isFirst, out =>
    if f.type = .dummy then
      parseFields p fields userBufLen line lineIdx (i + 1) rest mandatory isFirst out
    else
      match parseField p fields userBufLen line lineIdx i f mandatory isFirst out with
      | none => none
      | some (false, out, _) => some (false, out)
      | some (true, out, mandatory) =>
        parseFields p fields userBufLen line lineIdx (i + 1) rest mandatory false out

/-- The lines from line `lineIdx` on. -/
def parseLines (p : Platform) (fields : List FieldToParse) (userBufLen : Nat) :
    (lineIdx : Nat) → List (List UInt8) → Outputs → Option (Bool × Outputs)
  | _, [], out => some (true, out)
  | lineIdx, line :: lines, out =>
    match parseFields p fields userBufLen line lineIdx 0 fields none true out with
    | some (true, out) => parseLines p fields userBufLen (lineIdx + 1) lines out
    | result => result

/-- The lines of a message, or one line if it is a column. Of a long message only the beginning is
read. -/
def messageRows (fields : List FieldToParse) (msg : List UInt8) : List (List UInt8) :=
  let names := allNames fields
  let msgStringLen := min (cstr msg).length hostapdToDwpalMsgLength
  messageLines msgStringLen
    (if names = [] then cstr msg else columnOfParamsToRowConvert msgStringLen names (cstr msg))

/-- `dwpald_hostap_response_parse`: whether it succeeds, and the structures and counters of the
caller after it. -/
def dwpaldHostapResponseParse (p : Platform) (msg : Option (List UInt8)) (msgLen : Nat)
    (fields : List FieldToParse) (userBufLen : Nat) (out : Outputs) : Option (Bool × Outputs) :=
  let out := cleanupAllFields out 0 fields
  match msg with
  | none => some (false, out)
  | some msg =>
    if msgLen = 0 then some (false, out)
    else if msgLen < min (cstr msg).length hostapdToDwpalMsgLength then some (false, out)
    else if (ascii "UNKNOWN").isPrefixOf (cstr msg) ∨ (ascii "FAIL").isPrefixOf (cstr msg) then
      some (false, out)
    else if fields.all sizeChecked = false then some (false, out)
    else parseLines p fields userBufLen 0 (messageRows fields msg) out

end Dwpal.Parse
