import Dwpal.Lib.CNumberText
import Dwpal.Parse.Fields

/-! `dwpald_hostap_cmd_build`: a command with its parameters as text. Memory is allocated. -/

namespace Dwpal.Parse

open CNumber

/-- The union `dwpald_field` with its type. The types of arrays are not supported. -/
inductive CmdValue where
  | str (s : List UInt8)
  | hexstr (s : List UInt8)
  | char (c : UInt8)
  | int8 (v : Int8)
  | uint8 (v : UInt8)
  | short (v : Int16)
  | ushort (v : UInt16)
  | int (v : Int32)
  | uint (v : UInt32)
  | int64 (v : Int64)
  | uint64 (v : UInt64)
  | bool (v : Bool)
  | hex (v : UInt32)
  | dummy
  | array
deriving DecidableEq

/-- `dwpald_fields_to_cmd`; the string in front of the value may be `NULL`. -/
structure FieldToCmd where
  value : CmdValue
  name : Option (List UInt8)

/-- The two hex digits of a byte. -/
def hexOfByte (c : UInt8) : List UInt8 := [digitByte (c.toNat / 16), digitByte (c.toNat % 16)]

/-- `_char_to_hex`. A negative character is converted to a large index, and the read behind the
table has no result. -/
def charToHex (p : Platform) (c : UInt8) : Option (List UInt8) :=
  if p.charSigned ∧ 128 ≤ c then none else some (hexOfByte c)

/-- `dwpald_str_to_hex`, which fails with `some none`. It has no result where it writes behind the
buffer of `size` bytes. -/
def dwpaldStrToHex (p : Platform) (size : Nat) (s : List UInt8) : Option (Option (List UInt8)) :=
  if size < min s.length hostapdToDwpalValueStringLength * 2 + 1 then some none
  else if size < s.length * 2 + 1 then none
  else (s.mapM (charToHex p)).map fun hex => some hex.flatten

/-- The text of a value behind its prefix. -/
def paramText (p : Platform) : CmdValue → Option (Option (List UInt8))
  | .str s => some (some s)
  | .hexstr s =>
    dwpaldStrToHex p (min s.length (hostapdToDwpalValueStringLength - 1) * 2 + 1) s
  | .char c => some (some [c])
  | .int8 v => some (some (intText v.toInt))
  | .uint8 v => some (some (natText 10 v.toNat))
  | .short v => some (some (intText v.toInt))
  | .ushort v => some (some (natText 10 v.toNat))
  | .int v => some (some (intText v.toInt))
  | .uint v => some (some (natText 10 v.toNat))
  | .int64 v => some (some (intText v.toInt))
  | .uint64 v => some (some (natText 10 v.toNat))
  | .bool v => some (some (natText 10 v.toNat))
  | .hex v => some (some (natText 16 v.toNat))
  | .dummy => some (some [])
  | .array => some none

/-- What a parameter adds to the command. -/
def paramWritten (p : Platform) (param : FieldToCmd) : Option (Option (List UInt8)) :=
  if param.value = .dummy then some (some [])
  else (paramText p param.value).map fun result => result.map fun text =>
    param.name.getD [] ++ text ++ [blank]

/-- The loop over the parameters, with `size` bytes left for `sprintf_s`, of which it is assumed
that it returns a negative number where the text does not fit: with a library that returns 0 there,
the parameter would be left out and the loop would go on. -/
def buildParams (p : Platform) : (size : Nat) → (out : List UInt8) → List FieldToCmd →
    Option (Option (List UInt8))
  | _, out, [] => some (some out)
  | size, out, param :: params =>
    match paramWritten p param with
    | none => none
    | some none => some none
    | some (some written) =>
      if size ≤ written.length then some none
      else buildParams p (size - written.length) (out ++ written) params

/-- `dwpald_hostap_cmd_build`: the length that it returns, which counts the blank that it removes,
and the string; `some none` for -1. -/
def dwpaldHostapCmdBuild (p : Platform) (size : Nat) (cmd : List UInt8) (params : List FieldToCmd) :
    Option (Option (Nat × List UInt8)) :=
  if size ≤ cmd.length + 1 then some none
  else
    (buildParams p (size - (cmd.length + 1)) (cmd ++ [blank]) params).map fun result =>
      result.map fun out => (out.length, if out.getLast? = some blank then out.dropLast else out)

/-- The text of a value, whatever the platform. -/
def valueText : CmdValue → List UInt8
  | .hexstr s => s.flatMap hexOfByte
  | .str s => s
  | .char c => [c]
  | .int8 v => intText v.toInt
  | .short v => intText v.toInt
  | .int v => intText v.toInt
  | .int64 v => intText v.toInt
  | .uint8 v => natText 10 v.toNat
  | .ushort v => natText 10 v.toNat
  | .uint v => natText 10 v.toNat
  | .uint64 v => natText 10 v.toNat
  | .bool v => natText 10 v.toNat
  | .hex v => natText 16 v.toNat
  | .dummy | .array => []

/-- A command and its parameters, each behind a blank. -/
def commandText (cmd : List UInt8) (params : List FieldToCmd) : List UInt8 :=
  cmd ++ params.flatMap fun param => blank :: (param.name.getD [] ++ valueText param.value)

/-- A value that has a text on the platform, within the limit of `strnlen_s`. -/
def HasText (p : Platform) : CmdValue → Prop
  | .hexstr s => s.length < hostapdToDwpalValueStringLength ∧ (p.charSigned → ∀ b ∈ s, b < 128)
  | .dummy | .array => False
  | _ => True

section Build

variable {p : Platform} {size : Nat} {out cmd s : List UInt8} {params : List FieldToCmd}
  {param : FieldToCmd} {value : CmdValue}

theorem mapM_charToHex (h : p.charSigned → ∀ b ∈ s, b < 128) :
    s.mapM (charToHex p) = some (s.map hexOfByte) := by
  induction s with
  | nil => rfl
  | cons b s ih =>
    have hb : charToHex p b = some (hexOfByte b) :=
      if_neg fun hneg => absurd (h hneg.1 b List.mem_cons_self) (UInt8.not_lt.mpr hneg.2)
    rw [List.mapM_cons, hb, ih fun hsigned c hc => h hsigned c (List.mem_cons_of_mem b hc)]
    rfl

/-- A negative character has no result. -/
theorem mapM_charToHex_none {b : UInt8} (hsigned : p.charSigned = true) (hb : b ∈ s)
    (hneg : 128 ≤ b) : s.mapM (charToHex p) = none := by
  induction s with
  | nil => cases hb
  | cons c s ih =>
    rw [List.mapM_cons]
    rcases List.mem_cons.mp hb with rfl | hb
    · rw [charToHex, if_pos ⟨hsigned, hneg⟩]
      rfl
    · rw [ih hb]
      cases charToHex p c <;> rfl

theorem paramText_hexstr (h : s.length < hostapdToDwpalValueStringLength) :
    paramText p (.hexstr s) = (s.mapM (charToHex p)).map fun hex => some hex.flatten := by
  rw [paramText, dwpaldStrToHex, Nat.min_eq_left (by omega), Nat.min_eq_left (by omega),
    if_neg (Nat.lt_irrefl _), if_neg (Nat.lt_irrefl _)]

theorem paramText_eq (h : HasText p value) : paramText p value = some (some (valueText value)) := by
  cases value with
  | hexstr s =>
    rw [paramText_hexstr h.1, mapM_charToHex h.2, Option.map_some]
    rfl
  | dummy => cases h
  | array => cases h
  | _ => rfl

/-- A short hex string that has a text has no negative character. -/
theorem hasText_of_paramText {text : List UInt8} (hscalar : value ≠ .dummy ∧ value ≠ .array)
    (hshort : ∀ s, value = .hexstr s → s.length < hostapdToDwpalValueStringLength)
    (h : paramText p value = some (some text)) : HasText p value := by
  cases value with
  | hexstr s =>
    have hlength := hshort s rfl
    refine ⟨hlength, fun hsigned b hb => ?_⟩
    by_contra hneg
    rw [paramText_hexstr hlength, mapM_charToHex_none hsigned hb (UInt8.not_lt.mp hneg)] at h
    cases h
  | dummy => exact absurd rfl hscalar.1
  | array => exact absurd rfl hscalar.2
  | _ => trivial

/-- If the loop over the parameters ends with a string, each parameter has a text. -/
theorem paramText_of_buildParams {text : List UInt8}
    (h : buildParams p size out params = some (some text)) :
    ∀ param ∈ params, param.value ≠ .dummy →
      ∃ text, paramText p param.value = some (some text) := by
  induction params generalizing size out with
  | nil => exact fun param hparam => absurd hparam List.not_mem_nil
  | cons param params ih =>
    rw [buildParams] at h
    split at h
    · cases h
    · cases h
    · next written hwritten =>
      split_ifs at h with hsize
      · cases h
      · refine List.forall_mem_cons.mpr ⟨fun hdummy => ?_, ih h⟩
        rw [paramWritten, if_neg hdummy] at hwritten
        obtain ⟨result, hresult, hmap⟩ := Option.map_eq_some_iff.mp hwritten
        obtain ⟨text', rfl, -⟩ := Option.map_eq_some_iff.mp hmap
        exact ⟨text', hresult⟩

theorem buildParams_eq (htext : ∀ param ∈ params, HasText p param.value)
    (hsize : (params.flatMap fun param =>
      param.name.getD [] ++ valueText param.value ++ [blank]).length < size) :
    buildParams p size out params = some (some (out ++ params.flatMap fun param =>
      param.name.getD [] ++ valueText param.value ++ [blank])) := by
  induction params generalizing size out with
  | nil => simp [buildParams]
  | cons param params ih =>
    obtain ⟨hparam, hparams⟩ := List.forall_mem_cons.mp htext
    have hdummy : param.value ≠ .dummy := fun heq => by
      rw [heq] at hparam
      exact hparam
    rw [List.flatMap_cons, List.length_append] at hsize
    rw [buildParams, paramWritten, if_neg hdummy, paramText_eq hparam]
    dsimp only [Option.map_some]
    rw [if_neg (by omega), ih hparams (by omega), List.flatMap_cons, List.append_assoc]

/-- The blank behind each parameter is the one in front of the next. -/
theorem commandText_blank : cmd ++ [blank] ++ (params.flatMap fun param =>
    param.name.getD [] ++ valueText param.value ++ [blank]) =
      commandText cmd params ++ [blank] := by
  induction params generalizing cmd with
  | nil => simp [commandText]
  | cons param params ih =>
    have hrest := @ih (cmd ++ [blank] ++ (param.name.getD [] ++ valueText param.value))
    simp only [commandText, List.flatMap_cons, List.append_assoc, List.cons_append, List.nil_append]
      at hrest ⊢
    exact hrest

theorem paramText_of_build {result : Nat × List UInt8}
    (h : dwpaldHostapCmdBuild p size cmd params = some (some result)) (hparam : param ∈ params)
    (hdummy : param.value ≠ .dummy) : ∃ text, paramText p param.value = some (some text) := by
  rw [dwpaldHostapCmdBuild] at h
  split_ifs at h with hsize
  · cases h
  · obtain ⟨built, hbuilt, hmap⟩ := Option.map_eq_some_iff.mp h
    obtain ⟨text, rfl, -⟩ := Option.map_eq_some_iff.mp hmap
    exact paramText_of_buildParams hbuilt param hparam hdummy

/-- The string that is built. -/
theorem dwpaldHostapCmdBuild_eq (htext : ∀ param ∈ params, HasText p param.value)
    (hsize : (commandText cmd params).length + 1 < size) :
    dwpaldHostapCmdBuild p size cmd params =
      some (some ((commandText cmd params).length + 1, commandText cmd params)) := by
  have hlength := congrArg List.length (@commandText_blank cmd params)
  simp only [List.length_append, List.length_singleton] at hlength
  rw [dwpaldHostapCmdBuild, if_neg (by omega), buildParams_eq htext (by omega), commandText_blank]
  simp

end Build

end Dwpal.Parse
