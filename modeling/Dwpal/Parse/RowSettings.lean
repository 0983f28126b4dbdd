import Dwpal.Parse.ArrayStores
import Dwpal.Parse.Response

/-! The fields that `dwpald_hostap_response_parse` sets for a row of a message, one after the other,
and the texts from which it sets them: what the values of a row and its stores to the buffer of the
caller have in common. -/

namespace Dwpal.Parse

open CText Stores

/-- What a row has for a field. There may be no result of the search for its text. -/
inductive FieldText where
  | undefined
  | failed
  | absent
  | found (text : List UInt8)

/-- A field that is set: its place in the list, and the text from which it is set. -/
structure Setting where
  place : Nat
  field : FieldToParse
  text : List UInt8

/-- The text of a field in a row: of a field with a name by `fieldValuesGet`, of one without by
`mandatoryFieldValueGet` from the copy of the row, which is made for the first field. -/
def fieldText (p : Platform) (names : List (List UInt8)) (line : List UInt8) (f : FieldToParse)
    (mandatory : Mandatory) (isFirst : Bool) : FieldText × Mandatory :=
  match f.name with
  | some name =>
    if f.field = false then (.absent, mandatory)
    else
      match fieldValuesGet p line f.type name names with
      | none => (.undefined, mandatory)
      | some (false, _) => (.absent, mandatory)
      | some (true, stringOfValues) => (.found stringOfValues, mandatory)
  | none =>
    if f.type.isArray then
      (if names = [] then .failed else if f.field then .undefined else .absent, mandatory)
    else
      match if isFirst then some (line, min line.length hostapdToDwpalMsgLength) else mandatory with
      | none => (.undefined, mandatory)
      | some (text, dmax) =>
        match strtokS blank dmax text with
        | none => (.failed, some (text, dmax))
        | some (param, text, dmax) =>
          (if hostapdToDwpalValueStringLength ≤ param.length then .failed
            else if f.field then .found param else .absent, some (text, dmax))

/-- `arrayValuesGet` or `set_field`: whether the field is set, and the stores, from the beginning of
the field on. -/
def Setting.stores (t : Target) (s : Setting) : Bool × List (Store UInt8) :=
  if s.field.type.isArray then
    let (ok, stores, _) := arrayValuesStores t s.text s.field.totalSizeOfArg s.field.type
    (ok, stores)
  else setFieldStores t s.field s.text

/-- The fields that a row sets from field `i` on, and whether it is parsed. `full` is whether the
structure of the row begins behind the end of the buffer. -/
def rowSettings (t : Target) (names : List (List UInt8)) (full : Bool) (line : List UInt8) :
    (i : Nat) → List FieldToParse → Mandatory → (isFirst : Bool) → Option Bool × List Setting
  | _, [], _, _ => (some true, [])
  | i, f :: rest, mandatory, isFirst =>
    if f.type = .dummy then rowSettings t names full line (i + 1) rest mandatory isFirst
    else if f.field ∧ full then (some false, [])
    else
      match fieldText t.toPlatform names line f mandatory isFirst with
      | (.undefined, _) => (none, [])
      | (.failed, _) => (some false, [])
      | (.absent, mandatory) => rowSettings t names full line (i + 1) rest mandatory false
      | (.found text, mandatory) =>
        let s : Setting := ⟨i, f, text⟩
        if (s.stores t).1 then
          let (ok, settings) := rowSettings t names full line (i + 1) rest mandatory false
          (ok, s :: settings)
        else (some false, [s])

/-- The value that a field is set to, in the structure of a line. -/
def Setting.apply (p : Platform) (lineIdx : Nat) (out : Outputs) (s : Setting) : Outputs :=
  if s.field.type.isArray then (storeArray p s.field lineIdx s.place s.text out).2
  else (storeField p s.field lineIdx s.place s.text out).2

section Values

variable {t : Target} {names : List (List UInt8)} {full : Bool} {line : List UInt8}
  {f : FieldToParse}
  {fields : List FieldToParse} {lineIdx i userBufLen : Nat} {s : Setting} {text : List UInt8}
  {out : Outputs}

theorem setFieldStores_fst : (setFieldStores t f text).1 = (setField t.toPlatform f text).1 := by
  rw [setFieldStores, setField]
  cases f.type with
  | str =>
    dsimp only
    rw [strcpyStores, strncpyStores]
    dsimp only
    rw [List.take_length]
    split_ifs <;> rfl
  | hexstr =>
    dsimp only
    rw [dwpaldHexToStrStores, dwpaldHexToStr]
    dsimp only
    split_ifs <;> rfl
  | _ => rfl

theorem arrayValuesStores_fst {type : FieldType} {total : Nat} (harray : type.isArray = true) :
    (arrayValuesStores t text total type).1 = (arrayValuesGet t.toPlatform text total type).1 := by
  cases type with
  | strArray | intArray | hexArray => rfl
  | _ => cases harray

theorem Setting.apply_fst (p : Platform) :
    (if f.type.isArray then storeArray p f lineIdx i text out
      else storeField p f lineIdx i text out) =
      (if f.type.isArray then
        (arrayValuesGet p text f.totalSizeOfArg f.type).1 else (setField p f text).1,
        Setting.apply p lineIdx out ⟨i, f, text⟩) := by
  rw [Setting.apply]
  split_ifs <;> rfl

theorem Setting.stores_fst : (s.stores t).1 =
    if s.field.type.isArray then
      (arrayValuesGet t.toPlatform s.text s.field.totalSizeOfArg s.field.type).1
    else (setField t.toPlatform s.field s.text).1 := by
  rw [Setting.stores]
  split_ifs with harray
  · exact arrayValuesStores_fst harray
  · exact setFieldStores_fst

/-- The bytes of a value that is no array: behind a string there is its terminator. -/
def FieldValue.fieldBytes (t : Target) (width : Nat) : FieldValue → List UInt8
  | .text bytes => bytes ++ [0]
  | value => value.scalarBytes t width

/-- The field has the bytes of the value that it is set to. -/
theorem setFieldStores_bytes {value : FieldValue} {m : Memory UInt8}
    (hvalue : (setField t.toPlatform f text).2 = some value) :
    bytesAt (runAll (setFieldStores t f text).2 m) 0 (value.fieldBytes t (getFieldSize f)).length =
      value.fieldBytes t (getFieldSize f) := by
  have hlast : ∀ (stores : List (Store UInt8)) (bytes bytes' : List UInt8), bytes <+: bytes' →
      bytesAt (runAll (stores ++ [⟨0, bytes'⟩]) m) 0 bytes.length = bytes :=
    fun stores bytes bytes' h => @bytesAt_runAll_concat _ ⟨0, bytes'⟩ stores m bytes h
  rw [setField] at hvalue
  rw [setFieldStores]
  cases htype : f.type with
  | dummy | strArray | intArray | hexArray =>
    rw [htype] at hvalue
    cases hvalue
  | str =>
    rw [htype] at hvalue
    dsimp only at hvalue ⊢
    split_ifs at hvalue with hsize hfits
    · cases hvalue
      exact strcpyStores_bytes hfits
    · cases hvalue
      rw [strcpyStores, strncpyStores]
      dsimp only
      rw [if_neg hsize, List.take_length, if_neg hfits]
      refine hlast [_] [0] _ (List.singleton_prefix_iff_head?_eq_some.mpr ?_)
      rw [List.head?_replicate]
      split_ifs <;> trivial
  | hexstr =>
    rw [htype, dwpaldHexToStr] at hvalue
    rw [dwpaldHexToStrStores]
    dsimp only at hvalue ⊢
    split_ifs at hvalue ⊢ with hsize hlen
    · cases hvalue
    · cases hvalue
      exact hlast [] [0] _ List.prefix_rfl
    · cases hvalue
      refine hlast [] (cstr _ ++ [0]) _ ?_
      by_cases hzero : (0 : UInt8) ∈ (hexToStrLoop text).2
      · obtain ⟨before, rest, hsplit, hbefore⟩ := List.eq_append_cons_of_mem hzero
        rw [hsplit, cstr_append_zero hbefore]
        exact ⟨rest ++ [0], by simp⟩
      · exact ⟨[], by rw [List.append_nil, cstr_of_notMem hzero]⟩
  | _ =>
    rw [htype] at hvalue
    cases hvalue
    exact hlast [] _ _ List.prefix_rfl

/-- A field of a row is set to the value of its text. -/
theorem parseField_eq {mandatory : Mandatory} {isFirst : Bool}
    (hfull : ¬(f.field = true ∧ userBufLen ≤ lineIdx * sizeOfStruct fields)) :
    parseField t.toPlatform fields userBufLen line lineIdx i f mandatory isFirst out =
      match fieldText t.toPlatform (allNames fields) line f mandatory isFirst with
      | (.undefined, _) => none
      | (.failed, mandatory) => some (false, out, mandatory)
      | (.absent, mandatory) => some (true, out, mandatory)
      | (.found text, mandatory) =>
        some ((Setting.stores t ⟨i, f, text⟩).1,
          Setting.apply t.toPlatform lineIdx out ⟨i, f, text⟩, mandatory) := by
  rw [parseField, if_neg hfull, fieldText]
  cases hname : f.name with
  | some name =>
    dsimp only
    rw [parseNamed]
    by_cases hfield : f.field = false
    · rw [if_pos hfield, if_pos hfield]
      rfl
    rw [if_neg hfield, if_neg hfield]
    rcases fieldValuesGet t.toPlatform line f.type name (allNames fields) with - | ⟨- | -, text⟩
    · rfl
    · rfl
    · dsimp only
      rw [← apply_ite some, Setting.apply_fst, Setting.stores_fst]
      rfl
  | none =>
    dsimp only
    by_cases harray : f.type.isArray = true
    · rw [if_pos harray, if_pos harray]
      split_ifs <;> rfl
    rw [if_neg harray, if_neg harray]
    cases (if isFirst then some (line, min line.length hostapdToDwpalMsgLength) else mandatory) with
    | none => rfl
    | some copy =>
      obtain ⟨rest, dmax⟩ := copy
      rw [parseMandatory]
      dsimp only
      cases strtokS blank dmax rest with
      | none => rfl
      | some found =>
        obtain ⟨param, behind, dmax'⟩ := found
        dsimp only
        by_cases hlong : hostapdToDwpalValueStringLength ≤ param.length
        · rw [if_pos hlong, if_pos hlong]
        rw [if_neg hlong, if_neg hlong]
        split_ifs
        · dsimp only
          rw [Setting.stores_fst, Setting.apply, if_neg harray, if_neg harray]
          rfl
        · rfl

/-- A row has the values of the fields that it sets. -/
theorem parseFields_eq {rest : List FieldToParse} {mandatory : Mandatory} {isFirst : Bool} :
    parseFields t.toPlatform fields userBufLen line lineIdx i rest mandatory isFirst out =
      (rowSettings t (allNames fields) (decide (userBufLen ≤ lineIdx * sizeOfStruct fields))
        line i rest mandatory isFirst).1.map fun ok =>
      (ok,
        (rowSettings t (allNames fields) (decide (userBufLen ≤ lineIdx * sizeOfStruct fields))
          line i rest mandatory isFirst).2.foldl (Setting.apply t.toPlatform lineIdx) out) := by
  induction rest generalizing i mandatory isFirst out with
  | nil => rfl
  | cons f rest ih =>
    rw [parseFields, rowSettings]
    by_cases hdummy : f.type = .dummy
    · rw [if_pos hdummy, if_pos hdummy, ih]
    rw [if_neg hdummy, if_neg hdummy]
    by_cases hfull : f.field = true ∧ userBufLen ≤ lineIdx * sizeOfStruct fields
    · rw [parseField, if_pos hfull, if_pos ⟨hfull.1, decide_eq_true hfull.2⟩]
      rfl
    rw [parseField_eq hfull, if_neg fun h => hfull ⟨h.1, of_decide_eq_true h.2⟩]
    rcases fieldText t.toPlatform (allNames fields) line f mandatory isFirst with
      ⟨- | - | - | text, mandatory⟩
    · rfl
    · rfl
    · exact ih
    · dsimp only
      by_cases hok : (Setting.stores t ⟨i, f, text⟩).1 = true
      · rw [hok, if_pos rfl]
        dsimp only
        rw [ih]
        rfl
      · rw [eq_false_of_ne_true hok, if_neg Bool.false_ne_true]
        rfl

end Values

section Settings

variable {t : Target} {names : List (List UInt8)} {full : Bool} {line text : List UInt8}
  {f : FieldToParse}
  {rest : List FieldToParse} {mandatory mandatory' : Mandatory} {isFirst : Bool} {i : Nat}
  {s : Setting}

theorem field_of_found {p : Platform}
    (h : fieldText p names line f mandatory isFirst = (.found text, mandatory')) :
    f.field = true := by
  by_contra hfield
  rw [fieldText] at h
  cases hname : f.name with
  | some name =>
    rw [hname] at h
    dsimp only at h
    rw [if_pos (by simpa using hfield)] at h
    cases h
  | none =>
    rw [hname] at h
    dsimp only at h
    split_ifs at h with harray hnames
    · cases h
    · cases h
    all_goals
      split at h
      · cases h
      · split at h
        · cases h
        · split_ifs at h with hlong <;> cases h

/-- What the steps of a row do, one field of the list after the other. -/
theorem rowSettings_cons :
    rowSettings t names full line i (f :: rest) mandatory isFirst = (none, []) ∨
    rowSettings t names full line i (f :: rest) mandatory isFirst = (some false, []) ∨
    (∃ mandatory' isFirst', (f.type = .dummy ∨ ¬(f.field = true ∧ full = true)) ∧
      rowSettings t names full line i (f :: rest) mandatory isFirst =
        rowSettings t names full line (i + 1) rest mandatory' isFirst') ∨
    ∃ text mandatory', f.type ≠ .dummy ∧ f.field = true ∧ full = false ∧
      if (Setting.stores t ⟨i, f, text⟩).1 = true then
        rowSettings t names full line i (f :: rest) mandatory isFirst =
          ((rowSettings t names full line (i + 1) rest mandatory' false).1,
            ⟨i, f, text⟩ :: (rowSettings t names full line (i + 1) rest mandatory' false).2)
      else
        rowSettings t names full line i (f :: rest) mandatory isFirst =
          (some false, [⟨i, f, text⟩]) := by
  rw [rowSettings]
  by_cases hdummy : f.type = .dummy
  · rw [if_pos hdummy]
    exact .inr (.inr (.inl ⟨mandatory, isFirst, .inl hdummy, rfl⟩))
  rw [if_neg hdummy]
  by_cases hfull : f.field = true ∧ full = true
  · rw [if_pos hfull]
    exact .inr (.inl rfl)
  rw [if_neg hfull]
  cases htext : fieldText t.toPlatform names line f mandatory isFirst with
  | mk found mandatory' =>
    cases found with
    | undefined => exact .inl rfl
    | failed => exact .inr (.inl rfl)
    | absent => exact .inr (.inr (.inl ⟨mandatory', false, .inr hfull, rfl⟩))
    | found text =>
      have hfield := field_of_found htext
      refine .inr (.inr (.inr ⟨text, mandatory', hdummy, hfield,
        eq_false_of_ne_true fun h => hfull ⟨hfield, h⟩, ?_⟩))
      split_ifs <;> simp [*]

/-- A field that is set is a field of the list with a place for its value. -/
theorem rowSettings_mem (h : s ∈ (rowSettings t names full line i rest mandatory isFirst).2) :
    full = false ∧ s.field.field = true ∧ s.field.type ≠ .dummy ∧
      ∃ k, s.place = i + k ∧ rest[k]? = some s.field := by
  induction rest generalizing i mandatory isFirst with
  | nil => cases h
  | cons f rest ih =>
    rcases @rowSettings_cons t names full line f rest mandatory isFirst i with
      heq | heq | ⟨mandatory', isFirst', -, heq⟩ | ⟨text, mandatory', hdummy, hfield, hfull, heq⟩
    · rw [heq] at h
      cases h
    · rw [heq] at h
      cases h
    · rw [heq] at h
      obtain ⟨hfull, hfield, hdummy, k, hplace, hk⟩ := ih h
      exact ⟨hfull, hfield, hdummy, k + 1, by omega, hk⟩
    · have hfirst : s = ⟨i, f, text⟩ → full = false ∧ s.field.field = true ∧ s.field.type ≠ .dummy ∧
          ∃ k, s.place = i + k ∧ (f :: rest)[k]? = some s.field := by
        rintro rfl
        exact ⟨hfull, hfield, hdummy, 0, rfl, rfl⟩
      split_ifs at heq
      · rw [heq] at h
        rcases List.mem_cons.mp h with heq | h
        · exact hfirst heq
        · obtain ⟨hfull, hfield, hdummy, k, hplace, hk⟩ := ih h
          exact ⟨hfull, hfield, hdummy, k + 1, by omega, hk⟩
      · rw [heq] at h
        exact hfirst (List.mem_singleton.mp h)

/-- In a row that is parsed every field that is found is set. -/
theorem rowSettings_ok
    (hok : (rowSettings t names full line i rest mandatory isFirst).1 = some true)
    (h : s ∈ (rowSettings t names full line i rest mandatory isFirst).2) :
    (s.stores t).1 = true := by
  induction rest generalizing i mandatory isFirst with
  | nil => cases h
  | cons f rest ih =>
    rcases @rowSettings_cons t names full line f rest mandatory isFirst i with
      heq | heq | ⟨mandatory', isFirst', -, heq⟩ | ⟨text, mandatory', -, -, -, heq⟩
    · rw [heq] at hok
      cases hok
    · rw [heq] at hok
      cases hok
    · rw [heq] at hok h
      exact ih hok h
    · split_ifs at heq with hset
      · rw [heq] at hok h
        rcases List.mem_cons.mp h with rfl | h
        · exact hset
        · exact ih hok h
      · rw [heq] at hok
        cases hok

/-- A row behind the end of the buffer is not parsed if it has a place for a value. -/
theorem rowSettings_full (hfield : ∃ f ∈ rest, f.type ≠ .dummy ∧ f.field = true) :
    (rowSettings t names true line i rest mandatory isFirst).1 ≠ some true := by
  induction rest generalizing i mandatory isFirst with
  | nil =>
    obtain ⟨f, hf, -⟩ := hfield
    cases hf
  | cons f rest ih =>
    rcases @rowSettings_cons t names true line f rest mandatory isFirst i with
      heq | heq | ⟨mandatory', isFirst', hskip, heq⟩ | ⟨text, mandatory', -, -, hfull, -⟩
    · rw [heq]
      exact nofun
    · rw [heq]
      exact nofun
    · rw [heq]
      refine ih ?_
      obtain ⟨g, hg, hdummy, hplace⟩ := hfield
      rcases List.mem_cons.mp hg with rfl | hg
      · exact absurd hskip (not_or.mpr ⟨hdummy, not_not.mpr ⟨hplace, rfl⟩⟩)
      · exact ⟨g, hg, hdummy, hplace⟩
    · cases hfull

/-- Where a row is parsed, a row behind the end of the buffer does not read through a null pointer
before it comes to a place for a value. -/
theorem rowSettings_full_defined {line' : List UInt8}
    (hok : (rowSettings t names full line i rest mandatory isFirst).1 = some true)
    (hcopy : mandatory' = none → mandatory = none) :
    (rowSettings t names true line' i rest mandatory' isFirst).1 ≠ none := by
  induction rest generalizing i mandatory mandatory' isFirst with
  | nil => exact Option.some_ne_none _
  | cons f rest ih =>
    rw [rowSettings] at hok ⊢
    by_cases hdummy : f.type = .dummy
    · rw [if_pos hdummy] at hok ⊢
      exact ih hok hcopy
    rw [if_neg hdummy] at hok ⊢
    by_cases hfield : f.field = true
    · rw [if_pos ⟨hfield, rfl⟩]
      exact Option.some_ne_none _
    rw [if_neg fun h => hfield h.1] at hok ⊢
    rw [fieldText] at hok ⊢
    cases hname : f.name with
    | some name =>
      rw [hname] at hok
      dsimp only at hok ⊢
      rw [if_pos (eq_false_of_ne_true hfield)] at hok ⊢
      exact ih hok hcopy
    | none =>
      rw [hname] at hok
      dsimp only at hok ⊢
      by_cases harray : f.type.isArray = true
      · rw [if_pos harray] at hok ⊢
        by_cases hnames : names = []
        · rw [if_pos hnames] at hok
          cases hok
        · rw [if_neg hnames, if_neg hfield] at hok ⊢
          exact ih hok hcopy
      rw [if_neg harray] at hok ⊢
      -- both have a copy of their row or neither has
      cases hcopied : (if isFirst then some (line, min line.length hostapdToDwpalMsgLength)
        else mandatory) with
      | none =>
        rw [hcopied] at hok
        cases hok
      | some copy =>
        obtain ⟨copy', hcopied'⟩ : ∃ copy', (if isFirst then
            some (line', min line'.length hostapdToDwpalMsgLength) else mandatory') =
              some copy' := by
          rw [← Option.ne_none_iff_exists']
          intro hnone
          split_ifs at hnone hcopied with hfirst
          rw [hcopy hnone] at hcopied
          cases hcopied
        rw [hcopied] at hok
        rw [hcopied']
        dsimp only at hok ⊢
        cases htoken : strtokS blank copy.2 copy.1 with
        | none =>
          rw [htoken] at hok
          cases hok
        | some token =>
          rw [htoken] at hok
          dsimp only at hok
          split_ifs at hok with hlong
          · cases hok
          cases strtokS blank copy'.2 copy'.1 with
          | none => exact Option.some_ne_none _
          | some token' =>
            dsimp only
            split_ifs
            · exact Option.some_ne_none _
            · exact ih hok fun h => absurd h (Option.some_ne_none _)

end Settings

end Dwpal.Parse
