import Dwpal.Parse.Fields

/-! The text of a named field in a line: `fieldValuesGet` of `dwpald_hostap_parse.c` and the one of
`dwpal.c`, and the elements of an array in `arrayValuesGet`. Memory is allocated. -/

namespace Dwpal.Parse

open CText

/-- The state of the search for the end of a value: `isFirstEndOfString`, and the offset of
`closerStringEnd`, if it is not `NULL`. -/
abbrev EndSearch := Bool × Option Nat

/-- The search goes on with one more name. A `closerStringEnd` that is `NULL` is in front of every
end that is found. -/
def closerEnd (rest : List UInt8) (search : EndSearch) (name : List UInt8) : EndSearch :=
  match strstr (sprintfS hostapdToDwpalValueStringLength (blank :: name)) rest with
  | none => search
  | some (before, _) =>
    let stringEnd := before.length + 1
    if search.1 then (false, some stringEnd)
    else (false, search.2.map fun closer => if stringEnd < closer then stringEnd else closer)

/-- The names up to one that begins with the end of a line, which ends the list. -/
def endFieldNames (names : List (List UInt8)) : List (List UInt8) :=
  names.takeWhile fun name => name.head? != some newline

/-- The search for the end of a value: `isFirstEndOfString` after it, and `numOfCharacters`. -/
def valueSearch (names : List (List UInt8)) (isFirst : Bool) (rest : List UInt8) : Bool × Nat :=
  let (isFirst, closer) := (endFieldNames names).foldl (closerEnd rest) (isFirst, none)
  (isFirst, closer.getD (min rest.length hostapdToDwpalValueStringLength + 1))

/-- How many bytes of a value are copied: for an array up to an equals sign, else up to a blank. -/
def copiedLength (isArray : Bool) (value : List UInt8) : Nat :=
  (value.takeWhile (· != if isArray then equals else blank)).length + 1

/-- The copy of `n` bytes to `stringOfValues` behind `idx` writes behind the buffer. The size of the
whole buffer is passed, so a library that clears the rest of it clears too much wherever `idx` is
not zero. -/
def overruns (p : Platform) (idx n : Nat) : Bool :=
  p.nullSlack && idx ≠ 0 || hostapdToDwpalValueStringLength ≤ idx + n

/-- The loop over the occurrences of a field, with the bytes in `stringOfValues`. It has no result
where it writes behind the buffer or does not end. `copied` is how many bytes of a value are copied;
it is given `numOfCharactersToCopy` of the occurrence before. -/
def valueLoop (p : Platform) (copied : Nat → List UInt8 → Nat) (needle : List UInt8)
    (names : List (List UInt8)) : (fuel : Nat) → (isFirst found : Bool) →
    (numOfCharactersToCopy : Nat) → (rest values : List UInt8) → Option (Bool × List UInt8)
  | 0, _, _, _, _, _ => none
  | fuel + 1, isFirst, found, numOfCharactersToCopy, rest, values =>
    match strstr needle rest with
    | none => some (found, values)
    | some (_, rest) =>
      let (isFirst, numOfCharacters) := valueSearch names isFirst rest
      if hostapdToDwpalValueStringLength ≤ numOfCharacters then some (false, values)
      else
        let numOfCharactersToCopy := copied numOfCharactersToCopy (rest.take (numOfCharacters - 1))
        if overruns p values.length numOfCharactersToCopy then none
        else
          valueLoop p copied needle names fuel isFirst true numOfCharactersToCopy rest
            (values ++ (rest ++ [0]).take numOfCharactersToCopy)

/-- The blanks at the end of `stringOfValues` are removed, but not the first byte. -/
def removeBlanks (values : List UInt8) : List UInt8 :=
  values.take 1 ++ (values.drop 1).rdropWhile (· == blank)

/-- `fieldValuesGet` of `dwpald_hostap_parse.c`: whether the field was found, and the string of its
values. -/
def fieldValuesGet (p : Platform) (line : List UInt8) (type : FieldType) (name : List UInt8)
    (names : List (List UInt8)) : Option (Bool × List UInt8) :=
  (valueLoop p (fun _ => copiedLength type.isArray) (sprintfS dwpalFieldNameLength (blank :: name))
      names (line.length + 2) true false 0 (blank :: line) []).map fun (found, values) =>
    (found, cstr (removeBlanks values))

/-- `arrayValuesGet`: whether it succeeds, the elements it stores, and how many. Behind the last of
fewer than 512 elements it writes an `int` of zero; in an array of strings this `int` is in the
first string. -/
def arrayValuesGet (p : Platform) (stringOfValues : List UInt8) (totalSizeOfArg : Nat)
    (type : FieldType) : Bool × FieldValue × Nat :=
  let params := tokens blank dwpalMaxNumOfElements
    (min stringOfValues.length dwpalToHostapdMsgLength) stringOfValues
  let total := if type = .strArray then totalSizeOfArg / hostapdToDwpalValueStringLength
    else totalSizeOfArg / 4
  let stored := params.take total
  let elements : FieldValue :=
    match type with
    | .hexArray => .ints (stored.map fun param => (strtolLong p 16 param).bmod (2 ^ 32))
    | .intArray => .ints (stored.map fun param => (strtolLong p 0 param).bmod (2 ^ 32))
    | _ =>
      if params.length < dwpalMaxNumOfElements then
        .texts (stored.modifyHead fun first => first.take (4 * params.length))
      else .texts stored
  (decide (params.length ≤ total), elements, stored.length)

/-- The two ways to remove blanks differ only if there are nothing but blanks. -/
theorem removeBlanks_cases (values : List UInt8) :
    removeBlanks values = values.rdropWhile (· == blank) ∨
      removeBlanks values = [blank] ∧ values.rdropWhile (· == blank) = [] := by
  cases values with
  | nil => exact .inl rfl
  | cons b values =>
    change b :: values.rdropWhile (· == blank) = (b :: values).rdropWhile (· == blank) ∨
      b :: values.rdropWhile (· == blank) = [blank] ∧ (b :: values).rdropWhile (· == blank) = []
    induction values using List.reverseRecOn with
    | nil =>
      by_cases hb : b = blank
      · rw [hb]
        exact .inr ⟨rfl, rfl⟩
      · refine .inl ?_
        rw [← List.nil_append [b], List.rdropWhile_concat_neg _ _ _ (by simpa using hb)]
        rfl
    | append_singleton values c ih =>
      rw [← List.cons_append]
      by_cases hc : c = blank
      · rw [List.rdropWhile_concat_pos _ _ _ (by simpa using hc),
          List.rdropWhile_concat_pos _ _ _ (by simpa using hc)]
        exact ih
      · rw [List.rdropWhile_concat_neg _ _ _ (by simpa using hc),
          List.rdropWhile_concat_neg _ _ _ (by simpa using hc)]
        exact .inl rfl

/-! A value as the callers describe it ends at the next known field, or with the line. -/

/-- The offsets at which the known names are first found in a text, each behind a blank. -/
def nameOffsets (names : List (List UInt8)) (rest : List UInt8) : List Nat :=
  names.filterMap fun name => (strstr (blank :: name) rest).map fun (before, _) => before.length

/-- The offset of the nearest of the known names in a text; the length of the text if there is
none. -/
def endOfValue (names : List (List UInt8)) (rest : List UInt8) : Nat :=
  (nameOffsets names rest).foldl min rest.length

/-- What lies behind each occurrence of a string in a text. -/
def textsBehind (needle : List UInt8) : (fuel : Nat) → List UInt8 → List (List UInt8)
  | 0, _ => []
  | fuel + 1, text =>
    match strstr needle text with
    | none => []
    | some (_, rest) => rest :: textsBehind needle fuel rest

/-- What lies behind each occurrence of the field `name` in a line. -/
def fieldRests (line name : List UInt8) : List (List UInt8) :=
  textsBehind (blank :: name) (line.length + 2) (blank :: line)

/-- The texts of the occurrences of the field `name` in a line, each up to the next known name or
the end of the line. -/
def fieldOccurrences (line name : List UInt8) (names : List (List UInt8)) : List (List UInt8) :=
  (fieldRests line name).map fun rest => rest.take (endOfValue names rest)

/-- Where the code takes the end of a value to be: `isFirstEndOfString` is set once. -/
def valueEnd (isFirst : Bool) (names : List (List UInt8)) (rest : List UInt8) : Nat :=
  if isFirst then endOfValue names rest else rest.length

@[simp] theorem valueEnd_true (names : List (List UInt8)) (rest : List UInt8) :
    valueEnd true names rest = endOfValue names rest := rfl

@[simp] theorem valueEnd_false (names : List (List UInt8)) (rest : List UInt8) :
    valueEnd false names rest = rest.length := rfl

/-- The names that fit into the buffer of `fieldValuesGet` behind a blank, and do not end the
list. -/
def NamesFit (names : List (List UInt8)) : Prop :=
  ∀ name ∈ names, name.length + 1 < hostapdToDwpalValueStringLength ∧ name.head? ≠ some newline

section EndOfValue

variable {names : List (List UInt8)} {name rest before behind : List UInt8}

theorem nameOffsets_cons :
    nameOffsets (name :: names) rest =
      ((strstr (blank :: name) rest).map fun (before, _) => before.length).toList ++
        nameOffsets names rest := by
  rw [nameOffsets, List.filterMap_cons]
  cases strstr (blank :: name) rest with
  | none => rfl
  | some found => rfl

theorem mem_nameOffsets (hname : name ∈ names)
    (h : strstr (blank :: name) rest = some (before, behind)) :
    before.length ∈ nameOffsets names rest :=
  List.mem_filterMap.mpr ⟨name, hname, by rw [h]; rfl⟩

theorem of_mem_nameOffsets {n : Nat} (h : n ∈ nameOffsets names rest) :
    ∃ name ∈ names, ∃ before behind,
      strstr (blank :: name) rest = some (before, behind) ∧ before.length = n := by
  obtain ⟨name, hname, hoffset⟩ := List.mem_filterMap.mp h
  obtain ⟨⟨before, behind⟩, hfound, rfl⟩ := Option.map_eq_some_iff.mp hoffset
  exact ⟨name, hname, before, behind, hfound, rfl⟩

theorem lt_length_of_mem_nameOffsets {n : Nat} (h : n ∈ nameOffsets names rest) :
    n < rest.length := by
  obtain ⟨name, -, before, behind, hfound, rfl⟩ := of_mem_nameOffsets h
  have hlen := congrArg List.length (strstr_eq hfound)
  simp only [List.length_append, List.length_cons] at hlen
  omega

theorem foldl_min_le (n : Nat) (offsets : List Nat) :
    offsets.foldl min n ≤ n ∧ ∀ m ∈ offsets, offsets.foldl min n ≤ m := by
  induction offsets generalizing n with
  | nil => exact ⟨Nat.le_refl n, fun m hm => by cases hm⟩
  | cons offset offsets ih =>
    obtain ⟨hle, hmem⟩ := ih (min n offset)
    refine ⟨Nat.le_trans hle (Nat.min_le_left ..), fun m hm => ?_⟩
    rcases List.mem_cons.mp hm with rfl | hm
    · exact Nat.le_trans hle (Nat.min_le_right ..)
    · exact hmem m hm

theorem foldl_min_mem (n : Nat) (offsets : List Nat) :
    offsets.foldl min n = n ∨ offsets.foldl min n ∈ offsets := by
  induction offsets generalizing n with
  | nil => exact .inl rfl
  | cons offset offsets ih =>
    rcases ih (min n offset) with heq | hmem
    · rw [List.foldl_cons, heq]
      rcases Nat.le_total n offset with hle | hle
      · exact .inl (Nat.min_eq_left hle)
      · exact .inr (by rw [Nat.min_eq_right hle]; exact List.mem_cons_self)
    · exact .inr (List.mem_cons_of_mem _ hmem)

theorem endOfValue_le : endOfValue names rest ≤ rest.length := (foldl_min_le _ _).1

theorem endOfValue_le_of_mem (hname : name ∈ names)
    (h : strstr (blank :: name) rest = some (before, behind)) :
    endOfValue names rest ≤ before.length :=
  (foldl_min_le _ _).2 _ (mem_nameOffsets hname h)

theorem endOfValue_of_none (h : ∀ name ∈ names, strstr (blank :: name) rest = none) :
    endOfValue names rest = rest.length := by
  have hnil : nameOffsets names rest = [] :=
    List.filterMap_eq_nil_iff.mpr fun name hname => by rw [h name hname]; rfl
  rw [endOfValue, hnil]
  rfl

/-- The byte behind a value is the blank in front of a name, or the terminator of the line. -/
theorem take_endOfValue :
    ∃ c, (rest ++ [0]).take (endOfValue names rest + 1) = rest.take (endOfValue names rest) ++ [c] ∧
      (c = blank ∨ c = 0 ∧ endOfValue names rest = rest.length) := by
  rcases foldl_min_mem rest.length (nameOffsets names rest) with hall | hmem
  · refine ⟨0, ?_, .inr ⟨rfl, hall⟩⟩
    rw [endOfValue, hall, List.take_length]
    exact List.take_of_length_le (by simp)
  · obtain ⟨name, -, before, behind, hfound, hlen⟩ := of_mem_nameOffsets hmem
    refine ⟨blank, ?_, .inl rfl⟩
    rw [endOfValue, ← hlen, strstr_eq hfound]
    simp only [List.append_assoc, List.cons_append]
    rw [List.take_left, List.take_length_add_append]
    rfl

/-- No known name is in the text of a value. -/
theorem strstr_value_none (hname : name ∈ names) :
    strstr (blank :: name) (rest.take (endOfValue names rest)) = none := by
  by_contra hsome
  obtain ⟨⟨before, behind⟩, hfound⟩ := Option.ne_none_iff_exists'.mp hsome
  have heq := strstr_eq hfound
  obtain ⟨tail, hrest⟩ : ∃ tail, rest = before ++ (blank :: name) ++ tail :=
    ⟨behind ++ rest.drop (endOfValue names rest), by
      rw [← List.append_assoc, ← heq, List.take_append_drop]⟩
  have hthere := @strstr_isSome (blank :: name) before tail
  rw [← hrest] at hthere
  obtain ⟨⟨first, behind'⟩, hfirst⟩ := Option.isSome_iff_exists.mp hthere
  have hle := endOfValue_le_of_mem hname hfirst
  have hle' := strstr_first hfirst hrest
  have hlen := congrArg List.length heq
  simp only [List.length_append, List.length_cons, List.length_take] at hlen
  omega

theorem endFieldNames_eq (hnames : NamesFit names) : endFieldNames names = names :=
  List.takeWhile_eq_self_iff.mpr fun name hname => by simpa using (hnames name hname).2

theorem closerEnd_eq (hname : name.length + 1 < hostapdToDwpalValueStringLength)
    (search : EndSearch) : closerEnd rest search name =
      match strstr (blank :: name) rest with
      | none => search
      | some (before, _) =>
        (false, if search.1 then some (before.length + 1)
          else search.2.map fun closer => min closer (before.length + 1)) := by
  have hfits : sprintfS hostapdToDwpalValueStringLength (blank :: name) = blank :: name :=
    if_pos hname
  rw [closerEnd, hfits]
  cases strstr (blank :: name) rest with
  | none => rfl
  | some found =>
    dsimp only
    split
    · rfl
    · congr 2
      funext closer
      split <;> omega

/-- Once `isFirstEndOfString` is reset, the nearest end is kept up to date, but a null pointer
stays. -/
theorem foldl_closerEnd_false (hnames : NamesFit names) (closer : Option Nat) :
    names.foldl (closerEnd rest) (false, closer) =
      (false, closer.map fun closer =>
        (nameOffsets names rest).foldl (fun m n => min m (n + 1)) closer) := by
  induction names generalizing closer with
  | nil => simp [nameOffsets]
  | cons name names ih =>
    obtain ⟨hname, hnames⟩ := List.forall_mem_cons.mp hnames
    rw [List.foldl_cons, closerEnd_eq hname.1, nameOffsets_cons]
    cases strstr (blank :: name) rest with
    | none => exact ih hnames closer
    | some found =>
      dsimp only
      rw [if_neg Bool.false_ne_true, ih hnames, Option.map_map]
      rfl

theorem foldl_min_succ (n : Nat) (offsets : List Nat) :
    offsets.foldl (fun m n => min m (n + 1)) (n + 1) = offsets.foldl min n + 1 := by
  induction offsets generalizing n with
  | nil => rfl
  | cons offset offsets ih =>
    rw [List.foldl_cons, List.foldl_cons, ← ih]
    congr 1
    omega

theorem foldl_closerEnd_true (hnames : NamesFit names) :
    names.foldl (closerEnd rest) (true, none) =
      ((nameOffsets names rest).isEmpty,
        if nameOffsets names rest = [] then none else some (endOfValue names rest + 1)) := by
  induction names with
  | nil => rfl
  | cons name names ih =>
    obtain ⟨hname, hnames⟩ := List.forall_mem_cons.mp hnames
    rw [List.foldl_cons, closerEnd_eq hname.1, endOfValue, nameOffsets_cons]
    cases hfound : strstr (blank :: name) rest with
    | none => exact ih hnames
    | some found =>
      have hlt : found.1.length < rest.length :=
        @lt_length_of_mem_nameOffsets [name] rest _ (by simp [nameOffsets, hfound])
      dsimp only
      rw [if_pos rfl, foldl_closerEnd_false hnames, Option.map_some, foldl_min_succ]
      simp [Nat.min_eq_right (Nat.le_of_lt hlt)]

/-- The search for the end of a value, from either value of `isFirstEndOfString`. -/
theorem foldl_closerEnd (hnames : NamesFit names) (isFirst : Bool) :
    (endFieldNames names).foldl (closerEnd rest) (isFirst, none) =
      (isFirst && (nameOffsets names rest).isEmpty,
        if isFirst ∧ nameOffsets names rest ≠ [] then some (valueEnd isFirst names rest + 1)
        else none) := by
  rw [endFieldNames_eq hnames]
  cases isFirst with
  | false => rw [foldl_closerEnd_false hnames]; rfl
  | true =>
    rw [foldl_closerEnd_true hnames]
    by_cases hnil : nameOffsets names rest = []
    · simp [hnil]
    · simp [hnil, valueEnd]

theorem suffix_of_mem_textsBehind {needle text : List UInt8} {fuel : Nat}
    (h : rest ∈ textsBehind needle fuel text) : rest <:+ text := by
  induction fuel generalizing text with
  | zero => cases h
  | succ fuel ih =>
    rw [textsBehind] at h
    split at h
    · cases h
    · next before rest' hfound =>
      have hsuffix : rest' <:+ text := ⟨before ++ needle, (strstr_eq hfound).symm⟩
      rcases List.mem_cons.mp h with rfl | h
      · exact hsuffix
      · exact (ih h).trans hsuffix

theorem valueEnd_of_not_ends {isFirst : Bool} (hends : ¬(isFirst ∧ nameOffsets names rest ≠ [])) :
    valueEnd isFirst names rest = rest.length := by
  rw [valueEnd]
  split
  · next hfirst =>
    rw [endOfValue, not_ne_iff.mp fun hne => hends ⟨hfirst, hne⟩]
    rfl
  · rfl

/-- The search for the end of a value finds `valueEnd`, unless the value does not fit into the
buffer. -/
theorem valueSearch_eq (hnames : NamesFit names) {isFirst : Bool}
    (hshort : valueEnd isFirst names rest + 1 < hostapdToDwpalValueStringLength) :
    valueSearch names isFirst rest =
      (isFirst && (nameOffsets names rest).isEmpty, valueEnd isFirst names rest + 1) := by
  rw [valueSearch, foldl_closerEnd hnames]
  dsimp only
  by_cases hends : isFirst ∧ nameOffsets names rest ≠ []
  · rw [if_pos hends]
    rfl
  · rw [valueEnd_of_not_ends hends] at hshort ⊢
    rw [if_neg hends, Option.getD_none, Nat.min_eq_left (by omega)]

theorem le_valueSearch_iff (hnames : NamesFit names) {isFirst : Bool} :
    hostapdToDwpalValueStringLength ≤ (valueSearch names isFirst rest).2 ↔
      hostapdToDwpalValueStringLength ≤ valueEnd isFirst names rest + 1 := by
  by_cases hshort : valueEnd isFirst names rest + 1 < hostapdToDwpalValueStringLength
  · rw [valueSearch_eq hnames hshort]
  · refine iff_of_true ?_ (Nat.le_of_not_lt hshort)
    rw [valueSearch, foldl_closerEnd hnames]
    dsimp only
    by_cases hends : isFirst ∧ nameOffsets names rest ≠ []
    · rw [if_pos hends]
      exact Nat.le_of_not_lt hshort
    · rw [valueEnd_of_not_ends hends] at hshort
      rw [if_neg hends, Option.getD_none]
      omega

/-- One occurrence of the field: its value ends at `valueEnd`. -/
theorem valueLoop_found {p : Platform} {copied : Nat → List UInt8 → Nat} {needle : List UInt8}
    {isFirst found : Bool} {last : Nat} {values text : List UInt8} {fuel : Nat}
    (hnames : NamesFit names)
    (h : strstr needle text = some (before, rest)) :
    valueLoop p copied needle names (fuel + 1) isFirst found last text values =
      if hostapdToDwpalValueStringLength ≤ valueEnd isFirst names rest + 1 then some (false, values)
      else
        let last := copied last (rest.take (valueEnd isFirst names rest))
        if overruns p values.length last then none
        else
          valueLoop p copied needle names fuel
            (isFirst && (nameOffsets names rest).isEmpty) true last
            rest (values ++ (rest ++ [0]).take last) := by
  rw [valueLoop, h]
  dsimp only
  by_cases hlong : hostapdToDwpalValueStringLength ≤ valueEnd isFirst names rest + 1
  · rw [if_pos hlong, if_pos ((le_valueSearch_iff hnames).mpr hlong)]
  · rw [if_neg hlong, if_neg fun h => hlong ((le_valueSearch_iff hnames).mp h),
      valueSearch_eq hnames (Nat.lt_of_not_le hlong), Nat.add_sub_cancel]

end EndOfValue

section Parts

/-- How much is copied of each occurrence of a field, given by what lies behind it, up to one whose
value is as long as the buffer. -/
def copiedParts (isArray : Bool) (names : List (List UInt8)) :
    (isFirst : Bool) → List (List UInt8) → List Nat
  | _, [] => []
  | isFirst, rest :: rests =>
    let (isFirst, numOfCharacters) := valueSearch names isFirst rest
    if hostapdToDwpalValueStringLength ≤ numOfCharacters then []
    else copiedLength isArray (rest.take (numOfCharacters - 1)) ::
      copiedParts isArray names isFirst rests

/-- Parts that keep inside the buffer from `idx` on: with a byte for the terminator. A library that
clears the rest of a buffer may be called at its beginning only. -/
def PartsFit (p : Platform) (idx : Nat) (parts : List Nat) : Prop :=
  if p.nullSlack then parts = [] ∨ idx = 0 ∧ parts.length = 1
  else idx + parts.sum < hostapdToDwpalValueStringLength

variable {p : Platform} {isArray isFirst found : Bool} {needle rest values : List UInt8}
  {names : List (List UInt8)} {fuel n idx last : Nat} {parts : List Nat}

theorem copiedLength_le (value : List UInt8) : copiedLength isArray value ≤ value.length + 1 :=
  Nat.succ_le_succ (List.takeWhile_prefix _).length_le

theorem copiedLength_pos (value : List UInt8) : 0 < copiedLength isArray value := Nat.succ_pos _

theorem partsFit_nil (hn : n < hostapdToDwpalValueStringLength) : PartsFit p n [] := by
  rw [PartsFit]
  split_ifs
  · exact .inl rfl
  · simpa using hn

theorem partsFit_cons (hn : 0 < n) :
    PartsFit p idx (n :: parts) ↔
      (if p.nullSlack then idx = 0 else idx + n < hostapdToDwpalValueStringLength) ∧
        PartsFit p (idx + n) parts := by
  rw [PartsFit, PartsFit]
  split_ifs
  · have hne : ¬(idx + n = 0 ∧ parts.length = 1) := by omega
    rw [or_iff_left hne, false_or, List.length_cons, Nat.add_eq_right, List.length_eq_zero_iff]
  · rw [List.sum_cons]
    omega

/-- A part of a value that fits into the buffer runs over if it is not where it may be. -/
theorem overruns_eq_false (hn : n < hostapdToDwpalValueStringLength) :
    overruns p idx n = false ↔
      if p.nullSlack then idx = 0 else idx + n < hostapdToDwpalValueStringLength := by
  rw [overruns]
  cases p.nullSlack with
  | false => simp
  | true =>
    simp only [Bool.true_and, Bool.or_eq_false_iff, decide_eq_false_iff_not, if_true]
    omega

/-- The search for a field has a result if the parts that it copies fit into the buffer. -/
theorem valueLoop_isSome (hneedle : needle ≠ []) (hfuel : rest.length < fuel)
    (hparts : PartsFit p values.length
      (copiedParts isArray names isFirst (textsBehind needle fuel rest))) :
    (valueLoop p (fun _ => copiedLength isArray) needle names fuel isFirst found last rest
      values).isSome = true := by
  induction fuel generalizing isFirst found last rest values with
  | zero => exact absurd hfuel (Nat.not_lt_zero _)
  | succ fuel ih =>
    rw [textsBehind] at hparts
    rw [valueLoop]
    cases hfound : strstr needle rest with
    | none => rfl
    | some result =>
      obtain ⟨before, behind⟩ := result
      rw [hfound] at hparts
      dsimp only at hparts ⊢
      rw [copiedParts] at hparts
      dsimp only at hparts
      by_cases hlong : hostapdToDwpalValueStringLength ≤ (valueSearch names isFirst behind).2
      · rw [if_pos hlong]
        rfl
      rw [if_neg hlong] at hparts ⊢
      have hn := @copiedLength_le isArray (behind.take ((valueSearch names isFirst behind).2 - 1))
      have hpos := @copiedLength_pos isArray
        (behind.take ((valueSearch names isFirst behind).2 - 1))
      generalize copiedLength isArray (behind.take ((valueSearch names isFirst behind).2 - 1)) = n
        at hn hpos hparts ⊢
      rw [List.length_take] at hn
      have hbuffer : 1 < hostapdToDwpalValueStringLength := by decide
      obtain ⟨hplace, hparts⟩ := (partsFit_cons hpos).mp hparts
      rw [(overruns_eq_false (by omega)).mpr hplace, if_neg Bool.false_ne_true]
      have hshorter := congrArg List.length (strstr_eq hfound)
      have hneedle' := List.length_pos_of_ne_nil hneedle
      rw [List.length_append, List.length_append] at hshorter
      refine ih (by omega) ?_
      rw [List.length_append, List.length_take, List.length_append, List.length_singleton,
        Nat.min_eq_left (by omega)]
      exact hparts

end Parts

end Dwpal.Parse
