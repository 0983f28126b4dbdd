import Dwpal.Parse.Rows

/-! The elements that a row of a message stores in an array field: the tokens of every occurrence of
the field, if `fieldValuesGet` does not run past the end of one. -/

namespace Dwpal.Parse

open CText

/-- The tokens of the occurrences of a field in a row. -/
def fieldTokens (row name : List UInt8) (names : List (List UInt8)) : List (List UInt8) :=
  (fieldOccurrences row name names).flatMap (words blank)

/-- The elements of an array, read from their texts. -/
def arrayElements (p : Platform) (type : FieldType) (tokens : List (List UInt8)) : FieldValue :=
  match type with
  | .hexArray => .ints (tokens.map fun token => (strtolLong p 16 token).bmod (2 ^ 32))
  | .intArray => .ints (tokens.map fun token => (strtolLong p 0 token).bmod (2 ^ 32))
  | _ => .texts tokens

/-- A row has stored the tokens of all occurrences of an array field as its elements, and nothing if
there are none. No element has an equals sign or belongs to a text in which a field begins. -/
structure ArrayStored (p : Platform) (fields : List FieldToParse) (f : FieldToParse)
    (name row : List UInt8) (before after : FieldValue) : Prop where
  elements : after =
    if fieldOccurrences row name (knownNames fields) = [] then before
    else arrayElements p f.type (fieldTokens row name (knownNames fields))
  noEquals : ∀ token ∈ fieldTokens row name (knownNames fields), equals ∉ token
  noName : ∀ text ∈ fieldOccurrences row name (knownNames fields), ∀ known ∈ knownNames fields,
    strstr (blank :: known) text = none

/-- At most two occurrences, given by what lies behind each, and no known name behind the second. -/
def FewOccurrences (names : List (List UInt8)) : List (List UInt8) → Prop
  | [] => True
  | [_] => True
  | [_, last] => ∀ name ∈ names, strstr (blank :: name) last = none
  | _ => False

/-- The texts of the occurrences of a field, joined by blanks. -/
def joinedTexts (row name : List UInt8) (names : List (List UInt8)) : List UInt8 :=
  [blank].intercalate (fieldOccurrences row name names)

/-- What `strtok_s` may read has all tokens of a text. At the end of a row the blanks behind the
last token stay in the text. -/
structure TokensRead (rests names : List (List UInt8)) (text : List UInt8) : Prop where
  trimmed : (text.rdropWhile (· == blank)).length ≤ dwpalToHostapdMsgLength
  atEnd : (∃ rest ∈ rests, endOfValue names rest = rest.length) →
    text.length ≤ dwpalToHostapdMsgLength ∨
      (text.rdropWhile (· == blank)).length < dwpalToHostapdMsgLength

/-- A row in which an array field is stored as it should be: at most two occurrences, the second the
last field of the row. All known names that are behind an occurrence are searched for. The texts
have no equals sign, fit into the buffer, and are short enough for `strtok_s`. The first string of
an array of strings ends before the integer that is written behind the last element. -/
structure ArrayRow (fields : List FieldToParse) (f : FieldToParse) (name row : List UInt8) :
    Prop where
  nameFits : name.length + 1 < dwpalFieldNameLength
  namesFit : fieldRests row name ≠ [] → ∀ known ∈ endFieldNames (allNames fields),
    known.length + 1 < hostapdToDwpalValueStringLength
  searched : ∀ known ∈ knownNames fields, known ∈ endFieldNames (allNames fields) ∨
    ∀ rest ∈ fieldRests row name, strstr (blank :: known) rest = none
  few : FewOccurrences (knownNames fields) (fieldRests row name)
  noEquals : ∀ text ∈ fieldOccurrences row name (knownNames fields), equals ∉ text
  fits : ∀ text ∈ fieldOccurrences row name (knownNames fields),
    text.length + 1 < hostapdToDwpalValueStringLength
  read : TokensRead (fieldRests row name) (knownNames fields)
    (joinedTexts row name (knownNames fields))
  firstString : f.type = .strArray →
    ∀ first ∈ (fieldTokens row name (knownNames fields)).head?,
      first.length ≤ 4 * (fieldTokens row name (knownNames fields)).length

section Blanks

variable {values text s : List UInt8} {b c : UInt8}

theorem mem_of_mem_removeBlanks (h : b ∈ removeBlanks values) : b ∈ values := by
  rcases List.mem_append.mp h with h | h
  · exact List.mem_of_mem_take h
  · exact List.mem_of_mem_drop ((List.rdropWhile_prefix _ _).subset h)

theorem words_removeBlanks : words blank (removeBlanks values) = words blank values := by
  cases values with
  | nil => rfl
  | cons b values =>
    change words blank (b :: values.rdropWhile (· == blank)) = words blank (b :: values)
    induction values using List.reverseRecOn with
    | nil => rfl
    | append_singleton values c ih =>
      by_cases hc : c = blank
      · rw [List.rdropWhile_concat_pos _ _ _ (by simpa using hc), ih, hc, ← List.cons_append,
          words_append_delim, words_nil, List.append_nil]
      · rw [List.rdropWhile_concat_neg _ _ _ (by simpa using hc)]

theorem removeBlanks_append_zero : removeBlanks (text ++ [0]) = text ++ [0] := by
  cases text with
  | nil => rfl
  | cons b text =>
    change b :: (text ++ [0]).rdropWhile (· == blank) = b :: (text ++ [0])
    rw [List.rdropWhile_concat_neg _ _ _ (by decide)]

theorem length_removeBlanks : (removeBlanks (text ++ [blank])).length ≤
    max 1 (text.rdropWhile (· == blank)).length := by
  rcases removeBlanks_cases (text ++ [blank]) with heq | ⟨hblank, -⟩
  · rw [heq, List.rdropWhile_concat_pos _ _ _ (by decide)]
    exact Nat.le_max_right _ _
  · rw [hblank]
    exact Nat.le_max_left _ _

/-- The tokens of the string that is left of a text, and of the blank or the zero that was copied
behind it. -/
theorem tokens_removeBlanks (htext : 0 ∉ text)
    (hc : c = blank ∧ (text.rdropWhile (· == blank)).length ≤ dwpalToHostapdMsgLength ∨
      c = 0 ∧ (text.length ≤ dwpalToHostapdMsgLength ∨
        (text.rdropWhile (· == blank)).length < dwpalToHostapdMsgLength))
    (hs : s = cstr (removeBlanks (text ++ [c]))) :
    tokens blank dwpalMaxNumOfElements (min s.length dwpalToHostapdMsgLength) s =
      words blank text := by
  have hlimit : dwpalToHostapdMsgLength < 2 * dwpalMaxNumOfElements := by decide
  rcases hc with ⟨rfl, htrimmed⟩ | ⟨rfl, hend⟩
  · have hzero : 0 ∉ removeBlanks (text ++ [blank]) := by
      intro h
      rcases List.mem_append.mp (mem_of_mem_removeBlanks h) with h | h
      · exact htext h
      · exact absurd h (by decide)
    rw [cstr_of_notMem hzero] at hs
    have hone : 1 ≤ dwpalToHostapdMsgLength := by decide
    have hlen : s.length ≤ dwpalToHostapdMsgLength :=
      hs ▸ length_removeBlanks.trans (Nat.max_le.mpr ⟨hone, htrimmed⟩)
    rw [Nat.min_eq_left hlen, tokens_eq_words (by omega) (Nat.le_refl _), hs, words_removeBlanks,
      words_append_delim, words_nil, List.append_nil]
  · rw [removeBlanks_append_zero, cstr_append_zero htext] at hs
    subst hs
    rcases hend with hlen | htrimmed
    · rw [Nat.min_eq_left hlen, tokens_eq_words (by omega) (Nat.le_refl _)]
    · have hle := Nat.min_le_right s.length dwpalToHostapdMsgLength
      rw [tokens_eq_words_readable (by omega)]
      by_cases hall : s.length ≤ dwpalToHostapdMsgLength
      · rw [Nat.min_eq_left hall, readable, if_pos (Nat.le_refl _)]
      · rw [Nat.min_eq_right (Nat.le_of_not_le hall), words_readable_of_trimmed htrimmed]

end Blanks

section Occurrences

variable {p : Platform} {names known rests : List (List UInt8)}
  {needle name text rest row s before values : List UInt8} {fuel : Nat} {found : Bool}

theorem copiedLength_array (h : equals ∉ text) : copiedLength true text = text.length + 1 := by
  rw [copiedLength, if_pos rfl, List.takeWhile_eq_self_iff.mpr]
  intro b hb
  simpa using fun heq : b = equals => h (heq ▸ hb)

theorem textsBehind_cons (h : textsBehind needle fuel text = rest :: rests) :
    ∃ fuel' before, fuel = fuel' + 1 ∧ strstr needle text = some (before, rest) ∧
      textsBehind needle fuel' rest = rests := by
  cases fuel with
  | zero => cases h
  | succ fuel =>
    rw [textsBehind] at h
    split at h
    · cases h
    · next before rest' hfound =>
      obtain ⟨rfl, hrests⟩ := List.cons.inj h
      exact ⟨fuel, before, rfl, hfound, hrests⟩

theorem valueLoop_done {copied : Nat → List UInt8 → Nat} {isFirst found' : Bool} {last : Nat}
    {values' : List UInt8} (hrests : textsBehind needle fuel text = [])
    (h : valueLoop p copied needle names fuel isFirst found last text values =
      some (found', values')) :
    found' = found ∧ values' = values := by
  cases fuel with
  | zero => cases h
  | succ fuel =>
    rw [textsBehind] at hrests
    rw [valueLoop] at h
    cases hfound : strstr needle text with
    | none =>
      rw [hfound] at h
      cases h
      exact ⟨rfl, rfl⟩
    | some found =>
      rw [hfound] at hrests
      cases hrests

/-- One more occurrence whose text has no equals sign and fits. -/
theorem valueLoop_step {isFirst found' : Bool} {last : Nat} {values' : List UInt8}
    (hnames : NamesFit names) (hfound : strstr needle text = some (before, rest))
    (hequals : equals ∉ rest.take (valueEnd isFirst names rest))
    (hfits : valueEnd isFirst names rest + 1 < hostapdToDwpalValueStringLength)
    (h : valueLoop p (fun _ => copiedLength true) needle names (fuel + 1) isFirst found last text
      values = some (found', values')) :
    valueLoop p (fun _ => copiedLength true) needle names fuel
      (isFirst && (nameOffsets names rest).isEmpty) true (valueEnd isFirst names rest + 1) rest
      (values ++ (rest ++ [0]).take (valueEnd isFirst names rest + 1)) =
        some (found', values') := by
  have hend : valueEnd isFirst names rest ≤ rest.length := by
    rw [valueEnd]
    split
    · exact endOfValue_le
    · exact Nat.le_refl _
  rw [valueLoop_found hnames hfound, if_neg (by omega)] at h
  dsimp only at h
  rw [copiedLength_array hequals, List.length_take, Nat.min_eq_left hend] at h
  split_ifs at h with hover
  exact h

/-- The loop over at most two occurrences copies the texts of the occurrences, with a byte behind
each. Behind the last one this is the blank in front of a name, or the terminator of the row. -/
theorem valueLoop_array (hnames : NamesFit names)
    (hname : ∀ rest ∈ rests, strstr (blank :: name) rest ≠ none → name ∈ names)
    (hrests : textsBehind (blank :: name) fuel text = rests) (hfew : FewOccurrences names rests)
    (hequals : ∀ rest ∈ rests, equals ∉ rest.take (endOfValue names rest))
    (hfits : ∀ rest ∈ rests, endOfValue names rest + 1 < hostapdToDwpalValueStringLength)
    (h : valueLoop p (fun _ => copiedLength true) (blank :: name) names fuel true false 0 text [] =
      some (found, values)) :
    rests = [] ∧ found = false ∨
      rests ≠ [] ∧ found = true ∧ ∃ c,
        (c = blank ∨ c = 0 ∧ ∃ rest ∈ rests, endOfValue names rest = rest.length) ∧
        values = [blank].intercalate (rests.map fun rest => rest.take (endOfValue names rest)) ++
          [c] := by
  match rests, hfew with
  | [], _ => exact .inl ⟨rfl, (valueLoop_done hrests h).1⟩
  | [first], _ =>
    obtain ⟨fuel', before, rfl, hfirst, hnone⟩ := textsBehind_cons hrests
    obtain ⟨c, htake, hc⟩ := @take_endOfValue names first
    have hstep := valueLoop_step hnames hfirst
      (by rw [valueEnd_true]; exact hequals first List.mem_cons_self)
      (by rw [valueEnd_true]; exact hfits first List.mem_cons_self) h
    obtain ⟨rfl, rfl⟩ := valueLoop_done hnone hstep
    refine .inr ⟨List.cons_ne_nil _ _, rfl, c, hc.imp_right fun h => ⟨h.1, first, ?_, h.2⟩, ?_⟩
    · exact List.mem_singleton_self first
    · simpa using htake
  | [first, second], hlast =>
    obtain ⟨fuel', before, rfl, hfirst, hrest⟩ := textsBehind_cons hrests
    obtain ⟨fuel'', before', rfl, hsecond, hnone⟩ := textsBehind_cons hrest
    have hname := hname first List.mem_cons_self (by rw [hsecond]; exact Option.some_ne_none _)
    obtain ⟨c, htake, hc⟩ := @take_endOfValue names first
    have hlt := lt_length_of_mem_nameOffsets (mem_nameOffsets hname hsecond)
    have hle := endOfValue_le_of_mem hname hsecond
    have hc : c = blank := hc.resolve_right fun ⟨_, heq⟩ => by omega
    have hall := endOfValue_of_none hlast
    have hoffsets : (nameOffsets names first).isEmpty = false := by
      rw [List.isEmpty_eq_false_iff]
      exact List.ne_nil_of_mem (mem_nameOffsets hname hsecond)
    have hmem : second ∈ [first, second] := List.mem_cons_of_mem _ List.mem_cons_self
    have hstep := valueLoop_step hnames hfirst
      (by rw [valueEnd_true]; exact hequals first List.mem_cons_self)
      (by rw [valueEnd_true]; exact hfits first List.mem_cons_self) h
    rw [valueEnd_true, htake, hc, hoffsets, Bool.and_false] at hstep
    have hequals' := hequals second hmem
    have hfits' := hfits second hmem
    rw [hall] at hequals' hfits'
    have hstep' := valueLoop_step hnames hsecond (by rw [valueEnd_false]; exact hequals')
      (by rw [valueEnd_false]; exact hfits') hstep
    obtain ⟨rfl, rfl⟩ := valueLoop_done hnone hstep'
    refine .inr ⟨List.cons_ne_nil _ _, rfl, 0, .inr ⟨rfl, second, hmem, hall⟩, ?_⟩
    have htake' : (second ++ [0]).take (second.length + 1) = second ++ [0] :=
      List.take_of_length_le (by simp)
    simp [hall, htake']

/-- The list of names ends with the first one that begins with the end of a line. -/
theorem valueLoop_endFieldNames {copied : Nat → List UInt8 → Nat} {isFirst : Bool} {last : Nat} :
    valueLoop p copied needle (endFieldNames names) fuel isFirst found last text values =
      valueLoop p copied needle names fuel isFirst found last text values := by
  have hsearch : ∀ isFirst rest, valueSearch (endFieldNames names) isFirst rest =
      valueSearch names isFirst rest := fun isFirst rest => by
    rw [valueSearch, valueSearch, endFieldNames, endFieldNames, List.takeWhile_takeWhile]
    simp only [and_self, Bool.decide_eq_true]
  induction fuel generalizing isFirst found last text values with
  | zero => rfl
  | succ fuel ih =>
    rw [valueLoop, valueLoop]
    simp only [hsearch, ih]

/-- The names that are not behind a value do not matter for its end. -/
theorem endOfValue_congr (hsub : names ⊆ known)
    (h : ∀ name ∈ known, name ∈ names ∨ strstr (blank :: name) rest = none) :
    endOfValue names rest = endOfValue known rest := by
  have hmem : ∀ n, n ∈ nameOffsets names rest ↔ n ∈ nameOffsets known rest := by
    intro n
    constructor
    · intro hn
      obtain ⟨name, hname, before, behind, hfound, rfl⟩ := of_mem_nameOffsets hn
      exact mem_nameOffsets (hsub hname) hfound
    · intro hn
      obtain ⟨name, hname, before, behind, hfound, rfl⟩ := of_mem_nameOffsets hn
      refine mem_nameOffsets ((h name hname).resolve_right fun hnone => ?_) hfound
      rw [hnone] at hfound
      cases hfound
  obtain ⟨hle, hall⟩ := foldl_min_le rest.length (nameOffsets names rest)
  obtain ⟨hle', hall'⟩ := foldl_min_le rest.length (nameOffsets known rest)
  refine Nat.le_antisymm ?_ ?_
  · rcases foldl_min_mem rest.length (nameOffsets known rest) with heq | hin
    · exact hle.trans heq.ge
    · exact hall _ ((hmem _).mpr hin)
  · rcases foldl_min_mem rest.length (nameOffsets names rest) with heq | hin
    · exact hle'.trans heq.ge
    · exact hall' _ ((hmem _).mp hin)

theorem FewOccurrences.mono (hsub : names ⊆ known) (h : FewOccurrences known rests) :
    FewOccurrences names rests := by
  match rests, h with
  | [], _ => trivial
  | [_], _ => trivial
  | [_, _], h => exact fun name hname => h name (hsub hname)

theorem endFieldNames_subset {fields : List FieldToParse} :
    endFieldNames (allNames fields) ⊆ knownNames fields :=
  ((List.takeWhile_prefix _).sublist.trans (List.take_sublist _ _)).subset

/-- The string of an array field in a row that meets the condition has the tokens of the
occurrences. -/
theorem fieldValuesGet_array {fields : List FieldToParse} {f : FieldToParse} (hrow : 0 ∉ row)
    (hcond : ArrayRow fields f name row) (harray : f.type.isArray = true)
    (hname : name ∈ knownNames fields)
    (h : fieldValuesGet p row f.type name (allNames fields) = some (found, s)) :
    fieldOccurrences row name (knownNames fields) = [] ∧ found = false ∨
      fieldOccurrences row name (knownNames fields) ≠ [] ∧ found = true ∧
        tokens blank dwpalMaxNumOfElements (min s.length dwpalToHostapdMsgLength) s =
          fieldTokens row name (knownNames fields) := by
  obtain ⟨⟨found', values⟩, hloop, heq⟩ := Option.map_eq_some_iff.mp h
  obtain ⟨rfl, rfl⟩ := Prod.mk.inj heq
  have hneedle : sprintfS dwpalFieldNameLength (blank :: name) = blank :: name :=
    if_pos hcond.nameFits
  rw [hneedle, harray, ← valueLoop_endFieldNames] at hloop
  by_cases hnone : fieldRests row name = []
  · exact .inl ⟨by rw [fieldOccurrences, hnone]; rfl, (valueLoop_done hnone hloop).1⟩
  have hends : ∀ rest ∈ fieldRests row name,
      endOfValue (endFieldNames (allNames fields)) rest = endOfValue (knownNames fields) rest :=
    fun rest hrest => endOfValue_congr endFieldNames_subset fun known hknown =>
      (hcond.searched known hknown).imp_right fun h => h rest hrest
  have hnames : NamesFit (endFieldNames (allNames fields)) := fun known hknown =>
    ⟨hcond.namesFit hnone known hknown, by simpa using List.mem_takeWhile_imp hknown⟩
  have htexts : (fieldRests row name).map (fun rest =>
      rest.take (endOfValue (endFieldNames (allNames fields)) rest)) =
      fieldOccurrences row name (knownNames fields) :=
    List.map_congr_left fun rest hrest => by rw [hends rest hrest]
  have hmem : ∀ rest ∈ fieldRests row name, rest.take (endOfValue (knownNames fields) rest) ∈
      fieldOccurrences row name (knownNames fields) := fun rest hrest => List.mem_map_of_mem hrest
  rcases valueLoop_array hnames
      (fun rest hrest hfound => (hcond.searched name hname).resolve_right fun h =>
        hfound (h rest hrest)) rfl (hcond.few.mono endFieldNames_subset)
      (fun rest hrest => by rw [hends rest hrest]; exact hcond.noEquals _ (hmem rest hrest))
      (fun rest hrest => by
        have hfits := hcond.fits _ (hmem rest hrest)
        rwa [List.length_take, Nat.min_eq_left endOfValue_le, ← hends rest hrest] at hfits)
      hloop with ⟨hnil, -⟩ | ⟨-, rfl, c, hc, rfl⟩
  · exact absurd hnil hnone
  · rw [htexts]
    have hzero : 0 ∉ joinedTexts row name (knownNames fields) := by
      intro hmem
      rcases mem_intercalate hmem with h | ⟨text, htext, hb⟩
      · exact absurd h (by decide)
      · obtain ⟨rest, hrest, rfl⟩ := List.mem_map.mp htext
        have hmem := (suffix_of_mem_textsBehind hrest).subset (List.mem_of_mem_take hb)
        rcases List.mem_cons.mp hmem with h | h
        · exact absurd h (by decide)
        · exact hrow h
    refine .inr ⟨by simpa [fieldOccurrences] using hnone, rfl, ?_⟩
    refine (tokens_removeBlanks hzero ?_ rfl).trans (words_intercalate _)
    refine hc.imp (fun h => ⟨h, hcond.read.trimmed⟩) fun ⟨h, rest, hrest, hend⟩ => ⟨h, ?_⟩
    exact hcond.read.atEnd ⟨rest, hrest, (hends rest hrest).symm.trans hend⟩

/-- The elements of a string of which all tokens are read, if they fit into the array. -/
theorem arrayValuesGet_elements {totalSizeOfArg : Nat} {type : FieldType}
    {params : List (List UInt8)} (harray : type.isArray = true)
    (htokens : tokens blank dwpalMaxNumOfElements (min s.length dwpalToHostapdMsgLength) s = params)
    (hfirst : type = .strArray → ∀ first ∈ params.head?, first.length ≤ 4 * params.length)
    (hok : (arrayValuesGet p s totalSizeOfArg type).1 = true) :
    (arrayValuesGet p s totalSizeOfArg type).2.1 = arrayElements p type params := by
  unfold arrayValuesGet at hok ⊢
  rw [htokens] at hok ⊢
  dsimp only at hok ⊢
  rw [List.take_of_length_le (of_decide_eq_true hok)]
  cases type with
  | intArray => rfl
  | hexArray => rfl
  | strArray =>
    have hhead : params.modifyHead (fun first => first.take (4 * params.length)) = params := by
      cases params with
      | nil => rfl
      | cons first rest => rw [List.modifyHead_cons, List.take_of_length_le (hfirst rfl first rfl)]
    dsimp only
    rw [hhead, ite_self]
    rfl
  | _ => cases harray

end Occurrences

section Parse

variable {p : Platform} {fields : List FieldToParse} {f : FieldToParse} {name row : List UInt8}
  {lineIdx i : Nat} {before after : Outputs}

/-- The step of an array field in a row that meets the condition. -/
theorem FieldStep.array (hrow : 0 ∉ row) (hcond : ArrayRow fields f name row)
    (harray : f.type.isArray = true) (hfield : f.field = true) (hname : f.name = some name)
    (hmem : f ∈ fields) (hstep : FieldStep p (allNames fields) row lineIdx i f before after) :
    ArrayStored p fields f name row (before.value lineIdx i) (after.value lineIdx i) := by
  refine ⟨?_, fun token htoken heq => ?_, fun text htext known hknown => ?_⟩
  · cases hstep with
    | skipped h =>
      rcases h with hdummy | hnone
      · rw [hdummy] at harray
        cases harray
      · rw [hfield] at hnone
        cases hnone
    | positional hnone =>
      rw [hname] at hnone
      cases hnone
    | named htype hname' hparse =>
      obtain rfl := Option.some.inj (hname.symm.trans hname')
      have hknown : name ∈ knownNames fields := List.mem_filterMap.mpr ⟨f, hmem, hname⟩
      rw [parseNamed, if_neg (by rw [hfield]; decide)] at hparse
      split at hparse
      · cases hparse
      · next s hget =>
        cases hparse
        rcases fieldValuesGet_array hrow hcond harray hknown hget with ⟨hnil, -⟩ | ⟨-, hfound, -⟩
        · rw [if_pos hnil]
        · cases hfound
      · next s hget =>
        rcases fieldValuesGet_array hrow hcond harray hknown hget with
          ⟨-, hfound⟩ | ⟨hne, -, htokens⟩
        · cases hfound
        · rw [if_pos harray] at hparse
          have hstore := Option.some.inj hparse
          have hok : (arrayValuesGet p s f.totalSizeOfArg f.type).1 = true :=
            congrArg Prod.fst hstore
          obtain rfl : (storeArray p f lineIdx i s before).2 = after := congrArg Prod.snd hstore
          rw [if_neg hne, storeArray_value, Outputs.store_value_self]
          exact arrayValuesGet_elements harray htokens hcond.firstString hok
  · obtain ⟨text, htext, hword⟩ := List.mem_flatMap.mp htoken
    exact hcond.noEquals text htext (mem_of_mem_words hword heq)
  · obtain ⟨rest, -, rfl⟩ := List.mem_map.mp htext
    exact strstr_value_none hknown

/-- Every row of a message that is parsed with success has stored the elements of an array field, if
it meets the condition. -/
theorem arrayFields_stored {out out' : Outputs} {msg : List UInt8} {msgLen userBufLen : Nat}
    (hparse : dwpaldHostapResponseParse p (some msg) msgLen fields userBufLen out =
      some (true, out'))
    (hrow : (messageRows fields msg)[lineIdx]? = some row) (hf : fields[i]? = some f)
    (harray : f.type.isArray = true) (hfield : f.field = true) (hname : f.name = some name)
    (hcond : ArrayRow fields f name row) :
    ArrayStored p fields f name row ((cleanupAllFields out 0 fields).value lineIdx i)
      (out'.value lineIdx i) := by
  rw [dwpaldHostapResponseParse] at hparse
  split_ifs at hparse
  · cases hparse
  · cases hparse
  · cases hparse
  · cases hparse
  · obtain ⟨before, after, hbefore, hafter, hline⟩ := (parseLines_value hparse).2 lineIdx row hrow
    rw [Nat.zero_add] at hbefore hafter hline
    obtain ⟨before', after', hbefore', hafter', hstep⟩ := (parseFields_value hline).2 i f hf
    rw [Nat.zero_add] at hbefore' hafter' hstep
    rw [← hbefore, hafter, ← hbefore', hafter']
    exact hstep.array (zero_notMem_messageRows (List.mem_of_getElem? hrow)) hcond harray
      hfield hname (List.mem_of_getElem? hf)

end Parse

/-- An array of strings and an integer. -/
def exampleFields : List FieldToParse :=
  [⟨true, true, .strArray, some (ascii "x="), 4 * hostapdToDwpalValueStringLength⟩,
    ⟨true, true, .int, some (ascii "y="), 0⟩]

def exampleOutputs : Outputs := ⟨fun _ _ => .num 0, fun _ => 0⟩

theorem arrayFields_stored_twice :
    ∃ out', dwpaldHostapResponseParse platform64 (some (ascii "y=3 x=1 2 x=4")) 13 exampleFields 4
        exampleOutputs = some (true, out') ∧
      ArrayStored platform64 exampleFields (exampleFields.head (by decide)) (ascii "x=")
        (ascii "y=3 x=1 2 x=4") (.texts []) (out'.value 0 0) := by
  have hrow : ArrayRow exampleFields (exampleFields.head (by decide)) (ascii "x=")
      (ascii "y=3 x=1 2 x=4") :=
    { nameFits := by decide
      namesFit := by decide
      searched := by decide
      few := by
        change ∀ name ∈ _, _ = none
        decide
      noEquals := by decide
      fits := by decide
      read := ⟨by decide, fun _ => .inl (by decide)⟩
      firstString := by decide }
  obtain ⟨out', hparse⟩ :
      ∃ out', dwpaldHostapResponseParse platform64 (some (ascii "y=3 x=1 2 x=4")) 13 exampleFields 4
        exampleOutputs = some (true, out') := ⟨_, rfl⟩
  have hline : (messageRows exampleFields (ascii "y=3 x=1 2 x=4"))[0]? =
      some (ascii "y=3 x=1 2 x=4") := by decide
  have hfield : exampleFields[0]? = some (exampleFields.head (by decide)) := rfl
  exact ⟨out', hparse, arrayFields_stored hparse hline hfield rfl rfl rfl hrow⟩

/-- The text of the second occurrence is not ended by the field behind it. -/
theorem secondOccurrence_runsOn :
    ∃ out', dwpaldHostapResponseParse platform64 (some (ascii "x=1 x=2 y=3")) 11 exampleFields 4
        exampleOutputs = some (true, out') ∧
      ¬ArrayStored platform64 exampleFields (exampleFields.head (by decide)) (ascii "x=")
        (ascii "x=1 x=2 y=3") (.texts []) (out'.value 0 0) := by
  refine ⟨_, rfl, fun h => absurd h.elements ?_⟩
  decide

end Dwpal.Parse
