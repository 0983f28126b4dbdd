import Dwpal.Parse.Rows
import Dwpal.Parse.StringToStruct

/-! `dwpald_hostap_response_parse`, which the macros put in the place of
`dwpal_string_to_struct_parse`, and that function on one row of named scalar fields. -/

namespace Dwpal.Parse

open CText

/-- Both parsers refuse the call before they look at the text of the message. -/
def Rejected (msg : Option (List UInt8)) (msgLen : Nat) (fields : List FieldToParse) : Prop :=
  ∀ text ∈ msg, msgLen = 0 ∨ msgLen < min (cstr text).length hostapdToDwpalMsgLength ∨
    fields.any emptySize = true

/-- The names as `dwpal.c` copies them: of a name that does not fit into its buffer nothing is
left. -/
def copiedNames (names : List (List UInt8)) : List (List UInt8) :=
  names.map fun name => if name.length < dwpalFieldNameLength then name else []

/-- A field is found in a row. -/
def Found (p : Platform) (row : List UInt8) (names : List (List UInt8)) (f : FieldToParse) : Prop :=
  f.field = true ∧ ∃ name ∈ f.name, ∃ s, fieldValuesGet p row f.type name names = some (true, s)

/-- Both searches for a field have the same result, but that `dwpal.c` makes an empty text of a
blank. -/
def SearchedAlike (p : Platform) (row : List UInt8) (type : FieldType) (name : List UInt8)
    (names names' : List (List UInt8)) : Prop :=
  ∃ found s s', fieldValuesGet p row type name names = some (found, s) ∧
    fieldValuesGetDwpal p row type name names' = some (found, s') ∧ (s' = s ∨ s = [blank] ∧ s' = [])

/-- The text of a field that both parsers read alike: a string that fits and is not a blank, an
integer that is the same number in the bases 0 and 10, and not `UNKNOWN` if it is counted. -/
structure ReadAlike (f : FieldToParse) (s : List UInt8) : Prop where
  string : f.type = .str → s ≠ [blank] ∧ s.length < f.totalSizeOfArg
  unknown : f.type.isInteger = true → f.numOfValidArgs = true →
    (ascii "UNKNOWN").isPrefixOf s = false
  number : f.type.isInteger = true → CNumber.scan 0 s = CNumber.scan 10 s

/-- The texts that the search for a field looks at, given by what lies behind its occurrences, up to
one that is as long as the buffer. -/
def searchedTexts (names : List (List UInt8)) :
    (isFirst : Bool) → List (List UInt8) → List (List UInt8)
  | _, [] => []
  | isFirst, rest :: rests =>
    let (isFirst, numOfCharacters) := valueSearch names isFirst rest
    if hostapdToDwpalValueStringLength ≤ numOfCharacters then []
    else rest.take (numOfCharacters - 1) :: searchedTexts names isFirst rests

/-- A field that occurs in a row, and gets the same text and value in both parsers: the parts of its
text fit into the buffer, no known name is lost in its copy, and where the last name is `SSID=`, for
which `dwpal.c` has its own rule, the texts are single words. -/
structure OccursAlike (p : Platform) (names : List (List UInt8)) (row : List UInt8)
    (f : FieldToParse) (name : List UInt8) : Prop where
  parts : PartsFit p 0 (copiedParts false names true (fieldRests row name))
  kept : ∀ known ∈ names, known.length < dwpalFieldNameLength
  lastName : (endFieldNames names).getLast? = some (ascii "SSID=") →
    ∀ text ∈ searchedTexts names true (fieldRests row name), blank ∉ text ∧ equals ∉ text
  read : ∀ s, fieldValuesGet p row f.type name names = some (true, s) → ReadAlike f s

/-- A message that is not refused, and that both parsers take for the same rows. -/
structure TextAlike (p : Platform) (fields : List FieldToParse) (userBufLen : Nat)
    (text : List UInt8) : Prop where
  notFailed : ¬((ascii "UNKNOWN").isPrefixOf (cstr text) ∨ (ascii "FAIL").isPrefixOf (cstr text))
  copies : ∀ name ∈ knownNames fields, name.length ≠ dwpalFieldNameLength
  rows : messageRowsDwpal (copiedNames (knownNames fields)) text = messageRows fields text
  fits : 0 < userBufLen → messageRows fields text ≠ [] → ∀ f ∈ fields, f.field = true →
    ∀ name ∈ f.name, name.length + 1 < dwpalFieldNameLength
  occurs : 0 < userBufLen → ∀ row ∈ messageRows fields text, ∀ f ∈ fields, f.field = true →
    ∀ name ∈ f.name, fieldRests row name ≠ [] → OccursAlike p (knownNames fields) row f name

/-- A call for which both parsers do the same. What it does not store, it finds empty. -/
structure ParsedAlike (p : Platform) (msg : Option (List UInt8)) (msgLen : Nat)
    (fields : List FieldToParse) (userBufLen : Nat) (out : Outputs) : Prop where
  counts : Rejected msg msgLen fields →
    ∀ i f, fields[i]? = some f → f.numOfValidArgs = true → out.count i = 0
  values : ∀ i f, fields[i]? = some f → getFieldSize f ≠ 0 → out.value 0 i = f.type.zero ∨
    ¬Rejected msg msgLen fields ∧ 0 < userBufLen ∧
      ∃ text ∈ msg, ∃ row ∈ messageRows fields text, Found p row (knownNames fields) f
  text : ¬Rejected msg msgLen fields → ∀ text ∈ msg, TextAlike p fields userBufLen text

section Values

variable {p : Platform} {names names' : List (List UInt8)} {name row s s' : List UInt8}
  {type : FieldType}
  {f : FieldToParse} {line i : Nat} {out : Outputs} {found : Bool}

theorem strstr_of_fieldRests (hnone : fieldRests row name = []) :
    strstr (blank :: name) (blank :: row) = none := by
  rw [fieldRests, textsBehind] at hnone
  cases hfound : strstr (blank :: name) (blank :: row) with
  | none => rfl
  | some found =>
    rw [hfound] at hnone
    cases hnone

/-- A field that is not in a row is found by neither of the searches. -/
theorem fieldValuesGet_absent (hname : name.length + 1 < dwpalFieldNameLength)
    (hnone : fieldRests row name = []) : fieldValuesGet p row type name names =
      some (false, []) := by
  have hneedle : sprintfS dwpalFieldNameLength (blank :: name) = blank :: name := if_pos hname
  rw [fieldValuesGet, hneedle, valueLoop, strstr_of_fieldRests hnone]
  rfl

theorem fieldValuesGetDwpal_absent (hname : name.length + 1 < dwpalFieldNameLength)
    (hnone : fieldRests row name = []) :
    fieldValuesGetDwpal p row type name names = some (false, []) := by
  have hfits : ¬dwpalFieldNameLength ≤ (blank :: name).length := Nat.not_le.mpr hname
  rw [fieldValuesGetDwpal, if_neg hfits, valueLoop, strstr_of_fieldRests hnone]
  rfl

/-- The search depends on what is copied of the texts that it looks at. -/
theorem valueLoop_congr {copied copied' : Nat → List UInt8 → Nat} {needle rest values : List UInt8}
    {isFirst : Bool} {fuel last : Nat}
    (h : ∀ text ∈ searchedTexts names isFirst (textsBehind needle fuel rest),
      ∀ n, copied n text = copied' n text) :
    valueLoop p copied needle names fuel isFirst found last rest values =
      valueLoop p copied' needle names fuel isFirst found last rest values := by
  induction fuel generalizing isFirst found last rest values with
  | zero => rfl
  | succ fuel ih =>
    rw [textsBehind] at h
    rw [valueLoop, valueLoop]
    cases hfound : strstr needle rest with
    | none => rfl
    | some result =>
      obtain ⟨before, behind⟩ := result
      rw [hfound] at h
      dsimp only at h ⊢
      rw [searchedTexts] at h
      dsimp only at h
      by_cases hlong : hostapdToDwpalValueStringLength ≤ (valueSearch names isFirst behind).2
      · rw [if_pos hlong, if_pos hlong]
      · rw [if_neg hlong, List.forall_mem_cons] at h
        rw [if_neg hlong, if_neg hlong, h.1, ih h.2]

/-- Of a single word the rule for `SSID=` copies all, too. -/
theorem ssidCopied_word {text : List UInt8} (hblank : blank ∉ text) (hequals : equals ∉ text)
    (n i : Nat) : ssidCopied n i text = i + copiedLength false text := by
  have hcopied : ∀ text : List UInt8, blank ∉ text → copiedLength false text = text.length + 1 := by
    intro text hblank
    rw [copiedLength, List.takeWhile_eq_self_iff.mpr]
    intro b hb
    have hne : b ≠ blank := ne_of_mem_of_not_mem hb hblank
    simpa using hne
  rw [hcopied text hblank]
  induction text generalizing n i with
  | nil => rfl
  | cons b text ih =>
    rw [List.mem_cons, not_or] at hblank hequals
    rw [ssidCopied, if_neg (Ne.symm hblank.1), if_neg (Ne.symm hequals.1),
      ih hblank.2 hequals.2 n (i + 1), List.length_cons]
    omega

/-- The strings that both parsers find for a field that is no array. -/
theorem searchedAlike_scalar (hname : name.length + 1 < dwpalFieldNameLength)
    (htype : type.isArray = false)
    (hparts : PartsFit p 0 (copiedParts false names true (fieldRests row name)))
    (hlast : (endFieldNames names).getLast? = some (ascii "SSID=") →
      ∀ text ∈ searchedTexts names true (fieldRests row name), blank ∉ text ∧ equals ∉ text) :
    SearchedAlike p row type name names names := by
  have hcopied : ∀ text ∈ searchedTexts names true (fieldRests row name), ∀ n,
      dwpalCopied type names n text = copiedLength false text := by
    intro text htext n
    rw [dwpalCopied, if_neg (by rw [htype]; decide)]
    split
    · next hssid =>
      obtain ⟨hblank, hequals⟩ := hlast hssid text htext
      rw [ssidCopied_word hblank hequals, Nat.zero_add]
    · rfl
  have hneedle : sprintfS dwpalFieldNameLength (blank :: name) = blank :: name := if_pos hname
  have hfits : ¬dwpalFieldNameLength ≤ (blank :: name).length := Nat.not_le.mpr hname
  obtain ⟨result, hloop⟩ := Option.isSome_iff_exists.mp <|
    @valueLoop_isSome p false true false (blank :: name) (blank :: row) [] names (row.length + 2) 0
      (List.cons_ne_nil _ _) (Nat.lt_succ_self _) hparts
  refine ⟨result.1, cstr (removeBlanks result.2), cstr (result.2.rdropWhile (· == blank)),
    ?_, ?_, ?_⟩
  · rw [fieldValuesGet, htype, hneedle, hloop]
    rfl
  · rw [fieldValuesGetDwpal, if_neg hfits, valueLoop_congr hcopied, hloop]
    rfl
  · rcases removeBlanks_cases result.2 with heq | ⟨hblank, hempty⟩
    · exact .inl (by rw [heq])
    · exact .inr ⟨by rw [hblank]; decide, by rw [hempty]; rfl⟩

theorem OccursAlike.searched {f : FieldToParse} (h : OccursAlike p names row f name)
    (hname : name.length + 1 < dwpalFieldNameLength) (htype : f.type.isArray = false) :
    SearchedAlike p row f.type name names (copiedNames names) := by
  have hcopies : copiedNames names = names := by
    refine (List.map_congr_left fun known hknown => ?_).trans (List.map_id names)
    exact if_pos (h.kept known hknown)
  rw [hcopies]
  exact searchedAlike_scalar hname htype h.parts h.lastName

theorem readScalar_blank : readScalar p [blank] type = readScalar p [] type ∨ type = .char := by
  cases type with
  | char => exact .inr rfl
  | _ => exact .inl rfl

/-- The integers that the two parsers read. -/
theorem readScalarDwpal_eq (htype : type.isCommonScalar = true) (hstring : type ≠ .str)
    (hnumber : type.isInteger = true → CNumber.scan 0 s = CNumber.scan 10 s) :
    readScalarDwpal p s type = readScalar p s type := by
  have hlong : type.isInteger = true → strtolLong p 10 s = strtolLong p 0 s := fun h => by
    rw [strtolLong, strtolLong, CNumber.strtol, CNumber.strtol, hnumber h]
  cases type with
  | int8 => rw [readScalarDwpal, readScalar, atoi, Int.bmod_bmod_of_dvd (by decide), hlong rfl]
  | short => rw [readScalarDwpal, readScalar, atoi, Int.bmod_bmod_of_dvd (by decide), hlong rfl]
  | uint8 =>
    have hmod : ∀ x : Int, x.bmod (2 ^ 32) % 2 ^ 8 = x % 2 ^ 8 := by
      intro x
      rw [Int.bmod_eq_emod]
      split <;> omega
    rw [readScalarDwpal, readScalar, atoi, hmod, hlong rfl]
  | int => rw [readScalarDwpal, readScalar, atoi, hlong rfl]
  | uint => rw [readScalarDwpal, readScalar, CNumber.strtoul, CNumber.strtoul, hnumber rfl]
  | int64 => rw [readScalarDwpal, readScalar, CNumber.strtol, CNumber.strtol, hnumber rfl]
  | uint64 => rw [readScalarDwpal, readScalar, CNumber.strtoul, CNumber.strtoul, hnumber rfl]
  | hex => rfl
  | bool => rfl
  | str => exact absurd rfl hstring
  | _ => cases htype

/-- The text `UNKNOWN` is read as zero. -/
theorem readScalar_unknown (htype : type.isInteger = true)
    (h : (ascii "UNKNOWN").isPrefixOf s = true) : readScalar p s type = type.zero := by
  obtain ⟨rest, rfl⟩ := List.isPrefixOf_iff_prefix.mp h
  have hscan : ∀ base, base = 0 ∨ base = 10 → CNumber.scan base (ascii "UNKNOWN" ++ rest) =
      none := by
    rintro base (rfl | rfl) <;> rfl
  have hzero : strtolLong p 0 (ascii "UNKNOWN" ++ rest) = 0 := by
    rw [strtolLong, CNumber.strtol, hscan 0 (.inl rfl)]
  cases type with
  | int8 | uint8 | short | int => rw [readScalar, hzero]; rfl
  | uint | uint64 => rw [readScalar, CNumber.strtoul, hscan 0 (.inl rfl)]; rfl
  | int64 => rw [readScalar, CNumber.strtol, hscan 0 (.inl rfl)]; rfl
  | _ => cases htype

theorem setField_scalar (htype : f.type.isCommonScalar = true) (hstring : f.type ≠ .str) :
    setField p f s = (true, some (readScalar p s f.type)) := by
  unfold setField
  split <;> simp_all [FieldType.isCommonScalar, FieldType.isInteger]

theorem storeFieldDwpal_scalar (htype : f.type.isCommonScalar = true) (hstring : f.type ≠ .str) :
    storeFieldDwpal p f line i s out =
      if f.type.isInteger ∧ (ascii "UNKNOWN").isPrefixOf s then
        (true, (if f.numOfValidArgs then out.resetCount i else out).store line i f.type.zero)
      else (true, (countArgs f i 1 out).store line i (readScalarDwpal p s f.type)) := by
  unfold storeFieldDwpal
  split <;> simp_all [FieldType.isCommonScalar, FieldType.isInteger]

/-- Both parsers store one value, and count it once. -/
theorem store_alike (htype : f.type.isCommonScalar = true) (hread : ReadAlike f s)
    (hs : s' = s ∨ s = [blank] ∧ s' = []) :
    ∃ value, (∀ out, storeField p f line i s out =
      (true, countArgs f i 1 (out.store line i value))) ∧
      ∀ out, storeFieldDwpal p f line i s' out =
        (true, (countArgs f i 1 out).store line i value) := by
  by_cases hstring : f.type = .str
  · obtain ⟨hblank, hfits⟩ := hread.string hstring
    obtain rfl : s' = s := hs.resolve_right fun h => hblank h.1
    refine ⟨.text s', fun out => ?_, fun out => ?_⟩
    · rw [storeField, setField, hstring]
      dsimp only
      rw [if_neg (by omega), if_pos hfits]
      simp [countArgs]
    · rw [storeFieldDwpal, hstring]
      dsimp only
      rw [if_neg (by omega)]
  · have hstore : ∀ out, storeField p f line i s out =
        (true, countArgs f i 1 (out.store line i (readScalar p s f.type))) := by
      intro out
      rw [storeField, setField_scalar htype hstring]
      simp [countArgs]
    refine ⟨readScalar p s f.type, hstore, fun out => ?_⟩
    rw [storeFieldDwpal_scalar htype hstring]
    rcases hs with rfl | ⟨rfl, rfl⟩
    · split
      · next hunknown =>
        have hcount : f.numOfValidArgs = false := by
          by_contra hcounted
          have hnot := hread.unknown hunknown.1 (by simpa using hcounted)
          rw [hunknown.2] at hnot
          cases hnot
        rw [readScalar_unknown hunknown.1 hunknown.2, countArgs, hcount]
        rfl
      · rw [readScalarDwpal_eq htype hstring hread.number]
    · rw [if_neg (by rintro ⟨-, h⟩; cases h), readScalarDwpal_eq htype hstring fun _ => rfl]
      have hchar : f.type ≠ .char := fun h => by rw [h] at htype; cases htype
      rw [readScalar_blank.resolve_right hchar]

end Values

section Fields

variable {p : Platform} {fields rest : List FieldToParse} {names names' : List (List UInt8)}
  {row : List UInt8} {userBufLen i : Nat} {outA outB : Outputs}

/-- The structures and counters before field `i`: they may differ only in the fields from there on
that will be found in the row. -/
structure Agree (p : Platform) (fields : List FieldToParse) (names : List (List UInt8))
    (row : List UInt8) (userBufLen i : Nat) (outA outB : Outputs) : Prop where
  count : outA.count = outB.count
  value : ∀ l j, outA.value l j = outB.value l j ∨
    l = 0 ∧ i ≤ j ∧ 0 < userBufLen ∧ ∃ f, fields[j]? = some f ∧ Found p row names f

theorem Agree.eq (h : Agree p fields names row userBufLen i outA outB)
    (hi : userBufLen = 0 ∨ fields.length ≤ i) : outA = outB := by
  refine Outputs.ext ?_ h.count
  funext l j
  refine (h.value l j).resolve_right fun ⟨_, hle, hpos, f, hf, _⟩ => ?_
  rcases hi with hzero | hlength
  · omega
  · rw [List.getElem?_eq_none (Nat.le_trans hlength hle)] at hf
    cases hf

/-- A field that is not found leaves both as they are. -/
theorem Agree.skip {f : FieldToParse} (h : Agree p fields names row userBufLen i outA outB)
    (hf : fields[i]? = some f) (hnot : ¬Found p row names f) :
    Agree p fields names row userBufLen (i + 1) outA outB := by
  refine ⟨h.count, fun l j => (h.value l j).imp_right fun ⟨hl, hle, hpos, g, hg, hfound⟩ => ?_⟩
  refine ⟨hl, Nat.lt_of_le_of_ne hle fun heq => ?_, hpos, g, hg, hfound⟩
  rw [← heq, hf] at hg
  obtain rfl := Option.some.inj hg
  exact hnot hfound

theorem countArgs_value (f : FieldToParse) (i n : Nat) (out : Outputs) :
    (countArgs f i n out).value = out.value := by
  rw [countArgs]
  split <;> rfl

theorem countArgs_count (f : FieldToParse) (i n : Nat) {out out' : Outputs}
    (h : out.count = out'.count) : (countArgs f i n out).count = (countArgs f i n out').count := by
  rw [countArgs, countArgs]
  split
  · exact congrArg (fun count => Function.update count i (count i + n)) h
  · exact h

/-- A field that both store is the same afterwards. -/
theorem Agree.store (f : FieldToParse) (value : FieldValue)
    (h : Agree p fields names row userBufLen i outA outB) :
    Agree p fields names row userBufLen (i + 1) (countArgs f i 1 (outA.store 0 i value))
      ((countArgs f i 1 outB).store 0 i value) := by
  refine ⟨countArgs_count f i 1 h.count, fun l j => ?_⟩
  rw [countArgs_value]
  by_cases hslot : l = 0 ∧ j = i
  · rw [hslot.1, hslot.2, Outputs.store_value_self, Outputs.store_value_self]
    exact .inl rfl
  · rw [Outputs.store_value_of_ne _ _ _ _ hslot, Outputs.store_value_of_ne _ _ _ _ hslot,
      countArgs_value]
    refine (h.value l j).imp_right fun ⟨hl, hle, hrest⟩ => ⟨hl, ?_, hrest⟩
    exact Nat.lt_of_le_of_ne hle fun heq => hslot ⟨hl, heq.symm⟩

/-- A field of the row. -/
theorem parseNamed_alike {f : FieldToParse} {name : List UInt8}
    (h : Agree p fields names row userBufLen i outA outB) (hf : fields[i]? = some f)
    (htype : f.type.isCommonScalar = true) (hname : f.name = some name)
    (hsearched : f.field = true → SearchedAlike p row f.type name names names')
    (hread : f.field = true → ∀ s, fieldValuesGet p row f.type name names = some (true, s) →
      ReadAlike f s) :
    ∃ outA' outB', parseNamed p names f name row 0 i outA = some (true, outA') ∧
      parseNamedDwpal p names' f name row 0 i outB = some (true, outB') ∧
      Agree p fields names row userBufLen (i + 1) outA' outB' := by
  rw [parseNamed, parseNamedDwpal]
  by_cases hfield : f.field = false
  · rw [if_pos hfield, if_pos hfield]
    refine ⟨outA, outB, rfl, rfl, h.skip hf fun hfound => ?_⟩
    rw [hfound.1] at hfield
    cases hfield
  rw [if_neg hfield, if_neg hfield]
  have hfield : f.field = true := by simpa using hfield
  have harray : f.type.isArray = false := by
    cases hshape : f.type <;> rw [hshape] at htype <;> first | rfl | cases htype
  obtain ⟨found, s, s', hget, hget', hs⟩ := hsearched hfield
  rw [hget, hget']
  cases found with
  | false =>
    refine ⟨outA, outB, rfl, rfl, h.skip hf fun hstored => ?_⟩
    obtain ⟨_, name', hname', s, hfound⟩ := hstored
    obtain rfl := Option.some.inj (hname.symm.trans hname')
    rw [hget] at hfound
    cases hfound
  | true =>
    obtain ⟨value, hstore, hstore'⟩ := @store_alike p s s' f 0 i htype (hread hfield s hget) hs
    refine ⟨_, _, ?_, congrArg some (hstore' outB), h.store f value⟩
    dsimp only
    rw [harray, if_neg Bool.false_ne_true, hstore]

/-- The rest of a row. -/
theorem parseFields_alike {mandatory : Mandatory} {isFirst : Bool} {mandatory' : MandatoryDwpal}
    (h : Agree p fields names row userBufLen i outA outB) (hrest : fields.drop i = rest)
    (hnames : allNames fields = names)
    (hcommon : ∀ f ∈ fields, f.type.isCommonScalar = true ∧ f.name.isSome = true)
    (hsearched : 0 < userBufLen → ∀ f ∈ fields, f.field = true → ∀ name ∈ f.name,
      SearchedAlike p row f.type name names names' ∧
        ∀ s, fieldValuesGet p row f.type name names = some (true, s) → ReadAlike f s) :
    ∃ result, parseFields p fields userBufLen row 0 i rest mandatory isFirst outA = some result ∧
      parseFieldsDwpal p fields names' userBufLen row 0 i rest mandatory' outB = some result := by
  induction rest generalizing i mandatory isFirst mandatory' outA outB with
  | nil =>
    rw [parseFields, parseFieldsDwpal, h.eq (.inr (List.drop_eq_nil_iff.mp hrest))]
    exact ⟨_, rfl, rfl⟩
  | cons f rest ih =>
    have hf : fields[i]? = some f := by
      rw [← List.head?_drop, hrest]
      rfl
    have hmem : f ∈ fields := List.mem_of_getElem? hf
    have htail : fields.drop (i + 1) = rest := by
      rw [← List.tail_drop, hrest]
      rfl
    obtain ⟨htype, hsome⟩ := hcommon f hmem
    obtain ⟨name, hname⟩ := Option.isSome_iff_exists.mp hsome
    have hdummy : f.type ≠ .dummy := fun heq => by rw [heq] at htype; cases htype
    have hknown : ¬f.type.isUnknown = true := by
      cases hshape : f.type <;> rw [hshape] at htype
      all_goals first | exact Bool.false_ne_true | cases htype
    rw [parseFields, if_neg hdummy, parseFieldsDwpal, parseField, parseFieldDwpal, Nat.zero_mul,
      Nat.zero_mul]
    by_cases hbuf : f.field = true ∧ userBufLen ≤ 0
    · rw [if_pos hbuf, if_pos hbuf, h.eq (.inl (Nat.le_zero.mp hbuf.2))]
      exact ⟨_, rfl, rfl⟩
    · rw [if_neg hbuf, if_neg hbuf, if_neg hdummy, if_neg hknown, hname, hnames]
      dsimp only
      have hroom : f.field = true → 0 < userBufLen := fun hfield =>
        Nat.pos_of_ne_zero fun hzero => hbuf ⟨hfield, Nat.le_of_eq hzero⟩
      obtain ⟨outA', outB', hparse, hparse', hagree⟩ :=
        @parseNamed_alike p fields names names' row userBufLen i outA outB f name h hf htype hname
          (fun hfield => (hsearched (hroom hfield) f hmem hfield name hname).1)
          (fun hfield => (hsearched (hroom hfield) f hmem hfield name hname).2)
      rw [hparse, hparse']
      exact ih hagree htail

end Fields

section Beginning

variable {p : Platform} {fields : List FieldToParse} {out out' : Outputs} {i : Nat}

theorem resetCounters_value : (resetCounters out i fields).value = out.value := by
  induction fields generalizing out i with
  | nil => rfl
  | cons f fields ih =>
    rw [resetCounters, ih]
    split <;> rfl

/-- Counters that are zero stay as they are. -/
theorem resetCounters_eq
    (h : ∀ k f, fields[k]? = some f → f.numOfValidArgs = true → out.count (i + k) = 0) :
    resetCounters out i fields = out := by
  induction fields generalizing i with
  | nil => rfl
  | cons f fields ih =>
    have hfirst : (if f.numOfValidArgs then out.resetCount i else out) = out := by
      split
      · next hcounted =>
        have hzero := h 0 f rfl hcounted
        refine Outputs.ext rfl ?_
        rw [Nat.add_zero] at hzero
        exact Function.update_eq_self_iff.mpr hzero.symm
      · rfl
    rw [resetCounters, hfirst]
    exact ih fun k g hg hcounted => by
      rw [Nat.add_assoc, Nat.add_comm 1]; exact h (k + 1) g hg hcounted

/-- Both parsers set the same counters to zero. -/
theorem cleanupAllFields_count (h : out.count = out'.count) :
    (cleanupAllFields out i fields).count = (resetCounters out' i fields).count := by
  induction fields generalizing out out' i with
  | nil => exact h
  | cons f fields ih =>
    rw [cleanupAllFields, resetCounters]
    refine ih ?_
    have hreset : (if f.numOfValidArgs then { out with count := Function.update out.count i 0 }
        else out).count = (if f.numOfValidArgs then out'.resetCount i else out').count := by
      split
      · exact congrArg (Function.update · i 0) h
      · exact h
    split <;> exact hreset

/-- `cleanup_all_fields` sets fields of the first structure to zero, and nothing else. -/
theorem cleanupAllFields_value (l j : Nat) :
    (cleanupAllFields out i fields).value l j = out.value l j ∨
      l = 0 ∧ ∃ k f, j = i + k ∧ fields[k]? = some f ∧ getFieldSize f ≠ 0 ∧
        (cleanupAllFields out i fields).value l j = f.type.zero := by
  induction fields generalizing out i with
  | nil => exact .inl rfl
  | cons f fields ih =>
    rw [cleanupAllFields]
    have hcounted : (if f.numOfValidArgs then { out with count := Function.update out.count i 0 }
        else out).value = out.value := by
      split <;> rfl
    generalize (if f.numOfValidArgs then { out with count := Function.update out.count i 0 }
      else out) = counted at hcounted ⊢
    rcases @ih (if getFieldSize f ≠ 0 then counted.store 0 i f.type.zero else counted) (i + 1) with
      heq | ⟨hl, k, g, hj, hg, hsize, hzero⟩
    · rw [heq]
      split
      · next hsize =>
        by_cases hslot : l = 0 ∧ j = i
        · refine .inr ⟨hslot.1, 0, f, hslot.2, rfl, hsize, ?_⟩
          rw [hslot.1, hslot.2, Outputs.store_value_self]
        · rw [Outputs.store_value_of_ne _ _ _ _ hslot, hcounted]
          exact .inl rfl
      · exact .inl (by rw [hcounted])
    · exact .inr ⟨hl, k + 1, g, by omega, hg, hsize, hzero⟩

theorem sizeChecked_eq {f : FieldToParse} (htype : f.type.isCommonScalar = true) :
    sizeChecked f = !emptySize f := by
  obtain ⟨field, numOfValidArgs, type, name, totalSizeOfArg⟩ := f
  cases field with
  | false => simp [sizeChecked, emptySize]
  | true =>
    cases type <;>
      simp_all [sizeChecked, emptySize, getFieldSize, FieldType.isArray, FieldType.isCommonScalar,
        FieldType.isInteger]

theorem all_sizeChecked (h : ∀ f ∈ fields, f.type.isCommonScalar = true) :
    fields.all sizeChecked = !fields.any emptySize := by
  induction fields with
  | nil => rfl
  | cons f fields ih =>
    obtain ⟨hf, hfields⟩ := List.forall_mem_cons.mp h
    rw [List.all_cons, List.any_cons, Bool.not_or, sizeChecked_eq hf, ih hfields]

theorem not_isUnknown {type : FieldType} (htype : type.isCommonScalar = true) :
    type.isUnknown = false := by
  cases type <;> simp_all [FieldType.isCommonScalar, FieldType.isInteger, FieldType.isUnknown]

theorem mapM_endFieldNameCopy {names : List (List UInt8)}
    (h : ∀ name ∈ names, name.length ≠ dwpalFieldNameLength) :
    names.mapM endFieldNameCopy = some (copiedNames names) := by
  induction names with
  | nil => rfl
  | cons name names ih =>
    obtain ⟨hname, hnames⟩ := List.forall_mem_cons.mp h
    rw [List.mapM_cons, endFieldNameCopy, if_neg hname, ih hnames]
    rfl

/-- Of a message within the limit both parsers make the same rows. -/
theorem messageRows_eq {msg : List UInt8}
    (hnames : copiedNames (knownNames fields) = allNames fields)
    (h : (cstr msg).length ≤ hostapdToDwpalMsgLength) :
    messageRowsDwpal (copiedNames (knownNames fields)) msg = messageRows fields msg := by
  rw [hnames, messageRows, messageRowsDwpal]
  rw [Nat.min_eq_left h, List.take_length, columnOfParamsToRowConvert, List.take_length]
  by_cases hnames : allNames fields = []
  · rw [if_pos hnames, if_neg fun hcolumn => hcolumn.1 hnames]
  · rw [if_neg hnames]
    split
    · next hcolumn => rw [if_pos hcolumn.2]
    · next hcolumn => rw [if_neg fun hboth => hcolumn ⟨hnames, hboth⟩]

end Beginning

section Parsers

variable {p : Platform} {msg : Option (List UInt8)} {text : List UInt8} {msgLen : Nat}
  {fields : List FieldToParse} {userBufLen : Nat} {out : Outputs}

/-- `cleanup_all_fields` changes only fields that will be found. -/
theorem ParsedAlike.cleaned (h : ParsedAlike p msg msgLen fields userBufLen out) (l j : Nat) :
    (cleanupAllFields out 0 fields).value l j = out.value l j ∨
      l = 0 ∧ ¬Rejected msg msgLen fields ∧ 0 < userBufLen ∧ ∃ text ∈ msg,
        ∃ row ∈ messageRows fields text, ∃ f, fields[j]? = some f ∧
          Found p row (knownNames fields) f := by
  rcases @cleanupAllFields_value fields out 0 l j with heq | ⟨rfl, k, f, hj, hf, hsize, hzero⟩
  · exact .inl heq
  · rw [Nat.zero_add] at hj
    rw [hzero, hj]
    rcases h.values k f hf hsize with hvalue | ⟨hrejected, hpos, text, htext, row, hrow, hfound⟩
    · exact .inl hvalue.symm
    · exact .inr ⟨rfl, hrejected, hpos, text, htext, row, hrow, f, hf, hfound⟩

/-- A call that both refuse leaves zeros as they are. -/
theorem ParsedAlike.cleaned_rejected (h : ParsedAlike p msg msgLen fields userBufLen out)
    (hrejected : Rejected msg msgLen fields) : cleanupAllFields out 0 fields = out := by
  have hreset : resetCounters out 0 fields = out := resetCounters_eq fun k f hf hcounted => by
    rw [Nat.zero_add]
    exact h.counts hrejected k f hf hcounted
  refine Outputs.ext ?_ ?_
  · funext l j
    exact (h.cleaned l j).resolve_right fun hfound => hfound.2.1 hrejected
  · rw [cleanupAllFields_count rfl, hreset]

/-- A message without a row. -/
theorem ParsedAlike.cleaned_noRow (h : ParsedAlike p (some text) msgLen fields userBufLen out)
    (hrows : messageRows fields text = []) :
    cleanupAllFields out 0 fields = resetCounters out 0 fields := by
  refine Outputs.ext ?_ (cleanupAllFields_count rfl)
  rw [resetCounters_value]
  funext l j
  refine (h.cleaned l j).resolve_right fun ⟨_, _, _, text', htext, row, hrow, _⟩ => ?_
  obtain rfl := Option.some.inj htext
  rw [hrows] at hrow
  cases hrow

/-- The structures and counters before the fields of the row. -/
theorem ParsedAlike.agree {row : List UInt8}
    (h : ParsedAlike p (some text) msgLen fields userBufLen out)
    (hrows : messageRows fields text = [row]) :
    Agree p fields (knownNames fields) row userBufLen 0 (cleanupAllFields out 0 fields)
      (resetCounters out 0 fields) := by
  refine ⟨cleanupAllFields_count rfl, fun l j => ?_⟩
  rw [resetCounters_value]
  refine (h.cleaned l j).imp_right fun ⟨hl, _, hpos, text', htext, row', hrow, hfound⟩ => ?_
  obtain rfl := Option.some.inj htext
  rw [hrows] at hrow
  obtain rfl := List.mem_singleton.mp hrow
  exact ⟨hl, Nat.zero_le _, hpos, hfound⟩

/-- The fields of the row are found and read alike. -/
theorem TextAlike.searched {row : List UInt8} (h : TextAlike p fields userBufLen text)
    (hcommon : ∀ f ∈ fields, f.type.isCommonScalar = true ∧ f.name.isSome = true)
    (hrow : row ∈ messageRows fields text) (hpos : 0 < userBufLen) {f : FieldToParse}
    (hf : f ∈ fields)
    (hfield : f.field = true) {name : List UInt8} (hname : name ∈ f.name) :
    SearchedAlike p row f.type name (knownNames fields) (copiedNames (knownNames fields)) ∧
      ∀ s, fieldValuesGet p row f.type name (knownNames fields) = some (true, s) →
        ReadAlike f s := by
  have hfits := h.fits hpos (List.ne_nil_of_mem hrow) f hf hfield name hname
  by_cases hnone : fieldRests row name = []
  · have habsent := @fieldValuesGet_absent p (knownNames fields) name row f.type hfits hnone
    refine ⟨⟨false, [], [], habsent, fieldValuesGetDwpal_absent hfits hnone, .inl rfl⟩,
      fun s hget => ?_⟩
    rw [habsent] at hget
    cases hget
  · have hoccurs := h.occurs hpos row hrow f hf hfield name hname hnone
    have htype := (hcommon f hf).1
    have harray : f.type.isArray = false := by
      cases hshape : f.type <;> rw [hshape] at htype <;> first | rfl | cases htype
    exact ⟨hoccurs.searched hfits harray, hoccurs.read⟩

/-- Both parsers have the same result for a message of one row and named scalar fields, if the call
meets the condition. -/
theorem parsers_agree
    (hcommon : ∀ f ∈ fields, f.type.isCommonScalar = true ∧ f.name.isSome = true)
    (hrows : ∀ text ∈ msg, (messageRows fields text).length ≤ 1)
    (h : ParsedAlike p msg msgLen fields userBufLen out) :
    ∃ result, dwpaldHostapResponseParse p msg msgLen fields userBufLen out = some result ∧
      dwpalStringToStructParse p msg msgLen fields userBufLen out = some result := by
  cases msg with
  | none =>
    have hrejected : Rejected none msgLen fields := fun text htext => by cases htext
    rw [dwpaldHostapResponseParse, dwpalStringToStructParse, h.cleaned_rejected hrejected]
    exact ⟨_, rfl, rfl⟩
  | some text =>
    have hsizes := all_sizeChecked fun f hf => (hcommon f hf).1
    have hknown : (fields.any fun f => f.field && f.type.isUnknown) = false :=
      List.any_eq_false.mpr fun f hf => by simp [not_isUnknown (hcommon f hf).1]
    rw [dwpaldHostapResponseParse, dwpalStringToStructParse, hsizes, hknown]
    by_cases hrejected : Rejected (some text) msgLen fields
    · rw [h.cleaned_rejected hrejected]
      refine ⟨(false, out), ?_⟩
      rcases hrejected text rfl with hempty | hlong | hsize
      · rw [if_pos hempty, if_pos hempty]
        exact ⟨rfl, rfl⟩
      · rw [if_pos hlong, if_pos hlong]
        simp
      · simp [hsize]
    · have haccepted : ¬(msgLen = 0 ∨ msgLen < min (cstr text).length hostapdToDwpalMsgLength ∨
          fields.any emptySize = true) := fun hany => hrejected fun text' htext => by
        obtain rfl := Option.some.inj htext
        exact hany
      rw [not_or, not_or] at haccepted
      obtain ⟨hlen, hlong, hsize⟩ := haccepted
      have htext := h.text hrejected text rfl
      have hcounters : (fields.rdropWhile fun f => f.name = none) = fields := by
        refine List.rdropWhile_eq_self_iff.mpr fun hne => ?_
        have hsome := (hcommon _ (List.getLast_mem hne)).2
        simpa using Option.isSome_iff_ne_none.mp hsome
      have hdummies : ∀ g ∈ fields, g.type = .dummy → g.name = none := fun g hg hdummy => by
        have htype := (hcommon g hg).1
        rw [hdummy] at htype
        cases htype
      have hnames : allNames fields = knownNames fields := allNames_eq hdummies
      rw [if_neg hlen, if_neg hlen, if_neg hlong, if_neg hlong, if_neg htext.notFailed,
        if_neg (by simpa using hsize), if_neg (by simpa using hsize), hcounters]
      change ∃ result, _ ∧ ((knownNames fields).mapM endFieldNameCopy).bind _ = some result
      rw [mapM_endFieldNameCopy htext.copies, Option.bind_some, htext.rows]
      have hsingle := hrows text rfl
      cases hrows' : messageRows fields text with
      | nil =>
        rw [h.cleaned_noRow hrows', parseLines, parseLinesDwpal]
        exact ⟨_, rfl, rfl⟩
      | cons row rows =>
        obtain rfl : rows = [] := by
          rw [hrows', List.length_cons] at hsingle
          exact List.length_eq_zero_iff.mp (by omega)
        have hmem : row ∈ messageRows fields text := by
          rw [hrows']
          exact List.mem_singleton_self row
        obtain ⟨result, hline, hline'⟩ :=
          @parseFields_alike p fields fields (knownNames fields)
            (copiedNames (knownNames fields)) row
            userBufLen 0 _ _ none true none (h.agree hrows') rfl hnames hcommon
            fun hpos f hf hfield name hname => htext.searched hcommon hmem hpos hf hfield hname
        rw [parseLines, parseLinesDwpal, hline, hline']
        obtain ⟨ok, out'⟩ := result
        cases ok <;> exact ⟨_, rfl, rfl⟩

end Parsers

/-- A number, and a string of at most seven bytes. -/
def numberAndName : List FieldToParse :=
  [⟨true, true, .int, some (ascii "a="), 0⟩, ⟨true, true, .str, some (ascii "b="), 8⟩]

def zeroOutputs : Outputs := ⟨fun _ i => if i = 0 then .num 0 else .text [], fun _ => 0⟩

/-- A number, and a string behind the name that `dwpal.c` has a rule for. -/
def numberAndSsid : List FieldToParse :=
  [⟨true, true, .int, some (ascii "a="), 0⟩, ⟨true, true, .str, some (ascii "SSID="), 8⟩]

/-- A field that both searches find with one text, in a row of these fields. -/
theorem occursAlike_of_text {row name text : List UInt8} {f : FieldToParse}
    (hparts : PartsFit platform64 0
      (copiedParts false (knownNames numberAndSsid) true (fieldRests row name)))
    (hword : ∀ text ∈ searchedTexts (knownNames numberAndSsid) true (fieldRests row name),
      blank ∉ text ∧ equals ∉ text)
    (hget : fieldValuesGet platform64 row f.type name (knownNames numberAndSsid) =
      some (true, text))
    (hread : ReadAlike f text) : OccursAlike platform64 (knownNames numberAndSsid) row f name := by
  refine ⟨hparts, by decide, fun _ => hword, fun s hs => ?_⟩
  obtain rfl : text = s := congrArg Prod.snd (Option.some.inj (hget.symm.trans hs))
  exact hread

/-- With `SSID=` as the last name both parsers read a number and a string without blanks. -/
theorem parsers_agree_number : ∃ result,
    dwpaldHostapResponseParse platform64 (some (ascii "a=-12 SSID=xyz")) 14 numberAndSsid 12
        zeroOutputs = some result ∧
      dwpalStringToStructParse platform64 (some (ascii "a=-12 SSID=xyz")) 14 numberAndSsid 12
        zeroOutputs = some result := by
  have hrows : messageRows numberAndSsid (ascii "a=-12 SSID=xyz") = [ascii "a=-12 SSID=xyz"] := by
    decide
  have hoccurs : ∀ f ∈ numberAndSsid, ∀ name ∈ f.name, OccursAlike platform64
      (knownNames numberAndSsid) (ascii "a=-12 SSID=xyz") f name := by
    intro f hf name hname
    rcases List.mem_cons.mp hf with rfl | hf
    · obtain rfl := Option.some.inj hname
      refine @occursAlike_of_text _ _ (ascii "-12") _ ?_ (by decide) rfl
        ⟨by decide, by decide, fun _ => CNumber.scan_zero (by decide)⟩
      unfold PartsFit
      decide
    · obtain rfl := List.mem_singleton.mp hf
      obtain rfl := Option.some.inj hname
      refine @occursAlike_of_text _ _ (ascii "xyz") _ ?_ (by decide) rfl ⟨by decide, by decide,
        fun h => absurd h (by decide)⟩
      unfold PartsFit
      decide
  refine parsers_agree (by decide) (by decide)
    { counts := fun _ i f _ _ => rfl
      values := fun i f hf _ => .inl ?_
      text := fun _ text htext => ?_ }
  · match i, hf with
    | 0, rfl => rfl
    | 1, rfl => rfl
  · obtain rfl := Option.some.inj htext
    refine ⟨by decide, by decide, messageRows_eq (by decide) (by decide), fun _ _ => by decide, ?_⟩
    intro _ row hrow f hf _ name hname _
    rw [hrows] at hrow
    obtain rfl := List.mem_singleton.mp hrow
    exact hoccurs f hf name hname

/-- The parsers read a number with a leading zero in different bases. -/
theorem leadingZero_differs :
    dwpaldHostapResponseParse platform64 (some (ascii "a=010")) 5 numberAndName 12 zeroOutputs ≠
      dwpalStringToStructParse platform64 (some (ascii "a=010")) 5 numberAndName 12
        zeroOutputs := by
  intro h
  have hvalue := congrArg (Option.map fun result => result.2.value 0 0) h
  exact absurd hvalue (by decide)

end Dwpal.Parse
