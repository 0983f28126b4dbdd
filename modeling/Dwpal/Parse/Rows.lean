import Dwpal.Parse.Response

/-! The steps of `dwpald_hostap_response_parse` through the rows of a message and the fields of a
row: each writes one field of one structure. -/

namespace Dwpal.Parse

open CText

section Messages

variable {fields : List FieldToParse} {msg row : List UInt8}

theorem zero_notMem_messageRows (h : row ∈ messageRows fields msg) : 0 ∉ row := by
  intro hzero
  have hmem := mem_of_mem_tokens h hzero
  have hmsg := cstr_zero_notMem msg
  split_ifs at hmem with hnames
  · exact hmsg hmem
  · rw [columnOfParamsToRowConvert] at hmem
    split_ifs at hmem with hcolumn
    · obtain ⟨b, hb, heq⟩ := List.mem_map.mp hmem
      split_ifs at heq with hnewline
      · exact absurd heq (by decide)
      · exact hmsg (heq ▸ List.mem_of_mem_take hb)
    · exact hmsg hmem

/-- A text without newlines is one row. -/
theorem messageRows_row (hzero : 0 ∉ row) (hnewline : newline ∉ row)
    (hlimit : row.length ≤ hostapdToDwpalMsgLength) :
    messageRows fields row = if row = [] then [] else [row] := by
  have hconvert : (if allNames fields = [] then row
      else columnOfParamsToRowConvert row.length (allNames fields) row) = row := by
    have hmap : row.map (fun b => if b = newline then blank else b) = row := by
      refine (List.map_congr_left fun b hb => ?_).trans (List.map_id row)
      exact if_neg fun heq : b = newline => hnewline (heq ▸ hb)
    rw [columnOfParamsToRowConvert, List.take_length, hmap]
    split_ifs <;> rfl
  rw [messageRows, cstr_of_notMem hzero, Nat.min_eq_left hlimit, hconvert, messageLines,
    tokens_eq_words (by omega) (Nat.le_refl _)]
  split
  · next hempty => rw [hempty, words_nil]
  · next hne => exact words_of_notMem hnewline hne

/-- A row of a message is a message of one row. -/
theorem messageRows_self (h : row ∈ messageRows fields msg) :
    row ≠ [] ∧ row.length ≤ hostapdToDwpalMsgLength ∧ messageRows fields row = [row] := by
  obtain ⟨hne, hnewline, hle⟩ := of_mem_tokens h
  have hlimit : row.length ≤ hostapdToDwpalMsgLength := Nat.le_trans hle (Nat.min_le_right ..)
  refine ⟨hne, hlimit, ?_⟩
  rw [messageRows_row (zero_notMem_messageRows h) hnewline hlimit, if_neg hne]

end Messages

section Outputs

variable (out : Outputs) (line i : Nat) (value : FieldValue)

@[simp] theorem Outputs.store_value_self : (out.store line i value).value line i = value := by
  simp [Outputs.store]

theorem Outputs.store_value_of_ne {line' i' : Nat} (h : ¬(line' = line ∧ i' = i)) :
    (out.store line i value).value line' i' = out.value line' i' := by
  change Function.update out.value line (Function.update (out.value line) i value) line' i' = _
  by_cases hline : line' = line
  · rw [hline, Function.update_self, Function.update_of_ne fun hi => h ⟨hline, hi⟩]
  · rw [Function.update_of_ne hline]

@[simp] theorem Outputs.addCount_value (n : Nat) : (out.addCount i n).value = out.value := rfl

end Outputs

section Steps

variable {p : Platform} {fields : List FieldToParse} {names : List (List UInt8)} {userBufLen : Nat}
  {line : List UInt8} {lineIdx i : Nat} {f : FieldToParse} {out out' : Outputs}

theorem storeField_frame {param : List UInt8} (l j : Nat) (h : ¬(l = lineIdx ∧ j = i)) :
    (storeField p f lineIdx i param out).2.value l j = out.value l j := by
  have hvalue : ∀ value : Option FieldValue,
      (value.elim out (out.store lineIdx i)).value l j = out.value l j := by
    intro value
    cases value with
    | none => rfl
    | some value => exact out.store_value_of_ne lineIdx i value h
  rw [storeField]
  dsimp only
  split <;> exact hvalue _

theorem storeArray_value {s : List UInt8} :
    (storeArray p f lineIdx i s out).2.value =
      (out.store lineIdx i (arrayValuesGet p s f.totalSizeOfArg f.type).2.1).value := by
  rw [storeArray]
  dsimp only
  split <;> rfl

/-- What one field of a row does if it does not fail. -/
inductive FieldStep (p : Platform) (names : List (List UInt8)) (line : List UInt8) (lineIdx i : Nat)
    (f : FieldToParse) (out : Outputs) : Outputs → Prop
  | skipped (h : f.type = .dummy ∨ f.field = false) : FieldStep p names line lineIdx i f out out
  | positional {param : List UInt8} {out' : Outputs} (hname : f.name = none)
      (hstore : storeField p f lineIdx i param out = (true, out')) :
      FieldStep p names line lineIdx i f out out'
  | named {name : List UInt8} {out' : Outputs} (htype : f.type ≠ .dummy)
      (hname : f.name = some name)
      (hparse : parseNamed p names f name line lineIdx i out = some (true, out')) :
      FieldStep p names line lineIdx i f out out'

theorem parseNamed_frame {name : List UInt8}
    (hparse : parseNamed p names f name line lineIdx i out = some (true, out')) (l j : Nat)
    (h : ¬(l = lineIdx ∧ j = i)) : out'.value l j = out.value l j := by
  rw [parseNamed] at hparse
  split_ifs at hparse with hfield harray
  · cases hparse
    rfl
  · split at hparse
    · cases hparse
    · cases hparse
      rfl
    · next s _ =>
      obtain rfl : (storeArray p f lineIdx i s out).2 = out' :=
        congrArg Prod.snd (Option.some.inj hparse)
      rw [storeArray_value]
      exact out.store_value_of_ne lineIdx i _ h
  · split at hparse
    · cases hparse
    · cases hparse
      rfl
    · next s _ =>
      obtain rfl : (storeField p f lineIdx i s out).2 = out' :=
        congrArg Prod.snd (Option.some.inj hparse)
      exact storeField_frame l j h

theorem FieldStep.frame (hstep : FieldStep p names line lineIdx i f out out') (l j : Nat)
    (h : ¬(l = lineIdx ∧ j = i)) : out'.value l j = out.value l j := by
  cases hstep with
  | skipped => rfl
  | positional _ hstore =>
    obtain rfl : (storeField p f lineIdx i _ out).2 = out' := congrArg Prod.snd hstore
    exact storeField_frame l j h
  | named _ _ hparse => exact parseNamed_frame hparse l j h

theorem parseMandatory_step {mandatory mandatory' : Mandatory} (hname : f.name = none)
    (h : parseMandatory p f lineIdx i mandatory out = some (true, out', mandatory')) :
    FieldStep p names line lineIdx i f out out' := by
  unfold parseMandatory at h
  split at h
  · cases h
  · split at h
    · cases h
    · next param _ _ _ =>
      split_ifs at h with hlong hfield
      · cases h
      · obtain ⟨hok, hrest⟩ := Prod.mk.inj (Option.some.inj h)
        exact .positional hname (Prod.ext hok (Prod.mk.inj hrest).1)
      · cases h
        exact .skipped (.inr (by simpa using hfield))

theorem parseField_step {mandatory mandatory' : Mandatory} {isFirst : Bool}
    (htype : f.type ≠ .dummy)
    (h : parseField p fields userBufLen line lineIdx i f mandatory isFirst out =
      some (true, out', mandatory')) :
    FieldStep p (allNames fields) line lineIdx i f out out' := by
  rw [parseField] at h
  by_cases hbuf : f.field = true ∧ userBufLen ≤ lineIdx * sizeOfStruct fields
  · rw [if_pos hbuf] at h
    cases h
  rw [if_neg hbuf] at h
  cases hname : f.name with
  | some name =>
    rw [hname] at h
    obtain ⟨⟨ok, out₁⟩, hparse, heq⟩ := Option.map_eq_some_iff.mp h
    cases heq
    exact .named htype hname hparse
  | none =>
    rw [hname] at h
    dsimp only at h
    by_cases harray : f.type.isArray = true
    · rw [if_pos harray] at h
      split_ifs at h with hnames hfield
      · cases h
      · cases h
        exact .skipped (.inr (by simpa using hfield))
    · rw [if_neg harray] at h
      exact parseMandatory_step hname h

/-- One field of a row, and the fields behind it. -/
theorem parseFields_cons {rest : List FieldToParse} {mandatory : Mandatory} {isFirst : Bool}
    (h : parseFields p fields userBufLen line lineIdx i (f :: rest) mandatory isFirst out =
      some (true, out')) :
    ∃ out₁ mandatory₁ isFirst₁, FieldStep p (allNames fields) line lineIdx i f out out₁ ∧
      parseFields p fields userBufLen line lineIdx (i + 1) rest mandatory₁ isFirst₁ out₁ =
        some (true, out') := by
  rw [parseFields] at h
  split at h
  · next hdummy => exact ⟨out, mandatory, isFirst, .skipped (.inl hdummy), h⟩
  · next htype =>
    split at h
    · cases h
    · cases h
    · next out₁ mandatory₁ hfield =>
        exact ⟨out₁, mandatory₁, false, parseField_step htype hfield, h⟩

/-- A row changes its own structure only, and each field in it by its own step. -/
theorem parseFields_value {rest : List FieldToParse} {mandatory : Mandatory} {isFirst : Bool}
    (h : parseFields p fields userBufLen line lineIdx i rest mandatory isFirst out =
      some (true, out')) :
    (∀ l j, l ≠ lineIdx ∨ j < i → out'.value l j = out.value l j) ∧
      ∀ j f, rest[j]? = some f → ∃ before after : Outputs,
        before.value lineIdx (i + j) = out.value lineIdx (i + j) ∧
        out'.value lineIdx (i + j) = after.value lineIdx (i + j) ∧
        FieldStep p (allNames fields) line lineIdx (i + j) f before after := by
  induction rest generalizing i mandatory isFirst out with
  | nil =>
    cases h
    exact ⟨fun l j _ => rfl, fun j f hj => by cases hj⟩
  | cons g rest ih =>
    obtain ⟨out₁, mandatory₁, isFirst₁, hstep, hrest⟩ := parseFields_cons h
    obtain ⟨hother, hown⟩ := ih hrest
    refine ⟨fun l j hlj => ?_, fun j f hj => ?_⟩
    · rw [hother l j (by omega), hstep.frame l j (by omega)]
    · cases j with
      | zero =>
        cases hj
        exact ⟨out, out₁, rfl, hother _ _ (.inr (Nat.lt_succ_self _)), hstep⟩
      | succ j =>
        obtain ⟨before, after, hbefore, hafter, hstep'⟩ := hown j f hj
        rw [show i + (j + 1) = i + 1 + j by omega]
        exact ⟨before, after, hbefore.trans (hstep.frame _ _ (by omega)), hafter, hstep'⟩

/-- A row is parsed with its own structure as the rows before it left it, and keeps it. -/
theorem parseLines_value {lines : List (List UInt8)}
    (h : parseLines p fields userBufLen lineIdx lines out = some (true, out')) :
    (∀ l j, l < lineIdx → out'.value l j = out.value l j) ∧
      ∀ k row, lines[k]? = some row → ∃ before after : Outputs,
        (∀ j, before.value (lineIdx + k) j = out.value (lineIdx + k) j) ∧
        (∀ j, out'.value (lineIdx + k) j = after.value (lineIdx + k) j) ∧
        parseFields p fields userBufLen row (lineIdx + k) 0 fields none true before =
          some (true, after) := by
  induction lines generalizing lineIdx out with
  | nil =>
    cases h
    exact ⟨fun l j _ => rfl, fun k row hk => by cases hk⟩
  | cons line lines ih =>
    rw [parseLines] at h
    split at h
    · next out₁ hline =>
      obtain ⟨hother, hown⟩ := ih h
      have hframe := (parseFields_value hline).1
      refine ⟨fun l j hl => ?_, fun k row hk => ?_⟩
      · rw [hother l j (by omega), hframe l j (by omega)]
      · cases k with
        | zero =>
          cases hk
          exact ⟨out, out₁, fun j => rfl, fun j => hother _ j (Nat.lt_succ_self _), hline⟩
        | succ k =>
          obtain ⟨before, after, hbefore, hafter, hparse⟩ := hown k row hk
          rw [show lineIdx + (k + 1) = lineIdx + 1 + k by omega]
          exact ⟨before, after, fun j => (hbefore j).trans (hframe _ j (by omega)), hafter, hparse⟩
    · next hne => exact absurd h (hne out')

end Steps

end Dwpal.Parse
