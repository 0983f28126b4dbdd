import Dwpal.Parse.Response
import Mathlib.Data.List.Nodup

/-! A row of named values: where its names are found, and what `fieldValuesGet` makes of a value
that is no array. -/

namespace Dwpal.Parse

open CText

/-- A name with the equals sign that ends it, and a value. -/
abbrev NamedValue := List UInt8 × List UInt8

/-- A text, and named values, each behind a blank. -/
def namedRow (head : List UInt8) (pairs : List NamedValue) : List UInt8 :=
  head ++ pairs.flatMap fun pair => blank :: (pair.1 ++ pair.2)

/-- A name without blanks that is ended by its only equals sign. -/
def IsName (name : List UInt8) : Prop :=
  ∃ word, name = word ++ [equals] ∧ blank ∉ word ∧ equals ∉ word

/-- Names are names, and values have neither blanks nor equals signs. -/
structure WellNamed (pairs : List NamedValue) : Prop where
  name : ∀ pair ∈ pairs, IsName pair.1
  value : ∀ pair ∈ pairs, blank ∉ pair.2 ∧ equals ∉ pair.2

section Split

variable {α : Type*} {a a' b b' : List α} {c : α}

/-- The first `c` of a text. -/
theorem append_cons_inj (ha : c ∉ a) (ha' : c ∉ a') (h : a ++ c :: b = a' ++ c :: b') :
    a = a' ∧ b = b' := by
  induction a generalizing a' with
  | nil =>
    cases a' with
    | nil => exact ⟨rfl, (List.cons.inj h).2⟩
    | cons d a' => exact absurd ((List.cons.inj h).1 ▸ List.mem_cons_self) ha'
  | cons d a ih =>
    cases a' with
    | nil => exact absurd ((List.cons.inj h).1 ▸ List.mem_cons_self) ha
    | cons d' a' =>
      obtain ⟨hd, htail⟩ := List.cons.inj h
      obtain ⟨heq, hrest⟩ := ih (fun hmem => ha (List.mem_cons_of_mem _ hmem))
        (fun hmem => ha' (List.mem_cons_of_mem _ hmem)) htail
      exact ⟨by rw [hd, heq], hrest⟩

/-- The last `c` of a text. -/
theorem append_cons_inj_right (hb : c ∉ b) (hb' : c ∉ b') (h : a ++ c :: b = a' ++ c :: b') :
    a = a' ∧ b = b' := by
  have hreverse := congrArg List.reverse h
  rw [List.reverse_append, List.reverse_cons, List.append_assoc, List.reverse_append,
    List.reverse_cons, List.append_assoc] at hreverse
  obtain ⟨hends, hbeginnings⟩ := append_cons_inj (by simpa using hb) (by simpa using hb') hreverse
  exact ⟨by simpa using hbeginnings, List.reverse_injective hends⟩

/-- A `c` of a text is the first one, or comes behind it. -/
theorem append_cons_cases (ha : c ∉ a) (h : a ++ c :: b = a' ++ c :: b') :
    a = a' ∧ b = b' ∨ ∃ d, a' = a ++ c :: d ∧ b = d ++ c :: b' := by
  rcases List.append_eq_append_iff.mp h with ⟨d, hd, htail⟩ | ⟨d, hd, htail⟩
  · cases d with
    | nil => exact .inl ⟨by simpa using hd.symm, by simpa using htail⟩
    | cons e d =>
      obtain ⟨rfl, hrest⟩ := List.cons.inj htail
      exact .inr ⟨d, hd, hrest⟩
  · cases d with
    | nil => exact .inl ⟨by simpa using hd, by simpa using htail.symm⟩
    | cons e d =>
      obtain ⟨rfl, -⟩ := List.cons.inj htail
      exact absurd (hd ▸ List.mem_append_right a' List.mem_cons_self) ha

end Split

section Row

variable {head name value before behind : List UInt8} {pairs pairs' : List NamedValue}

@[simp] theorem namedRow_nil : namedRow head [] = head := List.append_nil head

theorem namedRow_cons :
    namedRow head ((name, value) :: pairs) = head ++ blank :: (name ++ namedRow value pairs) := by
  simp [namedRow]

theorem namedRow_append :
    namedRow head (pairs ++ pairs') = namedRow (namedRow head pairs) pairs' := by
  simp [namedRow]

/-- A name with a blank in front of it occurs only where it names a value. -/
theorem namedRow_occurrence (hnamed : WellNamed pairs) (hhead : equals ∉ head) (hname : IsName name)
    (h : namedRow head pairs = before ++ (blank :: name) ++ behind) :
    ∃ pairs₁ value pairs₂, pairs = pairs₁ ++ (name, value) :: pairs₂ ∧
      before = namedRow head pairs₁ ∧ behind = namedRow value pairs₂ := by
  obtain ⟨word, rfl, hblank, hequals⟩ := hname
  induction pairs generalizing head before with
  | nil =>
    rw [namedRow_nil] at h
    rw [h] at hhead
    exact absurd (by simp) hhead
  | cons pair pairs ih =>
    obtain ⟨first, value⟩ := pair
    obtain ⟨word', rfl, hblank', hequals'⟩ := hnamed.name _ List.mem_cons_self
    have hvalue := hnamed.value _ List.mem_cons_self
    have hrest : WellNamed pairs :=
      ⟨fun pair hpair => hnamed.name pair (List.mem_cons_of_mem _ hpair),
      fun pair hpair => hnamed.value pair (List.mem_cons_of_mem _ hpair)⟩
    rw [namedRow_cons] at h
    have hsplit : (head ++ blank :: word') ++ equals :: namedRow value pairs =
        (before ++ blank :: word) ++ equals :: behind := by
      simpa using h
    have hfirst : equals ∉ head ++ blank :: word' := by
      simp only [List.mem_append, List.mem_cons, not_or]
      exact ⟨hhead, by decide, hequals'⟩
    rcases append_cons_cases hfirst hsplit with ⟨hsame, hbehind⟩ | ⟨d, hd, hbehind⟩
    · obtain ⟨rfl, rfl⟩ := append_cons_inj_right hblank' hblank hsame
      exact ⟨[], value, pairs, rfl, by simp, hbehind.symm⟩
    · -- the blank of the name found lies behind the first equals sign
      obtain ⟨d', rfl, hbefore⟩ : ∃ d', d = d' ++ blank :: word ∧
          before = head ++ blank :: (word' ++ equals :: d') := by
        have hd : before ++ blank :: word = (head ++ blank :: (word' ++ [equals])) ++ d := by
          simpa using hd
        rcases List.append_eq_append_iff.mp hd with ⟨e, he, hword⟩ | ⟨e, he, hrest⟩
        · cases e using List.reverseRecOn with
          | nil => exact ⟨[], by simpa using hword.symm, by simpa using he.symm⟩
          | append_singleton e b =>
            have hb : equals = b := by
              have he : (head ++ blank :: word') ++ [equals] = (before ++ e) ++ [b] := by
                simpa using he
              exact List.singleton_inj.mp (List.append_inj' he rfl).2
            have hmem : equals ∈ blank :: word := by
              rw [hword, hb]
              simp
            rcases List.mem_cons.mp hmem with heq | hmem
            · exact absurd heq (by decide)
            · exact absurd hmem hequals
        · exact ⟨e, hrest, by simpa using he⟩
      obtain ⟨pairs₁, value', pairs₂, rfl, hd', hrest'⟩ :=
        ih hrest hvalue.2 (by simpa using hbehind)
      refine ⟨(word' ++ [equals], value) :: pairs₁, value', pairs₂, rfl, ?_, hrest'⟩
      rw [hbefore, namedRow_cons, hd']
      simp

theorem namedRow_split :
    namedRow head (pairs ++ (name, value) :: pairs') =
      namedRow head pairs ++ (blank :: name) ++ namedRow value pairs' := by
  rw [namedRow_append, namedRow_cons]
  simp

/-- The occurrence of a name that names one value. -/
theorem strstr_namedRow (hnamed : WellNamed (pairs ++ (name, value) :: pairs'))
    (hhead : equals ∉ head) (hnodup : ((pairs ++ (name, value) :: pairs').map Prod.fst).Nodup) :
    strstr (blank :: name) (namedRow head (pairs ++ (name, value) :: pairs')) =
      some (namedRow head pairs, namedRow value pairs') := by
  have hname : IsName name := hnamed.name (name, value) (by simp)
  rw [namedRow_split]
  refine strstr_of_first fun before behind hother => ?_
  rw [← namedRow_split] at hother
  obtain ⟨pairs₁, value', pairs₂, hpairs, hbefore, -⟩ :=
    namedRow_occurrence hnamed hhead hname hother
  have hnames := congrArg (List.map Prod.fst) hpairs
  have hnodup' := hnodup
  rw [hpairs] at hnodup'
  rw [List.map_append, List.map_cons, List.map_append, List.map_cons] at hnames
  rw [List.map_append, List.map_cons] at hnodup hnodup'
  have hnot := (List.nodup_cons.mp (List.nodup_middle.mp hnodup)).1
  have hnot' := (List.nodup_cons.mp (List.nodup_middle.mp hnodup')).1
  have hsame := (append_cons_inj (fun h => hnot (List.mem_append_left _ h))
    (fun h => hnot' (List.mem_append_left _ h)) hnames).1
  have hlength : pairs.length = pairs₁.length := by simpa using congrArg List.length hsame
  rw [hbefore, (List.append_inj hpairs hlength).1]

theorem strstr_namedRow_none (hnamed : WellNamed pairs) (hhead : equals ∉ head)
    (hname : IsName name)
    (hnot : name ∉ pairs.map Prod.fst) : strstr (blank :: name) (namedRow head pairs) = none := by
  by_contra hsome
  obtain ⟨⟨before, behind⟩, hfound⟩ := Option.ne_none_iff_exists'.mp hsome
  obtain ⟨pairs₁, value, pairs₂, rfl, -, -⟩ :=
    namedRow_occurrence hnamed hhead hname (strstr_eq hfound)
  exact hnot (by simp)

/-- The value in front of a row of named values ends where it should. -/
theorem endOfValue_namedRow {names : List (List UInt8)} (hnamed : WellNamed pairs)
    (hvalue : equals ∉ value) (hnames : ∀ name ∈ names, IsName name)
    (hknown : ∀ pair ∈ pairs, pair.1 ∈ names) :
    endOfValue names (namedRow value pairs) = value.length := by
  have hlength : ∀ pairs, value.length ≤ (namedRow value pairs).length := fun pairs => by
    rw [namedRow, List.length_append]
    exact Nat.le_add_right _ _
  refine Nat.le_antisymm ?_ ?_
  · cases pairs with
    | nil => exact endOfValue_le.trans (by rw [namedRow_nil])
    | cons pair pairs =>
      obtain ⟨first, value'⟩ := pair
      have hsplit := @namedRow_split value first value' [] pairs
      rw [List.nil_append, namedRow_nil] at hsplit
      have hthere := @strstr_isSome (blank :: first) value (namedRow value' pairs)
      rw [← hsplit] at hthere
      obtain ⟨⟨before, behind⟩, hfound⟩ := Option.isSome_iff_exists.mp hthere
      exact (endOfValue_le_of_mem (hknown _ List.mem_cons_self) hfound).trans
        (strstr_first hfound hsplit)
  · rcases foldl_min_mem (namedRow value pairs).length
      (nameOffsets names (namedRow value pairs)) with
      hall | hmem
    · exact (hlength pairs).trans (Nat.le_of_eq hall.symm)
    · obtain ⟨name, hname, before, behind, hfound, hoffset⟩ := of_mem_nameOffsets hmem
      obtain ⟨pairs₁, value', pairs₂, -, rfl, -⟩ :=
        namedRow_occurrence hnamed hvalue (hnames name hname) (strstr_eq hfound)
      exact (hlength pairs₁).trans (Nat.le_of_eq hoffset)

end Row

section Values

variable {head name value : List UInt8} {names : List (List UInt8)} {pairs pairs' : List NamedValue}
  {type : FieldType}

theorem take_namedRow : (namedRow value pairs).take value.length = value := by
  rw [namedRow, List.take_left]

theorem copiedLength_scalar (h : blank ∉ value) : copiedLength false value = value.length + 1 := by
  rw [copiedLength, if_neg Bool.false_ne_true, List.takeWhile_eq_self_iff.mpr]
  intro b hb
  simpa using fun heq : b = blank => h (heq ▸ hb)

/-- The byte behind a value is the end of the row or the blank in front of the next name. -/
theorem take_namedRow_succ : (namedRow value pairs ++ [0]).take (value.length + 1) =
    value ++ [if pairs = [] then 0 else blank] := by
  cases pairs with
  | nil => rw [namedRow_nil, List.take_of_length_le (by simp), if_pos rfl]
  | cons pair pairs =>
    obtain ⟨first, value'⟩ := pair
    rw [namedRow_cons, List.append_assoc, List.take_length_add_append,
      if_neg (List.cons_ne_nil _ _)]
    rfl

/-- What is left of a value when the blanks at its end are removed. -/
theorem cstr_removeBlanks_value (hblank : blank ∉ value) (hzero : 0 ∉ value) :
    cstr (removeBlanks (value ++ [if pairs = [] then 0 else blank])) =
      if value = [] ∧ pairs ≠ [] then [blank] else value := by
  by_cases hpairs : pairs = []
  · rw [if_pos hpairs, if_neg fun h => h.2 hpairs]
    cases value with
    | nil => rfl
    | cons b value =>
      change cstr (b :: (value ++ [0]).rdropWhile (· == blank)) = b :: value
      rw [List.rdropWhile_concat_neg _ _ _ (by decide)]
      exact cstr_append_zero hzero []
  · rw [if_neg hpairs]
    cases value with
    | nil =>
      rw [if_pos ⟨rfl, hpairs⟩]
      rfl
    | cons b value =>
      rw [if_neg fun h => List.cons_ne_nil _ _ h.1]
      change cstr (b :: (value ++ [blank]).rdropWhile (· == blank)) = b :: value
      rw [List.rdropWhile_concat_pos _ _ _ (by decide), List.rdropWhile_eq_self_iff.mpr]
      · exact cstr_of_notMem hzero
      · intro hne heq
        have hmem := List.getLast_mem hne
        rw [eq_of_beq heq] at hmem
        exact hblank (List.mem_cons_of_mem b hmem)

/-- The string that `fieldValuesGet` makes of the value of a name. -/
theorem fieldValuesGet_namedRow {p : Platform} (htype : type.isArray = false)
    (hfits : NamesFit names) (hlength : name.length + 1 < dwpalFieldNameLength)
    (hnamed : WellNamed (pairs ++ (name, value) :: pairs')) (hhead : equals ∉ head)
    (hnodup : ((pairs ++ (name, value) :: pairs').map Prod.fst).Nodup)
    (hnames : ∀ name ∈ names, IsName name)
    (hknown : ∀ pair ∈ pairs ++ (name, value) :: pairs', pair.1 ∈ names) (hzero : 0 ∉ value) :
    fieldValuesGet p (namedRow head (pairs ++ (name, value) :: pairs')) type name names =
      some (if hostapdToDwpalValueStringLength ≤ value.length + 1 then (false, [])
        else (true, if value = [] ∧ pairs' ≠ [] then [blank] else value)) := by
  have hneedle : sprintfS dwpalFieldNameLength (blank :: name) = blank :: name := if_pos hlength
  have hhead' : equals ∉ blank :: head := by
    rw [List.mem_cons, not_or]
    exact ⟨by decide, hhead⟩
  obtain ⟨hblank, hequals⟩ := hnamed.value (name, value) (by simp)
  have hname : IsName name := hnamed.name (name, value) (by simp)
  have hrest : WellNamed pairs' :=
    ⟨fun pair hpair => hnamed.name pair (by simp [hpair]),
      fun pair hpair => hnamed.value pair (by simp [hpair])⟩
  have hfound := strstr_namedRow hnamed hhead' hnodup
  have hend : endOfValue names (namedRow value pairs') = value.length :=
    endOfValue_namedRow hrest hequals hnames fun pair hpair => hknown pair (by simp [hpair])
  have hlast : strstr (blank :: name) (namedRow value pairs') = none := by
    refine strstr_namedRow_none hrest hequals hname fun hmem => ?_
    rw [List.map_append, List.map_cons] at hnodup
    exact (List.nodup_cons.mp (List.nodup_middle.mp hnodup)).1 (List.mem_append_right _ hmem)
  rw [fieldValuesGet, hneedle, htype]
  change (valueLoop _ _ _ names
    ((namedRow head (pairs ++ (name, value) :: pairs')).length + 1 + 1) true
    false 0 (namedRow (blank :: head) (pairs ++ (name, value) :: pairs')) []).map _ = _
  rw [valueLoop_found hfits hfound, valueEnd_true, hend]
  by_cases hlong : hostapdToDwpalValueStringLength ≤ value.length + 1
  · rw [if_pos hlong, if_pos hlong]
    rfl
  · rw [if_neg hlong, if_neg hlong]
    dsimp only
    rw [take_namedRow, copiedLength_scalar hblank, take_namedRow_succ, List.nil_append,
      if_neg (by simpa [overruns] using hlong), valueLoop, hlast]
    dsimp only [Option.map_some]
    rw [cstr_removeBlanks_value hblank hzero]

end Values

end Dwpal.Parse
