import Dwpal.Parse.ArrayStores
import Dwpal.Parse.NamedRow

/-! The buffer for the string of values that `fieldValuesGet` fills, one occurrence of a field
behind the other: exactly when it stays inside this buffer. -/

namespace Dwpal.Parse

open CText Stores

/-- The stores that remove the blanks at the end of `stringOfValues`, from the last byte on. -/
def trimStores (values : List UInt8) : List (Store UInt8) :=
  (List.range ((values.drop 1).reverse.takeWhile (· == blank)).length).map fun i =>
    ⟨values.length - 1 - i, [0]⟩

/-- The stores to `stringOfValues` for the next `fuel` occurrences of a field, and behind the last
one. `values` are the bytes in front of `idx`. -/
def valueStores (t : Target) (isArray : Bool) (needle : List UInt8) (names : List (List UInt8)) :
    (fuel : Nat) → (isFirst : Bool) → (rest values : List UInt8) → List (Store UInt8)
  | 0, _, _, _ => []
  | fuel + 1, isFirst, rest, values =>
    match strstr needle rest with
    | none => trimStores values
    | some (_, rest) =>
      let (isFirst, numOfCharacters) := valueSearch names isFirst rest
      if hostapdToDwpalValueStringLength ≤ numOfCharacters then []
      else
        let numOfCharactersToCopy := copiedLength isArray (rest.take (numOfCharacters - 1))
        -- the size of the whole buffer is passed, wherever the copy begins
        (strncpyStores t hostapdToDwpalValueStringLength rest numOfCharactersToCopy).2.map
            (Store.shift values.length) ++
          ⟨values.length + numOfCharactersToCopy, [0]⟩ ::
          valueStores t isArray needle names fuel isFirst rest
            (values ++ (rest ++ [0]).take numOfCharactersToCopy)

/-- The stores of `fieldValuesGet` to `stringOfValues`, for the first `fuel` occurrences of a
field. -/
def fieldValuesStores (t : Target) (line : List UInt8) (type : FieldType) (name : List UInt8)
    (names : List (List UInt8)) (fuel : Nat) : List (Store UInt8) :=
  valueStores t type.isArray (sprintfS dwpalFieldNameLength (blank :: name)) names fuel true
    (blank :: line) []

/-- However many occurrences of the field there are, the stores stay inside the buffer and leave a
zero in it. The caller has cleared it. -/
structure BufferKept (t : Target) (line : List UInt8) (type : FieldType) (name : List UInt8)
    (names : List (List UInt8)) : Prop where
  inside : ∀ fuel a, Touches (fieldValuesStores t line type name names fuel) a →
    a < hostapdToDwpalValueStringLength
  terminated : ∀ fuel, ∃ a < hostapdToDwpalValueStringLength,
    runAll (fieldValuesStores t line type name names fuel) (fun _ => 0) a = 0

section Loop

variable {t : Target} {isArray isFirst : Bool} {needle rest values : List UInt8}
  {names : List (List UInt8)} {fuel a n : Nat} {m : Memory UInt8}

theorem trimStores_inside (h : Touches (trimStores values) a) : a < values.length := by
  obtain ⟨s, hs, hcovers⟩ := h
  obtain ⟨i, hi, rfl⟩ := List.mem_map.mp hs
  have hle := (List.takeWhile_prefix (· == blank) (l := (values.drop 1).reverse)).length_le
  have hlt := List.mem_range.mp hi
  rw [List.length_reverse, List.length_drop] at hle
  simp only [Store.Covers, List.length_singleton] at hcovers
  omega

/-- The stores for one occurrence are inside the buffer if it is the first one or nothing is
cleared, and if its part fits. -/
theorem copyStores_inside (hn : n < hostapdToDwpalValueStringLength) (hlen : n ≤ rest.length + 1) :
    (∀ a, Touches ((strncpyStores t hostapdToDwpalValueStringLength rest n).2.map
        (Store.shift values.length) ++ [⟨values.length + n, [0]⟩]) a →
      a < hostapdToDwpalValueStringLength) ↔
    if t.nullSlack then values.length = 0
    else values.length + n < hostapdToDwpalValueStringLength := by
  have htake : (rest.take n).length < hostapdToDwpalValueStringLength := by
    rw [List.length_take]
    omega
  have htouches : ∀ a, Touches ((strncpyStores t hostapdToDwpalValueStringLength rest n).2.map
        (Store.shift values.length) ++ [⟨values.length + n, [0]⟩]) a ↔
      values.length ≤ a ∧ (a < values.length + if t.nullSlack then hostapdToDwpalValueStringLength
        else (rest.take n).length + 1) ∨ a = values.length + n := by
    intro a
    rw [touches_append, touches_shift, touches_strncpyStores htake]
    simp only [touches_cons, not_touches_nil, or_false, Store.Covers, List.length_singleton]
    omega
  simp only [htouches, List.length_take]
  split_ifs
  · constructor
    · intro h
      have hlast := h (values.length + (hostapdToDwpalValueStringLength - 1)) (.inl (by omega))
      omega
    · rintro hempty a (h | h) <;> omega
  · constructor
    · intro h
      exact h _ (.inr rfl)
    · rintro hfits a (h | h) <;> omega

/-- The stores for the next occurrences are inside the buffer if and only if their parts fit behind
the bytes that are there. -/
theorem valueStores_inside (hvalues : values.length < hostapdToDwpalValueStringLength) :
    (∀ a, Touches (valueStores t isArray needle names fuel isFirst rest values) a →
      a < hostapdToDwpalValueStringLength) ↔
    PartsFit t.toPlatform values.length
      (copiedParts isArray names isFirst (textsBehind needle fuel rest)) := by
  induction fuel generalizing isFirst rest values with
  | zero => exact iff_of_true (fun a h => absurd h not_touches_nil) (partsFit_nil hvalues)
  | succ fuel ih =>
    rw [valueStores, textsBehind]
    cases strstr needle rest with
    | none =>
      exact iff_of_true (fun a h => Nat.lt_trans (trimStores_inside h) hvalues)
        (partsFit_nil hvalues)
    | some found =>
      obtain ⟨-, rest⟩ := found
      dsimp only
      rw [copiedParts]
      dsimp only
      by_cases hlong : hostapdToDwpalValueStringLength ≤ (valueSearch names isFirst rest).2
      · rw [if_pos hlong, if_pos hlong]
        exact iff_of_true (fun a h => absurd h not_touches_nil) (partsFit_nil hvalues)
      rw [if_neg hlong, if_neg hlong]
      have hn := @copiedLength_le isArray (rest.take ((valueSearch names isFirst rest).2 - 1))
      have hpos : 0 < copiedLength isArray (rest.take ((valueSearch names isFirst rest).2 - 1)) :=
        Nat.succ_pos _
      generalize copiedLength isArray (rest.take ((valueSearch names isFirst rest).2 - 1)) = n
        at hn hpos ⊢
      rw [List.length_take] at hn
      have hbuffer : 1 < hostapdToDwpalValueStringLength := by decide
      have hlen : (values ++ (rest ++ [0]).take n).length = values.length + n := by
        rw [List.length_append, List.length_take, List.length_append, List.length_singleton]
        omega
      have hsplit := @copyStores_inside t rest values n (by omega) (by omega)
      rw [List.append_cons]
      simp only [@touches_append _ (_ ++ _), or_imp, forall_and]
      rw [hsplit, partsFit_cons hpos]
      by_cases hfits : values.length + n < hostapdToDwpalValueStringLength
      · rw [ih (by omega), hlen]
      · have hnot : ¬if t.nullSlack then values.length = 0
            else values.length + n < hostapdToDwpalValueStringLength := by
          split_ifs
          · omega
          · exact hfits
        exact iff_of_false (fun h => hnot h.1) fun h => hnot h.1

/-- As long as the stores are inside the buffer, there is a zero behind the bytes that are there. -/
theorem valueStores_terminated (hvalues : values.length < hostapdToDwpalValueStringLength)
    (hzero : m values.length = 0)
    (h : ∀ a, Touches (valueStores t isArray needle names fuel isFirst rest values) a →
      a < hostapdToDwpalValueStringLength) :
    ∃ a < hostapdToDwpalValueStringLength,
      runAll (valueStores t isArray needle names fuel isFirst rest values) m a = 0 := by
  induction fuel generalizing isFirst rest values m with
  | zero => exact ⟨values.length, hvalues, hzero⟩
  | succ fuel ih =>
    rw [valueStores] at h ⊢
    cases hfound : strstr needle rest with
    | none =>
      rw [hfound] at h
      refine ⟨values.length, hvalues, ?_⟩
      rw [runAll_of_not_touches fun htouches => Nat.lt_irrefl _ (trimStores_inside htouches)]
      exact hzero
    | some found =>
      obtain ⟨before, rest⟩ := found
      rw [hfound] at h
      dsimp only at h ⊢
      by_cases hlong : hostapdToDwpalValueStringLength ≤ (valueSearch names isFirst rest).2
      · rw [if_pos hlong]
        exact ⟨values.length, hvalues, hzero⟩
      rw [if_neg hlong] at h ⊢
      have hn := @copiedLength_le isArray (rest.take ((valueSearch names isFirst rest).2 - 1))
      generalize copiedLength isArray (rest.take ((valueSearch names isFirst rest).2 - 1)) = n
        at hn h ⊢
      rw [List.length_take] at hn
      have hlen : (values ++ (rest ++ [0]).take n).length = values.length + n := by
        rw [List.length_append, List.length_take, List.length_append, List.length_singleton]
        omega
      rw [List.append_cons] at h ⊢
      have hend := h (values.length + n) (touches_append.mpr (.inl (touches_append.mpr (.inr
        (touches_cons.mpr (.inl ⟨Nat.le_refl _, Nat.lt_succ_self _⟩))))))
      rw [runAll_append]
      refine ih (by omega) ?_ fun a htouches => h a (touches_append.mpr (.inr htouches))
      rw [hlen, runAll_append]
      exact Store.run_of_covers (k := 0) rfl

end Loop

section Buffer

variable {t : Target} {line name : List UInt8} {type : FieldType} {names : List (List UInt8)}

/-- The stores of `fieldValuesGet` stay inside the buffer, and leave a terminator, if and only if
the parts of however many occurrences fit into it. -/
theorem valueBuffer_kept : BufferKept t line type name names ↔
    ∀ fuel, PartsFit t.toPlatform 0 (copiedParts type.isArray names true
      (textsBehind (sprintfS dwpalFieldNameLength (blank :: name)) fuel (blank :: line))) := by
  have hempty : ([] : List UInt8).length < hostapdToDwpalValueStringLength := by decide
  constructor
  · intro h fuel
    exact (valueStores_inside hempty).mp (h.inside fuel)
  · intro h
    have hinside := fun fuel => (valueStores_inside hempty).mpr (h fuel)
    exact ⟨hinside, fun fuel => valueStores_terminated hempty rfl (hinside fuel)⟩

end Buffer

section Refines

variable {t : Target} {isArray isFirst found : Bool} {needle rest values values' : List UInt8}
  {names : List (List UInt8)} {fuel last n : Nat} {m : Memory UInt8}

/-- The buffer has the bytes in front of `idx`, and a zero behind them. -/
def HoldsValues (m : Memory UInt8) (values : List UInt8) : Prop :=
  bytesAt m 0 values.length = values ∧ m values.length = 0

/-- A part is copied behind the bytes that are there. -/
theorem copyStores_holds (hslack : t.nullSlack = false) (hn : n ≤ rest.length + 1)
    (hlt : n < hostapdToDwpalValueStringLength) (h : HoldsValues m values) :
    HoldsValues (runAll ((strncpyStores t hostapdToDwpalValueStringLength rest n).2.map
      (Store.shift values.length) ++ [⟨values.length + n, [0]⟩]) m)
      (values ++ (rest ++ [0]).take n) := by
  have hfits : (rest.take n).length < hostapdToDwpalValueStringLength := by
    rw [List.length_take]
    omega
  have hcopied : (strncpyStores t hostapdToDwpalValueStringLength rest n).2 =
      [⟨0, rest.take n ++ [0]⟩] := by
    rw [strncpyStores]
    dsimp only
    rw [if_neg (by decide), if_pos hfits, hslack, if_neg Bool.false_ne_true]
    rfl
  have hlen : ((rest ++ [0]).take n).length = n := by
    rw [List.length_take, List.length_append, List.length_singleton]
    omega
  have hvalues := bytesAt_eq_iff.mp h.1
  rw [hcopied, runAll_append]
  constructor
  · refine bytesAt_eq_iff.mpr fun k b hb => ?_
    rw [Nat.zero_add]
    have hk := (List.getElem?_eq_some_iff.mp hb).1
    rw [List.length_append, hlen] at hk
    rw [runAll_of_not_touches (by simp [Store.Covers]; omega)]
    by_cases hfront : k < values.length
    · rw [List.getElem?_append_left hfront] at hb
      have hkeep := hvalues k b hb
      rw [Nat.zero_add] at hkeep
      rw [runAll_of_not_touches fun h => absurd (touches_shift.mp h).1 (by omega), hkeep]
    · obtain ⟨j, rfl⟩ := Nat.exists_eq_add_of_le (Nat.le_of_not_lt hfront)
      rw [List.getElem?_append_right (Nat.le_add_right ..), Nat.add_sub_cancel_left,
        List.getElem?_take_of_lt (by omega)] at hb
      have hsame : (rest.take n ++ [0])[j]? = (rest ++ [0])[j]? := by
        by_cases hinside : n ≤ rest.length
        · rw [List.getElem?_append_left (by rw [List.length_take]; omega),
            List.getElem?_append_left (by omega), List.getElem?_take_of_lt (by omega)]
        · rw [List.take_of_length_le (by omega)]
      rw [runAll_shift, ← Nat.zero_add j, runAll_cons, runAll_nil]
      exact @Store.run_of_covers _ ⟨0, rest.take n ++ [0]⟩ _ j b (hsame.trans hb)
  · rw [List.length_append, hlen]
    exact @Store.run_of_covers _ ⟨values.length + n, [0]⟩ _ 0 0 rfl

/-- The blanks at the end of the bytes are overwritten by zeros. -/
theorem trimStores_holds (h : HoldsValues m values) :
    HoldsValues (runAll (trimStores values) m) (removeBlanks values) := by
  have hsplit := congrArg List.length (List.takeWhile_append_dropWhile
    (p := (· == blank)) (l := (values.drop 1).reverse))
  rw [List.length_append, List.length_reverse, List.length_drop] at hsplit
  have hlen : (removeBlanks values).length =
      min 1 values.length + ((values.drop 1).reverse.dropWhile (· == blank)).length := by
    rw [removeBlanks, List.length_append, List.length_take, List.rdropWhile, List.length_reverse]
  have hprefix : removeBlanks values <+: values := by
    conv_rhs => rw [← List.take_append_drop 1 values]
    exact (List.prefix_append_right_inj _).mpr (List.rdropWhile_prefix _ _)
  have htouches : ∀ a, Touches (trimStores values) a ↔
      (removeBlanks values).length ≤ a ∧ a < values.length := by
    intro a
    simp only [trimStores, Touches, List.mem_map, List.mem_range, Store.Covers]
    constructor
    · rintro ⟨s, ⟨i, hi, rfl⟩, hcovers⟩
      simp only [List.length_singleton] at hcovers
      omega
    · rintro ⟨hlow, hhigh⟩
      refine ⟨_, ⟨values.length - 1 - a, by omega, rfl⟩, ?_⟩
      simp only [List.length_singleton]
      omega
  have hzeros : ∀ s ∈ trimStores values, s.bytes = [0] := by
    intro s hs
    obtain ⟨i, -, rfl⟩ := List.mem_map.mp hs
    rfl
  constructor
  · refine bytesAt_eq_iff.mpr fun k b hb => ?_
    have hk := (List.getElem?_eq_some_iff.mp hb).1
    rw [Nat.zero_add, runAll_of_not_touches fun htouch => by
      have hle := ((htouches k).mp htouch).1
      omega]
    obtain ⟨tail, htail⟩ := hprefix
    have hkeep := bytesAt_eq_iff.mp h.1 k b (by rwa [← htail, List.getElem?_append_left hk])
    rwa [Nat.zero_add] at hkeep
  · by_cases hblank : (removeBlanks values).length = values.length
    · rw [runAll_of_not_touches fun htouch => by
        have hlt := ((htouches _).mp htouch).2
        omega, hblank]
      exact h.2
    · have hle := hprefix.length_le
      have htouch := (htouches (removeBlanks values).length).mpr ⟨Nat.le_refl _, by omega⟩
      have hcongr : runAll (trimStores values) m (removeBlanks values).length =
          runAll (trimStores values) (fun _ => 0) (removeBlanks values).length :=
            runAll_congr htouch
      rw [hcongr]
      refine runAll_const (fun s hs hcovers => ?_) rfl
      have hlow := hcovers.1
      have hhigh := hcovers.2
      rw [hzeros s hs] at hhigh ⊢
      rw [List.length_singleton] at hhigh
      rw [show (removeBlanks values).length - s.address = 0 by omega]
      rfl

/-- What the loop copies is in the buffer when it has come to its end. -/
theorem valueStores_holds (hslack : t.nullSlack = false) (h : HoldsValues m values)
    (hloop : valueLoop t.toPlatform (fun _ => copiedLength isArray) needle names fuel isFirst found
      last rest values = some (true, values')) :
    HoldsValues (runAll (valueStores t isArray needle names fuel isFirst rest values) m)
      (removeBlanks values') := by
  induction fuel generalizing isFirst found last rest values m with
  | zero => cases hloop
  | succ fuel ih =>
    rw [valueLoop] at hloop
    rw [valueStores]
    cases hfound : strstr needle rest with
    | none =>
      rw [hfound] at hloop
      cases hloop
      exact trimStores_holds h
    | some result =>
      obtain ⟨before, rest⟩ := result
      rw [hfound] at hloop
      dsimp only at hloop ⊢
      by_cases hlong : hostapdToDwpalValueStringLength ≤ (valueSearch names isFirst rest).2
      · rw [if_pos hlong] at hloop
        cases hloop
      rw [if_neg hlong] at hloop ⊢
      split_ifs at hloop with hover
      have hn := @copiedLength_le isArray (rest.take ((valueSearch names isFirst rest).2 - 1))
      rw [List.length_take] at hn
      have hbuffer : 1 < hostapdToDwpalValueStringLength := by decide
      rw [List.append_cons, runAll_append]
      exact ih (copyStores_holds hslack (by omega) (by omega) h) hloop

/-- The string that is in the buffer ends with the first zero. -/
theorem HoldsValues.cstr (h : HoldsValues m values) : HoldsValues m (cstr values) := by
  by_cases hzero : (0 : UInt8) ∈ values
  · obtain ⟨before, rest, rfl, hbefore⟩ := List.eq_append_cons_of_mem hzero
    have hvalues := bytesAt_eq_iff.mp h.1
    rw [cstr_append_zero hbefore]
    constructor
    · refine bytesAt_eq_iff.mpr fun k b hb => hvalues k b ?_
      rw [List.getElem?_append_left (List.getElem?_eq_some_iff.mp hb).1, hb]
    · have hread := hvalues before.length 0 (by simp)
      rwa [Nat.zero_add] at hread
  · rwa [cstr_of_notMem hzero]

/-- The buffer has the string of values when the field was found, unless the library clears the rest
of the buffer behind each copy. -/
theorem fieldValuesGet_stores {line name text : List UInt8} {type : FieldType}
    (hslack : t.nullSlack = false)
    (hget : fieldValuesGet t.toPlatform line type name names = some (true, text)) :
    HoldsValues (runAll (fieldValuesStores t line type name names (line.length + 2)) fun _ => 0)
      text := by
  obtain ⟨⟨found, values⟩, hloop, hresult⟩ := Option.map_eq_some_iff.mp hget
  obtain ⟨rfl, rfl⟩ := Prod.mk.inj hresult
  have hempty : HoldsValues (fun _ => 0) [] := ⟨rfl, rfl⟩
  exact (valueStores_holds hslack hempty hloop).cstr

end Refines

section Twice

variable {name rest first second : List UInt8} {names : List (List UInt8)} {isFirst : Bool}

/-- Two values of a field are copied with a byte behind each. -/
theorem copiedParts_twice (hname : IsName name) (hnames : NamesFit [name])
    (hfirst : blank ∉ first ∧ equals ∉ first) (hsecond : blank ∉ second ∧ equals ∉ second)
    (hshort : first.length + 1 < hostapdToDwpalValueStringLength)
    (hshort' : second.length + 1 < hostapdToDwpalValueStringLength) :
    copiedParts false [name] true
        (textsBehind (blank :: name) 2 (namedRow [] [(name, first), (name, second)])) =
      [first.length + 1, second.length + 1] := by
  have hnamed : WellNamed [(name, second)] := ⟨by simpa using hname, by simpa using hsecond⟩
  have hcall : strstr (blank :: name) (namedRow [] [(name, first), (name, second)]) =
      some ([], namedRow first [(name, second)]) := by
    rw [namedRow_cons, List.nil_append, strstr, if_pos, ← List.cons_append, List.drop_left]
    exact List.isPrefixOf_iff_prefix.mpr (List.prefix_append (blank :: name) _)
  have hcall' : strstr (blank :: name) (namedRow first [(name, second)]) =
      some (first, second) := by
    have h := @strstr_namedRow first name second [] [] hnamed hfirst.2 (List.nodup_singleton _)
    rwa [List.nil_append, namedRow_nil, namedRow_nil] at h
  have hend : endOfValue [name] (namedRow first [(name, second)]) = first.length :=
    endOfValue_namedRow hnamed hfirst.2 (by simpa using hname) (by simp)
  have hoffsets : (nameOffsets [name] (namedRow first [(name, second)])).isEmpty = false := by
    rw [List.isEmpty_eq_false_iff]
    exact List.ne_nil_of_mem (mem_nameOffsets List.mem_cons_self hcall')
  have htake : (namedRow first [(name, second)]).take first.length = first := take_namedRow
  rw [textsBehind, hcall]
  dsimp only
  rw [textsBehind, hcall']
  dsimp only
  rw [textsBehind, copiedParts, valueSearch_eq hnames (by rwa [valueEnd_true, hend]), hoffsets]
  dsimp only
  rw [valueEnd_true, hend, if_neg (by omega), Nat.add_sub_cancel, htake,
    copiedLength_scalar hfirst.1,
    copiedParts, valueSearch_eq hnames (by rwa [Bool.and_false, valueEnd_false])]
  dsimp only
  rw [Bool.and_false, valueEnd_false, if_neg (by omega), Nat.add_sub_cancel, List.take_length,
    copiedLength_scalar hsecond.1]
  rfl

end Twice

/-- A row with two values of 3000 bytes of one field. -/
def repeatedField : List UInt8 :=
  ascii "a=" ++ List.replicate 3000 120 ++ ascii " a=" ++ List.replicate 3000 121

/-- The second copy of a field that is there twice begins at byte 3001 of the buffer. -/
theorem repeatedField_overruns :
    ¬BufferKept target64 repeatedField .str (ascii "a=") [ascii "a="] := by
  intro h
  have hfits : PartsFit target64.toPlatform 0 (copiedParts false [ascii "a="] true
      (textsBehind (ascii " a=") 2 (blank :: repeatedField))) :=
    (valueStores_inside (by decide)).mp (h.inside 2)
  have hname : IsName (ascii "a=") := ⟨ascii "a", by decide⟩
  have hnames : NamesFit [ascii "a="] := by
    simp only [NamesFit, List.forall_mem_singleton]
    decide
  have hplain : ∀ b : UInt8, b ≠ blank → b ≠ equals →
      blank ∉ List.replicate 3000 b ∧ equals ∉ List.replicate 3000 b := fun b hblank hequals =>
    ⟨fun h => hblank (List.eq_of_mem_replicate h).symm,
      fun h => hequals (List.eq_of_mem_replicate h).symm⟩
  have hrow : blank :: repeatedField = namedRow [] [(ascii "a=", List.replicate 3000 120),
      (ascii "a=", List.replicate 3000 121)] := by
    rw [repeatedField, namedRow_cons, namedRow_cons, namedRow_nil, List.nil_append,
      List.append_assoc, List.append_assoc]
    rfl
  have hparts := copiedParts_twice hname hnames (hplain 120 (by decide) (by decide))
    (hplain 121 (by decide) (by decide)) (by rw [List.length_replicate]; decide)
    (by rw [List.length_replicate]; decide)
  rw [hrow] at hfits
  rw [show ascii " a=" = blank :: ascii "a=" from rfl, hparts, List.length_replicate,
    List.length_replicate, PartsFit, if_neg (by decide)] at hfits
  exact absurd hfits (by decide)

end Dwpal.Parse
