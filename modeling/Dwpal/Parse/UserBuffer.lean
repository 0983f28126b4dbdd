import Dwpal.Parse.RowSettings

/-! The stores of `dwpald_hostap_response_parse` to the buffer of the caller, row by row: exactly
when they stay inside the buffer, and each inside the structure of its row. -/

namespace Dwpal.Parse

open CText Stores

/-- The stores for the fields that a row sets, in the structure that begins at `base`. -/
def rowStores (t : Target) (offset : Nat → Nat) (base : Nat) (settings : List Setting) :
    List (Store UInt8) :=
  settings.flatMap fun s => (s.stores t).2.map (Store.shift (base + offset s.place))

/-- The fields that a row sets, and whether it is parsed. -/
def lineSettings (t : Target) (fields : List FieldToParse) (userBufLen : Nat) (line : List UInt8)
    (lineIdx : Nat) : Option Bool × List Setting :=
  rowSettings t (allNames fields) (decide (userBufLen ≤ lineIdx * sizeOfStruct fields)) line
    0 fields none true

/-- The stores for the rows from row `lineIdx` on, up to one that is not parsed. `offset` is the
place of each field in the buffer of the caller. -/
def linesStores (t : Target) (fields : List FieldToParse) (offset : Nat → Nat) (userBufLen : Nat) :
    (lineIdx : Nat) → List (List UInt8) → Option Bool × List (List (Store UInt8))
  | _, [] => (some true, [])
  | lineIdx, line :: lines =>
    let (ok, settings) := lineSettings t fields userBufLen line lineIdx
    let stores := rowStores t offset (lineIdx * sizeOfStruct fields) settings
    if ok = some true then
      let (ok, rows) := linesStores t fields offset userBufLen (lineIdx + 1) lines
      (ok, stores :: rows)
    else (ok, [stores])

/-- The stores of `cleanup_all_fields`. -/
def cleanupStores (offset : Nat → Nat) : (i : Nat) → List FieldToParse → List (Store UInt8)
  | _, [] => []
  | i, f :: fields =>
    (if getFieldSize f ≠ 0 then [⟨offset i, List.replicate (getFieldSize f) 0⟩] else []) ++
      cleanupStores offset (i + 1) fields

/-- The message is refused before its rows are read. -/
def Refused (fields : List FieldToParse) (msgLen : Nat) (msg : List UInt8) : Prop :=
  msgLen = 0 ∨ msgLen < min (cstr msg).length hostapdToDwpalMsgLength ∨
    ((ascii "UNKNOWN").isPrefixOf (cstr msg) ∨ (ascii "FAIL").isPrefixOf (cstr msg)) ∨
    fields.all sizeChecked = false

instance (fields : List FieldToParse) (msgLen : Nat) (msg : List UInt8) :
    Decidable (Refused fields msgLen msg) := inferInstanceAs (Decidable (_ ∨ _))

/-- `dwpald_hostap_response_parse`: whether it succeeds, and its stores for each row. -/
def responseStores (t : Target) (msg : Option (List UInt8)) (msgLen : Nat)
    (fields : List FieldToParse) (offset : Nat → Nat) (userBufLen : Nat) :
    Option Bool × List (List (Store UInt8)) :=
  match msg with
  | none => (some false, [])
  | some msg =>
    if Refused fields msgLen msg then (some false, [])
    else linesStores t fields offset userBufLen 0 (messageRows fields msg)

/-- The clean-up and the rows keep to the buffer, and each to its structure. The call does not
succeed if the rows do not all fit. -/
structure RowsKept (t : Target) (msg : Option (List UInt8)) (msgLen : Nat)
    (fields : List FieldToParse) (offset : Nat → Nat) (userBufLen : Nat) : Prop where
  cleaned : ∀ a, Touches (cleanupStores offset 0 fields) a → a < sizeOfStruct fields ∧
    a < userBufLen
  inside : ∀ r stores, (responseStores t msg msgLen fields offset userBufLen).2[r]? = some stores →
    ∀ a, Touches stores a →
      r * sizeOfStruct fields ≤ a ∧ a < (r + 1) * sizeOfStruct fields ∧ a < userBufLen
  reported : ∀ text ∈ msg, userBufLen < (messageRows fields text).length * sizeOfStruct fields →
    (responseStores t msg msgLen fields offset userBufLen).1 = some false

/-- The fields that a row sets if there is room for it, and whether it is parsed. -/
def roomySettings (t : Target) (fields : List FieldToParse) (row : List UInt8) :
    Option Bool × List Setting :=
  rowSettings t (allNames fields) false row 0 fields none true

/-- Rows that have room: in each one that is come to, the fields that are found end inside the
buffer, and the `int` of zero behind an array of `int`s ends inside the structure. If all rows are
parsed, the last one does not only begin inside the buffer. If they do not all fit, each one that is
come to has a result. -/
structure RowsRoom (t : Target) (fields : List FieldToParse) (offset : Nat → Nat) (userBufLen : Nat)
    (rows : List (List UInt8)) : Prop where
  fits : ∀ r row, rows[r]? = some row → r * sizeOfStruct fields < userBufLen →
    (∀ earlier ∈ rows.take r, (roomySettings t fields earlier).1 = some true) →
    ∀ s ∈ (roomySettings t fields row).2,
      (s.field.type = .intArray ∨ s.field.type = .hexArray →
        offset s.place + 4 * ((readWords s.text).length + 1) ≤ sizeOfStruct fields) ∧
      r * sizeOfStruct fields + offset s.place + extent (s.stores t).2 ≤ userBufLen
  last : rows.length * sizeOfStruct fields ≤ userBufLen ∨
    userBufLen ≤ (rows.length - 1) * sizeOfStruct fields ∨
    ∃ row ∈ rows, (roomySettings t fields row).1 ≠ some true
  defined : userBufLen < rows.length * sizeOfStruct fields →
    ∀ r row, rows[r]? = some row → r * sizeOfStruct fields < userBufLen →
      (∀ earlier ∈ rows.take r, (roomySettings t fields earlier).1 = some true) →
      (roomySettings t fields row).1 ≠ none

/-- A call that keeps to the buffer: the fields lie in the structure, and the rows of a message that
is not refused have room. -/
structure RowsFit (t : Target) (msg : Option (List UInt8)) (msgLen : Nat)
    (fields : List FieldToParse) (offset : Nat → Nat) (userBufLen : Nat) : Prop where
  packed : ∀ i f, fields[i]? = some f → getFieldSize f ≠ 0 →
    offset i + getFieldSize f ≤ sizeOfStruct fields
  room : ∀ text ∈ msg, ¬Refused fields msgLen text →
    RowsRoom t fields offset userBufLen (messageRows fields text)

section Extent

variable {t : Target} {f : FieldToParse} {s : Setting} {src text hex : List UInt8}
  {dmax n total a : Nat} {type : FieldType}

theorem strncpyStores_ne_nil (hdmax : dmax ≠ 0) : (strncpyStores t dmax src n).2 ≠ [] ∧
    ∀ s ∈ (strncpyStores t dmax src n).2, s.bytes ≠ [] := by
  rw [strncpyStores]
  dsimp only
  rw [if_neg hdmax]
  split_ifs with hfits hslack hslack
  all_goals
    refine ⟨List.cons_ne_nil _ _, ?_⟩
    simp only [List.mem_cons, List.not_mem_nil, or_false, forall_eq_or_imp, forall_eq]
    simp only [← List.length_pos_iff, List.length_append, List.length_replicate,
      List.length_take] at *
    omega

theorem length_hexToStrLoop (hex : List UInt8) : (hexToStrLoop hex).2.length ≤ hex.length / 2 := by
  induction hex using hexToStrLoop.induct with
  | case1 hi lo hex h l hh hl ok rest hloop ih =>
    rw [hexToStrLoop, hh, hl]
    dsimp only
    rw [List.length_cons, List.length_cons, List.length_cons]
    omega
  | case2 hi lo hex hnot =>
    rw [hexToStrLoop]
    split
    · next h l hh hl => exact absurd hl (hnot h l hh)
    · exact Nat.zero_le _
  | case3 => exact Nat.zero_le _
  | case4 => exact Nat.zero_le _

theorem extent_strcpyStores_le : extent (strcpyStores t dmax src).2 ≤ dmax := by
  by_cases hdmax : dmax = 0
  · rw [strcpyStores, strncpyStores]
    dsimp only
    rw [if_pos hdmax]
    exact Nat.zero_le _
  · obtain ⟨hne, hbytes⟩ := @strncpyStores_ne_nil t src dmax src.length hdmax
    obtain ⟨hpos, hlast⟩ := touches_extent hne hbytes
    have hlt := strncpyStores_inside hlast
    rw [strcpyStores]
    omega

theorem getFieldSize_ne_zero (hchecked : sizeChecked f = true) (hfield : f.field = true)
    (hdummy : f.type ≠ .dummy) : getFieldSize f ≠ 0 := by
  intro hzero
  simp [sizeChecked, hfield, hdummy, hzero] at hchecked

theorem dwpaldHexToStrStores_extent (hsize : total ≠ 0) : (dwpaldHexToStrStores total text).2 ≠ [] ∧
    (∀ s ∈ (dwpaldHexToStrStores total text).2, s.bytes ≠ []) ∧
    extent (dwpaldHexToStrStores total text).2 ≤ total := by
  have hlen := length_hexToStrLoop text
  rw [dwpaldHexToStrStores, if_neg hsize]
  dsimp only
  split_ifs with hshort
  · refine ⟨List.cons_ne_nil _ _, by simp, ?_⟩
    rw [extent_cons, extent_nil, Nat.max_zero]
    change 0 + 1 ≤ total
    omega
  · refine ⟨List.cons_ne_nil _ _, by simp, ?_⟩
    rw [extent_cons, extent_nil, Nat.max_zero]
    change 0 + ((hexToStrLoop text).2 ++ [0]).length ≤ total
    rw [List.length_append, List.length_singleton]
    omega

/-- A field that is no array is set with some bytes, all of them its own. -/
theorem setFieldStores_extent (hfield : f.field = true) (harray : f.type.isArray = false)
    (hsize : getFieldSize f ≠ 0) : (setFieldStores t f text).2 ≠ [] ∧
      (∀ s ∈ (setFieldStores t f text).2, s.bytes ≠ []) ∧
      extent (setFieldStores t f text).2 ≤ getFieldSize f := by
  have hscalar : ∀ bytes : List UInt8, bytes.length = getFieldSize f →
      [(⟨0, bytes⟩ : Store UInt8)] ≠ [] ∧ (∀ s ∈ [(⟨0, bytes⟩ : Store UInt8)], s.bytes ≠ []) ∧
        extent [(⟨0, bytes⟩ : Store UInt8)] ≤ getFieldSize f := by
    intro bytes hlen
    have hpos : 0 < bytes.length := by omega
    exact ⟨List.cons_ne_nil _ _, List.forall_mem_singleton.mpr (List.ne_nil_of_length_pos hpos),
      by simp [hlen]⟩
  have htotal : f.type = .str ∨ f.type = .hexstr → getFieldSize f = f.totalSizeOfArg := by
    rintro (htype | htype) <;> simp [getFieldSize, hfield, htype]
  rw [setFieldStores]
  cases htype : f.type with
  | str =>
    rw [htotal (.inl htype)] at hsize ⊢
    obtain ⟨hne, hbytes⟩ := @strncpyStores_ne_nil t text f.totalSizeOfArg text.length hsize
    exact ⟨hne, hbytes, extent_strcpyStores_le⟩
  | hexstr =>
    rw [htotal (.inr htype)] at hsize ⊢
    exact dwpaldHexToStrStores_extent hsize
  | dummy => simp [getFieldSize, hfield, htype] at hsize
  | strArray | intArray | hexArray =>
    rw [htype] at harray
    cases harray
  | char =>
    exact hscalar _ (by simp [getFieldSize, hfield, htype, readScalar, FieldValue.scalarBytes])
  | _ => exact hscalar _ (t.length_numBytes ..)

theorem elementStores_ne_nil {idx : Nat} {param : List UInt8} (harray : type.isArray = true) :
    ∀ s ∈ elementStores t type idx param, s.bytes ≠ [] := by
  have hint : (elementBytes t type param).length = 4 →
      ∀ s ∈ [(⟨4 * idx, elementBytes t type param⟩ : Store UInt8)], s.bytes ≠ [] := by
    intro hlen
    have hpos : 0 < (elementBytes t type param).length := by omega
    exact List.forall_mem_singleton.mpr (List.ne_nil_of_length_pos hpos)
  cases type with
  | intArray => exact hint (t.length_numBytes ..)
  | hexArray => exact hint (t.length_numBytes ..)
  | strArray =>
    intro s hs
    obtain ⟨s', hs', rfl⟩ := List.mem_map.mp hs
    have hdmax : hostapdToDwpalValueStringLength ≠ 0 := by decide
    exact (strncpyStores_ne_nil hdmax).2 s' hs'
  | _ => cases harray

theorem arrayLoop_ne_nil {idx : Nat} {params : List (List UInt8)} (harray : type.isArray = true) :
    ∀ s ∈ arrayLoop t type total idx params, s.bytes ≠ [] := by
  induction params generalizing idx with
  | nil =>
    rw [arrayLoop]
    split_ifs
    · have hlen := t.length_numBytes 4 0
      have hpos : 0 < (t.numBytes 4 0).length := by omega
      exact List.forall_mem_singleton.mpr (List.ne_nil_of_length_pos hpos)
    · exact List.forall_mem_nil _
  | cons param params ih =>
    rw [arrayLoop]
    refine List.forall_mem_append.mpr ⟨?_, ih⟩
    split_ifs
    · exact elementStores_ne_nil harray
    · exact List.forall_mem_nil _

theorem arrayValuesStores_ne_nil (harray : type.isArray = true) :
    (arrayValuesStores t text total type).2.1 ≠ [] ∧
      ∀ s ∈ (arrayValuesStores t text total type).2.1, s.bytes ≠ [] := by
  constructor
  · intro hnil
    have hend := (@arrayValuesStores_end t text total type (fun _ => 0)
      (4 * (readWords text).length) (Nat.le_refl _) (by omega)).1
    rw [hnil] at hend
    exact not_touches_nil hend
  · rw [arrayValuesStores_eq]
    exact arrayLoop_ne_nil harray

/-- The stores to an array end with the `int` of zero, or behind it with the last element. -/
theorem arrayValuesStores_extent (harray : type.isArray = true) :
    extent (arrayValuesStores t text total type).2.1 =
      max (4 * ((readWords text).length + 1)) (extent (arrayValuesStores t text total type).2.1) ∧
    extent (arrayValuesStores t text total type).2.1 ≤
      max (4 * ((readWords text).length + 1))
        (elementWidth type * min (readWords text).length (capacity type total)) := by
  obtain ⟨hne, hbytes⟩ := @arrayValuesStores_ne_nil t text total type harray
  obtain ⟨hpos, hlast⟩ := touches_extent hne hbytes
  have hend := ((@arrayValuesStores_end t text total type (fun _ => 0)
    (4 * (readWords text).length + 3) (by omega) (by omega)).1).lt_extent
  refine ⟨(Nat.max_eq_right (by omega)).symm, ?_⟩
  rw [arrayValuesStores_eq] at hlast hpos ⊢
  rcases touches_arrayLoop.mp hlast with ⟨k, param, hk, htotal, htouches⟩ | ⟨-, -, hhigh⟩
  · have hlt := (elementStores_inside harray htouches).2
    have hlen := (List.getElem?_eq_some_iff.mp hk).1
    have hmul : elementWidth type * (0 + k + 1) ≤
        elementWidth type * min (readWords text).length (capacity type total) :=
      Nat.mul_le_mul_left _ (by omega)
    refine Nat.le_trans ?_ (Nat.le_max_right ..)
    omega
  · refine Nat.le_trans ?_ (Nat.le_max_left ..)
    omega

/-- A field whose size is checked is set with some bytes. -/
theorem Setting.stores_ne_nil (hchecked : sizeChecked s.field = true)
    (hfield : s.field.field = true) (hdummy : s.field.type ≠ .dummy) :
    (s.stores t).2 ≠ [] ∧ ∀ store ∈ (s.stores t).2, store.bytes ≠ [] := by
  rw [Setting.stores]
  split_ifs with harray
  · exact arrayValuesStores_ne_nil harray
  · have hall := @setFieldStores_extent t s.field s.text hfield (by simpa using harray)
      (getFieldSize_ne_zero hchecked hfield hdummy)
    exact ⟨hall.1, hall.2.1⟩

theorem Setting.extent_intArray (htype : s.field.type = .intArray ∨ s.field.type = .hexArray) :
    extent (s.stores t).2 = 4 * ((readWords s.text).length + 1) := by
  have harray : s.field.type.isArray = true := by rcases htype with h | h <;> rw [h] <;> rfl
  have hwidth : elementWidth s.field.type = 4 := by rcases htype with h | h <;> rw [h] <;> rfl
  obtain ⟨hle, hge⟩ := @arrayValuesStores_extent t s.text s.field.totalSizeOfArg s.field.type harray
  rw [hwidth] at hge
  rw [Setting.stores, if_pos harray]
  change extent (arrayValuesStores t s.text s.field.totalSizeOfArg s.field.type).2.1 = _
  omega

/-- Only in an array of `int`s a field that is set may end behind its size. -/
theorem Setting.extent_le (hchecked : sizeChecked s.field = true) (hfield : s.field.field = true)
    (hdummy : s.field.type ≠ .dummy)
    (htype : ¬(s.field.type = .intArray ∨ s.field.type = .hexArray)) :
    extent (s.stores t).2 ≤ getFieldSize s.field := by
  have hsize := getFieldSize_ne_zero hchecked hfield hdummy
  rw [Setting.stores]
  split_ifs with harray
  · have hstring : s.field.type = .strArray := by
      cases h : s.field.type <;> simp_all [FieldType.isArray]
    have htotal : getFieldSize s.field = s.field.totalSizeOfArg := by
      simp [getFieldSize, hfield, hstring]
    have haligned : s.field.totalSizeOfArg % 4096 = 0 := by
      rw [sizeChecked, hstring, hfield, htotal] at hchecked
      exact of_decide_eq_true (Bool.and_eq_true_iff.mp hchecked).2
    have hmany := @length_readWords_lt s.text
    have hcapacity := @capacity_mul_le s.field.totalSizeOfArg s.field.type
    have hmul : elementWidth s.field.type *
        min (readWords s.text).length (capacity s.field.type s.field.totalSizeOfArg) ≤
        elementWidth s.field.type * capacity s.field.type s.field.totalSizeOfArg :=
      Nat.mul_le_mul_left _ (Nat.min_le_right ..)
    have hle := (@arrayValuesStores_extent t s.text s.field.totalSizeOfArg s.field.type harray).2
    rw [dwpalMaxNumOfElements] at hmany
    rw [htotal] at hsize ⊢
    refine Nat.le_trans hle (Nat.max_le.mpr ⟨?_, Nat.le_trans hmul hcapacity⟩)
    omega
  · exact (setFieldStores_extent hfield (by simpa using harray) hsize).2.2

end Extent

section Rows

variable {t : Target} {fields : List FieldToParse} {offset : Nat → Nat} {userBufLen l r a : Nat}
  {lines : List (List UInt8)} {line row : List UInt8} {stores : List (Store UInt8)} {s : Setting}

/-- The rows that are come to: those with only parsed rows in front of them. -/
theorem linesStores_get : (linesStores t fields offset userBufLen l lines).2[r]? = some stores ↔
    ∃ row, lines[r]? = some row ∧
      (∀ k < r, ∀ earlier, lines[k]? = some earlier →
        (lineSettings t fields userBufLen earlier (l + k)).1 = some true) ∧
      stores = rowStores t offset ((l + r) * sizeOfStruct fields)
        (lineSettings t fields userBufLen row (l + r)).2 := by
  induction lines generalizing l r with
  | nil => simp [linesStores]
  | cons line lines ih =>
    rw [linesStores]
    dsimp only
    cases r with
    | zero =>
      split_ifs <;> simp [eq_comm]
    | succ r =>
      split_ifs with hok
      · rw [List.getElem?_cons_succ, ih, List.getElem?_cons_succ,
          show l + 1 + r = l + (r + 1) by omega]
        refine exists_congr fun row => and_congr_right fun _ => and_congr_left fun _ => ?_
        constructor
        · intro h k hk earlier hearlier
          cases k with
          | zero =>
            cases hearlier
            exact hok
          | succ k =>
            rw [show l + (k + 1) = l + 1 + k by omega]
            exact h k (by omega) earlier hearlier
        · intro h k hk earlier hearlier
          rw [show l + 1 + k = l + (k + 1) by omega]
          exact h (k + 1) (by omega) earlier hearlier
      · refine iff_of_false (fun h => by cases h) ?_
        rintro ⟨row, -, hearlier, -⟩
        exact hok (hearlier 0 (Nat.succ_pos _) line rfl)

theorem linesStores_ok : (linesStores t fields offset userBufLen l lines).1 = some true ↔
    ∀ k row, lines[k]? = some row → (lineSettings t fields userBufLen row (l + k)).1 =
      some true := by
  induction lines generalizing l with
  | nil => simp [linesStores]
  | cons line lines ih =>
    rw [linesStores]
    dsimp only
    split_ifs with hok
    · rw [ih]
      constructor
      · intro h k row hrow
        cases k with
        | zero =>
          cases hrow
          exact hok
        | succ k =>
          rw [show l + (k + 1) = l + 1 + k by omega]
          exact h k row hrow
      · intro h k row hrow
        rw [show l + 1 + k = l + (k + 1) by omega]
        exact h (k + 1) row hrow
    · exact iff_of_false hok fun h => hok (h 0 line rfl)

theorem linesStores_none : (linesStores t fields offset userBufLen l lines).1 = none ↔
    ∃ r row, lines[r]? = some row ∧
      (∀ k < r, ∀ earlier, lines[k]? = some earlier →
        (lineSettings t fields userBufLen earlier (l + k)).1 = some true) ∧
      (lineSettings t fields userBufLen row (l + r)).1 = none := by
  induction lines generalizing l with
  | nil => simp [linesStores]
  | cons line lines ih =>
    rw [linesStores]
    dsimp only
    split_ifs with hok
    · rw [ih]
      constructor
      · rintro ⟨r, row, hrow, hearlier, hnone⟩
        rw [show l + 1 + r = l + (r + 1) by omega] at hnone
        refine ⟨r + 1, row, hrow, fun k hk earlier hget => ?_, hnone⟩
        cases k with
        | zero =>
          cases hget
          exact hok
        | succ k =>
          rw [show l + (k + 1) = l + 1 + k by omega]
          exact hearlier k (by omega) earlier hget
      · rintro ⟨r, row, hrow, hearlier, hnone⟩
        cases r with
        | zero =>
          cases hrow
          rw [Nat.add_zero, hok] at hnone
          cases hnone
        | succ r =>
          rw [show l + (r + 1) = l + 1 + r by omega] at hnone
          refine ⟨r, row, hrow, fun k hk earlier hget => ?_, hnone⟩
          rw [show l + 1 + k = l + (k + 1) by omega]
          exact hearlier (k + 1) (by omega) earlier hget
    · constructor
      · exact fun hnone => ⟨0, line, rfl, fun k hk => absurd hk (Nat.not_lt_zero k), hnone⟩
      · rintro ⟨r, row, hrow, hearlier, hnone⟩
        cases r with
        | zero =>
          cases hrow
          exact hnone
        | succ r => exact absurd (hearlier 0 (Nat.succ_pos r) line rfl) hok

/-- A structure has a size if and only if there is a place for a value in it. -/
theorem sizeOfStruct_pos_iff :
    0 < sizeOfStruct fields ↔ ∃ f ∈ fields, f.type ≠ .dummy ∧ 0 < getFieldSize f := by
  simp only [sizeOfStruct, List.sum_pos_iff_exists_pos_nat, List.mem_map, List.mem_filter,
    decide_eq_true_eq]
  constructor
  · rintro ⟨n, ⟨f, ⟨hf, hdummy⟩, rfl⟩, hpos⟩
    exact ⟨f, hf, hdummy, hpos⟩
  · rintro ⟨f, hf, hdummy, hpos⟩
    exact ⟨_, ⟨f, ⟨hf, hdummy⟩, rfl⟩, hpos⟩

theorem field_of_getFieldSize {f : FieldToParse} (hpos : 0 < getFieldSize f) : f.field = true := by
  by_contra hfield
  rw [getFieldSize, if_pos (by simpa using hfield)] at hpos
  exact Nat.lt_irrefl 0 hpos

/-- Inside the buffer a row is parsed as if there were room for any number of rows. -/
theorem lineSettings_of_lt (hlt : l * sizeOfStruct fields < userBufLen) :
    lineSettings t fields userBufLen row l = roomySettings t fields row := by
  rw [lineSettings, decide_eq_false (by omega)]
  rfl

/-- Behind the end of the buffer no row is parsed. -/
theorem lineSettings_of_le (hpos : 0 < sizeOfStruct fields)
    (hle : userBufLen ≤ l * sizeOfStruct fields) :
    (lineSettings t fields userBufLen row l).1 ≠ some true := by
  obtain ⟨f, hf, hdummy, hsize⟩ := sizeOfStruct_pos_iff.mp hpos
  rw [lineSettings, decide_eq_true hle]
  exact rowSettings_full ⟨f, hf, hdummy, field_of_getFieldSize hsize⟩

/-- A field that is set belongs to a row inside the buffer. -/
theorem lineSettings_mem (h : s ∈ (lineSettings t fields userBufLen row l).2) :
    l * sizeOfStruct fields < userBufLen ∧ s ∈ (roomySettings t fields row).2 := by
  have hlt : l * sizeOfStruct fields < userBufLen := by
    have hfull := (rowSettings_mem h).1
    simpa using hfull
  rw [lineSettings_of_lt hlt] at h
  exact ⟨hlt, h⟩

theorem roomySettings_mem (h : s ∈ (roomySettings t fields row).2) :
    s.field.field = true ∧ s.field.type ≠ .dummy ∧ fields[s.place]? = some s.field := by
  obtain ⟨-, hfield, hdummy, k, hplace, hk⟩ := rowSettings_mem h
  rw [hplace, Nat.zero_add]
  exact ⟨hfield, hdummy, hk⟩

theorem touches_cleanupStores {i : Nat} : Touches (cleanupStores offset i fields) a ↔
    ∃ k f, fields[k]? = some f ∧ offset (i + k) ≤ a ∧ a < offset (i + k) + getFieldSize f := by
  induction fields generalizing i with
  | nil => simp [cleanupStores]
  | cons f fields ih =>
    have hfirst : Touches (if getFieldSize f ≠ 0 then
        [⟨offset i, List.replicate (getFieldSize f) 0⟩]
        else ([] : List (Store UInt8))) a ↔ offset i ≤ a ∧ a < offset i + getFieldSize f := by
      split_ifs with hsize
      · simp [Store.Covers]
      · simp only [not_touches_nil, false_iff]
        omega
    rw [cleanupStores, touches_append, hfirst, ih]
    constructor
    · rintro (h | ⟨k, g, hg, h⟩)
      · exact ⟨0, f, rfl, h⟩
      · rw [show i + 1 + k = i + (k + 1) by omega] at h
        exact ⟨k + 1, g, hg, h⟩
    · rintro ⟨k, g, hg, h⟩
      cases k with
      | zero =>
        cases hg
        exact .inl h
      | succ k =>
        rw [show i + (k + 1) = i + 1 + k by omega] at h
        exact .inr ⟨k, g, hg, h⟩

/-- The fields that are found end inside the buffer and the structure if and only if the bytes that
are stored do. -/
theorem rowsInside_iff (hchecked : ∀ f ∈ fields, sizeChecked f = true)
    (hpacked : ∀ i f, fields[i]? = some f → getFieldSize f ≠ 0 →
      offset i + getFieldSize f ≤ sizeOfStruct fields) :
    (∀ r stores, (linesStores t fields offset userBufLen 0 lines).2[r]? = some stores →
      ∀ a, Touches stores a →
        r * sizeOfStruct fields ≤ a ∧ a < (r + 1) * sizeOfStruct fields ∧ a < userBufLen) ↔
    ∀ r row, lines[r]? = some row → r * sizeOfStruct fields < userBufLen →
      (∀ earlier ∈ lines.take r, (roomySettings t fields earlier).1 = some true) →
      ∀ s ∈ (roomySettings t fields row).2,
        (s.field.type = .intArray ∨ s.field.type = .hexArray →
          offset s.place + 4 * ((readWords s.text).length + 1) ≤ sizeOfStruct fields) ∧
        r * sizeOfStruct fields + offset s.place + extent (s.stores t).2 ≤ userBufLen := by
  constructor
  · intro h r row hrow hlt hearlier s hs
    obtain ⟨hfield, hdummy, hplace⟩ := roomySettings_mem hs
    obtain ⟨hne, hbytes⟩ :=
      s.stores_ne_nil (t := t) (hchecked _ (List.mem_of_getElem? hplace)) hfield hdummy
    obtain ⟨hpos, hlast⟩ := touches_extent hne hbytes
    have hstores : (linesStores t fields offset userBufLen 0 lines).2[r]? =
        some (rowStores t offset (r * sizeOfStruct fields) (roomySettings t fields row).2) := by
      refine linesStores_get.mpr ⟨row, hrow, fun k hk earlier hget => ?_, ?_⟩
      · have hmul : k * sizeOfStruct fields ≤ r * sizeOfStruct fields :=
          Nat.mul_le_mul_right _ (Nat.le_of_lt hk)
        rw [Nat.zero_add, lineSettings_of_lt (by omega)]
        exact hearlier earlier (List.mem_of_getElem? ((List.getElem?_take_of_lt hk).trans hget))
      · rw [Nat.zero_add, lineSettings_of_lt hlt]
    have hin := h r _ hstores
      (r * sizeOfStruct fields + offset s.place + (extent (s.stores t).2 - 1))
      (touches_flatMap.mpr ⟨s, hs, touches_shift.mpr ⟨Nat.le_add_right .., by
        rwa [Nat.add_sub_cancel_left]⟩⟩)
    rw [Nat.succ_mul] at hin
    refine ⟨fun htype => ?_, by omega⟩
    rw [Setting.extent_intArray htype] at hin
    omega
  · intro h r stores hstores a htouches
    obtain ⟨row, hrow, hearlier, rfl⟩ := linesStores_get.mp hstores
    rw [Nat.zero_add] at htouches
    obtain ⟨s, hs, htouches⟩ := touches_flatMap.mp htouches
    obtain ⟨hle, htouches⟩ := touches_shift.mp htouches
    have hlast := htouches.lt_extent
    obtain ⟨hlt, hs⟩ := lineSettings_mem hs
    obtain ⟨hint, hroom⟩ := h r row hrow hlt (fun earlier hmem => by
      obtain ⟨k, hk, hget⟩ := List.mem_take_iff_getElem.mp hmem
      have hmul : k * sizeOfStruct fields ≤ r * sizeOfStruct fields :=
        Nat.mul_le_mul_right _ (by omega)
      have hok := hearlier k (by omega) earlier (List.getElem?_eq_some_iff.mpr ⟨by omega, hget⟩)
      rwa [Nat.zero_add, lineSettings_of_lt (by omega)] at hok) s hs
    obtain ⟨hfield, hdummy, hplace⟩ := roomySettings_mem hs
    have hmem := List.mem_of_getElem? hplace
    have hstruct : offset s.place + extent (s.stores t).2 ≤ sizeOfStruct fields := by
      by_cases htype : s.field.type = .intArray ∨ s.field.type = .hexArray
      · rw [Setting.extent_intArray htype]
        exact hint htype
      · have hextent := s.extent_le (t := t) (hchecked _ hmem) hfield hdummy htype
        have hin := hpacked _ _ hplace (getFieldSize_ne_zero (hchecked _ hmem) hfield hdummy)
        omega
    rw [Nat.succ_mul]
    omega

theorem mem_take_iff {rows : List (List UInt8)} {P : List UInt8 → Prop} :
    (∀ earlier ∈ rows.take r, P earlier) ↔ ∀ k < r, ∀ earlier, rows[k]? = some earlier →
    P earlier := by
  constructor
  · exact fun h k hk earlier hget =>
      h earlier (List.mem_of_getElem? ((List.getElem?_take_of_lt hk).trans hget))
  · intro h earlier hmem
    obtain ⟨k, hk, hget⟩ := List.mem_take_iff_getElem.mp hmem
    exact h k (by omega) earlier (List.getElem?_eq_some_iff.mpr ⟨by omega, hget⟩)

/-- The rows have a result if each one that is come to inside the buffer has one. -/
theorem rowsDefined_iff (hpos : 0 < userBufLen) :
    (linesStores t fields offset userBufLen 0 lines).1 ≠ none ↔
    ∀ r row, lines[r]? = some row → r * sizeOfStruct fields < userBufLen →
      (∀ earlier ∈ lines.take r, (roomySettings t fields earlier).1 = some true) →
      (roomySettings t fields row).1 ≠ none := by
  rw [Ne, linesStores_none]
  simp only [Nat.zero_add, mem_take_iff]
  have hinside : ∀ {r k}, r * sizeOfStruct fields < userBufLen → k < r →
      k * sizeOfStruct fields < userBufLen := fun {r k} hlt hk => by
    have hmul : k * sizeOfStruct fields ≤ r * sizeOfStruct fields :=
      Nat.mul_le_mul_right _ (Nat.le_of_lt hk)
    omega
  constructor
  · intro h r row hrow hlt hearlier hnone
    refine h ⟨r, row, hrow, fun k hk earlier hget => ?_, ?_⟩
    · rw [lineSettings_of_lt (hinside hlt hk)]
      exact hearlier k hk earlier hget
    · rw [lineSettings_of_lt hlt]
      exact hnone
  · rintro h ⟨r, row, hrow, hearlier, hnone⟩
    by_cases hlt : r * sizeOfStruct fields < userBufLen
    · rw [lineSettings_of_lt hlt] at hnone
      refine h r row hrow hlt (fun k hk earlier hget => ?_) hnone
      have hok := hearlier k hk earlier hget
      rwa [lineSettings_of_lt (hinside hlt hk)] at hok
    · have hr : 0 < r := Nat.pos_of_ne_zero fun hzero =>
        hlt (by rw [hzero, Nat.zero_mul]; exact hpos)
      have hlen := (List.getElem?_eq_some_iff.mp hrow).1
      have hfirst := hearlier 0 hr _ (List.getElem?_eq_getElem (by omega))
      rw [lineSettings, decide_eq_true (by omega)] at hnone
      exact rowSettings_full_defined hfirst (fun h => h) hnone

/-- Rows that do not all fit are not taken for parsed unless all are, and the last one begins inside
the buffer. -/
theorem rowsReported_iff :
    (userBufLen < lines.length * sizeOfStruct fields →
      (linesStores t fields offset userBufLen 0 lines).1 ≠ some true) ↔
    lines.length * sizeOfStruct fields ≤ userBufLen ∨
      userBufLen ≤ (lines.length - 1) * sizeOfStruct fields ∨
      ∃ row ∈ lines, (roomySettings t fields row).1 ≠ some true := by
  by_cases hfits : lines.length * sizeOfStruct fields ≤ userBufLen
  · exact iff_of_true (fun hlt => absurd hfits (by omega)) (.inl hfits)
  rw [or_iff_right hfits, Ne, linesStores_ok]
  simp only [Nat.zero_add]
  constructor
  · intro h
    by_cases hlast : userBufLen ≤ (lines.length - 1) * sizeOfStruct fields
    · exact .inl hlast
    · refine .inr ?_
      by_contra hall
      refine h (by omega) fun k row hrow => ?_
      have hk := (List.getElem?_eq_some_iff.mp hrow).1
      have hmul : k * sizeOfStruct fields ≤ (lines.length - 1) * sizeOfStruct fields :=
        Nat.mul_le_mul_right _ (by omega)
      rw [lineSettings_of_lt (by omega)]
      by_contra hnot
      exact hall ⟨row, List.mem_of_getElem? hrow, hnot⟩
  · intro h hlt hall
    have hpos : 0 < sizeOfStruct fields := Nat.pos_of_ne_zero fun hzero => by
      rw [hzero, Nat.mul_zero] at hlt
      exact Nat.not_lt_zero _ hlt
    have hinside : ∀ k row, lines[k]? = some row → k * sizeOfStruct fields < userBufLen := by
      intro k row hrow
      by_contra hle
      exact lineSettings_of_le hpos (by omega) (hall k row hrow)
    rcases h with hlast | ⟨row, hrow, hnot⟩
    · have hlen : 0 < lines.length := Nat.pos_of_ne_zero fun hzero => by
        rw [hzero, Nat.zero_mul] at hlt
        exact Nat.not_lt_zero _ hlt
      have hlt := hinside (lines.length - 1) _ (List.getElem?_eq_getElem (by omega))
      omega
    · obtain ⟨k, hk⟩ := List.getElem?_of_mem hrow
      have hok := hall k row hk
      rw [lineSettings_of_lt (hinside k row hk)] at hok
      exact hnot hok

/-- Rows that do not all fit are reported if they are not taken for parsed and have a result. -/
theorem rowsFailed_iff
    (hpos : userBufLen < lines.length * sizeOfStruct fields → 0 < userBufLen) :
    (userBufLen < lines.length * sizeOfStruct fields →
      (linesStores t fields offset userBufLen 0 lines).1 = some false) ↔
    (lines.length * sizeOfStruct fields ≤ userBufLen ∨
      userBufLen ≤ (lines.length - 1) * sizeOfStruct fields ∨
      ∃ row ∈ lines, (roomySettings t fields row).1 ≠ some true) ∧
    (userBufLen < lines.length * sizeOfStruct fields →
      ∀ r row, lines[r]? = some row → r * sizeOfStruct fields < userBufLen →
        (∀ earlier ∈ lines.take r, (roomySettings t fields earlier).1 = some true) →
        (roomySettings t fields row).1 ≠ none) := by
  have hsplit : (linesStores t fields offset userBufLen 0 lines).1 = some false ↔
      (linesStores t fields offset userBufLen 0 lines).1 ≠ some true ∧
        (linesStores t fields offset userBufLen 0 lines).1 ≠ none := by
    rcases (linesStores t fields offset userBufLen 0 lines).1 with - | - | - <;> simp
  rw [← @rowsReported_iff t fields offset, hsplit, imp_and]
  exact and_congr_right fun _ => forall_congr' fun hlt => rowsDefined_iff (hpos hlt)

end Rows

section Response

variable {t : Target} {msg : Option (List UInt8)} {msgLen userBufLen : Nat}
  {fields : List FieldToParse} {offset : Nat → Nat}

/-- The clean-up keeps to the structure if and only if the fields lie in it. -/
theorem cleaned_iff (hfirst : ∀ i f, fields[i]? = some f → getFieldSize f ≠ 0 →
      offset i + getFieldSize f ≤ userBufLen) :
    (∀ a, Touches (cleanupStores offset 0 fields) a → a < sizeOfStruct fields ∧ a < userBufLen) ↔
    ∀ i f, fields[i]? = some f → getFieldSize f ≠ 0 →
      offset i + getFieldSize f ≤ sizeOfStruct fields := by
  constructor
  · intro h i f hf hsize
    have hlast := (h (offset i + (getFieldSize f - 1)) (touches_cleanupStores.mpr ⟨i, f, hf, by
      rw [Nat.zero_add]
      omega⟩)).1
    omega
  · intro h a htouches
    obtain ⟨i, f, hf, hle, hlt⟩ := touches_cleanupStores.mp htouches
    rw [Nat.zero_add] at hle hlt
    have hstruct := h i f hf (by omega)
    have hbuffer := hfirst i f hf (by omega)
    omega

/-- For every message the stores for its rows keep to the buffer, and each to the structure of its
row, and rows that do not all fit are reported, if and only if the fields lie in the structure and
the rows have room. The fields of the first row lie in the buffer. -/
theorem userBuffer_kept (hfirst : ∀ i f, fields[i]? = some f → getFieldSize f ≠ 0 →
      offset i + getFieldSize f ≤ userBufLen) :
    RowsKept t msg msgLen fields offset userBufLen ↔
      RowsFit t msg msgLen fields offset userBufLen := by
  have hpos : ∀ {n}, userBufLen < n * sizeOfStruct fields → 0 < userBufLen := fun {n} hlt => by
    have hsize : 0 < sizeOfStruct fields := Nat.pos_of_ne_zero fun hzero => by
      rw [hzero, Nat.mul_zero] at hlt
      exact Nat.not_lt_zero _ hlt
    obtain ⟨f, hf, -, hfield⟩ := sizeOfStruct_pos_iff.mp hsize
    obtain ⟨i, hi⟩ := List.getElem?_of_mem hf
    have hroom := hfirst i f hi (by omega)
    omega
  cases msg with
  | none =>
    constructor
    · intro h
      exact ⟨(cleaned_iff hfirst).mp h.cleaned, nofun⟩
    · intro h
      exact ⟨(cleaned_iff hfirst).mpr h.packed, nofun, nofun⟩
  | some text =>
    by_cases hrefused : Refused fields msgLen text
    · have hstores : responseStores t (some text) msgLen fields offset userBufLen =
        (some false, []) :=
        if_pos hrefused
      constructor
      · intro h
        refine ⟨(cleaned_iff hfirst).mp h.cleaned, fun text' htext hnot => ?_⟩
        cases htext
        exact absurd hrefused hnot
      · intro h
        refine ⟨(cleaned_iff hfirst).mpr h.packed, fun r stores hget => ?_, fun _ _ _ => ?_⟩
        · rw [hstores] at hget
          cases hget
        · rw [hstores]
    · have hstores : responseStores t (some text) msgLen fields offset userBufLen =
          linesStores t fields offset userBufLen 0 (messageRows fields text) := if_neg hrefused
      have hchecked : ∀ f ∈ fields, sizeChecked f = true := by
        have hall : fields.all sizeChecked = true := by
          by_contra hnot
          exact hrefused (.inr (.inr (.inr (eq_false_of_ne_true hnot))))
        exact List.all_eq_true.mp hall
      constructor
      · intro h
        have hpacked := (cleaned_iff hfirst).mp h.cleaned
        refine ⟨hpacked, fun text' htext _ => ?_⟩
        cases htext
        have hinside := h.inside
        have hreported := h.reported text rfl
        rw [hstores] at hinside hreported
        obtain ⟨hlast, hdefined⟩ := (rowsFailed_iff hpos).mp hreported
        exact ⟨(rowsInside_iff hchecked hpacked).mp hinside, hlast, hdefined⟩
      · intro h
        have hroom := h.room text rfl hrefused
        refine ⟨(cleaned_iff hfirst).mpr h.packed, ?_, fun text' htext => ?_⟩
        · rw [hstores]
          exact (rowsInside_iff hchecked h.packed).mpr hroom.fits
        · cases htext
          rw [hstores]
          exact (rowsFailed_iff hpos).mpr ⟨hroom.last, hroom.defined⟩

/-- The rows are parsed as their values are. -/
theorem linesStores_fst {lineIdx : Nat} {lines : List (List UInt8)} {out : Outputs} :
    (linesStores t fields offset userBufLen lineIdx lines).1 =
      (parseLines t.toPlatform fields userBufLen lineIdx lines out).map Prod.fst := by
  induction lines generalizing lineIdx out with
  | nil => rfl
  | cons line lines ih =>
    rw [linesStores, parseLines, parseFields_eq, lineSettings]
    rcases rowSettings t (allNames fields)
      (decide (userBufLen ≤ lineIdx * sizeOfStruct fields)) line 0
      fields none true with ⟨- | - | -, settings⟩
    · rfl
    · rfl
    · exact ih

/-- The call has the result that it has for the values. -/
theorem responseStores_fst {out : Outputs} :
    (responseStores t msg msgLen fields offset userBufLen).1 =
      (dwpaldHostapResponseParse t.toPlatform msg msgLen fields userBufLen out).map Prod.fst := by
  cases msg with
  | none => rfl
  | some text =>
    rw [responseStores, dwpaldHostapResponseParse]
    by_cases hempty : msgLen = 0
    · rw [if_pos (show Refused fields msgLen text from .inl hempty), if_pos hempty]
      rfl
    by_cases hshort : msgLen < min (cstr text).length hostapdToDwpalMsgLength
    · rw [if_pos (show Refused fields msgLen text from .inr (.inl hshort)), if_neg hempty,
        if_pos hshort]
      rfl
    by_cases hfail : (ascii "UNKNOWN").isPrefixOf (cstr text) ∨
      (ascii "FAIL").isPrefixOf (cstr text)
    · rw [if_pos (show Refused fields msgLen text from .inr (.inr (.inl hfail))), if_neg hempty,
        if_neg hshort, if_pos hfail]
      rfl
    by_cases hchecked : fields.all sizeChecked = false
    · rw [if_pos (show Refused fields msgLen text from .inr (.inr (.inr hchecked))), if_neg hempty,
        if_neg hshort, if_neg hfail, if_pos hchecked]
      rfl
    · rw [if_neg (show ¬Refused fields msgLen text by simp only [Refused]; tauto), if_neg hempty,
        if_neg hshort, if_neg hfail, if_neg hchecked]
      exact linesStores_fst

end Response

/-- A number of one byte and one of four, without names. -/
def twoNumbers : List FieldToParse :=
  [⟨true, false, .uint8, none, 0⟩, ⟨true, false, .int, none, 0⟩]

/-- The numbers lie one behind the other. -/
def twoPlaces : Nat → Nat
  | 0 => 0
  | _ => 1

theorem twoPlaces_le (i : Nat) (f : FieldToParse) (hf : twoNumbers[i]? = some f) :
    twoPlaces i + getFieldSize f ≤ 5 := by
  match i with
  | 0 =>
    cases hf
    decide
  | 1 =>
    cases hf
    decide
  | i + 2 => cases hf

/-- Two structures of five bytes in a buffer of ten. -/
theorem userBuffer_kept_two :
    (∀ i f, twoNumbers[i]? = some f → getFieldSize f ≠ 0 → twoPlaces i + getFieldSize f ≤ 10) ∧
      RowsKept target64 (some (ascii "1 2\n3 4")) 7 twoNumbers twoPlaces 10 := by
  have hfirst : ∀ i f, twoNumbers[i]? = some f → getFieldSize f ≠ 0 →
      twoPlaces i + getFieldSize f ≤ 10 :=
    fun i f hf _ => Nat.le_trans (twoPlaces_le i f hf) (by decide)
  refine ⟨hfirst, (userBuffer_kept hfirst).mpr ⟨fun i f hf _ => twoPlaces_le i f hf, ?_⟩⟩
  intro text htext _
  cases htext
  have hrows : messageRows twoNumbers (ascii "1 2\n3 4") = [ascii "1 2", ascii "3 4"] := by decide
  rw [hrows]
  refine ⟨fun r row hrow _ _ => ?_, .inl (by decide), fun hlt => absurd hlt (by decide)⟩
  match r with
  | 0 =>
    cases hrow
    decide
  | 1 =>
    cases hrow
    decide
  | r + 2 => cases hrow

/-- The second of two structures of five bytes is stored to a buffer of seven. -/
theorem secondStruct_overruns :
    (∀ i f, twoNumbers[i]? = some f → getFieldSize f ≠ 0 → twoPlaces i + getFieldSize f ≤ 7) ∧
      ¬RowsKept target64 (some (ascii "1 2\n3 4")) 7 twoNumbers twoPlaces 7 := by
  constructor
  · exact fun i f hf _ => Nat.le_trans (twoPlaces_le i f hf) (by decide)
  · intro h
    have hover :
        ((responseStores target64 (some (ascii "1 2\n3 4")) 7 twoNumbers twoPlaces 7).2[1]?.any
          fun stores => decide (Touches stores 7)) = true := by decide
    obtain ⟨stores, hstores, htouches⟩ := (Option.any_eq_true _ _).mp hover
    exact absurd (h.inside 1 stores hstores 7 (of_decide_eq_true htouches)).2.2 (by decide)

end Dwpal.Parse
