import Dwpal.Parse.Rows
import Dwpal.Parse.UserBuffer

/-! The structure that a row of a message leaves in the buffer of the caller, and the one that it
leaves as a message of its own: they are the same exactly when the bytes that the row does not store
are zero beforehand, since only the first structure is cleared. -/

namespace Dwpal.Parse

open CText Stores

/-- The buffer of the caller after the call. -/
def memoryAfter (t : Target) (msg : List UInt8) (msgLen : Nat) (fields : List FieldToParse)
    (offset : Nat → Nat) (userBufLen : Nat) (m : Memory UInt8) : Memory UInt8 :=
  runAll (cleanupStores offset 0 fields ++
    (responseStores t (some msg) msgLen fields offset userBufLen).2.flatten) m

/-- The fields describe a packed structure: one lies behind the other, in some order, without a
gap. -/
structure Packed (fields : List FieldToParse) (offset : Nat → Nat) : Prop where
  inside : ∀ i f, fields[i]? = some f → getFieldSize f ≠ 0 →
    offset i + getFieldSize f ≤ sizeOfStruct fields
  covered : ∀ k < sizeOfStruct fields, ∃ i f, fields[i]? = some f ∧ offset i ≤ k ∧
    k < offset i + getFieldSize f
  disjoint : ∀ i j f g, fields[i]? = some f → fields[j]? = some g → i ≠ j →
    getFieldSize f ≠ 0 → getFieldSize g ≠ 0 →
    offset i + getFieldSize f ≤ offset j ∨ offset j + getFieldSize g ≤ offset i

/-- Each row leaves the structure that it leaves as a message of its own, in a buffer with any
content. A field that is not set in a row is zero. -/
structure RowsAlone (t : Target) (msg : List UInt8) (msgLen : Nat) (fields : List FieldToParse)
    (offset : Nat → Nat) (userBufLen : Nat) (m : Memory UInt8) : Prop where
  alone : ∀ r row, (messageRows fields msg)[r]? = some row → ∀ m',
    (responseStores t (some row) row.length fields offset userBufLen).1 = some true ∧
    ∀ k < sizeOfStruct fields,
      memoryAfter t msg msgLen fields offset userBufLen m (r * sizeOfStruct fields + k) =
        memoryAfter t row row.length fields offset userBufLen m' k
  absent : ∀ r row, (messageRows fields msg)[r]? = some row → ∀ i f, fields[i]? = some f →
    (∀ s ∈ (roomySettings t fields row).2, s.place ≠ i) → ∀ k < getFieldSize f,
      memoryAfter t msg msgLen fields offset userBufLen m
        (r * sizeOfStruct fields + (offset i + k)) = 0

/-- The bytes of a structure that a row stores, and those behind it. -/
def rowTouches (t : Target) (fields : List FieldToParse) (offset : Nat → Nat) (row : List UInt8)
    (k : Nat) : Prop :=
  Touches (rowStores t offset 0 (roomySettings t fields row).2) k

/-- Rows that do not depend on one another: none is an answer that the parser refuses, and what a
row behind the first does not store is zero beforehand, but for the `int` of zero that the row in
front of it may store there. -/
structure RowsSeparate (t : Target) (fields : List FieldToParse) (offset : Nat → Nat)
    (m : Memory UInt8) (rows : List (List UInt8)) : Prop where
  noFailure : ∀ row ∈ rows, ¬((ascii "UNKNOWN").isPrefixOf row ∨ (ascii "FAIL").isPrefixOf row)
  zero : ∀ r row next, rows[r]? = some row → rows[r + 1]? = some next → ∀ k < sizeOfStruct fields,
    ¬rowTouches t fields offset next k → ¬rowTouches t fields offset row (sizeOfStruct fields + k) →
    m ((r + 1) * sizeOfStruct fields + k) = 0

section Setting

variable {t : Target} {type : FieldType} {total idx a : Nat} {params : List (List UInt8)}
  {store : Store UInt8} {s : Setting}

theorem mem_arrayLoop (h : store ∈ arrayLoop t type total idx params) :
    (∃ k param, idx + k < total ∧ store ∈ elementStores t type (idx + k) param) ∨
      store = ⟨4 * (idx + params.length), t.numBytes 4 0⟩ := by
  induction params generalizing idx with
  | nil =>
    rw [arrayLoop] at h
    split_ifs at h
    · exact .inr (List.mem_singleton.mp h)
    · cases h
  | cons param params ih =>
    rw [arrayLoop] at h
    rcases List.mem_append.mp h with h | h
    · split_ifs at h with hidx
      · exact .inl ⟨0, param, hidx, h⟩
      · cases h
    · rcases ih h with ⟨k, later, hk, hstore⟩ | hstore
      · rw [show idx + 1 + k = idx + (k + 1) by omega] at hk hstore
        exact .inl ⟨k + 1, later, hk, hstore⟩
      · rw [show idx + 1 + params.length = idx + (param :: params).length by
          rw [List.length_cons]
          omega] at hstore
        exact .inr hstore

/-- What a field that is set stores behind its end is zero. -/
theorem Setting.zero_behind (hchecked : sizeChecked s.field = true) (hfield : s.field.field = true)
    (hdummy : s.field.type ≠ .dummy) (hstore : store ∈ (s.stores t).2) (hcovers : store.Covers a)
    (hbehind : getFieldSize s.field ≤ a) : store.bytes[a - store.address]? = some 0 := by
  by_cases harray : s.field.type.isArray = true
  · have htotal : getFieldSize s.field = s.field.totalSizeOfArg := by
      cases htype : s.field.type <;> simp_all [getFieldSize, FieldType.isArray]
    have hloop : store ∈ arrayLoop t s.field.type (capacity s.field.type s.field.totalSizeOfArg) 0
        (readWords s.text) := by
      rw [Setting.stores, if_pos harray, arrayValuesStores_eq] at hstore
      exact hstore
    rcases mem_arrayLoop hloop with ⟨k, param, hk, hstore⟩ | rfl
    · have hlt := (elementStores_inside harray ⟨store, hstore, hcovers⟩).2
      have hmul : elementWidth s.field.type * (0 + k + 1) ≤
          elementWidth s.field.type * capacity s.field.type s.field.totalSizeOfArg :=
        Nat.mul_le_mul_left _ hk
      have hle := @capacity_mul_le s.field.totalSizeOfArg s.field.type
      omega
    · have hlt := hcovers.2
      rw [t.numBytes_zero] at hlt ⊢
      rw [List.length_replicate] at hlt
      have hle := hcovers.1
      rw [List.getElem?_replicate, if_pos (by omega)]
  · have hsize := getFieldSize_ne_zero hchecked hfield hdummy
    have hextent :=
      (@setFieldStores_extent t s.field s.text hfield (by simpa using harray) hsize).2.2
    rw [Setting.stores, if_neg harray] at hstore
    have hlt := Touches.lt_extent ⟨store, hstore, hcovers⟩
    omega

/-- A field that is set stores at most one `int` behind its end. -/
theorem Setting.extent_le_add (hchecked : sizeChecked s.field = true)
    (hfield : s.field.field = true) (hdummy : s.field.type ≠ .dummy) (hok : (s.stores t).1 = true) :
    extent (s.stores t).2 ≤ 2 * getFieldSize s.field := by
  by_cases htype : s.field.type = .intArray ∨ s.field.type = .hexArray
  · have hsize := getFieldSize_ne_zero hchecked hfield hdummy
    have harray : s.field.type.isArray = true := by rcases htype with h | h <;> rw [h] <;> rfl
    have hwidth : elementWidth s.field.type = 4 := by rcases htype with h | h <;> rw [h] <;> rfl
    have htotal : getFieldSize s.field = s.field.totalSizeOfArg := by
      rcases htype with h | h <;> simp [getFieldSize, hfield, h]
    have haligned : s.field.totalSizeOfArg % 4 = 0 := by
      rw [sizeChecked, hfield, htotal] at hchecked
      rcases htype with h | h <;> rw [h] at hchecked <;>
        exact of_decide_eq_true (Bool.and_eq_true_iff.mp hchecked).2
    rw [Setting.stores, if_pos harray, arrayValuesStores_eq] at hok
    have hmany : (readWords s.text).length ≤ s.field.totalSizeOfArg / 4 := by
      rw [← hwidth]
      exact of_decide_eq_true hok
    rw [Setting.extent_intArray htype]
    omega
  · have hle := s.extent_le (t := t) hchecked hfield hdummy htype
    omega

end Setting

section Rows

variable {t : Target} {fields : List FieldToParse} {offset : Nat → Nat} {userBufLen r k : Nat}
  {lines : List (List UInt8)} {row next : List UInt8} {m : Memory UInt8}

theorem rowStores_shift {base : Nat} {settings : List Setting} :
    rowStores t offset base settings = (rowStores t offset 0 settings).map (Store.shift base) := by
  simp only [rowStores, List.map_flatMap, List.map_map, Nat.zero_add]
  refine List.flatMap_congr fun s _ => List.map_congr_left fun store _ => ?_
  exact shift_shift.symm

/-- A row that is parsed stores no further than the next structure reaches, and only zeros behind
its own. -/
theorem rowStores_reach (hpacked : Packed fields offset)
    (hchecked : ∀ f ∈ fields, sizeChecked f = true)
    (hok : (roomySettings t fields row).1 = some true) :
    (rowTouches t fields offset row k → k < 2 * sizeOfStruct fields) ∧
      (sizeOfStruct fields ≤ k → ∀ store ∈ rowStores t offset 0 (roomySettings t fields row).2,
        store.Covers k → store.bytes[k - store.address]? = some 0) := by
  have hplace : ∀ s ∈ (roomySettings t fields row).2, s.field.field = true ∧ s.field.type ≠ .dummy ∧
      sizeChecked s.field = true ∧
      offset s.place + getFieldSize s.field ≤ sizeOfStruct fields := by
    intro s hs
    obtain ⟨hfield, hdummy, hget⟩ := roomySettings_mem hs
    have hcheck := hchecked _ (List.mem_of_getElem? hget)
    exact ⟨hfield, hdummy, hcheck,
      hpacked.inside _ _ hget (getFieldSize_ne_zero hcheck hfield hdummy)⟩
  constructor
  · intro htouches
    obtain ⟨s, hs, htouches⟩ := touches_flatMap.mp htouches
    obtain ⟨hle, htouches⟩ := touches_shift.mp htouches
    obtain ⟨hfield, hdummy, hcheck, hin⟩ := hplace s hs
    have hextent := s.extent_le_add hcheck hfield hdummy (rowSettings_ok hok hs)
    have hlt := htouches.lt_extent
    omega
  · intro hbehind store hstore hcovers
    obtain ⟨s, hs, hstore⟩ := List.mem_flatMap.mp hstore
    obtain ⟨store, hmem, rfl⟩ := List.mem_map.mp hstore
    obtain ⟨hfield, hdummy, hcheck, hin⟩ := hplace s hs
    obtain ⟨hle, hcovers⟩ := Store.covers_shift.mp hcovers
    have hzero := s.zero_behind hcheck hfield hdummy hmem hcovers (by omega)
    rw [Store.shift_bytes]
    change store.bytes[k - (0 + offset s.place + store.address)]? = some 0
    rw [← Nat.sub_sub]
    exact hzero

/-- The rows are parsed, each inside the buffer. -/
def RowsParsed (t : Target) (fields : List FieldToParse) (userBufLen : Nat)
    (lines : List (List UInt8)) : Prop :=
  ∀ r row, lines[r]? = some row → lineSettings t fields userBufLen row r =
    roomySettings t fields row ∧ (roomySettings t fields row).1 = some true

theorem RowsParsed.get (hrows : RowsParsed t fields userBufLen lines)
    {stores : List (Store UInt8)} :
    (linesStores t fields offset userBufLen 0 lines).2[r]? = some stores ↔
      ∃ row, lines[r]? = some row ∧
      stores = (rowStores t offset 0 (roomySettings t fields row).2).map
        (Store.shift (r * sizeOfStruct fields)) := by
  rw [linesStores_get]
  refine exists_congr fun row => and_congr_right fun hrow => ?_
  rw [Nat.zero_add, (hrows r row hrow).1, rowStores_shift]
  refine and_iff_right fun k _ earlier hearlier => ?_
  obtain ⟨heq, hok⟩ := hrows k earlier hearlier
  rw [Nat.zero_add, heq]
  exact hok

/-- The rows behind a row leave its structure alone. -/
theorem RowsParsed.structure (hrows : RowsParsed t fields userBufLen lines)
    (hrow : lines[r]? = some row) (hk : k < sizeOfStruct fields) :
    ∃ before : Memory UInt8,
      runAll (linesStores t fields offset userBufLen 0 lines).2.flatten m
          (r * sizeOfStruct fields + k) =
        runAll (rowStores t offset 0 (roomySettings t fields row).2) before k ∧
      before k = runAll ((linesStores t fields offset userBufLen 0 lines).2.take r).flatten m
        (r * sizeOfStruct fields + k) := by
  have hget := fun j stores => @RowsParsed.get t fields offset userBufLen j lines hrows stores
  generalize (linesStores t fields offset userBufLen 0 lines).2 = out at hget ⊢
  obtain ⟨hlt, hstores⟩ := List.getElem?_eq_some_iff.mp ((hget r _).mpr ⟨row, hrow, rfl⟩)
  have hsplit : out = out.take r ++ out[r] :: out.drop (r + 1) := by
    rw [← List.drop_eq_getElem_cons hlt, List.take_append_drop]
  have hlater : ¬Touches (out.drop (r + 1)).flatten (r * sizeOfStruct fields + k) := by
    intro h
    obtain ⟨stores, hmem, htouches⟩ := touches_flatten.mp h
    obtain ⟨j, hj⟩ := List.getElem?_of_mem hmem
    rw [List.getElem?_drop] at hj
    obtain ⟨later, -, rfl⟩ := (hget _ _).mp hj
    have hle := (touches_shift.mp htouches).1
    have hmul : (r + 1) * sizeOfStruct fields ≤ (r + 1 + j) * sizeOfStruct fields :=
      Nat.mul_le_mul_right _ (by omega)
    rw [Nat.succ_mul] at hmul
    omega
  refine ⟨fun x => runAll (out.take r).flatten m (r * sizeOfStruct fields + x), ?_, rfl⟩
  conv_lhs =>
    rw [hsplit, List.flatten_append, List.flatten_cons, runAll_append, runAll_append,
      runAll_of_not_touches hlater, hstores, runAll_shift]

/-- Of the rows in front of a row only the last one reaches into its structure, with zeros. -/
theorem RowsParsed.before (hrows : RowsParsed t fields userBufLen lines)
    (hpacked : Packed fields offset) (hchecked : ∀ f ∈ fields, sizeChecked f = true)
    (hrow : lines[r]? = some row) :
    (rowTouches t fields offset row (sizeOfStruct fields + k) →
      runAll ((linesStores t fields offset userBufLen 0 lines).2.take (r + 1)).flatten m
        ((r + 1) * sizeOfStruct fields + k) = 0) ∧
    (¬rowTouches t fields offset row (sizeOfStruct fields + k) →
      runAll ((linesStores t fields offset userBufLen 0 lines).2.take (r + 1)).flatten m
        ((r + 1) * sizeOfStruct fields + k) = m ((r + 1) * sizeOfStruct fields + k)) := by
  have hget := fun j stores => @RowsParsed.get t fields offset userBufLen j lines hrows stores
  generalize (linesStores t fields offset userBufLen 0 lines).2 = out at hget ⊢
  -- a store of a row in front of the structure is one of the row before, behind that row's
  -- structure
  have hlast : ∀ stores ∈ out.take (r + 1), ∀ store ∈ stores,
      store.Covers ((r + 1) * sizeOfStruct fields + k) →
      rowTouches t fields offset row (sizeOfStruct fields + k) ∧
        store.bytes[(r + 1) * sizeOfStruct fields + k - store.address]? = some 0 := by
    intro stores hmem store hstore hcovers
    obtain ⟨j, hj, hj'⟩ := List.mem_take_iff_getElem.mp hmem
    obtain ⟨earlier, hearlier, rfl⟩ :=
      (hget j stores).mp (List.getElem?_eq_some_iff.mpr ⟨by omega, hj'⟩)
    obtain ⟨store, hinner, rfl⟩ := List.mem_map.mp hstore
    obtain ⟨hle, hcovers⟩ := Store.covers_shift.mp hcovers
    obtain ⟨hreach, hzero⟩ := @rowStores_reach t fields offset
      ((r + 1) * sizeOfStruct fields + k - j * sizeOfStruct fields) earlier hpacked hchecked
      (hrows j earlier hearlier).2
    have htouches := hreach ⟨store, hinner, hcovers⟩
    obtain rfl : j = r := by
      by_contra hne
      have hmul : (j + 1) * sizeOfStruct fields ≤ r * sizeOfStruct fields :=
        Nat.mul_le_mul_right _ (by omega)
      rw [Nat.succ_mul] at hmul htouches
      omega
    obtain rfl : earlier = row := Option.some.inj (hearlier.symm.trans hrow)
    have hbehind : (j + 1) * sizeOfStruct fields + k - j * sizeOfStruct fields =
        sizeOfStruct fields + k := by
      rw [Nat.succ_mul]
      omega
    rw [hbehind] at hcovers hzero
    refine ⟨⟨store, hinner, hcovers⟩, ?_⟩
    rw [Store.shift_bytes]
    change store.bytes[(j + 1) * sizeOfStruct
      fields + k - (j * sizeOfStruct fields + store.address)]? = _
    rw [← Nat.sub_sub, hbehind]
    exact hzero (Nat.le_add_right ..) store hinner hcovers
  constructor
  · intro htouches
    have hreached : Touches (out.take (r + 1)).flatten ((r + 1) * sizeOfStruct fields + k) := by
      obtain ⟨hlt, hstores⟩ := List.getElem?_eq_some_iff.mp ((hget r _).mpr ⟨row, hrow, rfl⟩)
      refine touches_flatten.mpr ⟨_, List.mem_take_iff_getElem.mpr ⟨r, by omega, hstores⟩,
        touches_shift.mpr ?_⟩
      rw [Nat.succ_mul, Nat.add_assoc, Nat.add_sub_cancel_left]
      exact ⟨Nat.le_add_right .., htouches⟩
    have hcongr : runAll (out.take (r + 1)).flatten m ((r + 1) * sizeOfStruct fields + k) =
        runAll (out.take (r + 1)).flatten (fun _ => 0) ((r + 1) * sizeOfStruct fields + k) :=
      runAll_congr hreached
    rw [hcongr]
    refine runAll_const (fun store hstore hcovers => ?_) rfl
    obtain ⟨stores, hmem, hstore⟩ := List.mem_flatten.mp hstore
    exact (hlast stores hmem store hstore hcovers).2
  · intro hnot
    refine runAll_of_not_touches fun htouches => ?_
    obtain ⟨stores, hmem, store, hstore, hcovers⟩ := touches_flatten.mp htouches
    exact hnot (hlast stores hmem store hstore hcovers).1

theorem cleanupStores_zero {i : Nat} {store : Store UInt8}
    (h : store ∈ cleanupStores offset i fields) : ∀ b ∈ store.bytes, b = 0 := by
  induction fields generalizing i with
  | nil => cases h
  | cons f fields ih =>
    rw [cleanupStores] at h
    rcases List.mem_append.mp h with h | h
    · split_ifs at h
      · rw [List.mem_singleton.mp h]
        exact fun b hb => List.eq_of_mem_replicate hb
      · cases h
    · exact ih h

/-- The first structure is cleared, and nothing behind it. -/
theorem cleanup_memory (hpacked : Packed fields offset) :
    (k < sizeOfStruct fields → runAll (cleanupStores offset 0 fields) m k = 0) ∧
    (sizeOfStruct fields ≤ k → runAll (cleanupStores offset 0 fields) m k = m k) := by
  constructor
  · intro hk
    obtain ⟨i, f, hf, hle, hlt⟩ := hpacked.covered k hk
    have htouches : Touches (cleanupStores offset 0 fields) k :=
      touches_cleanupStores.mpr ⟨i, f, hf, by rwa [Nat.zero_add], by rwa [Nat.zero_add]⟩
    have hcongr : runAll (cleanupStores offset 0 fields) m k =
        runAll (cleanupStores offset 0 fields) (fun _ => 0) k := runAll_congr htouches
    rw [hcongr]
    refine runAll_const (fun store hstore hcovers => ?_) rfl
    have hin : k - store.address < store.bytes.length := by
      have hle := hcovers.1
      have hlt := hcovers.2
      omega
    rw [List.getElem?_eq_getElem hin, cleanupStores_zero hstore _ (List.getElem_mem hin)]
  · intro hk
    refine runAll_of_not_touches fun htouches => ?_
    obtain ⟨i, f, hf, hle, hlt⟩ := touches_cleanupStores.mp htouches
    have hin := hpacked.inside i f hf (by omega)
    rw [Nat.zero_add] at hle hlt
    omega

end Rows

section Message

variable {t : Target} {fields : List FieldToParse} {offset : Nat → Nat}
  {userBufLen msgLen r k : Nat} {msg row : List UInt8} {m : Memory UInt8}

/-- A call that succeeds: the message is not refused, and its rows are parsed. -/
theorem responseStores_ok
    (hok : (responseStores t (some msg) msgLen fields offset userBufLen).1 = some true) :
    (∀ f ∈ fields, sizeChecked f = true) ∧
    responseStores t (some msg) msgLen fields offset userBufLen =
      linesStores t fields offset userBufLen 0 (messageRows fields msg) ∧
    ∀ r row, (messageRows fields msg)[r]? = some row →
      (lineSettings t fields userBufLen row r).1 = some true := by
  by_cases hrefused : Refused fields msgLen msg
  · rw [responseStores, if_pos hrefused] at hok
    cases hok
  · have heq : responseStores t (some msg) msgLen fields offset userBufLen =
        linesStores t fields offset userBufLen 0 (messageRows fields msg) := if_neg hrefused
    have hall : fields.all sizeChecked = true := by
      by_contra hnot
      exact hrefused (.inr (.inr (.inr (eq_false_of_ne_true hnot))))
    refine ⟨List.all_eq_true.mp hall, heq, fun r row hrow => ?_⟩
    rw [heq, linesStores_ok] at hok
    have hrow := hok r row hrow
    rwa [Nat.zero_add] at hrow

theorem rowsParsed_of_ok (hpos : 0 < sizeOfStruct fields)
    (hok : (responseStores t (some msg) msgLen fields offset userBufLen).1 = some true) :
    RowsParsed t fields userBufLen (messageRows fields msg) := by
  intro r row hrow
  have hparsed := (responseStores_ok hok).2.2 r row hrow
  have hlt : r * sizeOfStruct fields < userBufLen := by
    by_contra hle
    exact lineSettings_of_le hpos (by omega) hparsed
  rw [lineSettings_of_lt hlt] at hparsed
  exact ⟨lineSettings_of_lt hlt, hparsed⟩

/-- A byte of the structure of a row: as the row stores it; else zero in the first structure, or
where the row in front stores the zero behind its last array; else what it was before the call. -/
theorem rowMemory (hpacked : Packed fields offset)
    (hok : (responseStores t (some msg) msgLen fields offset userBufLen).1 = some true)
    (hrow : (messageRows fields msg)[r]? = some row) (hk : k < sizeOfStruct fields) :
    (rowTouches t fields offset row k → ∀ m',
      memoryAfter t msg msgLen fields offset userBufLen m (r * sizeOfStruct fields + k) =
        runAll (rowStores t offset 0 (roomySettings t fields row).2) m' k) ∧
    (¬rowTouches t fields offset row k →
      (r = 0 → memoryAfter t msg msgLen fields offset userBufLen m
        (r * sizeOfStruct fields + k) = 0) ∧
      ∀ r' earlier, r = r' + 1 → (messageRows fields msg)[r']? = some earlier →
        (rowTouches t fields offset earlier (sizeOfStruct fields + k) →
          memoryAfter t msg msgLen fields offset userBufLen m (r * sizeOfStruct fields + k) = 0) ∧
        (¬rowTouches t fields offset earlier (sizeOfStruct fields + k) →
          memoryAfter t msg msgLen fields offset userBufLen m (r * sizeOfStruct fields + k) =
            m (r * sizeOfStruct fields + k))) := by
  have hrows := rowsParsed_of_ok (Nat.zero_lt_of_lt hk) hok
  obtain ⟨hchecked, heq, -⟩ := responseStores_ok hok
  obtain ⟨before, hmemory, hbefore⟩ := @RowsParsed.structure t fields offset userBufLen r k
    (messageRows fields msg) row (runAll (cleanupStores offset 0 fields) m) hrows hrow hk
  have hvalue : memoryAfter t msg msgLen fields offset userBufLen m (r * sizeOfStruct fields + k) =
      runAll (rowStores t offset 0 (roomySettings t fields row).2) before k := by
    rw [memoryAfter, heq, runAll_append]
    exact hmemory
  refine ⟨fun htouches m' => hvalue.trans (runAll_congr htouches), fun hnot => ?_⟩
  rw [hvalue, runAll_of_not_touches hnot, hbefore]
  constructor
  · rintro rfl
    rw [List.take_zero, List.flatten_nil, runAll_nil, Nat.zero_mul, Nat.zero_add]
    exact (cleanup_memory hpacked).1 hk
  · rintro r' earlier rfl hearlier
    obtain ⟨hreached, hleft⟩ := @RowsParsed.before t fields offset userBufLen r' k
      (messageRows fields msg) earlier (runAll (cleanupStores offset 0 fields) m) hrows hpacked
      hchecked
      hearlier
    refine ⟨hreached, fun hfree => (hleft hfree).trans ((cleanup_memory hpacked).2 ?_)⟩
    rw [Nat.succ_mul]
    omega

/-- A row of a message that is no answer which the parser refuses is parsed as a message of its
own. -/
theorem aloneParsed (hok : (responseStores t (some msg) msgLen fields offset userBufLen).1 =
    some true) (hrow : (messageRows fields msg)[r]? = some row)
    (hfail : ¬((ascii "UNKNOWN").isPrefixOf row ∨ (ascii "FAIL").isPrefixOf row)) :
    (responseStores t (some row) row.length fields offset userBufLen).1 = some true := by
  have hmem := List.mem_of_getElem? hrow
  obtain ⟨hne, hlimit, hself⟩ := messageRows_self hmem
  obtain ⟨hchecked, -, hparsed⟩ := responseStores_ok hok
  have hcstr : cstr row = row := cstr_of_notMem (zero_notMem_messageRows hmem)
  have haccepted : ¬Refused fields row.length row := by
    rintro (hempty | hshort | hfailed | hsize)
    · exact hne (List.length_eq_zero_iff.mp hempty)
    · rw [hcstr] at hshort
      omega
    · rw [hcstr] at hfailed
      exact hfail hfailed
    · rw [List.all_eq_true.mpr hchecked] at hsize
      cases hsize
  rw [responseStores, if_neg haccepted, hself, linesStores_ok]
  intro k row' hget
  cases k with
  | zero =>
    cases hget
    have hok := hparsed r row hrow
    by_cases hpos : 0 < sizeOfStruct fields
    · have hlt : r * sizeOfStruct fields < userBufLen := by
        by_contra hle
        exact lineSettings_of_le hpos (by omega) hok
      rw [lineSettings_of_lt (by omega)]
      rwa [lineSettings_of_lt hlt] at hok
    · have hzero : sizeOfStruct fields = 0 := by omega
      rw [lineSettings, hzero, Nat.mul_zero] at hok ⊢
      exact hok
  | succ k => cases hget

/-- What the fields that are set store to one that is not is zero. -/
theorem absent_zero (hpacked : Packed fields offset) (hchecked : ∀ f ∈ fields, sizeChecked f = true)
    {i : Nat} {f : FieldToParse} (hf : fields[i]? = some f) (hk : k < getFieldSize f)
    (hnot : ∀ s ∈ (roomySettings t fields row).2, s.place ≠ i) :
    ∀ store ∈ rowStores t offset 0 (roomySettings t fields row).2, store.Covers (offset i + k) →
      store.bytes[offset i + k - store.address]? = some 0 := by
  intro store hstore hcovers
  obtain ⟨s, hs, hstore⟩ := List.mem_flatMap.mp hstore
  obtain ⟨store, hinner, rfl⟩ := List.mem_map.mp hstore
  obtain ⟨hfield, hdummy, hget⟩ := roomySettings_mem hs
  have hcheck := hchecked _ (List.mem_of_getElem? hget)
  have hsize := getFieldSize_ne_zero hcheck hfield hdummy
  obtain ⟨hle, hcovers⟩ := Store.covers_shift.mp hcovers
  have happart := hpacked.disjoint _ _ _ _ hget hf (hnot s hs) hsize (by omega)
  have hzero := s.zero_behind hcheck hfield hdummy hinner hcovers (by omega)
  rw [Store.shift_bytes]
  change store.bytes[offset i + k - (0 + offset s.place + store.address)]? = some 0
  rw [← Nat.sub_sub]
  exact hzero

/-- When the call succeeds, each row leaves the structure that it leaves as a message of its own if
and only if the rows are separate. -/
theorem rows_independent (hpacked : Packed fields offset)
    (hok : (responseStores t (some msg) msgLen fields offset userBufLen).1 = some true) :
    RowsAlone t msg msgLen fields offset userBufLen m ↔
      RowsSeparate t fields offset m (messageRows fields msg) := by
  constructor
  · intro h
    constructor
    · intro row hmem hfail
      obtain ⟨r, hrow⟩ := List.getElem?_of_mem hmem
      have halone := (h.alone r row hrow m).1
      rw [responseStores, if_pos] at halone
      · cases halone
      · refine .inr (.inr (.inl ?_))
        rwa [cstr_of_notMem (zero_notMem_messageRows hmem)]
    · intro r row next hrow hnext k hk hfree hfree'
      obtain ⟨halone, hsame⟩ := h.alone (r + 1) next hnext m
      have hself := (messageRows_self (List.mem_of_getElem? hnext)).2.2
      have hget : (messageRows fields next)[0]? = some next := by rw [hself]; rfl
      have hzero := (((rowMemory (m := m) hpacked halone hget hk).2 hfree).1 rfl)
      rw [Nat.zero_mul, Nat.zero_add] at hzero
      have hleft := (((rowMemory (m := m) hpacked hok hnext hk).2 hfree).2 r row rfl hrow).2 hfree'
      rw [← hleft, hsame k hk, hzero]
  · intro h
    have halone : ∀ r row, (messageRows fields msg)[r]? = some row → ∀ m',
        (responseStores t (some row) row.length fields offset userBufLen).1 = some true ∧
        ∀ k < sizeOfStruct fields,
          memoryAfter t msg msgLen fields offset userBufLen m (r * sizeOfStruct fields + k) =
            memoryAfter t row row.length fields offset userBufLen m' k := by
      intro r row hrow m'
      have hmem := List.mem_of_getElem? hrow
      have hparsed := aloneParsed hok hrow (h.noFailure row hmem)
      have hget : (messageRows fields row)[0]? = some row := by
        rw [(messageRows_self hmem).2.2]; rfl
      refine ⟨hparsed, fun k hk => ?_⟩
      obtain ⟨hset, hfree⟩ := rowMemory (m := m) hpacked hok hrow hk
      obtain ⟨hset', hfree'⟩ := rowMemory (m := m') hpacked hparsed hget hk
      rw [Nat.zero_mul, Nat.zero_add] at hset' hfree'
      by_cases htouches : rowTouches t fields offset row k
      · rw [hset htouches m, hset' htouches m]
      rw [(hfree' htouches).1 rfl]
      cases r with
      | zero => exact (hfree htouches).1 rfl
      | succ r =>
        obtain ⟨earlier, hearlier⟩ : ∃ earlier, (messageRows fields msg)[r]? = some earlier :=
          ⟨_, List.getElem?_eq_getElem (Nat.lt_of_succ_lt (List.getElem?_eq_some_iff.mp hrow).1)⟩
        obtain ⟨hreached, hleft⟩ := (hfree htouches).2 r earlier rfl hearlier
        by_cases hreach : rowTouches t fields offset earlier (sizeOfStruct fields + k)
        · exact hreached hreach
        · rw [hleft hreach]
          exact h.zero r earlier row hearlier hrow k hk htouches hreach
    refine ⟨halone, fun r row hrow i f hf hnot k hk => ?_⟩
    have hin := hpacked.inside i f hf (by omega)
    have hmem := List.mem_of_getElem? hrow
    have hparsed := aloneParsed hok hrow (h.noFailure row hmem)
    have hget : (messageRows fields row)[0]? = some row := by rw [(messageRows_self hmem).2.2]; rfl
    obtain ⟨hset, hfree⟩ := rowMemory (m := m) hpacked hparsed hget (k := offset i + k) (by omega)
    rw [Nat.zero_mul, Nat.zero_add] at hset hfree
    rw [(halone r row hrow m).2 (offset i + k) (by omega)]
    by_cases htouches : rowTouches t fields offset row (offset i + k)
    · rw [hset htouches (fun _ => 0)]
      exact runAll_const (absent_zero hpacked (responseStores_ok hok).1 hf hk hnot) rfl
    · exact (hfree htouches).1 rfl

end Message

/-- Two numbers of one byte with names. -/
def twoNamed : List FieldToParse :=
  [⟨true, false, .uint8, some (ascii "a="), 0⟩, ⟨true, false, .uint8, some (ascii "b="), 0⟩]

theorem twoNamed_size (i : Nat) (f : FieldToParse) (hf : twoNamed[i]? = some f) :
    i < 2 ∧ getFieldSize f = 1 := by
  match i with
  | 0 =>
    cases hf
    decide
  | 1 =>
    cases hf
    decide
  | i + 2 => cases hf

theorem twoNamed_packed : Packed twoNamed id where
  inside i f hf _ := by
    obtain ⟨hlt, hsize⟩ := twoNamed_size i f hf
    rw [hsize]
    exact hlt
  covered k hk := by
    have hlt : k < twoNamed.length := hk
    have hf := List.getElem?_eq_getElem hlt
    refine ⟨k, _, hf, Nat.le_refl _, ?_⟩
    rw [(twoNamed_size k _ hf).2]
    exact Nat.lt_succ_self _
  disjoint i j f g hf hg hne _ _ := by
    rw [(twoNamed_size i f hf).2, (twoNamed_size j g hg).2]
    change i + 1 ≤ j ∨ j + 1 ≤ i
    omega

/-- Two rows with both fields. -/
theorem rows_independent_two :
    RowsAlone target64 (ascii "a=1 b=2\na=3 b=4") 15 twoNamed id 4 (fun _ => 9) := by
  refine (rows_independent twoNamed_packed (by decide)).mpr ?_
  have hrows : messageRows twoNamed (ascii "a=1 b=2\na=3 b=4") =
      [ascii "a=1 b=2", ascii "a=3 b=4"] := by
    decide
  rw [hrows]
  refine ⟨by decide, fun r row next _ hnext k hk hfree => ?_⟩
  match r with
  | 0 =>
    cases hnext
    have hset : ∀ k < 2, Touches (rowStores target64 id 0
        (roomySettings target64 twoNamed (ascii "a=3 b=4")).2) k := by decide
    exact absurd (hset k hk) hfree
  | r + 1 => cases hnext

/-- The second row has no second field: the byte there keeps what it was before the call. -/
theorem absentField_stale : Packed twoNamed id ∧
    (responseStores target64 (some (ascii "a=1 b=2\na=3")) 11 twoNamed id 4).1 = some true ∧
    ¬RowsAlone target64 (ascii "a=1 b=2\na=3") 11 twoNamed id 4 (fun _ => 9) := by
  refine ⟨twoNamed_packed, by decide, fun h => ?_⟩
  have hzero := h.absent 1 (ascii "a=3") (by decide) 1 _ rfl (by decide) 0 (by decide)
  have hstale : memoryAfter target64 (ascii "a=1 b=2\na=3") 11 twoNamed id 4 (fun _ => 9)
      (1 * sizeOfStruct twoNamed + (id 1 + 0)) = 9 := by decide
  rw [hstale] at hzero
  exact absurd hzero (by decide)

end Dwpal.Parse
