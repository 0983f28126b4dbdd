import Dwpal.Parse.FieldStores

/-! `arrayValuesGet` stores the words of a text in the array of the caller: exactly when it does,
given the `int` of zero that it stores behind the last element, and the part of the text that it
reads. -/

namespace Dwpal.Parse

open CText Stores

/-- The words of a text that `strtok_s` finds in it. -/
def readWords (text : List UInt8) : List (List UInt8) :=
  words blank (readable blank dwpalToHostapdMsgLength text)

/-- How many elements an array has. -/
def capacity (type : FieldType) (totalSizeOfArg : Nat) : Nat := totalSizeOfArg / elementWidth type

/-- The words of a text are the elements of the array of the caller: exactly those that it has room
for are stored and counted, no byte behind the array is written, and it fails exactly for more words
than that. -/
structure StoresWords (t : Target) (text : List UInt8) (totalSizeOfArg : Nat) (type : FieldType) :
    Prop where
  failed : (arrayValuesStores t text totalSizeOfArg type).1 = false ↔
    capacity type totalSizeOfArg < (words blank text).length
  counted : (arrayValuesStores t text totalSizeOfArg type).2.2 =
    min (words blank text).length (capacity type totalSizeOfArg)
  inside : ∀ a, Touches (arrayValuesStores t text totalSizeOfArg type).2.1 a → a < totalSizeOfArg
  stored : ∀ m i param, (words blank text)[i]? = some param → i < capacity type totalSizeOfArg →
    bytesAt (runAll (arrayValuesStores t text totalSizeOfArg type).2.1 m) (elementWidth type * i)
      (elementBytes t type param).length = elementBytes t type param

/-- There is room for the `int` of zero behind the words that are found. All words are found, or
more than there are elements. The first string ends before the `int` of zero. -/
structure WordsFit (text : List UInt8) (totalSizeOfArg : Nat) (type : FieldType) : Prop where
  room : 4 * ((readWords text).length + 1) ≤ totalSizeOfArg
  found : (readWords text).length = (words blank text).length ∨
    capacity type totalSizeOfArg < (readWords text).length
  firstString : type = .strArray → 0 < capacity type totalSizeOfArg →
    ∀ first ∈ (words blank text).head?, first.length ≤ 4 * (readWords text).length

section Words

variable {text param : List UInt8}

theorem tokens_eq_readWords :
    tokens blank dwpalMaxNumOfElements (min text.length dwpalToHostapdMsgLength) text =
      readWords text := by
  rw [tokens_eq_words_readable (Nat.lt_of_le_of_lt (Nat.min_le_right ..) (by decide)), readWords,
    readable, readable]
  by_cases hshort : text.length ≤ dwpalToHostapdMsgLength
  · rw [Nat.min_eq_left hshort, if_pos (Nat.le_refl _), if_pos hshort]
  · rw [Nat.min_eq_right (Nat.le_of_not_le hshort)]

/-- The loop always comes to the end of the words. -/
theorem length_readWords_lt : (readWords text).length < dwpalMaxNumOfElements := by
  have hle := @length_tokens_le blank text dwpalMaxNumOfElements
    (min text.length dwpalToHostapdMsgLength)
  have hdmax := Nat.min_le_right text.length dwpalToHostapdMsgLength
  rw [tokens_eq_readWords] at hle
  rw [dwpalMaxNumOfElements]
  rw [dwpalToHostapdMsgLength] at hle hdmax
  omega

theorem length_le_of_mem_readWords (h : param ∈ readWords text) :
    param.length ≤ dwpalToHostapdMsgLength := by
  rw [← tokens_eq_readWords] at h
  exact Nat.le_trans (of_mem_tokens h).2.2 (Nat.min_le_right ..)

theorem readWords_leading : readWords text <+: words blank text := words_readable_leading _

end Words

section Loop

variable {t : Target} {type : FieldType} {total idx a k j : Nat} {param : List UInt8}
  {params : List (List UInt8)} {m : Memory UInt8} {b : UInt8}

/-- An element is stored in its own place. -/
theorem elementStores_inside (harray : type.isArray = true)
    (h : Touches (elementStores t type idx param) a) :
    elementWidth type * idx ≤ a ∧ a < elementWidth type * (idx + 1) := by
  have hint : Touches [⟨4 * idx, elementBytes t type param⟩] a →
      (elementBytes t type param).length = 4 → 4 * idx ≤ a ∧ a < 4 * (idx + 1) := by
    intro htouches hlen
    simp only [touches_cons, not_touches_nil, or_false, Store.Covers, hlen] at htouches
    omega
  cases type with
  | intArray => exact hint h (t.length_numBytes ..)
  | hexArray => exact hint h (t.length_numBytes ..)
  | strArray =>
    obtain ⟨hle, htouches⟩ := touches_shift.mp h
    have hlt := strncpyStores_inside htouches
    rw [elementWidth, if_pos rfl, Nat.mul_comm, Nat.mul_comm _ (idx + 1), Nat.succ_mul]
    omega
  | _ => cases harray

/-- An element is stored with the bytes of its word. -/
theorem elementStores_bytes (harray : type.isArray = true)
    (hparam : param.length < hostapdToDwpalValueStringLength)
    (hb : (elementBytes t type param)[j]? = some b) :
    runAll (elementStores t type idx param) m (elementWidth type * idx + j) = b := by
  cases type with
  | intArray => exact Store.run_of_covers (s := ⟨4 * idx, _⟩) hb
  | hexArray => exact Store.run_of_covers (s := ⟨4 * idx, _⟩) hb
  | strArray =>
    change runAll ((strcpyStores t hostapdToDwpalValueStringLength param).2.map
      (Store.shift (idx * hostapdToDwpalValueStringLength))) m
      (hostapdToDwpalValueStringLength * idx + j) = b
    rw [Nat.mul_comm, runAll_shift, ← Nat.zero_add j]
    exact bytesAt_eq_iff.mp (strcpyStores_bytes hparam) j b hb
  | _ => cases harray

theorem touches_arrayLoop : Touches (arrayLoop t type total idx params) a ↔
    (∃ k param, params[k]? = some param ∧ idx + k < total ∧
      Touches (elementStores t type (idx + k) param) a) ∨
    idx + params.length < dwpalMaxNumOfElements ∧ 4 * (idx + params.length) ≤ a ∧
      a < 4 * (idx + params.length) + 4 := by
  induction params generalizing idx with
  | nil =>
    rw [arrayLoop]
    split_ifs with hidx
    · simp [Store.Covers, t.length_numBytes, hidx]
    · simp [hidx]
  | cons param params ih =>
    have hfirst : Touches (if idx < total then elementStores t type idx param else []) a ↔
        idx < total ∧ Touches (elementStores t type idx param) a := by
      split_ifs with hidx <;> simp [hidx]
    rw [arrayLoop, touches_append, ih, hfirst, List.length_cons, ← or_assoc,
      show idx + 1 + params.length = idx + (params.length + 1) by omega]
    refine or_congr_left ⟨?_, ?_⟩
    · rintro (⟨hidx, htouches⟩ | ⟨k, later, hlater, hk, htouches⟩)
      · exact ⟨0, param, rfl, hidx, htouches⟩
      · rw [show idx + 1 + k = idx + (k + 1) by omega] at hk htouches
        exact ⟨k + 1, later, hlater, hk, htouches⟩
    · rintro ⟨k, later, hlater, hk, htouches⟩
      cases k with
      | zero =>
        cases hlater
        exact .inl ⟨hk, htouches⟩
      | succ k =>
        rw [show idx + (k + 1) = idx + 1 + k by omega] at hk htouches
        exact .inr ⟨k, later, hlater, hk, htouches⟩

/-- The last store is the `int` of zero behind the words. -/
theorem arrayLoop_end (hend : idx + params.length < dwpalMaxNumOfElements)
    (hlow : 4 * (idx + params.length) ≤ a) (hhigh : a < 4 * (idx + params.length) + 4) :
    runAll (arrayLoop t type total idx params) m a = 0 := by
  induction params generalizing idx m with
  | nil =>
    rw [List.length_nil, Nat.add_zero] at hend hlow hhigh
    obtain ⟨k, rfl⟩ := Nat.exists_eq_add_of_le hlow
    rw [arrayLoop, if_pos hend]
    refine Store.run_of_covers (s := ⟨4 * idx, _⟩) ?_
    rw [t.numBytes_zero, List.getElem?_replicate, if_pos (by omega)]
  | cons param params ih =>
    rw [List.length_cons] at hend hlow hhigh
    rw [arrayLoop, runAll_append]
    exact ih (by omega) (by omega) (by omega)

/-- A word keeps its place behind the words in front of it, up to the `int` of zero. -/
theorem arrayLoop_bytes (harray : type.isArray = true) (hk : params[k]? = some param)
    (htotal : idx + k < total) (hparam : param.length < hostapdToDwpalValueStringLength)
    (hb : (elementBytes t type param)[j]? = some b) (hj : j < elementWidth type)
    (hend : ¬(4 * (idx + params.length) ≤ elementWidth type * (idx + k) + j ∧
      elementWidth type * (idx + k) + j < 4 * (idx + params.length) + 4)) :
    runAll (arrayLoop t type total idx params) m (elementWidth type * (idx + k) + j) = b := by
  induction params generalizing idx k m with
  | nil => cases hk
  | cons first params ih =>
    rw [List.length_cons] at hend
    rw [arrayLoop, runAll_append]
    cases k with
    | zero =>
      cases hk
      simp only [Nat.add_zero] at htotal hend ⊢
      rw [if_pos htotal, runAll_of_not_touches]
      · exact elementStores_bytes harray hparam hb
      rw [touches_arrayLoop]
      rintro (⟨k, later, -, -, htouches⟩ | ⟨-, hlow, hhigh⟩)
      · have hle := (elementStores_inside harray htouches).1
        have hmul : elementWidth type * (idx + 1) ≤ elementWidth type * (idx + 1 + k) :=
          Nat.mul_le_mul_left _ (by omega)
        rw [Nat.mul_succ] at hmul
        omega
      · exact hend ⟨by omega, by omega⟩
    | succ k =>
      rw [show idx + (k + 1) = idx + 1 + k by omega] at htotal hend ⊢
      rw [show idx + (params.length + 1) = idx + 1 + params.length by omega] at hend
      exact ih hk htotal hend

end Loop

section Words

variable {t : Target} {text : List UInt8} {totalSizeOfArg : Nat} {type : FieldType}

theorem arrayValuesStores_eq : arrayValuesStores t text totalSizeOfArg type =
    (decide ((readWords text).length ≤ capacity type totalSizeOfArg),
      arrayLoop t type (capacity type totalSizeOfArg) 0 (readWords text),
      min (readWords text).length (capacity type totalSizeOfArg)) := by
  rw [arrayValuesStores, tokens_eq_readWords]
  rfl

theorem capacity_mul_le : elementWidth type * capacity type totalSizeOfArg ≤ totalSizeOfArg :=
  Nat.mul_div_le ..

/-- The `int` of zero ends behind the words that are found. -/
theorem arrayValuesStores_end {m : Memory UInt8} {a : Nat} (hlow : 4 * (readWords text).length ≤ a)
    (hhigh : a < 4 * (readWords text).length + 4) :
    Touches (arrayValuesStores t text totalSizeOfArg type).2.1 a ∧
      runAll (arrayValuesStores t text totalSizeOfArg type).2.1 m a = 0 := by
  have hend := @length_readWords_lt text
  rw [arrayValuesStores_eq]
  refine ⟨touches_arrayLoop.mpr (.inr ?_), arrayLoop_end ?_ ?_ ?_⟩ <;> omega

theorem StoresWords.fit (hzero : 0 ∉ text) (h : StoresWords t text totalSizeOfArg type) :
    WordsFit text totalSizeOfArg type := by
  have hfailed := h.failed
  have hcounted := h.counted
  have hinside := h.inside
  rw [arrayValuesStores_eq, decide_eq_false_iff_not, Nat.not_le] at hfailed
  rw [arrayValuesStores_eq] at hcounted
  dsimp only at hcounted
  constructor
  · have hlast := hinside (4 * (readWords text).length + 3)
      (arrayValuesStores_end (m := fun _ => 0) (by omega) (by omega)).1
    omega
  · by_cases hmany : capacity type totalSizeOfArg < (readWords text).length
    · exact .inr hmany
    · exact .inl (by omega)
  · intro hstring hroom first hfirst
    by_contra hlong
    have hword : (words blank text)[0]? = some first := by rwa [List.head?_eq_getElem?] at hfirst
    obtain ⟨b, hb⟩ : ∃ b, first[4 * (readWords text).length]? = some b :=
      ⟨_, List.getElem?_eq_getElem (by omega)⟩
    have hbytes : (elementBytes t type first)[4 * (readWords text).length]? = some b := by
      rw [hstring, elementBytes, List.getElem?_append_left (by omega), hb] <;> exact nofun
    have hkept := bytesAt_eq_iff.mp (h.stored (fun _ => 0) 0 first hword hroom) _ b hbytes
    rw [Nat.mul_zero, Nat.zero_add, (arrayValuesStores_end (Nat.le_refl _) (by omega)).2] at hkept
    refine hzero (mem_of_mem_words (List.mem_of_getElem? hword) ?_)
    rw [hkept]
    exact List.mem_of_getElem? hb

theorem length_elementBytes_le {param : List UInt8} (harray : type.isArray = true)
    (hshort : param.length ≤ 512) : (elementBytes t type param).length ≤ elementWidth type := by
  cases type with
  | intArray => exact Nat.le_of_eq (t.length_numBytes ..)
  | hexArray => exact Nat.le_of_eq (t.length_numBytes ..)
  | strArray =>
    change (param ++ [0]).length ≤ 4096
    rw [List.length_append, List.length_singleton]
    omega
  | _ => cases harray

/-- Where the `int` of zero is in an element that is stored, the element has a zero itself. -/
theorem WordsFit.endsFirst (h : WordsFit text totalSizeOfArg type) (harray : type.isArray = true)
    {i j : Nat} {param : List UInt8} {b : UInt8} (hread : (readWords text)[i]? = some param)
    (hi : i < capacity type totalSizeOfArg) (hb : (elementBytes t type param)[j]? = some b)
    (hlow : 4 * (readWords text).length ≤ elementWidth type * i + j)
    (hhigh : elementWidth type * i + j < 4 * (readWords text).length + 4) : b = 0 := by
  have hj := (List.getElem?_eq_some_iff.mp hb).1
  have hlt := (List.getElem?_eq_some_iff.mp hread).1
  have hint : elementWidth type = 4 → (elementBytes t type param).length = 4 → b = 0 := by
    intro hwidth hlen
    rw [hwidth] at hlow
    omega
  cases htype : type with
  | intArray => exact hint (by rw [htype]; rfl) (by rw [htype]; exact t.length_numBytes ..)
  | hexArray => exact hint (by rw [htype]; rfl) (by rw [htype]; exact t.length_numBytes ..)
  | strArray =>
    have hwidth : elementWidth type = 4096 := by rw [htype]; rfl
    have hmany := @length_tokens_le blank text dwpalMaxNumOfElements
      (min text.length dwpalToHostapdMsgLength)
    have hdmax := Nat.min_le_right text.length dwpalToHostapdMsgLength
    rw [tokens_eq_readWords] at hmany
    rw [dwpalToHostapdMsgLength] at hmany hdmax
    obtain rfl : i = 0 := by
      by_contra hne
      rw [hwidth] at hhigh
      omega
    have hfirst := h.firstString htype (by omega) param (by
      obtain ⟨rest, hrest⟩ := @readWords_leading text
      rw [List.head?_eq_getElem?, ← hrest, List.getElem?_append_left hlt, hread]
      rfl)
    have hbytes : elementBytes t type param = param ++ [0] := by
      rw [htype, elementBytes] <;> exact nofun
    rw [hbytes, List.length_append, List.length_singleton] at hj
    rw [hbytes, List.getElem?_append_right (by omega), show j - param.length = 0 by omega] at hb
    exact (Option.some.inj hb).symm
  | _ => rw [htype] at harray; cases harray

theorem WordsFit.stores (harray : type.isArray = true) (h : WordsFit text totalSizeOfArg type) :
    StoresWords t text totalSizeOfArg type := by
  have hroom := h.room
  have hfound := h.found
  have hcapacity := @capacity_mul_le totalSizeOfArg type
  have hprefix := (@readWords_leading text).length_le
  constructor
  · rw [arrayValuesStores_eq, decide_eq_false_iff_not]
    omega
  · rw [arrayValuesStores_eq]
    dsimp only
    omega
  · intro a htouches
    rw [arrayValuesStores_eq] at htouches
    rcases touches_arrayLoop.mp htouches with ⟨k, param, -, hk, htouches⟩ | ⟨-, -, hhigh⟩
    · have hlt := (elementStores_inside harray htouches).2
      have hmul : elementWidth type * (0 + k + 1) ≤
          elementWidth type * capacity type totalSizeOfArg :=
        Nat.mul_le_mul_left _ hk
      omega
    · omega
  · intro m i param hparam hi
    have hlt : i < (words blank text).length := (List.getElem?_eq_some_iff.mp hparam).1
    have hread : (readWords text)[i]? = some param := by
      obtain ⟨rest, hrest⟩ := @readWords_leading text
      rwa [← hrest, List.getElem?_append_left (by omega)] at hparam
    have hshort := length_le_of_mem_readWords (List.mem_of_getElem? hread)
    rw [dwpalToHostapdMsgLength] at hshort
    refine bytesAt_eq_iff.mpr fun j b hb => ?_
    have hj := (List.getElem?_eq_some_iff.mp hb).1
    by_cases hend : 4 * (readWords text).length ≤ elementWidth type * i + j ∧
        elementWidth type * i + j < 4 * (readWords text).length + 4
    · -- the `int` of zero is in an element: the terminator of the first string
      rw [(arrayValuesStores_end hend.1 hend.2).2]
      exact (h.endsFirst harray hread hi hb hend.1 hend.2).symm
    · rw [arrayValuesStores_eq]
      rw [← Nat.zero_add i] at hi hend ⊢
      rw [← Nat.zero_add (readWords text).length] at hend
      exact arrayLoop_bytes harray hread hi (Nat.lt_of_le_of_lt hshort (by decide)) hb
        (Nat.lt_of_lt_of_le hj (length_elementBytes_le harray hshort)) hend

/-- `arrayValuesGet` stores the words of a text in an array if and only if they fit: with one more
`int` behind them, within the limit of `strtok_s`, and with a first string that ends before this
`int`. -/
theorem arrayWords_stored (harray : type.isArray = true) (hzero : 0 ∉ text) :
    StoresWords t text totalSizeOfArg type ↔ WordsFit text totalSizeOfArg type :=
  ⟨fun h => h.fit hzero, fun h => h.stores harray⟩

end Words

/-- A target with the least byte of a number in front. -/
def target64 : Target where
  toPlatform := platform64
  numBytes width value := (List.range width).map fun i => UInt8.ofNat (value / 256 ^ i % 256).toNat
  length_numBytes width value := by rw [List.length_map, List.length_range]
  numBytes_zero width := by
    refine List.ext_getElem (by simp) fun i _ _ => ?_
    simp

/-- Three numbers and the `int` of zero, in an array of four. -/
theorem arrayWords_stored_numbers : 0 ∉ ascii "2 4 11" ∧
    StoresWords target64 (ascii "2 4 11") 16 .intArray :=
  ⟨by decide, (arrayWords_stored rfl (by decide)).mpr ⟨by decide, .inl (by decide), nofun⟩⟩

/-- In an array that two numbers fill the `int` of zero is behind the array. -/
theorem fullArray_overrun : ¬StoresWords target64 (ascii "2 4") 8 .intArray := by
  intro h
  have hover : Touches (arrayValuesStores target64 (ascii "2 4") 8 .intArray).2.1 8 := by decide
  exact absurd (h.inside 8 hover) (by decide)

end Dwpal.Parse
