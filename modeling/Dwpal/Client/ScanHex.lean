import Dwpal.Client.ScanTrigger
import Dwpal.Lib.CNumberText
import Dwpal.Lib.Stores
import Dwpal.Parse.Fields

/-! The two copies of `parse_hex` with the stores that they make to their result buffers. -/

namespace Dwpal.Client

open CNumber Stores

/-- A string that fits into a field of a scan command. -/
structure IesString where
  bytes : List UInt8
  zero_notMem : 0 ∉ bytes
  length_lt : bytes.length < scanParamStringLength

/-- The elements that `parse_hex` of `dwpal.c` passes over. -/
def passedOver (element : List UInt8) : Bool := element == ascii "xx" || element == ascii "--"

/-- The loop of `parse_hex` over the elements from position `pos` on: whether it succeeds, and its
stores to the result. It passes over some elements, which keep their place. -/
def parseHexLoop (skip : List UInt8 → Bool) (longBits pos : Nat) :
    List (List UInt8) → Bool × List (Store UInt8)
  | [] => (true, [])
  | element :: elements =>
    if skip element then parseHexLoop skip longBits (pos + 1) elements
    else
      match hexByte longBits element with
      | none => (false, [])
      | some byte =>
        let (ret, stores) := parseHexLoop skip longBits (pos + 1) elements
        (ret, ⟨pos, [byte]⟩ :: stores)

/-- `parse_hex` of `dwpal.c`. -/
def parseHexDwpalStores (longBits : Nat) (hexmask : List UInt8) : Bool × List (Store UInt8) :=
  parseHexLoop passedOver longBits 0 (hexElements hexmask)

/-- `parse_hex` of the client. -/
def parseHexClientStores (longBits : Nat) (hexStr : List UInt8) : Bool × List (Store UInt8) :=
  parseHexLoop (fun _ => false) longBits 0 (hexElements hexStr)

/-- The size of the result buffer, which is cleared when it is allocated. -/
def resultSize (hexStr : List UInt8) : Nat := hexStr.length / 2 + 2

/-- The bytes that are returned: as many as there are elements. -/
def resultBytes (hexStr : List UInt8) (stores : List (Store UInt8)) : List UInt8 :=
  bytesAt (runAll stores fun _ => 0) 0 (hexElements hexStr).length

/-! What `parse_hex` is for. -/

/-- Some hex digits with a value that fits into a byte. -/
def HexElement (element : List UInt8) : Prop :=
  element ≠ [] ∧ (∀ c ∈ element, isDigit 16 c = true) ∧ ofDigits 16 element ≤ 255

/-- A list of such elements, between colons. -/
def HexList (hexStr : List UInt8) : Prop := ∀ element ∈ hexElements hexStr, HexElement element

/-- The values of the elements, in order. -/
def listValues (hexStr : List UInt8) : List UInt8 :=
  (hexElements hexStr).map fun element => UInt8.ofNat (ofDigits 16 element)

/-- A run of `parse_hex` stays inside its buffer, takes just the lists of hex elements, and returns
their values. -/
structure ParsesHex (hexStr : List UInt8) (run : Bool × List (Store UInt8)) : Prop where
  inside : ∀ a, Touches run.2 a → a < resultSize hexStr
  succeeds : run.1 = true ↔ HexList hexStr
  values : run.1 = true → resultBytes hexStr run.2 = listValues hexStr

/-- Both copies parse a string, and agree on it. -/
structure BothParseHex (longBits : Nat) (hexStr : List UInt8) : Prop where
  dwpal : ParsesHex hexStr (parseHexDwpalStores longBits hexStr)
  client : ParsesHex hexStr (parseHexClientStores longBits hexStr)
  agree : (parseHexDwpalStores longBits hexStr).1 = (parseHexClientStores longBits hexStr).1
  agree_values : (parseHexDwpalStores longBits hexStr).1 = true →
    resultBytes hexStr (parseHexDwpalStores longBits hexStr).2 =
      resultBytes hexStr (parseHexClientStores longBits hexStr).2

/-- `parse_hex` of `dwpal.c` stops at an element that it does not take, before it stores a byte
behind its buffer. -/
def StopsInside (longBits : Nat) (hexStr : List UInt8) : Prop :=
  ∃ i element, (hexElements hexStr)[i]? = some element ∧ passedOver element = false ∧
    hexByte longBits element = none ∧ ∀ j < i, resultSize hexStr ≤ j →
      ∀ passed, (hexElements hexStr)[j]? = some passed → passedOver passed = true

section Loop

variable {skip : List UInt8 → Bool} {longBits pos a : Nat} {element : List UInt8}
  {elements : List (List UInt8)}

@[simp] theorem parseHexLoop_skip (h : skip element = true) :
    parseHexLoop skip longBits pos (element :: elements) =
      parseHexLoop skip longBits (pos + 1) elements := by
  rw [parseHexLoop, if_pos h]

@[simp] theorem parseHexLoop_stop (h : skip element = false)
    (hnone : hexByte longBits element = none) :
    parseHexLoop skip longBits pos (element :: elements) = (false, []) := by
  rw [parseHexLoop, if_neg (by rw [h]; decide), hnone]

@[simp] theorem parseHexLoop_store {byte : UInt8} (h : skip element = false)
    (hbyte : hexByte longBits element = some byte) :
    parseHexLoop skip longBits pos (element :: elements) =
      ((parseHexLoop skip longBits (pos + 1) elements).1,
        ⟨pos, [byte]⟩ :: (parseHexLoop skip longBits (pos + 1) elements).2) := by
  rw [parseHexLoop, if_neg (by rw [h]; decide), hbyte]

/-- An element that ends the loop. -/
def Rejected (skip : List UInt8 → Bool) (longBits : Nat) (element : List UInt8) : Prop :=
  skip element = false ∧ hexByte longBits element = none

theorem parseHexLoop_fst : (parseHexLoop skip longBits pos elements).1 = true ↔
    ∀ element ∈ elements, ¬Rejected skip longBits element := by
  induction elements generalizing pos with
  | nil => simp [parseHexLoop]
  | cons element elements ih =>
    rw [List.forall_mem_cons]
    cases hskip : skip element with
    | true => rw [parseHexLoop_skip hskip, ih, Rejected, hskip]; simp
    | false =>
      cases hbyte : hexByte longBits element with
      | none => rw [parseHexLoop_stop hskip hbyte, Rejected, hskip, hbyte]; simp
      | some byte => rw [parseHexLoop_store hskip hbyte, ih, Rejected, hskip, hbyte]; simp

theorem le_of_touches (h : Touches (parseHexLoop skip longBits pos elements).2 a) : pos ≤ a := by
  induction elements generalizing pos with
  | nil => exact absurd h not_touches_nil
  | cons element elements ih =>
    cases hskip : skip element with
    | true =>
      rw [parseHexLoop_skip hskip] at h
      exact Nat.le_of_succ_le (ih h)
    | false =>
      cases hbyte : hexByte longBits element with
      | none =>
        rw [parseHexLoop_stop hskip hbyte] at h
        exact absurd h not_touches_nil
      | some byte =>
        rw [parseHexLoop_store hskip hbyte, touches_cons] at h
        rcases h with hcovers | h
        · exact hcovers.1
        · exact Nat.le_of_succ_le (ih h)

theorem forall_le_succ_cons {P : List UInt8 → Prop} :
    (∀ j ≤ a + 1, ∀ element', (element :: elements)[j]? = some element' → P element') ↔
      P element ∧ ∀ j ≤ a, ∀ element', elements[j]? = some element' → P element' := by
  constructor
  · intro h
    exact ⟨h 0 (Nat.zero_le _) element rfl, fun j hj => h (j + 1) (Nat.succ_le_succ hj)⟩
  · rintro ⟨helement, hrest⟩ (_ | j) hj element' heq
    · exact Option.some.inj heq ▸ helement
    · exact hrest j (Nat.le_of_succ_le_succ hj) element' heq

/-- A byte is stored for an element that is not passed over, with no rejected one up to it. -/
theorem touches_parseHexLoop : Touches (parseHexLoop skip longBits pos elements).2 (pos + a) ↔
    (∃ element, elements[a]? = some element ∧ skip element = false) ∧
      ∀ j ≤ a, ∀ element, elements[j]? = some element → ¬Rejected skip longBits element := by
  induction elements generalizing pos a with
  | nil => simp [parseHexLoop]
  | cons element elements ih =>
    cases hskip : skip element with
    | true =>
      rw [parseHexLoop_skip hskip]
      cases a with
      | zero =>
        refine iff_of_false (fun htouches => ?_) fun h => ?_
        · exact absurd (le_of_touches htouches) (by omega)
        · obtain ⟨⟨stored, hstored, hnot⟩, -⟩ := h
          obtain rfl := Option.some.inj hstored
          rw [hskip] at hnot
          cases hnot
      | succ a =>
        have hgoes : ¬Rejected skip longBits element := fun h => absurd h.1 (by rw [hskip]; decide)
        rw [show pos + (a + 1) = pos + 1 + a by omega, ih, List.getElem?_cons_succ,
          forall_le_succ_cons, and_iff_right hgoes]
    | false =>
      cases hbyte : hexByte longBits element with
      | none =>
        rw [parseHexLoop_stop hskip hbyte]
        exact iff_of_false not_touches_nil fun h => h.2 0 (Nat.zero_le a) element rfl ⟨hskip, hbyte⟩
      | some byte =>
        have hgoes : ¬Rejected skip longBits element := fun h => absurd h.2 (by rw [hbyte]; nofun)
        rw [parseHexLoop_store hskip hbyte, touches_cons]
        cases a with
        | zero =>
          refine iff_of_true (.inl ⟨Nat.le_refl _, Nat.lt_succ_self _⟩)
            ⟨⟨element, rfl, hskip⟩, fun j hj element' helement => ?_⟩
          obtain rfl := Nat.le_zero.mp hj
          obtain rfl := Option.some.inj helement
          exact hgoes
        | succ a =>
          rw [show pos + (a + 1) = pos + 1 + a by omega, ih, List.getElem?_cons_succ,
            forall_le_succ_cons, and_iff_right hgoes, or_iff_right]
          rintro ⟨-, hlt⟩
          simp only [List.length_singleton] at hlt
          omega

/-- Elements that are all taken are stored one behind the other. -/
theorem writes_parseHexLoop {value : List UInt8 → UInt8}
    (h : ∀ element ∈ elements, skip element = false ∧ hexByte longBits element =
      some (value element)) :
    Writes (parseHexLoop skip longBits pos elements).2 pos (elements.map value) := by
  induction elements generalizing pos with
  | nil => exact .nil
  | cons element elements ih =>
    obtain ⟨⟨hskip, hbyte⟩, hrest⟩ := List.forall_mem_cons.mp h
    rw [parseHexLoop_store hskip hbyte]
    exact (ih hrest).cons

/-- What the loop returns, with a zero at the place of an element that it passes over. -/
theorem parseHexLoop_of_mapM {bytes : List UInt8} {m : Memory UInt8} (hm : ∀ a, pos ≤ a → m a = 0)
    (h : (elements.mapM fun element => if skip element then some 0 else hexByte longBits element) =
      some bytes) :
    (parseHexLoop skip longBits pos elements).1 = true ∧
      bytesAt (runAll (parseHexLoop skip longBits pos elements).2 m) pos elements.length =
        bytes := by
  induction elements generalizing pos bytes m with
  | nil =>
    obtain rfl := Option.some.inj h
    exact ⟨rfl, rfl⟩
  | cons element elements ih =>
    rw [List.mapM_cons] at h
    obtain ⟨byte, hbyte, hrest⟩ := Option.bind_eq_some_iff.mp h
    obtain ⟨rest, hmapM, hbytes⟩ := Option.bind_eq_some_iff.mp hrest
    obtain rfl := Option.some.inj hbytes
    rw [List.length_cons, bytesAt_succ]
    have hbehind : ∀ {m}, runAll (parseHexLoop skip longBits (pos + 1) elements).2 m pos = m pos :=
      runAll_of_not_touches fun htouches => absurd (le_of_touches htouches) (by omega)
    cases hskip : skip element with
    | true =>
      rw [hskip, if_pos rfl] at hbyte
      obtain rfl := Option.some.inj hbyte
      obtain ⟨hret, hread⟩ := ih (fun a ha => hm a (Nat.le_of_succ_le ha)) hmapM
      rw [parseHexLoop_skip hskip, hbehind, hm pos (Nat.le_refl pos), hread]
      exact ⟨hret, rfl⟩
    | false =>
      rw [hskip, if_neg Bool.false_ne_true] at hbyte
      have hcovers : ∀ a, pos + 1 ≤ a → (⟨pos, [byte]⟩ : Store UInt8).run m a = 0 := fun a ha => by
        rw [Store.run_of_not_covers fun hcovers => ?_, hm a (Nat.le_of_succ_le ha)]
        have hlt := hcovers.2
        simp only [List.length_singleton] at hlt
        omega
      obtain ⟨hret, hread⟩ := ih hcovers hmapM
      rw [parseHexLoop_store hskip hbyte, runAll_cons, hbehind, hread]
      have hstored : (⟨pos, [byte]⟩ : Store UInt8).run m pos = byte :=
        @Store.run_of_covers _ ⟨pos, [byte]⟩ m 0 byte rfl
      exact ⟨hret, by rw [hstored]⟩

end Loop

section Elements

variable {longBits : Nat} {element hexStr : List UInt8} {elements : List (List UInt8)}

theorem passedOver_iff : passedOver element = true ↔ element = ascii "xx" ∨
    element = ascii "--" := by
  rw [passedOver, Bool.or_eq_true, beq_iff_eq, beq_iff_eq]

theorem hexByte_hexElement (hbits : 32 ≤ longBits) (h : HexElement element) :
    hexByte longBits element = some (UInt8.ofNat (ofDigits 16 element)) := by
  obtain ⟨hne, hdigits, hle⟩ := h
  have hpow : 2 ^ 32 ≤ 2 ^ longBits := Nat.pow_le_pow_right (by decide) hbits
  have hsmall : (Int32.ofNat (ofDigits 16 element)).toInt = ofDigits 16 element :=
    Int32.toInt_ofNat_of_lt (by omega)
  rw [hexByte, strtoul, (scan_digits (by decide) (by decide) hne hdigits).1]
  dsimp only
  rw [if_neg (show ¬2 ^ longBits ≤ ofDigits 16 element by omega), if_neg Bool.false_ne_true, hsmall,
    if_neg (by simp; omega), Int.toNat_natCast]

theorem passedOver_hexElement (h : HexElement element) : passedOver element = false := by
  by_contra hpassed
  rcases passedOver_iff.mp (Bool.not_eq_false _ ▸ hpassed) with rfl | rfl
  · exact absurd (h.2.1 120 (by decide)) (by decide)
  · exact absurd (h.2.1 45 (by decide)) (by decide)

theorem hexByte_passedOver (h : passedOver element = true) : hexByte longBits element = none :=
  hexByte_ignored (passedOver_iff.mp h)

/-- A separator for each element but the last. -/
theorem length_intercalate (h : ∀ element ∈ elements, element ≠ []) :
    2 * elements.length ≤ ([58].intercalate elements).length + 1 := by
  induction elements with
  | nil => simp
  | cons element elements ih =>
    obtain ⟨hne, hrest⟩ := List.forall_mem_cons.mp h
    have hpos := List.length_pos_of_ne_nil hne
    cases elements with
    | nil => simp only [List.intercalate_singleton, List.length_singleton]; omega
    | cons element' elements =>
      have hle := ih hrest
      rw [List.intercalate_cons_cons, List.length_append, List.length_append]
      simp only [List.length_cons, List.length_nil] at hle ⊢
      omega

theorem HexList.length_le (h : HexList hexStr) :
    (hexElements hexStr).length ≤ resultSize hexStr := by
  have hle := length_intercalate fun element helement => (h element helement).1
  rw [hexElements, List.intercalate_splitOn] at hle
  rw [resultSize, hexElements]
  omega

end Elements

section Parse

variable {longBits : Nat} {hexStr : List UInt8} {skip : List UInt8 → Bool}

/-- A list of hex elements is parsed, whatever else is passed over. -/
theorem parsesHex_of_hexList (hbits : 32 ≤ longBits) (h : HexList hexStr)
    (hskip : ∀ element, HexElement element → skip element = false) :
    ParsesHex hexStr (parseHexLoop skip longBits 0 (hexElements hexStr)) := by
  have hall : ∀ element ∈ hexElements hexStr, skip element = false ∧
      hexByte longBits element = some (UInt8.ofNat (ofDigits 16 element)) := fun element helement =>
    ⟨hskip element (h element helement), hexByte_hexElement hbits (h element helement)⟩
  have hwrites := @writes_parseHexLoop skip longBits 0 _ _ hall
  have hlength : (hexElements hexStr).length =
      ((hexElements hexStr).map fun element => UInt8.ofNat (ofDigits 16 element)).length :=
    (List.length_map _).symm
  refine ⟨hwrites.inside ?_, iff_of_true (parseHexLoop_fst.mpr ?_) h, fun _ => ?_⟩
  · rw [Nat.zero_add, ← hlength]
    exact h.length_le
  · intro element helement hrejected
    exact absurd hrejected.2 (by rw [(hall element helement).2]; nofun)
  · rw [resultBytes, hlength]
    exact hwrites.left _

/-- An element is rejected, and no byte is stored behind the buffer before it. -/
theorem parsesHex_of_rejected {i : Nat} {element : List UInt8} (hbits : 32 ≤ longBits)
    (hi : (hexElements hexStr)[i]? = some element) (hrejected : Rejected skip longBits element)
    (hbefore : ∀ j < i, resultSize hexStr ≤ j → ∀ passed, (hexElements hexStr)[j]? = some passed →
      skip passed = true ∨ Rejected skip longBits passed) :
    ParsesHex hexStr (parseHexLoop skip longBits 0 (hexElements hexStr)) ∧
      (parseHexLoop skip longBits 0 (hexElements hexStr)).1 = false := by
  have hmem := List.mem_of_getElem? hi
  have hfails : (parseHexLoop skip longBits 0 (hexElements hexStr)).1 = false :=
    Bool.eq_false_iff.mpr fun hret => parseHexLoop_fst.mp hret element hmem hrejected
  have hnot : ¬HexList hexStr := fun h => by
    have hbyte := hexByte_hexElement hbits (h element hmem)
    rw [hrejected.2] at hbyte
    cases hbyte
  refine ⟨⟨fun a ha => ?_, iff_of_false (by rw [hfails]; decide) hnot, fun hret => ?_⟩, hfails⟩
  · obtain ⟨⟨stored, hstored, hnotSkip⟩, hgoes⟩ :=
      touches_parseHexLoop.mp ((Nat.zero_add a).symm ▸ ha)
    by_contra hlarge
    have hlt : a < i := by
      by_contra hle
      exact hgoes i (Nat.not_lt.mp hle) element hi hrejected
    rcases hbefore a hlt (Nat.not_lt.mp hlarge) stored hstored with hpassed | hrejected'
    · rw [hnotSkip] at hpassed
      cases hpassed
    · exact hgoes a (Nat.le_refl a) stored hstored hrejected'
  · rw [hfails] at hret
    cases hret

/-- The first element that the loop does not take. -/
theorem exists_first_rejected {elements : List (List UInt8)}
    (h : ¬∀ element ∈ elements, ¬Rejected skip longBits element) :
    ∃ (i : Nat) (element : List UInt8), elements[i]? = some element ∧
      Rejected skip longBits element ∧ ∀ j < i, ∀ element', elements[j]? = some element' →
      ¬Rejected skip longBits element' := by
  classical
  simp only [not_forall, not_not] at h
  obtain ⟨element, hmem, hrejected⟩ := h
  have hexists : ∃ (i : Nat) (element : List UInt8), elements[i]? = some element ∧
      Rejected skip longBits element := by
    obtain ⟨i, hi⟩ := List.mem_iff_getElem?.mp hmem
    exact ⟨i, element, hi, hrejected⟩
  obtain ⟨element', hi, hrejected'⟩ := Nat.find_spec hexists
  exact ⟨Nat.find hexists, element', hi, hrejected', fun j hj passed hpassed hpassedRejected =>
    Nat.find_min hexists hj ⟨passed, hpassed, hpassedRejected⟩⟩

/-- Both copies do what they are for just with a list of hex elements, and with a string that
`dwpal.c` rejects before it is behind its buffer. -/
theorem bothParseHex_iff (p : Parse.Platform) (ies : IesString) :
    BothParseHex p.longBits ies.bytes ↔ HexList ies.bytes ∨ StopsInside p.longBits ies.bytes := by
  constructor
  · intro h
    by_cases hlist : HexList ies.bytes
    · exact .inl hlist
    · have hfails := mt h.dwpal.succeeds.mp hlist
      rw [parseHexDwpalStores, parseHexLoop_fst] at hfails
      obtain ⟨i, element, hi, hrejected, hfirst⟩ := exists_first_rejected hfails
      refine .inr ⟨i, element, hi, hrejected.1, hrejected.2, fun j hj hlarge passed hpassed => ?_⟩
      by_contra hnot
      have htouches : Touches (parseHexDwpalStores p.longBits ies.bytes).2 (0 + j) :=
        touches_parseHexLoop.mpr ⟨⟨passed, hpassed, Bool.eq_false_iff.mpr hnot⟩, fun k hk =>
          hfirst k (Nat.lt_of_le_of_lt hk hj)⟩
      have hlt := h.dwpal.inside _ htouches
      omega
  · rintro (hlist | ⟨i, element, hi, hskip, hbyte, hbefore⟩)
    · have hdwpal := parsesHex_of_hexList p.le_longBits hlist fun _ => passedOver_hexElement
      have hclient := @parsesHex_of_hexList _ _ (fun _ => false) p.le_longBits hlist fun _ _ => rfl
      refine ⟨hdwpal, hclient, ?_, fun hret => ?_⟩
      · exact (hdwpal.succeeds.mpr hlist).trans (hclient.succeeds.mpr hlist).symm
      · exact (hdwpal.values hret).trans (hclient.values (hclient.succeeds.mpr hlist)).symm
    · obtain ⟨hdwpal, hdwpalFails⟩ := parsesHex_of_rejected p.le_longBits
        hi ⟨hskip, hbyte⟩ fun j hj hlarge passed hpassed =>
          .inl (hbefore j hj hlarge passed hpassed)
      obtain ⟨hclient, hclientFails⟩ := @parsesHex_of_rejected _ _ (fun _ => false) _ _
        p.le_longBits hi ⟨rfl, hbyte⟩ fun j hj hlarge passed hpassed =>
          .inr ⟨rfl, hexByte_passedOver (hbefore j hj hlarge passed hpassed)⟩
      refine ⟨hdwpal, hclient, hdwpalFails.trans hclientFails.symm, fun hret => ?_⟩
      exact absurd (hret.symm.trans hdwpalFails) (by decide)

/-- Where the copy of `dwpal.c` has a result, it is the one that its stores leave. -/
theorem parseHexDwpal_stores {ies : Buffer scanParamStringLength} {bytes : List UInt8}
    (h : parseHexDwpal longBits ies = some bytes) :
    (parseHexDwpalStores longBits (cstr ies.bytes)).1 = true ∧
      resultBytes (cstr ies.bytes) (parseHexDwpalStores longBits (cstr ies.bytes)).2 = bytes := by
  simp only [parseHexDwpal] at h
  split_ifs at h
  refine parseHexLoop_of_mapM (fun _ _ => rfl) ?_
  simp only [passedOver_iff]
  exact h

theorem parseHexClient_stores {ies : Buffer scanParamStringLength} {bytes : List UInt8}
    (h : parseHexClient longBits ies = some bytes) :
    (parseHexClientStores longBits (cstr ies.bytes)).1 = true ∧
      resultBytes (cstr ies.bytes) (parseHexClientStores longBits (cstr ies.bytes)).2 = bytes := by
  simp only [parseHexClient] at h
  split_ifs at h
  exact parseHexLoop_of_mapM (fun _ _ => rfl) h

/-- As many colons as fit into the field: the byte of the last element is stored behind the
buffer. -/
def colons : IesString where
  bytes := List.replicate 63 58
  zero_notMem h := absurd (List.eq_of_mem_replicate h) (by decide)
  length_lt := by rw [List.length_replicate]; decide

theorem colons_overflow : ¬BothParseHex 64 colons.bytes := fun h => by
  have htouches : Touches (parseHexClientStores 64 colons.bytes).2 63 := by decide
  exact absurd (h.client.inside 63 htouches) (by decide)

end Parse

end Dwpal.Client
