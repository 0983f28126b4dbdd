import Dwpal.Stats.PhyRate

/-! Where `parse_ies` and, through the pointers that it returns, `calculate_phy_rate` of `stats.c`
read. The elements are received over the air, and may have any bytes. -/

namespace Dwpal.Stats

open Stores

/-- The memory with the elements at its beginning; `junk` is what stands behind them. -/
def memoryWith (bytes : List UInt8) (junk : Memory UInt8) : Memory UInt8 :=
  fun a => (bytes[a]?).getD (junk a)

/-- The address is one of a byte of the element that begins at `start`, behind its header, and
there. -/
def InElement (bytes : List UInt8) (start a : Nat) : Prop :=
  start + 2 ≤ a ∧ a < bytes.length ∧ ∃ len, bytes[start + 1]? = some len ∧ a < start + 2 + len.toNat

/-- What is asked of a run of `parse_ies`: it ends, reads the elements only, stores into
`supp_rates` only, and `calculate_phy_rate` reads through each of the pointers in the element that
it points into. -/
structure SafeRun (band : HwBand) (bytes : List UInt8) (junk : Memory UInt8)
    (run : Reads (Option ParsedIes)) (out : ParsedIes) : Prop where
  ends : run.value = some out
  reads : run.Inside (· < bytes.length)
  stores : ∀ a, Touches out.stores a → a < maxNumSupportedRates
  ht : ∀ p, out.htCap = some p → ∃ start, p = start + 2 ∧ ∀ maxRate,
    (maxHtRate (memoryWith bytes junk) p maxRate).Inside (InElement bytes start)
  vht : ∀ p, out.vhtCap = some p → ∃ start, p = start + 2 ∧ ∀ ht maxRate,
    (maxVhtRate (memoryWith bytes junk) band p ht maxRate).Inside (InElement bytes start)
  he : ∀ p, out.heCap = some p → ∃ start, p = start + 3 ∧ ∀ maxRate,
    (maxHeRate (memoryWith bytes junk) band p maxRate).Inside (InElement bytes start)

/-- `parse_ies` is safe on some bytes, whatever stands behind them. -/
def WalkSafe (band : HwBand) (bytes : List UInt8) (junk : Memory UInt8) : Prop :=
  ∃ out, ∀ fuel > bytes.length,
    SafeRun band bytes junk (parseIes fuel (memoryWith bytes junk) bytes.length) out

/-- How many bytes of an element are copied to `supp_rates`. -/
def copiedRates (suppRatesLen len : Nat) : Nat := min len (maxNumSupportedRates - suppRatesLen)

/-- An element of rates. -/
def IsRates (id : UInt8) : Prop := id = wlanEidSuppRates ∨ id = wlanEidExtSuppRates

/-- An element of HE capabilities that is long enough for `parse_ies`; `rest` follows its header. -/
def IsHeCap (id : UInt8) (len : Nat) (rest : List UInt8) : Prop :=
  id = wlanEidExtension ∧ rest.head? = some wlanEidExtHeCapabilities ∧ 22 ≤ len

/-- The HE capabilities select a width of 160 MHz. -/
def Selects160 (band : HwBand) (rest : List UInt8) : Prop :=
  ∃ phyCap, rest[7]? = some phyCap ∧ heWidth band phyCap = 3

/-- What an element needs: the rates that are copied, the byte that tells extensions apart, and the
map for 160 MHz if it is selected. -/
structure ElementFits (band : HwBand) (suppRatesLen : Nat) (id : UInt8) (len : Nat)
    (rest : List UInt8) : Prop where
  rates : IsRates id → copiedRates suppRatesLen len ≤ rest.length
  extension : id = wlanEidExtension → rest ≠ []
  map160 : IsHeCap id len rest → Selects160 band rest → 24 ≤ len ∧ 24 ≤ rest.length

instance (id : UInt8) : Decidable (IsRates id) := inferInstanceAs (Decidable (_ ∨ _))

/-- `supp_rates_len` after an element. -/
def suppRatesLenAfter (suppRatesLen : Nat) (id : UInt8) (len : Nat) : Nat :=
  if IsRates id ∧ copiedRates suppRatesLen len > 0 then copiedRates suppRatesLen len
  else suppRatesLen

/-- Each element that the walk comes to has what it needs. The walk ends before an element that is
longer than all that is left, and with the HE capabilities. -/
def WalkFits (band : HwBand) (suppRatesLen : Nat) : List UInt8 → Prop
  | id :: len :: rest =>
    rest.length + 2 < len.toNat ∨ ElementFits band suppRatesLen id len.toNat rest ∧
      (IsHeCap id len.toNat rest ∨
        WalkFits band (suppRatesLenAfter suppRatesLen id len.toNat) (rest.drop len.toNat))
  | _ => True
termination_by bytes => bytes.length
decreasing_by simp only [List.length_drop, List.length_cons]; omega

section

variable {band : HwBand} {bytes rest left : List UInt8} {junk mem : Memory UInt8} {id len : UInt8}
  {pos fuel fuel' : Nat} {ielen : Int} {out out' : ParsedIes} {P : Nat → Prop}
  {run : Reads (Option ParsedIes)}

/-! ### The memory -/

theorem length_of_drop (hdrop : bytes.drop pos = id :: len :: rest) :
    bytes.length = pos + 2 + rest.length := by
  have hlength := congrArg List.length hdrop
  simp only [List.length_drop, List.length_cons] at hlength
  omega

theorem getElem?_of_drop (hdrop : bytes.drop pos = id :: len :: rest) (k : Nat) :
    bytes[pos + 2 + k]? = rest[k]? := by
  have hget := congrArg (fun l : List UInt8 => l[k + 2]?) hdrop
  simp only [List.getElem?_drop, List.getElem?_cons_succ] at hget
  rw [← hget]
  congr 1
  omega

theorem len_of_drop (hdrop : bytes.drop pos = id :: len :: rest) : bytes[pos + 1]? = some len := by
  rw [← List.getElem?_drop, hdrop]
  rfl

theorem memoryWith_id (hdrop : bytes.drop pos = id :: len :: rest) :
    memoryWith bytes junk pos = id := by
  have hid : bytes[pos + 0]? = some id := by
    rw [← List.getElem?_drop, hdrop]
    rfl
  rw [memoryWith, ← Nat.add_zero pos, hid, Option.getD_some]

theorem memoryWith_len (hdrop : bytes.drop pos = id :: len :: rest) :
    memoryWith bytes junk (pos + 1) = len := by
  rw [memoryWith, len_of_drop hdrop, Option.getD_some]

theorem memoryWith_rest (hdrop : bytes.drop pos = id :: len :: rest) {k : Nat} {b : UInt8}
    (hb : rest[k]? = some b) : memoryWith bytes junk (pos + 2 + k) = b := by
  rw [memoryWith, getElem?_of_drop hdrop, hb, Option.getD_some]

/-- What follows an element. -/
theorem drop_element (hdrop : bytes.drop pos = id :: len :: rest) (n : Nat) :
    bytes.drop (pos + (n + 2)) = rest.drop n := by
  rw [← List.drop_drop, hdrop]
  rfl

theorem length_drop_lt (rest : List UInt8) (n : Nat) :
    (rest.drop n).length < (id :: len :: rest).length := by
  simp only [List.length_drop, List.length_cons]
  omega

/-- Which bytes behind the header are in the element. -/
theorem inElement_iff (hdrop : bytes.drop pos = id :: len :: rest) (k : Nat) :
    InElement bytes pos (pos + 2 + k) ↔ k < len.toNat ∧ k < rest.length := by
  rw [InElement, length_of_drop hdrop, len_of_drop hdrop]
  constructor
  · rintro ⟨-, hlength, len', heq, hlt⟩
    cases heq
    omega
  · rintro ⟨hlt, hlength⟩
    exact ⟨by omega, by omega, len, rfl, by omega⟩

/-! ### The parts of `calculate_phy_rate` -/

theorem inside_le16 (hlo : P pos) (hhi : P (pos + 1)) : (le16 mem pos).Inside P := by
  simp [le16, hlo, hhi]

theorem inside_htStreams {i htNss htMcs : Nat} (hmask : ∀ k < i, P (pos + 3 + k)) :
    (htStreams mem pos i htNss htMcs).Inside P := by
  induction i with
  | zero => exact Reads.inside_pure _
  | succ i ih =>
    rw [htStreams, Reads.inside_bind, Reads.inside_readAt]
    refine ⟨hmask i (Nat.lt_succ_self i), ?_⟩
    split_ifs
    · exact Reads.inside_pure _
    · exact ih fun k hk => hmask k (Nat.lt_succ_of_lt hk)

theorem inside_maxHtRate {maxRate : Nat} (hfields : ∀ k < 8, P (pos + k)) :
    (maxHtRate mem pos maxRate).Inside P := by
  have hmask : ∀ k < 4, P (pos + 3 + k) := by
    intro k hk
    rw [Nat.add_assoc]
    exact hfields (3 + k) (by omega)
  simp only [maxHtRate, Reads.inside_bind, Reads.inside_readAt, Reads.inside_pure, and_true]
  exact ⟨inside_le16 (hfields 0 (by omega)) (hfields 1 (by omega)), hfields 7 (by omega),
    inside_htStreams hmask⟩

theorem inside_maxVhtRate {ht : Nat × Nat} {maxRate : Nat} (hfields : ∀ k < 6, P (pos + k)) :
    (maxVhtRate mem band pos ht maxRate).Inside P := by
  rw [maxVhtRate, Reads.inside_bind]
  refine ⟨inside_le16 (hfields 4 (by omega)) (hfields 5 (by omega)), ?_⟩
  dsimp only
  split_ifs
  · rw [Reads.inside_bind, le32, Reads.inside_bind, Reads.inside_bind]
    exact ⟨⟨inside_le16 (hfields 0 (by omega)) (hfields 1 (by omega)),
      inside_le16 (hfields 2 (by omega)) (hfields 3 (by omega)), Reads.inside_pure _⟩,
      Reads.inside_pure _⟩
  · exact Reads.inside_pure _

theorem inside_maxHeRate {maxRate : Nat} : (maxHeRate mem band pos maxRate).Inside P ↔
    P (pos + 6) ∧ P (pos + if heWidth band (mem (pos + 6)) = 3 then 21 else 17) ∧
      P (pos + (if heWidth band (mem (pos + 6)) = 3 then 21 else 17) + 1) := by
  rw [maxHeRate, Reads.inside_bind, Reads.inside_readAt, Reads.inside_bind,
    Reads.value_readAt, le16,
    Reads.inside_bind, Reads.inside_readAt, Reads.inside_bind, Reads.inside_readAt]
  refine and_congr_right fun _ => ?_
  dsimp only
  split_ifs <;> simp

/-- The HE capabilities are read inside their element if the map for 160 MHz is there where it is
needed. -/
theorem heCap_iff (junk : Memory UInt8) (hdrop : bytes.drop pos = id :: len :: rest)
    (hlen : 22 ≤ len.toNat) (hguard : len.toNat ≤ rest.length + 2) :
    (∃ start, pos + 3 = start + 3 ∧ ∀ maxRate,
        (maxHeRate (memoryWith bytes junk) band (pos + 3) maxRate).Inside (InElement bytes start)) ↔
      (Selects160 band rest → 24 ≤ len.toNat ∧ 24 ≤ rest.length) := by
  have hphy : rest[7]? = some rest[7] := List.getElem?_eq_getElem (by omega)
  have hread : memoryWith bytes junk (pos + 3 + 6) = rest[7] := memoryWith_rest hdrop hphy
  have hselects : Selects160 band rest ↔ heWidth band rest[7] = 3 := by
    rw [Selects160, hphy]
    simp
  have hin : ∀ k, InElement bytes pos (pos + 3 + k) ↔ k + 1 < len.toNat ∧ k + 1 < rest.length := by
    intro k
    rw [← inElement_iff hdrop, Nat.add_comm k 1, ← Nat.add_assoc]
  have hstart : (∃ start, pos + 3 = start + 3 ∧ ∀ maxRate,
      (maxHeRate (memoryWith bytes junk) band (pos + 3) maxRate).Inside (InElement bytes start)) ↔
        (maxHeRate (memoryWith bytes junk) band (pos + 3) 0).Inside (InElement bytes pos) := by
    constructor
    · rintro ⟨start, heq, hinside⟩
      cases Nat.add_right_cancel heq
      exact hinside 0
    · exact fun hinside => ⟨pos, rfl, fun _ => inside_maxHeRate.mpr (inside_maxHeRate.mp hinside)⟩
  rw [hstart, inside_maxHeRate, hread, hselects, hin 6, hin, Nat.add_assoc (pos + 3), hin]
  by_cases hwide : heWidth band rest[7] = 3
  · rw [if_pos hwide, forall_prop_of_true hwide]
    omega
  · rw [if_neg hwide]
    refine iff_of_true ?_ fun hselected => absurd hselected hwide
    omega

/-! ### The walk -/

theorem copiedRates_eq (suppRatesLen len : Nat) :
    (if maxNumSupportedRates - suppRatesLen > len then
      len else maxNumSupportedRates - suppRatesLen) = copiedRates suppRatesLen len := by
  rw [copiedRates]
  split <;> omega

theorem IsRates.ne (h : IsRates id) :
    id ≠ wlanEidHtCap ∧ id ≠ wlanEidVhtCap ∧ id ≠ wlanEidExtension := by
  rcases h with rfl | rfl
  · decide
  · decide

/-- The element at `pos` is one of HE capabilities that ends the walk. -/
def TakesHeCap (mem : Memory UInt8) (pos len : Nat) : Prop :=
  mem pos = wlanEidExtension ∧ mem (pos + 2) = wlanEidExtHeCapabilities ∧ 22 ≤ len

instance (mem : Memory UInt8) (pos len : Nat) : Decidable (TakesHeCap mem pos len) :=
  inferInstanceAs (Decidable (_ ∧ _))

/-- What an element changes, field by field. -/
theorem parseElement_value (mem : Memory UInt8) (pos len : Nat) (out : ParsedIes) :
    (parseElement mem pos len out).value =
      ({  suppRatesLen := suppRatesLenAfter out.suppRatesLen (mem pos) len
          stores :=
            if IsRates (mem pos) ∧ copiedRates out.suppRatesLen len > 0 then
              out.stores ++
                [⟨out.suppRatesLen, bytesAt mem (pos + 2) (copiedRates out.suppRatesLen len)⟩]
            else out.stores
          htCap :=
            if mem pos = wlanEidHtCap ∧ len = sizeofHtCap then some (pos + 2) else out.htCap
          vhtCap :=
            if mem pos = wlanEidVhtCap ∧ len = sizeofVhtCap then some (pos + 2) else out.vhtCap
          heCap := if TakesHeCap mem pos len then some (pos + 3) else out.heCap },
        decide (TakesHeCap mem pos len)) := by
  rw [parseElement, Reads.value_bind, Reads.value_readAt]
  dsimp only
  rw [copiedRates_eq]
  by_cases hrates : IsRates (mem pos)
  · obtain ⟨hht, hvht, hext⟩ := hrates.ne
    rw [if_pos (show _ ∨ _ from hrates)]
    by_cases hcopied : copiedRates out.suppRatesLen len > 0
    · simp [suppRatesLenAfter, TakesHeCap, hrates, hcopied, hht, hvht, hext]
    · simp [suppRatesLenAfter, TakesHeCap, hrates, hcopied, hht, hvht, hext]
  · rw [if_neg (show ¬(_ ∨ _) from hrates)]
    by_cases hht : mem pos = wlanEidHtCap
    · have hvht : mem pos ≠ wlanEidVhtCap := by rw [hht]; decide
      have hext : mem pos ≠ wlanEidExtension := by rw [hht]; decide
      by_cases hlen : len = sizeofHtCap
      · simp [suppRatesLenAfter, TakesHeCap, hrates, eq_true hht, hlen, hvht, hext]
      · simp [suppRatesLenAfter, TakesHeCap, hrates, hlen, hvht, hext]
    · by_cases hvht : mem pos = wlanEidVhtCap
      · have hext : mem pos ≠ wlanEidExtension := by rw [hvht]; decide
        by_cases hlen : len = sizeofVhtCap
        · simp [suppRatesLenAfter, TakesHeCap, hrates, hht, eq_true hvht, hlen, hext]
        · simp [suppRatesLenAfter, TakesHeCap, hrates, hht, hlen, hext]
      · by_cases hext : mem pos = wlanEidExtension
        · have hsize : sizeofHeCapElem + sizeofHeMcsNssSupp / 3 + 1 = 22 := rfl
          by_cases htakes : mem (pos + 2) = wlanEidExtHeCapabilities ∧ 22 ≤ len
          · simp [suppRatesLenAfter, TakesHeCap, hrates, hht, hvht, eq_true hext, htakes, hsize]
          · simp [suppRatesLenAfter, TakesHeCap, hrates, hht, hvht, eq_true hext, htakes, hsize]
        · simp [suppRatesLenAfter, TakesHeCap, hrates, hht, hvht, hext]

/-- The bytes of an element that are read. -/
theorem inside_parseElement (mem : Memory UInt8) (pos len : Nat) (out : ParsedIes) :
    (parseElement mem pos len out).Inside P ↔ P pos ∧
      (IsRates (mem pos) → ∀ k < copiedRates out.suppRatesLen len, P (pos + 2 + k)) ∧
      (mem pos = wlanEidExtension → P (pos + 2)) := by
  rw [parseElement, Reads.inside_bind, Reads.inside_readAt, Reads.value_readAt]
  dsimp only
  rw [copiedRates_eq]
  refine and_congr_right fun _ => ?_
  by_cases hrates : IsRates (mem pos)
  · have hext := hrates.ne.2.2
    rw [if_pos (show _ ∨ _ from hrates)]
    by_cases hcopied : copiedRates out.suppRatesLen len > 0
    · simp [hrates, hcopied, hext]
    · have hzero : copiedRates out.suppRatesLen len = 0 := by omega
      simp [hzero, hext]
  · rw [if_neg (show ¬(_ ∨ _) from hrates)]
    by_cases hext : mem pos = wlanEidExtension
    · have hht : mem pos ≠ wlanEidHtCap := by rw [hext]; decide
      have hvht : mem pos ≠ wlanEidVhtCap := by rw [hext]; decide
      simp only [hrates, hht, hvht, eq_true hext, false_and, if_false, if_true, Reads.inside_bind,
        Reads.inside_readAt, false_imp_iff, true_imp_iff, true_and, and_iff_left_iff_imp]
      intro _
      split_ifs
      · exact Reads.inside_pure _
      · exact Reads.inside_pure _
    · simp only [hrates, hext, if_false, false_imp_iff, and_self, iff_true]
      split_ifs
      · exact Reads.inside_pure _
      · exact Reads.inside_pure _
      · exact Reads.inside_pure _

/-- What `parse_ies` has after an element. -/
def afterElement (mem : Memory UInt8) (pos len : Nat) (out : ParsedIes) : ParsedIes :=
  (parseElement mem pos len out).value.1

/-- The rest of the walk after an element. -/
def restOfWalk (mem : Memory UInt8) (fuel pos len : Nat) (ielen : Int) (out : ParsedIes) :
    Reads (Option ParsedIes) :=
  parseIesLoop mem fuel (pos + (len + 2)) (ielen - (len + 2)) (afterElement mem pos len out)

theorem parseIesLoop_stop (h : ielen < 2 ∨ ielen < (mem (pos + 1)).toNat) :
    (parseIesLoop mem (fuel + 1) pos ielen out).value = some out ∧
      ((parseIesLoop mem (fuel + 1) pos ielen out).Inside P ↔ (2 ≤ ielen → P (pos + 1))) := by
  rw [parseIesLoop]
  by_cases hshort : 2 ≤ ielen
  · have hlong : ¬((mem (pos + 1)).toNat : Int) ≤ ielen := by omega
    rw [if_pos hshort]
    simp [hlong, hshort]
  · rw [if_neg hshort]
    simp [hshort]

theorem parseIesLoop_element (hlen : 2 ≤ ielen) (hguard : ((mem (pos + 1)).toNat : Int) ≤ ielen) :
    (parseIesLoop mem (fuel + 1) pos ielen out).value =
        (if TakesHeCap mem pos (mem (pos + 1)).toNat then
          some (afterElement mem pos (mem (pos + 1)).toNat out)
        else (restOfWalk mem fuel pos (mem (pos + 1)).toNat ielen out).value) ∧
      ((parseIesLoop mem (fuel + 1) pos ielen out).Inside P ↔
        P (pos + 1) ∧ (parseElement mem pos (mem (pos + 1)).toNat out).Inside P ∧
          (¬TakesHeCap mem pos (mem (pos + 1)).toNat →
            (restOfWalk mem fuel pos (mem (pos + 1)).toNat ielen out).Inside P)) := by
  have hreturns : (parseElement mem pos (mem (pos + 1)).toNat out).value.2 =
      decide (TakesHeCap mem pos (mem (pos + 1)).toNat) := by
    rw [parseElement_value]
  rw [parseIesLoop, if_pos hlen, Reads.value_bind, Reads.inside_bind, Reads.inside_readAt,
    Reads.value_readAt, if_pos hguard, Reads.value_bind, Reads.inside_bind, hreturns]
  by_cases htakes : TakesHeCap mem pos (mem (pos + 1)).toNat
  · simp [htakes, afterElement]
  · simp [htakes, restOfWalk, afterElement]

theorem takesHeCap_iff (hdrop : bytes.drop pos = id :: len :: rest)
    (hguard : len.toNat ≤ rest.length + 2) :
    TakesHeCap (memoryWith bytes junk) pos len.toNat ↔ IsHeCap id len.toNat rest := by
  rw [TakesHeCap, IsHeCap, memoryWith_id hdrop]
  refine and_congr_right fun _ => and_congr_left fun hlen => ?_
  obtain ⟨ext, rest', rfl⟩ : ∃ ext rest', rest = ext :: rest' :=
    List.exists_cons_of_length_pos (by omega)
  have hext : memoryWith bytes junk (pos + 2 + 0) = ext := memoryWith_rest hdrop rfl
  rw [Nat.add_zero] at hext
  rw [hext, List.head?_cons, Option.some.injEq]

/-- An element has what it needs if it is read inside the string, and its pointer in the element. -/
theorem elementFits_iff (junk : Memory UInt8) (out : ParsedIes)
    (hdrop : bytes.drop pos = id :: len :: rest) :
    ElementFits band out.suppRatesLen id len.toNat rest ↔
      (parseElement (memoryWith bytes junk) pos len.toNat out).Inside (· < bytes.length) ∧
        (IsHeCap id len.toNat rest → Selects160 band rest → 24 ≤ len.toNat ∧ 24 ≤ rest.length) := by
  have hlength := length_of_drop hdrop
  rw [inside_parseElement, memoryWith_id hdrop]
  constructor
  · intro hfits
    refine ⟨⟨by omega, fun hrates k hk => ?_, fun hext => ?_⟩, hfits.map160⟩
    · have := hfits.rates hrates
      omega
    · have := List.length_pos_iff.mpr (hfits.extension hext)
      omega
  · rintro ⟨⟨-, hrates, hext⟩, hmap⟩
    refine ⟨fun h => ?_, fun h => ?_, hmap⟩
    · refine Nat.le_of_not_lt fun hlt => ?_
      have := hrates h rest.length hlt
      omega
    · have := hext h
      exact List.length_pos_iff.mp (by omega)

/-- `calculate_phy_rate` reads the HE capabilities in their element. -/
def HeInside (band : HwBand) (bytes : List UInt8) (junk : Memory UInt8) (out : ParsedIes) : Prop :=
  ∀ p, out.heCap = some p → ∃ start, p = start + 3 ∧ ∀ maxRate,
    (maxHeRate (memoryWith bytes junk) band p maxRate).Inside (InElement bytes start)

/-- The walk reads the string only, and returns HE capabilities that are in their element. -/
def WalkInside (band : HwBand) (bytes : List UInt8) (junk : Memory UInt8)
    (run : Reads (Option ParsedIes)) : Prop :=
  run.Inside (· < bytes.length) ∧ ∀ out, run.value = some out → HeInside band bytes junk out

theorem walkInside_stop (h : ielen < 2 ∨ ielen < (memoryWith bytes junk (pos + 1)).toNat)
    (hread : 2 ≤ ielen → pos + 1 < bytes.length) (hhe : out.heCap = none) :
    WalkInside band bytes junk (parseIesLoop (memoryWith bytes junk) (fuel + 1) pos ielen out) := by
  refine ⟨(parseIesLoop_stop h).2.mpr hread, fun out' hout p hp => ?_⟩
  -- the property of the addresses does not matter for the value
  cases (parseIesLoop_stop (P := fun _ => True) h).1.symm.trans hout
  rw [hhe] at hp
  cases hp

theorem walkInside_element (hlen : 2 ≤ ielen)
    (hguard : ((memoryWith bytes junk (pos + 1)).toNat : Int) ≤ ielen)
    (hread : pos + 1 < bytes.length) :
    WalkInside band bytes junk (parseIesLoop (memoryWith bytes junk) (fuel + 1) pos ielen out) ↔
      (parseElement (memoryWith bytes junk) pos (memoryWith bytes junk (pos + 1)).toNat out).Inside
          (· < bytes.length) ∧
        if TakesHeCap (memoryWith bytes junk) pos (memoryWith bytes junk (pos + 1)).toNat then
          HeInside band bytes junk
            (afterElement (memoryWith bytes junk) pos (memoryWith bytes junk (pos + 1)).toNat out)
        else
          WalkInside band bytes junk (restOfWalk (memoryWith bytes junk) fuel pos
            (memoryWith bytes junk (pos + 1)).toNat ielen out) := by
  rw [WalkInside, (parseIesLoop_element hlen hguard).2,
    (parseIesLoop_element (P := (· < bytes.length)) hlen hguard).1]
  by_cases htakes : TakesHeCap (memoryWith bytes junk) pos (memoryWith bytes junk (pos + 1)).toNat
  · rw [if_pos htakes, if_pos htakes]
    simp only [hread, htakes, not_true, false_imp_iff, and_true, true_and, Option.some.injEq,
      forall_eq']
  · rw [if_neg htakes, if_neg htakes]
    simp only [hread, htakes, not_false_eq_true, true_imp_iff, true_and, and_assoc, WalkInside]

theorem afterElement_takes {n : Nat} (h : TakesHeCap mem pos n) :
    (afterElement mem pos n out).heCap = some (pos + 3) := by
  rw [afterElement, parseElement_value]
  exact if_pos h

theorem afterElement_heCap {n : Nat} (h : ¬TakesHeCap mem pos n) :
    (afterElement mem pos n out).heCap = out.heCap := by
  rw [afterElement, parseElement_value]
  exact if_neg h

theorem afterElement_suppRatesLen (mem : Memory UInt8) (pos n : Nat) (out : ParsedIes) :
    (afterElement mem pos n out).suppRatesLen = suppRatesLenAfter out.suppRatesLen (mem pos) n := by
  rw [afterElement, parseElement_value]

theorem parseIesLoop_fits (hdrop : bytes.drop pos = left)
    (hielen : ielen = (bytes.length : Int) - pos)
    (hfuel : left.length < fuel) (hhe : out.heCap = none) :
    WalkInside band bytes junk (parseIesLoop (memoryWith bytes junk) fuel pos ielen out) ↔
      WalkFits band out.suppRatesLen left := by
  induction fuel generalizing pos ielen out left with
  | zero => exact absurd hfuel (Nat.not_lt_zero _)
  | succ fuel ih =>
    have hlength := congrArg List.length hdrop
    rw [List.length_drop] at hlength
    rcases left with _ | ⟨id, _ | ⟨len, rest⟩⟩
    · rw [List.length_nil] at hlength
      rw [WalkFits]
      · exact iff_of_true (walkInside_stop (.inl (by omega)) (fun _ => by omega) hhe) trivial
      · nofun
    · rw [List.length_singleton] at hlength
      rw [WalkFits]
      · exact iff_of_true (walkInside_stop (.inl (by omega)) (fun _ => by omega) hhe) trivial
      · nofun
    · have htotal := length_of_drop hdrop
      have hleft : ielen = rest.length + 2 := by omega
      have hid : memoryWith bytes junk pos = id := memoryWith_id hdrop
      have hlen : memoryWith bytes junk (pos + 1) = len := memoryWith_len hdrop
      rw [WalkFits]
      by_cases hlong : rest.length + 2 < len.toNat
      · refine iff_of_true (walkInside_stop (.inr ?_) (fun _ => by omega) hhe) (.inl hlong)
        rw [hlen]
        omega
      · have hguard : len.toNat ≤ rest.length + 2 := Nat.le_of_not_lt hlong
        rw [walkInside_element (by omega) (by rw [hlen]; omega) (by omega), hlen,
          or_iff_right hlong, elementFits_iff junk out hdrop, and_assoc]
        refine and_congr_right fun _ => ?_
        by_cases htakes : IsHeCap id len.toNat rest
        · rw [if_pos ((takesHeCap_iff hdrop hguard).mpr htakes), and_iff_left (.inl htakes),
            forall_prop_of_true htakes, ← heCap_iff junk hdrop htakes.2.2 hguard, HeInside,
            afterElement_takes ((takesHeCap_iff hdrop hguard).mpr htakes)]
          simp only [Option.some.injEq, forall_eq']
        · have hgoes : ¬TakesHeCap (memoryWith bytes junk) pos len.toNat :=
            fun h => htakes ((takesHeCap_iff hdrop hguard).mp h)
          rw [if_neg hgoes, and_iff_right fun h => absurd h htakes, or_iff_right htakes]
          have hshorter : (rest.drop len.toNat).length < fuel :=
            Nat.lt_of_lt_of_le (length_drop_lt rest len.toNat) (Nat.le_of_lt_succ hfuel)
          rw [restOfWalk, ih (drop_element hdrop len.toNat) (by omega) hshorter
            ((afterElement_heCap hgoes).trans hhe), afterElement_suppRatesLen, hid]

/-! ### What no element breaks -/

/-- What holds during any walk. -/
structure WalkInv (band : HwBand) (bytes : List UInt8) (junk : Memory UInt8) (out : ParsedIes) :
    Prop where
  suppRatesLen : out.suppRatesLen ≤ maxNumSupportedRates
  stores : ∀ a, Touches out.stores a → a < maxNumSupportedRates
  ht : ∀ p, out.htCap = some p → ∃ start, p = start + 2 ∧ ∀ maxRate,
    (maxHtRate (memoryWith bytes junk) p maxRate).Inside (InElement bytes start)
  vht : ∀ p, out.vhtCap = some p → ∃ start, p = start + 2 ∧ ∀ ht maxRate,
    (maxVhtRate (memoryWith bytes junk) band p ht maxRate).Inside (InElement bytes start)

theorem WalkInv.afterElement (hinv : WalkInv band bytes junk out)
    (hdrop : bytes.drop pos = id :: len :: rest) (hguard : len.toNat ≤ rest.length + 2) :
    WalkInv band bytes junk (afterElement (memoryWith bytes junk) pos len.toNat out) := by
  have hroom := hinv.suppRatesLen
  have hcopied : out.suppRatesLen + copiedRates out.suppRatesLen len.toNat ≤
      maxNumSupportedRates := by
    unfold copiedRates
    omega
  rw [Stats.afterElement, parseElement_value, memoryWith_id hdrop]
  refine ⟨?_, fun a ha => ?_, fun p hp => ?_, fun p hp => ?_⟩
  · dsimp only [suppRatesLenAfter]
    split_ifs
    · omega
    · exact hroom
  · dsimp only at ha
    split_ifs at ha
    · rw [touches_append, touches_cons] at ha
      rcases ha with ha | ha | ha
      · exact hinv.stores a ha
      · have hlt := ha.2
        rw [length_bytesAt] at hlt
        exact Nat.lt_of_lt_of_le hlt hcopied
      · exact absurd ha not_touches_nil
    · exact hinv.stores a ha
  · dsimp only at hp
    split_ifs at hp with hht
    · cases hp
      have hsize : len.toNat = 26 := hht.2
      exact ⟨pos, rfl, fun maxRate => inside_maxHtRate fun k hk =>
        (inElement_iff hdrop k).mpr ⟨by omega, by omega⟩⟩
    · exact hinv.ht p hp
  · dsimp only at hp
    split_ifs at hp with hvht
    · cases hp
      have hsize : len.toNat = 12 := hvht.2
      exact ⟨pos, rfl, fun ht maxRate => inside_maxVhtRate fun k hk =>
        (inElement_iff hdrop k).mpr ⟨by omega, by omega⟩⟩
    · exact hinv.vht p hp

/-- The walk ends, after at most as many rounds as there are bytes. -/
theorem parseIesLoop_ends (hdrop : bytes.drop pos = left)
    (hielen : ielen = (bytes.length : Int) - pos) (hinv : WalkInv band bytes junk out) :
    ∃ out', WalkInv band bytes junk out' ∧ ∀ fuel > left.length,
      (parseIesLoop (memoryWith bytes junk) fuel pos ielen out).value = some out' := by
  induction hn : left.length using Nat.strongRecOn generalizing pos ielen out left with
  | ind n ih =>
    subst hn
    have hlength := congrArg List.length hdrop
    rw [List.length_drop] at hlength
    have hstops : ielen < 2 ∨ ielen < (memoryWith bytes junk (pos + 1)).toNat →
        ∃ out', WalkInv band bytes junk out' ∧ ∀ fuel > left.length,
          (parseIesLoop (memoryWith bytes junk) fuel pos ielen out).value = some out' := by
      intro hstop
      refine ⟨out, hinv, fun fuel hfuel => ?_⟩
      obtain ⟨fuel, rfl⟩ := Nat.exists_eq_succ_of_ne_zero (Nat.ne_of_gt (Nat.zero_lt_of_lt hfuel))
      exact (parseIesLoop_stop (P := fun _ => True) hstop).1
    rcases left with _ | ⟨id, _ | ⟨len, rest⟩⟩
    · rw [List.length_nil] at hlength
      exact hstops (.inl (by omega))
    · rw [List.length_singleton] at hlength
      exact hstops (.inl (by omega))
    · have htotal := length_of_drop hdrop
      have hleft : ielen = rest.length + 2 := by omega
      have hlen : memoryWith bytes junk (pos + 1) = len := memoryWith_len hdrop
      by_cases hlong : rest.length + 2 < len.toNat
      · refine hstops (.inr ?_)
        rw [hlen]
        omega
      · have hguard : len.toNat ≤ rest.length + 2 := Nat.le_of_not_lt hlong
        have hafter := hinv.afterElement hdrop hguard
        have hielen' : ielen - (len.toNat + 2) =
            (bytes.length : Int) - (pos + (len.toNat + 2) : Nat) := by omega
        obtain ⟨out', hinv', hends⟩ := ih _ (length_drop_lt rest len.toNat)
          (drop_element hdrop len.toNat) hielen' hafter rfl
        have hrun : ∀ fuel, (parseIesLoop (memoryWith bytes junk) (fuel + 1) pos ielen out).value =
            if TakesHeCap (memoryWith bytes junk) pos len.toNat then
              some (Stats.afterElement (memoryWith bytes junk) pos len.toNat out)
            else (restOfWalk (memoryWith bytes junk) fuel pos len.toNat ielen out).value := by
          intro fuel
          rw [(parseIesLoop_element (P := fun _ => True) (by omega) (by rw [hlen]; omega)).1, hlen]
        by_cases htakes : TakesHeCap (memoryWith bytes junk) pos len.toNat
        · refine ⟨_, hafter, fun fuel hfuel => ?_⟩
          obtain ⟨fuel, rfl⟩ :=
            Nat.exists_eq_succ_of_ne_zero (Nat.ne_of_gt (Nat.zero_lt_of_lt hfuel))
          rw [hrun, if_pos htakes]
        · refine ⟨out', hinv', fun fuel hfuel => ?_⟩
          obtain ⟨fuel, rfl⟩ :=
            Nat.exists_eq_succ_of_ne_zero (Nat.ne_of_gt (Nat.zero_lt_of_lt hfuel))
          rw [hrun, if_neg htakes]
          exact hends fuel
            (Nat.lt_of_lt_of_le (length_drop_lt rest len.toNat) (Nat.le_of_lt_succ hfuel))

end

/-- `parse_ies` is safe on some bytes if and only if each element that it comes to has what it
needs. -/
theorem walkSafe_iff (band : HwBand) (bytes : List UInt8) (junk : Memory UInt8) :
    WalkSafe band bytes junk ↔ WalkFits band 0 bytes := by
  have hielen : (bytes.length : Int) = bytes.length - (0 : Nat) := by omega
  have hstart : WalkInv band bytes junk ⟨0, [], none, none, none⟩ :=
    ⟨Nat.zero_le _, fun a ha => absurd ha not_touches_nil, nofun, nofun⟩
  obtain ⟨out, hinv, hends⟩ := parseIesLoop_ends (show bytes.drop 0 = bytes from rfl) hielen hstart
  have hfits : ∀ fuel > bytes.length,
      (WalkInside band bytes junk (parseIes fuel (memoryWith bytes junk) bytes.length) ↔
        WalkFits band 0 bytes) :=
    fun fuel hfuel => parseIesLoop_fits rfl hielen hfuel rfl
  constructor
  · rintro ⟨out', hsafe⟩
    have hrun := hsafe _ (Nat.lt_succ_self _)
    refine (hfits _ (Nat.lt_succ_self _)).mp ⟨hrun.reads, fun found hfound => ?_⟩
    cases hrun.ends.symm.trans hfound
    exact hrun.he
  · intro hwalk
    refine ⟨out, fun fuel hfuel => ?_⟩
    obtain ⟨hreads, hhe⟩ := (hfits fuel hfuel).mpr hwalk
    exact ⟨hends fuel hfuel, hreads, hinv.stores, hinv.ht, hinv.vht, hhe out (hends fuel hfuel)⟩

/-- An empty extension at the end of the elements is read behind their end. -/
theorem walkSafe_empty : ¬WalkSafe .ghz52 [wlanEidExtension, 0] fun _ => 0 := by
  rintro ⟨out, hsafe⟩
  have hread : 2 < 2 := (hsafe 3 (by decide)).reads 2 (by decide)
  exact absurd hread (Nat.lt_irrefl 2)

end Dwpal.Stats
