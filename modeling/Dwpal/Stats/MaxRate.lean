import Dwpal.Lib.Greatest
import Dwpal.Stats.ElementList

/-! The rate that `calculate_phy_rate` of `stats.c` finds, and the largest of all the rates that a
list of elements announces. -/

namespace Dwpal.Stats

open Stores Greatest

/-! What the elements announce. -/

/-- A byte of an element. -/
def byteOf (body : List UInt8) (k : Nat) : UInt8 := (body[k]?).getD 0

/-- A `__le16` of an element. -/
def le16Of (body : List UInt8) (k : Nat) : Nat :=
  (byteOf body k).toNat + 256 * (byteOf body (k + 1)).toNat

/-- A `__le32` of an element. -/
def le32Of (body : List UInt8) (k : Nat) : Nat := le16Of body k + 65536 * le16Of body (k + 2)

/-- A mask has the bit of an MCS. -/
def Announces (mask : UInt8) (mcs : Nat) : Prop := (mask.toNat >>> mcs) &&& 1 ≠ 0

instance (mask : UInt8) (mcs : Nat) : Decidable (Announces mask mcs) :=
  inferInstanceAs (Decidable (_ ≠ 0))

/-- The rates of the HT capabilities with `i + 1` streams. -/
def htRow (body : List UInt8) (i : Nat) : List Nat :=
  ((List.range 8).filter fun mcs => Announces (byteOf body (3 + i)) mcs).map fun mcs =>
    (i + 1) * hwRateParamsToRate .ht (htWidth (le16Of body 0)).1
      (htWidth (le16Of body 0)).2 mcs (i + 1)

/-- The rate of MCS 32, which has one stream. -/
def mcs32Rates (body : List UInt8) : List Nat :=
  if Announces (byteOf body 7) 0 then
    [hwRateParamsToRate .ht (htWidth (le16Of body 0)).1 (htWidth (le16Of body 0)).2 bitrateMcs32 1]
  else []

/-- The two bits of a map for `i + 1` streams. -/
def mapBits (mcsMap i : Nat) : Nat := (mcsMap >>> (2 * i)) &&& 3

/-- The rates of a map with `i + 1` streams; `highest` is the highest MCS for each value of the
bits. -/
def mapRow (rate : Nat → Nat → Nat) (highest : Nat → Nat) (mcsMap i : Nat) : List Nat :=
  if mapBits mcsMap i = 3 then []
  else (List.range (highest (mapBits mcsMap i) + 1)).map fun mcs => (i + 1) * rate mcs (i + 1)

/-- The rates of the VHT capabilities with `i + 1` streams. -/
def vhtRow (band : HwBand) (ht : Nat × Nat) (body : List UInt8) (i : Nat) : List Nat :=
  mapRow (hwRateParamsToRate .vht (vhtWidth band (le32Of body 0) ht).1
    (vhtWidth band (le32Of body 0) ht).2) (7 + ·) (le16Of body 4) i

/-- The map of the HE capabilities for the width that they select. -/
def heMap (band : HwBand) (body : List UInt8) : Nat :=
  le16Of body (1 + if heWidth band (byteOf body 7) = 3 then 21 else 17)

/-- The rates of the HE capabilities with `i + 1` streams. -/
def heRow (band : HwBand) (body : List UInt8) (i : Nat) : List Nat :=
  mapRow (hwRateParamsToRate .he (heWidth band (byteOf body 7)) 0) (fun bits => 7 + bits * 2)
    (heMap band body) i

def htRates (body : List UInt8) : List Nat := mcs32Rates body ++ (List.range 4).flatMap (htRow body)

def vhtRates (band : HwBand) (ht : Nat × Nat) (body : List UInt8) : List Nat :=
  (List.range 8).flatMap (vhtRow band ht body)

def heRates (band : HwBand) (body : List UInt8) : List Nat :=
  (List.range 8).flatMap (heRow band body)

/-- The body of the element of some kind, of which there is at most one. -/
def bodyOf (P : Element → Bool) (els : List Element) : Option (List UInt8) :=
  (els.find? P).map Element.body

/-- The width and the guard interval that the HT capabilities select. -/
def htSelected (els : List Element) : Nat × Nat :=
  (bodyOf Element.isHt els).elim (0, 0) fun body => htWidth (le16Of body 0)

/-- The legacy rates of some elements. -/
def legacyRates (els : List Element) : List Nat :=
  (collectedRates els).map fun r => (r.toNat &&& 0x7f) * 10 / 2

/-- All rates that some elements announce. -/
def allRates (band : HwBand) (els : List Element) : List Nat :=
  legacyRates els ++ (bodyOf Element.isHt els).elim [] htRates ++
    (bodyOf Element.isVht els).elim [] (vhtRates band (htSelected els)) ++
      (bodyOf Element.isHe els).elim [] (heRates band)

/-- A list of elements in which the HE capabilities are as long as their kind is, with at most one
element for each kind of capabilities. -/
structure WellFormed (band : HwBand) (els : List Element) : Prop where
  he : ∀ e ∈ els, e.id = wlanEidExtension → e.body.head? = some wlanEidExtHeCapabilities →
    22 ≤ e.body.length ∧ (heWidth band (byteOf e.body 7) = 3 → 24 ≤ e.body.length)
  one_ht : (els.filter Element.isHt).length ≤ 1
  one_vht : (els.filter Element.isVht).length ≤ 1
  one_he : (els.filter Element.isHe).length ≤ 1

/-- What is asked of `calculate_phy_rate`: it ends, with the rates of all elements of rates as far
as they fit, and finds the largest rate. -/
def FindsMaxRate (band : HwBand) (els : List Element) (junk : Memory UInt8) : Prop :=
  ∃ out, ∀ fuel > els.length,
    (parseIes fuel (memoryWith (encode els) junk) (encode els).length).value = some out ∧
      bytesAt (runAll out.stores fun _ => 0) 0 maxNumSupportedRates = collectedRates els ++
        List.replicate (maxNumSupportedRates - (collectedRates els).length) 0 ∧
      (calculatePhyRate fuel (memoryWith (encode els) junk) band (encode els).length).value =
        some (greatest (allRates band els))

/-- The highest MCS of the highest number of streams is one that the rates of VHT are valid for. -/
def VhtValid (band : HwBand) (ht : Nat × Nat) (body : List UInt8) : Prop :=
  ∀ i < 8, mapBits (le16Of body 4) i ≠ 3 → (∀ k < 8, i < k → mapBits (le16Of body 4) k = 3) →
    (vhtWidth band (le32Of body 0) ht).1 = 0 ∨
      isValidVhtRateParams (vhtWidth band (le32Of body 0) ht).1
        (7 + mapBits (le16Of body 4) i) (i + 1)

instance (band : HwBand) (ht : Nat × Nat) (body : List UInt8) : Decidable (VhtValid band ht body) :=
  inferInstanceAs (Decidable (∀ i < 8, _ → _ → _))

/-- What the loops of `calculate_phy_rate` rely on. -/
structure SearchFits (band : HwBand) (els : List Element) : Prop where
  rates : RatesFit els
  behindHe : ∀ e ∈ behindHe els, e.isRates = false ∧ e.isHt = false ∧ e.isVht = false
  legacy : byteOf (collectedRates els) 0 ≠ 0 ∨ ∀ r ∈ collectedRates els, r.toNat &&& 0x7f = 0
  ht : ∀ body ∈ bodyOf Element.isHt els, HighestBest (htRow body) 4
  vht : ∀ body ∈ bodyOf Element.isVht els, HighestBest (vhtRow band (htSelected els) body) 8
  vhtValid : ∀ body ∈ bodyOf Element.isVht els, VhtValid band (htSelected els) body
  he : ∀ body ∈ bodyOf Element.isHe els, HighestBest (heRow band body) 8

section

variable {band : HwBand} {mem : Memory UInt8} {p maxRate bw scp nss n i : Nat} {body : List UInt8}
  {els : List Element} {ht : Nat × Nat}

/-! ### The tables -/

theorem htRate_nss {mcs : Nat} (hmcs : mcs < 8) (hnss : nss ≤ 4) :
    hwRateParamsToRate .ht bw scp mcs nss = hwRateParamsToRate .ht bw scp mcs 1 := by
  have hmcs' : mcs < 33 := by omega
  simp [hwRateParamsToRate, hnss, hmcs']

/-- With a higher MCS of HT the rate is not lower. -/
theorem htRate_mono : ∀ bw < 2, ∀ scp < 2, ∀ high < 8, ∀ low ≤ high,
    hwRateParamsToRate .ht bw scp low 1 ≤ hwRateParamsToRate .ht bw scp high 1 := by
  decide

theorem heRate_nss {mcs : Nat} (hmcs : mcs < 12) (hpos : 0 < nss) (hnss : nss ≤ 8) :
    hwRateParamsToRate .he bw 0 mcs nss = hwRateParamsToRate .he bw 0 mcs 1 := by
  simp [hwRateParamsToRate, hmcs, hpos, hnss]

/-- With a higher MCS of HE the rate is not lower. -/
theorem heRate_mono : ∀ bw < 4, ∀ high < 12, ∀ low ≤ high,
    hwRateParamsToRate .he bw 0 low 1 ≤ hwRateParamsToRate .he bw 0 high 1 := by
  decide

/-- The highest MCS that has a rate for one stream. -/
def vhtMcs (bw bits : Nat) : Nat := if bw = 0 ∧ bits = 2 then 8 else 7 + bits

theorem vhtRateLoop_eq : ∀ bw < 4, ∀ scp < 2, ∀ bits < 3,
    vhtRateLoop bw scp (bits + 1) = hwRateParamsToRate .vht bw scp (vhtMcs bw bits) 1 := by
  decide

/-- With a higher MCS of VHT the rate is not lower, up to the highest. -/
theorem vhtRate_mono : ∀ bw < 4, ∀ scp < 2, ∀ bits < 3, ∀ low ≤ 7 + bits, ∀ i < 8,
    hwRateParamsToRate .vht bw scp low (i + 1) ≤
      hwRateParamsToRate .vht bw scp (vhtMcs bw bits) 1 := by
  decide

theorem vhtRate_valid : ∀ bw < 4, ∀ scp < 2, ∀ bits < 3, ∀ i < 8,
    (bw == 0 || isValidVhtRateParams bw (7 + bits) (i + 1)) = true →
      hwRateParamsToRate .vht bw scp (vhtMcs bw bits) (i + 1) =
        hwRateParamsToRate .vht bw scp (vhtMcs bw bits) 1 := by
  decide

theorem vhtMcs_le (bw bits : Nat) : vhtMcs bw bits ≤ 7 + bits := by
  unfold vhtMcs
  split_ifs with h
  · omega
  · exact Nat.le_refl _

/-- A byte that is not 0 has the bit of one of eight MCS. -/
theorem exists_announces {mask : UInt8} (h : mask ≠ 0) : ∃ mcs < 8, Announces mask mcs := by
  have hne : mask.toNat ≠ 0 := fun hzero => h (UInt8.toNat_inj.mp hzero)
  obtain ⟨mcs, hbit⟩ := Nat.exists_testBit_of_ne_zero hne
  refine ⟨mcs, Nat.lt_of_not_le fun hle => ?_, fun hzero => ?_⟩
  · have hpow := Nat.pow_le_pow_right (show 0 < 2 by omega) hle
    have hbound := mask.toNat_lt
    have hge := Nat.ge_two_pow_of_testBit hbit
    omega
  · rw [Nat.testBit, Nat.and_comm, hzero] at hbit
    cases hbit

/-! ### The searches -/

theorem highestMcs_eq (mask : UInt8) (i n htMcs : Nat) :
    (∃ mcs, IsTop (Announces mask) n mcs ∧ highestMcs mask.toNat i n htMcs = mcs + i * 8) ∨
      (∀ mcs < n, ¬Announces mask mcs) ∧ highestMcs mask.toNat i n htMcs = htMcs := by
  induction n with
  | zero => exact .inr ⟨nofun, rfl⟩
  | succ n ih =>
    rw [highestMcs]
    by_cases hbit : Announces mask n
    · exact .inl ⟨n, isTop_succ hbit, if_pos hbit⟩
    · rw [if_neg (show ¬(mask.toNat >>> n) &&& 1 ≠ 0 from hbit)]
      refine ih.imp (fun ⟨mcs, htop, heq⟩ => ⟨mcs, htop.succ hbit, heq⟩) fun ⟨hnone, heq⟩ => ?_
      refine ⟨fun mcs hmcs => ?_, heq⟩
      rcases Nat.lt_succ_iff_lt_or_eq.mp hmcs with hlt | rfl
      · exact hnone mcs hlt
      · exact hbit

theorem htStreams_eq (mem : Memory UInt8) (p n htNss htMcs : Nat) :
    (∃ i, IsTop (fun i => mem (p + 3 + i) ≠ 0) n i ∧
        (htStreams mem p n htNss htMcs).value =
          (i + 1, highestMcs (mem (p + 3 + i)).toNat i 8 htMcs)) ∨
      (∀ i < n, mem (p + 3 + i) = 0) ∧ (htStreams mem p n htNss htMcs).value = (htNss, htMcs) := by
  induction n with
  | zero => exact .inr ⟨fun i hi => absurd hi (Nat.not_lt_zero i), rfl⟩
  | succ n ih =>
    rw [htStreams, Reads.value_bind, Reads.value_readAt]
    by_cases hmask : mem (p + 3 + n) ≠ 0
    · refine .inl ⟨n, isTop_succ hmask, ?_⟩
      rw [if_pos hmask, Reads.value_pure]
    · rw [if_neg hmask]
      rcases ih with ⟨i, htop, heq⟩ | ⟨hnone, heq⟩
      · exact .inl ⟨i, htop.succ hmask, heq⟩
      refine .inr ⟨fun i hi => ?_, heq⟩
      rcases Nat.lt_succ_iff_lt_or_eq.mp hi with hlt | rfl
      · exact hnone i hlt
      · exact not_not.mp hmask

theorem mapStreams_eq (mcsMap n mcs : Nat) :
    (∃ i, IsTop (fun i => mapBits mcsMap i ≠ 3) n i ∧
        mapStreams mcsMap n mcs = (i + 1, mapBits mcsMap i)) ∨
      (∀ i < n, mapBits mcsMap i = 3) ∧ (mapStreams mcsMap n mcs).2 = if n = 0 then mcs else 3 := by
  induction n generalizing mcs with
  | zero => exact .inr ⟨nofun, rfl⟩
  | succ n ih =>
    rw [mapStreams]
    by_cases hbits : mapBits mcsMap n ≠ 3
    · exact .inl ⟨n, isTop_succ hbits, if_pos hbits⟩
    · have hthree : (mcsMap >>> (2 * n)) &&& 3 = 3 := not_not.mp hbits
      rw [if_neg (not_not.mpr hthree), hthree, if_neg (Nat.succ_ne_zero n)]
      refine (ih 3).imp (fun ⟨i, htop, heq⟩ => ⟨i, htop.succ hbits, heq⟩) fun ⟨hnone, heq⟩ => ?_
      refine ⟨fun i hi => ?_, heq.trans (ite_self 3)⟩
      rcases Nat.lt_succ_iff_lt_or_eq.mp hi with hlt | rfl
      · exact hnone i hlt
      · exact hthree

theorem mapBits_lt (mcsMap i : Nat) : mapBits mcsMap i < 4 :=
  Nat.lt_succ_of_le Nat.and_le_right

/-! ### The parts of `calculate_phy_rate` -/

theorem PointsAt.byteOf (h : PointsAt mem p body) {k : Nat} (hk : k < body.length) :
    mem (p + k) = byteOf body k := by
  rw [Stats.byteOf, List.getElem?_eq_getElem hk, Option.getD_some]
  exact h k _ (List.getElem?_eq_getElem hk)

theorem PointsAt.le16 (h : PointsAt mem p body) {k : Nat} (hk : k + 1 < body.length) :
    (le16 mem (p + k)).value = le16Of body k := by
  simp only [Stats.le16, Reads.value_bind, Reads.value_readAt, Reads.value_pure, le16Of]
  rw [h.byteOf (Nat.lt_of_succ_lt hk), Nat.add_assoc, h.byteOf hk]

theorem htWidth_lt (htCap : Nat) : (htWidth htCap).1 < 2 ∧ (htWidth htCap).2 < 2 := by
  unfold htWidth
  split_ifs <;> exact ⟨by decide, by decide⟩

theorem htRow_eq_nil : htRow body i = [] ↔ byteOf body (3 + i) = 0 := by
  rw [htRow, List.map_eq_nil_iff, List.filter_eq_nil_iff]
  constructor
  · intro hnone
    by_contra hne
    obtain ⟨mcs, hmcs, hbit⟩ := exists_announces hne
    exact hnone mcs (List.mem_range.mpr hmcs) (decide_eq_true hbit)
  · intro hzero mcs _
    rw [hzero, decide_eq_true_eq, Announces]
    simp

/-- The highest MCS has the best rate of a row. -/
theorem greatest_htRow {mcs : Nat} (hi : i < 4)
    (htop : IsTop (Announces (byteOf body (3 + i))) 8 mcs) : greatest (htRow body i) = (i + 1) *
      hwRateParamsToRate .ht (htWidth (le16Of body 0)).1 (htWidth (le16Of body 0)).2 mcs 1 := by
  obtain ⟨hbw, hscp⟩ := htWidth_lt (le16Of body 0)
  refine greatest_eq (List.mem_map.mpr ⟨mcs, ?_, ?_⟩) fun x hx => ?_
  · exact List.mem_filter.mpr ⟨List.mem_range.mpr htop.lt, decide_eq_true htop.holds⟩
  · rw [htRate_nss htop.lt (by omega)]
  · obtain ⟨low, hlow, rfl⟩ := List.mem_map.mp hx
    obtain ⟨hrange, hbit⟩ := List.mem_filter.mp hlow
    have hlt := List.mem_range.mp hrange
    have hle : low ≤ mcs := Nat.le_of_not_lt fun hgt =>
      htop.above low hlt hgt (of_decide_eq_true hbit)
    rw [htRate_nss hlt (by omega)]
    exact Nat.mul_le_mul_left _ (htRate_mono _ hbw _ hscp mcs htop.lt low hle)

/-- MCS 32 has a rate at 40 MHz only. -/
theorem greatest_mcs32Rates (body : List UInt8) : greatest (mcs32Rates body) =
    if byteOf body 7 &&& 1 ≠ 0 ∧ (htWidth (le16Of body 0)).1 = 1 then
      hwRateParamsToRate .ht (htWidth (le16Of body 0)).1 (htWidth (le16Of body 0)).2 bitrateMcs32 1
    else 0 := by
  obtain ⟨hbw, hscp⟩ := htWidth_lt (le16Of body 0)
  have hbit : Announces (byteOf body 7) 0 ↔ byteOf body 7 &&& 1 ≠ 0 := by
    rw [Announces, Nat.shiftRight_zero, not_iff_not, ← UInt8.toNat_inj]
    exact Iff.rfl
  have hnarrow : ∀ bw < 2, ∀ scp < 2, bw ≠ 1 →
      hwRateParamsToRate .ht bw scp bitrateMcs32 1 = 0 := by
    decide
  rw [mcs32Rates]
  by_cases hmask : Announces (byteOf body 7) 0
  · rw [if_pos hmask, greatest_cons, greatest_nil, Nat.max_zero]
    by_cases hwide : (htWidth (le16Of body 0)).1 = 1
    · rw [if_pos ⟨hbit.mp hmask, hwide⟩]
    · rw [if_neg fun h => hwide h.2, hnarrow _ hbw _ hscp hwide]
  · rw [if_neg hmask, if_neg fun h => hmask (hbit.mpr h.1), greatest_nil]

/-- The search over the streams finds the best rate, or nothing. -/
theorem htStreams_rate (hmask : ∀ i < 4, mem (p + 3 + i) = byteOf body (3 + i))
    (hbest : HighestBest (htRow body) 4) (htNss htMcs : Nat) :
    (∃ i mcs, (htStreams mem p 4 htNss htMcs).value = (i + 1, mcs + i * 8) ∧ i < 4 ∧ mcs < 8 ∧
        hwRateParamsToRate .ht (htWidth (le16Of body 0)).1 (htWidth (le16Of body 0)).2 mcs 1 *
          (i + 1) = greatest ((List.range 4).flatMap (htRow body))) ∨
      (htStreams mem p 4 htNss htMcs).value = (htNss, htMcs) ∧
        greatest ((List.range 4).flatMap (htRow body)) = 0 := by
  rcases htStreams_eq mem p 4 htNss htMcs with ⟨i, htop, heq⟩ | ⟨hnone, heq⟩
  · have hi := htop.lt
    have hrow : IsTop (fun i => htRow body i ≠ []) 4 i := by
      refine ⟨hi, fun hnil => ?_, fun k hk hlt hne => ?_⟩
      · exact htop.holds ((hmask i hi).trans (htRow_eq_nil.mp hnil))
      · refine htop.above k hk hlt fun hzero => hne (htRow_eq_nil.mpr ?_)
        rw [← hmask k hk, hzero]
    have hne : byteOf body (3 + i) ≠ 0 := fun hzero => hrow.holds (htRow_eq_nil.mpr hzero)
    rw [hmask i hi] at heq
    rcases highestMcs_eq (byteOf body (3 + i)) i 8 htMcs with ⟨mcs, hmcs, hfound⟩ | ⟨hnomcs, -⟩
    · refine .inl ⟨i, mcs, by rw [heq, hfound], hi, hmcs.lt, ?_⟩
      rw [greatest_rows hrow hbest, greatest_htRow hi hmcs, Nat.mul_comm]
    · obtain ⟨mcs, hlt, hbit⟩ := exists_announces hne
      exact absurd hbit (hnomcs mcs hlt)
  · refine .inr ⟨heq, greatest_rows_of_none fun i hi => htRow_eq_nil.mpr ?_⟩
    rw [← hmask i hi, hnone i hi]

/-- `ht_mcs & 7`, with the number of streams in the upper bits. -/
theorem htMcs_and {i mcs : Nat} (hi : i < 4) (hmcs : mcs < 8) :
    (if mcs + i * 8 = bitrateMcs32 then bitrateMcs32 else (mcs + i * 8) &&& 7) = mcs := by
  have hne : mcs + i * 8 ≠ bitrateMcs32 := by
    unfold bitrateMcs32
    omega
  rw [if_neg hne, Nat.and_two_pow_sub_one_eq_mod _ 3]
  omega

theorem maxHtRate_value (hpoints : PointsAt mem p body) (hlength : body.length = 26)
    (hbest : HighestBest (htRow body) 4) :
    (maxHtRate mem p maxRate).value =
      (max maxRate (greatest (htRates body)), htWidth (le16Of body 0)) := by
  have hcap : (le16 mem p).value = le16Of body 0 := hpoints.le16 (k := 0) (by omega)
  have hmask : ∀ i < 5, mem (p + 3 + i) = byteOf body (3 + i) := by
    intro i hi
    rw [Nat.add_assoc]
    exact hpoints.byteOf (by omega)
  have hmask4 : mem (p + 3 + 4) = byteOf body 7 := hmask 4 (by omega)
  have hrates := htStreams_rate (fun i hi => hmask i (by omega)) hbest
  simp only [maxHtRate, Reads.value_bind, Reads.value_readAt, Reads.value_pure, hcap, hmask4]
  rw [htRates, greatest_append, greatest_mcs32Rates]
  generalize greatest ((List.range 4).flatMap (htRow body)) = best at hrates ⊢
  by_cases hmcs32 : byteOf body 7 &&& 1 ≠ 0 ∧ (htWidth (le16Of body 0)).1 = 1
  · simp only [if_pos hmcs32]
    rcases hrates 1 bitrateMcs32 with ⟨i, mcs, heq, hi, hmcs, hbest⟩ | ⟨heq, hbest⟩
    · rw [heq, htMcs_and hi hmcs, hbest, Nat.mul_one, max_assoc]
    · rw [heq, hbest, if_pos rfl, Nat.mul_one, max_assoc, max_self, Nat.max_zero]
  · simp only [if_neg hmcs32]
    rcases hrates 0 0 with ⟨i, mcs, heq, hi, hmcs, hbest⟩ | ⟨heq, hbest⟩
    · rw [heq, htMcs_and hi hmcs, hbest, Nat.zero_max]
    · rw [heq, hbest, Nat.mul_zero, Nat.max_self]

theorem mapRow_eq_nil {rate : Nat → Nat → Nat} {highest : Nat → Nat} {mcsMap : Nat} :
    mapRow rate highest mcsMap i = [] ↔ mapBits mcsMap i = 3 := by
  rw [mapRow]
  split_ifs with hbits
  · exact iff_of_true rfl hbits
  · refine iff_of_false (fun hnil => ?_) hbits
    rw [List.map_eq_nil_iff, List.range_eq_nil] at hnil
    omega

/-- The best rate of a row of a map. -/
theorem greatest_mapRow (rate : Nat → Nat → Nat) (highest : Nat → Nat) {mcsMap best mcs : Nat}
    (hbits : mapBits mcsMap i ≠ 3) (hmcs : mcs ≤ highest (mapBits mcsMap i))
    (hbest : rate mcs (i + 1) = best)
    (hmax : ∀ low ≤ highest (mapBits mcsMap i), rate low (i + 1) ≤ best) :
    greatest (mapRow rate highest mcsMap i) = (i + 1) * best := by
  rw [mapRow, if_neg hbits]
  refine greatest_eq (List.mem_map.mpr ⟨mcs, ?_, ?_⟩) fun x hx => ?_
  · exact List.mem_range.mpr (Nat.lt_succ_of_le hmcs)
  · rw [hbest]
  · obtain ⟨low, hlow, rfl⟩ := List.mem_map.mp hx
    exact Nat.mul_le_mul_left _ (hmax low (Nat.le_of_lt_succ (List.mem_range.mp hlow)))

/-- The search over a map finds the highest row, or nothing. -/
theorem mapStreams_rate {rate : Nat → Nat → Nat} {highest : Nat → Nat} {mcsMap : Nat}
    (hbest : HighestBest (mapRow rate highest mcsMap) 8) :
    (∃ i, mapStreams mcsMap 8 0 = (i + 1, mapBits mcsMap i) ∧ i < 8 ∧ mapBits mcsMap i ≠ 3 ∧
        (∀ k < 8, i < k → mapBits mcsMap k = 3) ∧
        greatest ((List.range 8).flatMap (mapRow rate highest mcsMap)) =
          greatest (mapRow rate highest mcsMap i)) ∨
      (mapStreams mcsMap 8 0).2 = 3 ∧
        greatest ((List.range 8).flatMap (mapRow rate highest mcsMap)) = 0 := by
  rcases mapStreams_eq mcsMap 8 0 with ⟨i, htop, heq⟩ | ⟨hnone, heq⟩
  · have habove : ∀ k < 8, i < k → mapBits mcsMap k = 3 :=
      fun k hk hlt => not_not.mp (htop.above k hk hlt)
    have hrow : IsTop (fun i => mapRow rate highest mcsMap i ≠ []) 8 i :=
      ⟨htop.lt, fun hnil => htop.holds (mapRow_eq_nil.mp hnil),
        fun k hk hlt hne => hne (mapRow_eq_nil.mpr (habove k hk hlt))⟩
    exact .inl ⟨i, heq, htop.lt, htop.holds, habove, greatest_rows hrow hbest⟩
  · exact .inr ⟨heq, greatest_rows_of_none fun i hi => mapRow_eq_nil.mpr (hnone i hi)⟩

theorem vhtWidth_lt (band : HwBand) (vhtCap : Nat) (hht : ht.1 < 2 ∧ ht.2 < 2) :
    (vhtWidth band vhtCap ht).1 < 4 ∧ (vhtWidth band vhtCap ht).2 < 2 := by
  unfold vhtWidth
  split_ifs
  · exact ⟨by omega, hht.2⟩
  all_goals exact ⟨by decide, by decide⟩

theorem maxVhtRate_value (hpoints : PointsAt mem p body) (hlength : body.length = 12)
    (hht : ht.1 < 2 ∧ ht.2 < 2) (hbest : HighestBest (vhtRow band ht body) 8)
    (hvalid : VhtValid band ht body) :
    (maxVhtRate mem band p ht maxRate).value = max maxRate (greatest (vhtRates band ht body)) := by
  have hmap : (le16 mem (p + 4)).value = le16Of body 4 := hpoints.le16 (by omega)
  have hcap : (le32 mem p).value = le32Of body 0 := by
    have hlo : (le16 mem p).value = le16Of body 0 := hpoints.le16 (k := 0) (by omega)
    simp only [le32, Reads.value_bind, Reads.value_pure, hlo,
      hpoints.le16 (k := 2) (by omega), le32Of]
  obtain ⟨hbw, hscp⟩ := vhtWidth_lt band (le32Of body 0) hht
  rw [maxVhtRate, Reads.value_bind, hmap]
  dsimp only
  rcases mapStreams_rate hbest with ⟨i, heq, hi, hbits, habove, hgreatest⟩ | ⟨heq, hgreatest⟩
  · have hlt : mapBits (le16Of body 4) i < 3 :=
      Nat.lt_of_le_of_ne (Nat.le_of_lt_succ (mapBits_lt _ _)) hbits
    rw [heq, if_pos hbits, Reads.value_bind, hcap, Reads.value_pure,
      vhtRateLoop_eq _ hbw _ hscp _ hlt]
    have hrate := vhtRate_valid _ hbw _ hscp _ hlt i hi (by
      rw [Bool.or_eq_true, beq_iff_eq]
      exact hvalid i hi hbits habove)
    have hrow := greatest_mapRow _ (7 + ·) hbits (vhtMcs_le _ _) hrate
      fun low hlow => vhtRate_mono _ hbw _ hscp _ hlt low hlow i hi
    rw [Nat.mul_comm, ← hrow]
    exact congrArg (max maxRate) hgreatest.symm
  · rw [if_neg (not_not.mpr heq), Reads.value_pure]
    exact (Nat.max_eq_left (Nat.le_of_eq hgreatest |>.trans (Nat.zero_le maxRate))).symm

theorem byteOf_drop (body : List UInt8) (d k : Nat) :
    byteOf (body.drop d) k = byteOf body (d + k) := by
  rw [byteOf, List.getElem?_drop, byteOf]

theorem heWidth_lt (band : HwBand) (phyCap : UInt8) : heWidth band phyCap < 4 := by
  unfold heWidth
  split_ifs <;> decide

theorem maxHeRate_value (hpoints : PointsAt mem p (body.drop 1)) (hlength : 22 ≤ body.length)
    (hwide : heWidth band (byteOf body 7) = 3 → 24 ≤ body.length)
    (hbest : HighestBest (heRow band body) 8) :
    (maxHeRate mem band p maxRate).value = max maxRate (greatest (heRates band body)) := by
  have hcap : mem (p + 6) = byteOf body 7 := by
    rw [hpoints.byteOf (by rw [List.length_drop]; omega), byteOf_drop]
  have hmap : (le16 mem (p + if heWidth band (byteOf body 7) = 3 then 21 else 17)).value =
      heMap band body := by
    have hroom : (if heWidth band (byteOf body 7) = 3 then 21 else 17) + 1 <
        (body.drop 1).length := by
      rw [List.length_drop]
      split_ifs with h
      · have := hwide h
        omega
      · omega
    rw [hpoints.le16 hroom, le16Of, byteOf_drop, byteOf_drop]
    rfl
  have hbw := heWidth_lt band (byteOf body 7)
  rw [maxHeRate, Reads.value_bind, Reads.value_readAt, hcap]
  dsimp only
  rw [Reads.value_bind, hmap]
  rcases mapStreams_rate hbest with ⟨i, heq, hi, hbits, -, hgreatest⟩ | ⟨heq, hgreatest⟩
  · have hlt : mapBits (heMap band body) i < 3 :=
      Nat.lt_of_le_of_ne (Nat.le_of_lt_succ (mapBits_lt _ _)) hbits
    rw [heq, if_pos hbits, Reads.value_pure]
    have hrow := greatest_mapRow (hwRateParamsToRate .he (heWidth band (byteOf body 7)) 0)
      (fun bits => 7 + bits * 2) hbits (Nat.le_refl _)
      (heRate_nss (by omega) (Nat.succ_pos i) (by omega))
      fun low hlow => by
        rw [heRate_nss (by omega) (Nat.succ_pos i) (by omega)]
        exact heRate_mono _ hbw _ (by omega) low hlow
    rw [Nat.mul_comm, ← hrow]
    exact congrArg (max maxRate) hgreatest.symm
  · rw [if_neg (not_not.mpr heq), Reads.value_pure]
    exact (Nat.max_eq_left (Nat.le_of_eq hgreatest |>.trans (Nat.zero_le maxRate))).symm

theorem maxNonHtRate_value {rates : Memory UInt8} {xs : List UInt8}
    (hrates : bytesAt rates 0 maxNumSupportedRates =
      xs ++ List.replicate (maxNumSupportedRates - xs.length) 0)
    (hlegacy : byteOf xs 0 ≠ 0 ∨ ∀ r ∈ xs, r.toNat &&& 0x7f = 0) :
    maxNonHtRate rates = greatest (xs.map fun r => (r.toNat &&& 0x7f) * 10 / 2) := by
  have hfirst : rates 0 = byteOf xs 0 := by
    have hhead := congrArg (fun l => byteOf l 0) hrates
    cases xs with
    | nil => exact hhead
    | cons x xs => exact hhead
  have hlargest : (List.range maxNumSupportedRates).foldl
      (fun suppRate i => max suppRate ((rates i).toNat &&& 0x7f)) 0 =
        greatest (xs.map fun r => r.toNat &&& 0x7f) := by
    have hmap : (List.range maxNumSupportedRates).map (fun i => (rates i).toNat &&& 0x7f) =
        (bytesAt rates 0 maxNumSupportedRates).map fun r => r.toNat &&& 0x7f := by
      simp only [bytesAt, List.map_map, Nat.zero_add]
      rfl
    rw [foldl_max, hmap, hrates, List.map_append, greatest_append, List.map_replicate]
    refine Nat.max_eq_left (greatest_le fun x hx => ?_)
    rw [(List.mem_replicate.mp hx).2]
    exact Nat.zero_le _
  have hscale : Monotone fun n : Nat => n * 10 / 2 :=
    fun a b hab => Nat.div_le_div_right (Nat.mul_le_mul_right 10 hab)
  have hscaled : greatest ((xs.map fun r => r.toNat &&& 0x7f).map fun n => n * 10 / 2) = _ :=
    greatest_map hscale rfl
  rw [List.map_map] at hscaled
  rw [maxNonHtRate, hfirst, hlargest]
  split_ifs with hpos
  · exact hscaled.symm
  · refine (Nat.le_zero.mp (greatest_le fun x hx => ?_)).symm
    obtain ⟨r, hr, rfl⟩ := List.mem_map.mp hx
    have hzero : byteOf xs 0 = 0 := UInt8.toNat_inj.mp (Nat.eq_zero_of_not_pos hpos)
    rw [hlegacy.resolve_left (not_not.mpr hzero) r hr]

/-! ### The rate -/

/-- A pointer of `parse_ies` points into the element of its kind. -/
theorem points_bodyOf (junk : Memory UInt8) {P : Element → Bool} (field : ParsedIes → Option Nat)
    {d : Nat} (hfield : ∀ (e : Element) pos out,
      field (e.apply pos out) = if P e then some (pos + 2 + d) else field out)
    (hnone : field ⟨0, [], none, none, none⟩ = none) (hbehind : ∀ e ∈ behindHe els, P e = false)
    (hone : (els.filter P).length ≤ 1) :
    Option.Rel (fun p body => PointsAt (memoryWith (encode els) junk) p (body.drop d))
      (field (walkElements 0 ⟨0, [], none, none, none⟩ els)) (bodyOf P els) := by
  rw [bodyOf, ← lastBody_walked hbehind hone]
  refine walkElements_points hfield List.drop_zero ?_
  rw [hnone]
  exact .none

/-- What holds of the body of every element of a kind holds of the one that is found. -/
theorem of_mem_bodyOf {P : Element → Bool} {Q : List UInt8 → Prop}
    (h : ∀ e ∈ els, P e = true → Q e.body) : ∀ body ∈ bodyOf P els, Q body := by
  intro body hbody
  obtain ⟨e, hfind, rfl⟩ := Option.map_eq_some_iff.mp hbody
  exact h e (List.mem_of_find?_eq_some hfind) (List.find?_some hfind)

theorem htSelected_lt (els : List Element) : (htSelected els).1 < 2 ∧ (htSelected els).2 < 2 := by
  rw [htSelected]
  cases bodyOf Element.isHt els with
  | none => exact ⟨Nat.two_pos, Nat.two_pos⟩
  | some body => exact htWidth_lt (le16Of body 0)

theorem htCap_elim (maxRate : Nat) {htCap : Option Nat} {found : Option (List UInt8)}
    (hpoints : Option.Rel (fun p body => PointsAt mem p body) htCap found)
    (hlength : ∀ body ∈ found, body.length = 26)
    (hbest : ∀ body ∈ found, HighestBest (htRow body) 4) :
    (htCap.elim (maxRate, 0, 0) fun p => (maxHtRate mem p maxRate).value) =
      (max maxRate (greatest (found.elim [] htRates)),
        found.elim (0, 0) fun body => htWidth (le16Of body 0)) := by
  cases hpoints with
  | none => exact congrArg (·, 0, 0) (Nat.max_zero maxRate).symm
  | some hpoints => exact maxHtRate_value hpoints (hlength _ rfl) (hbest _ rfl)

theorem vhtCap_elim (maxRate : Nat) {vhtCap : Option Nat} {found : Option (List UInt8)}
    (hpoints : Option.Rel (fun p body => PointsAt mem p body) vhtCap found)
    (hht : ht.1 < 2 ∧ ht.2 < 2)
    (hlength : ∀ body ∈ found, body.length = 12)
    (hbest : ∀ body ∈ found, HighestBest (vhtRow band ht body) 8)
    (hvalid : ∀ body ∈ found, VhtValid band ht body) :
    (vhtCap.elim maxRate fun p => (maxVhtRate mem band p ht maxRate).value) =
      max maxRate (greatest (found.elim [] (vhtRates band ht))) := by
  cases hpoints with
  | none => exact (Nat.max_zero maxRate).symm
  | some hpoints => exact maxVhtRate_value hpoints (hlength _ rfl) hht (hbest _ rfl) (hvalid _ rfl)

theorem heCap_elim (maxRate : Nat) {heCap : Option Nat} {found : Option (List UInt8)}
    (hpoints : Option.Rel (fun p body => PointsAt mem p (body.drop 1)) heCap found)
    (hlength : ∀ body ∈ found,
      22 ≤ body.length ∧ (heWidth band (byteOf body 7) = 3 → 24 ≤ body.length))
    (hbest : ∀ body ∈ found, HighestBest (heRow band body) 8) :
    (heCap.elim maxRate fun p => (maxHeRate mem band p maxRate).value) =
      max maxRate (greatest (found.elim [] (heRates band))) := by
  cases hpoints with
  | none => exact (Nat.max_zero maxRate).symm
  | some hpoints =>
    exact maxHeRate_value hpoints (hlength _ rfl).1 (hlength _ rfl).2 (hbest _ rfl)

/-- `calculate_phy_rate` is its three parts, one after the other. -/
theorem calculatePhyRate_value {fuel : Nat} {ielen : Int} {out : ParsedIes}
    {htRate : Nat × Nat × Nat} {vhtRate : Nat} (hparse : (parseIes fuel mem ielen).value = some out)
    (hrates : maxNonHtRate (runAll out.stores fun _ => 0) = maxRate)
    (hht : (out.htCap.elim (maxRate, 0, 0) fun p => (maxHtRate mem p maxRate).value) = htRate)
    (hvht : (out.vhtCap.elim htRate.1 fun p => (maxVhtRate mem band p htRate.2 htRate.1).value) =
      vhtRate) :
    (calculatePhyRate fuel mem band ielen).value =
      some (out.heCap.elim vhtRate fun p => (maxHeRate mem band p vhtRate).value) := by
  subst hrates hht hvht
  rw [calculatePhyRate, Reads.value_bind, hparse]
  rcases out with ⟨_, _, htCap, vhtCap, heCap⟩
  cases htCap <;> cases vhtCap <;> cases heCap <;> rfl

/-- The largest rate is found where the loops have what they rely on. -/
theorem findsMaxRate (hwell : WellFormed band els) (hfits : SearchFits band els)
    (junk : Memory UInt8) : FindsMaxRate band els junk := by
  have hrates := @bytesAt_suppRates 0 els hfits.rates fun e he => (hfits.behindHe e he).1
  have hhtCap := points_bodyOf junk (d := 0) ParsedIes.htCap (fun _ _ _ => rfl) rfl
    (fun e he => (hfits.behindHe e he).2.1) hwell.one_ht
  have hvhtCap := points_bodyOf junk (d := 0) ParsedIes.vhtCap (fun _ _ _ => rfl) rfl
    (fun e he => (hfits.behindHe e he).2.2) hwell.one_vht
  have hheCap := points_bodyOf junk (d := 1) ParsedIes.heCap (fun _ _ _ => rfl) rfl
    (not_isHe_behindHe hwell.one_he) hwell.one_he
  refine ⟨walkElements 0 ⟨0, [], none, none, none⟩ els, fun fuel hfuel => ?_⟩
  have hparse : (parseIes fuel (memoryWith (encode els) junk) (encode els).length).value =
      some (walkElements 0 ⟨0, [], none, none, none⟩ els) :=
    parseIesLoop_encode List.drop_zero (Int.sub_zero _).symm hfuel
  refine ⟨hparse, hrates, ?_⟩
  have hlegacy := maxNonHtRate_value hrates hfits.legacy
  have hht := htCap_elim (greatest (legacyRates els)) hhtCap
    (of_mem_bodyOf fun e _ hkind => (of_decide_eq_true hkind).2) hfits.ht
  have hvht := vhtCap_elim (max (greatest (legacyRates els))
      (greatest ((bodyOf Element.isHt els).elim [] htRates))) hvhtCap (htSelected_lt els)
    (of_mem_bodyOf fun e _ hkind => (of_decide_eq_true hkind).2) hfits.vht hfits.vhtValid
  rw [calculatePhyRate_value hparse hlegacy hht hvht, heCap_elim _ hheCap ?_ hfits.he]
  · rw [allRates, greatest_append, greatest_append, greatest_append]
  · refine of_mem_bodyOf fun e he hkind => ?_
    obtain ⟨hid, hext, -⟩ := of_decide_eq_true hkind
    exact hwell.he e he hid hext

end

/-- Two elements of rates and the capabilities for two streams. -/
def twoStreams : List Element :=
  [⟨wlanEidSuppRates, [0x82, 0x84, 12], by decide⟩, ⟨wlanEidExtSuppRates, [108], by decide⟩,
    ⟨wlanEidHtCap, [0x6f, 0, 0, 0xff, 0xff] ++ List.replicate 21 0, by decide⟩,
    ⟨wlanEidVhtCap, [0x20, 0, 0, 0, 0xfa, 0xff] ++ List.replicate 6 0, by decide⟩,
    ⟨wlanEidExtension, wlanEidExtHeCapabilities :: List.replicate 6 0 ++ [4] ++
      List.replicate 10 0 ++ [0xfa, 0xff, 0xfa, 0xff], by decide⟩]

theorem findsMaxRate_twoStreams : FindsMaxRate .ghz52 twoStreams fun _ => 0 :=
  findsMaxRate
    { he := by decide
      one_ht := by decide
      one_vht := by decide
      one_he := by decide }
    { rates := .inl (by decide)
      behindHe := by decide
      legacy := .inl (by decide)
      ht := by rintro body ⟨⟩; decide +kernel
      vht := by rintro body ⟨⟩; decide +kernel
      vhtValid := by rintro body ⟨⟩; decide +kernel
      he := by rintro body ⟨⟩; decide +kernel } _

/-- The third element of rates is stored over the second; one stream has a better rate than two; the
rates of VHT have no MCS 9 with six streams at 80 MHz. -/
theorem findsMaxRate_fails :
    ¬FindsMaxRate .ghz52 [⟨wlanEidSuppRates, [2], by decide⟩,
      ⟨wlanEidExtSuppRates, [108], by decide⟩,
      ⟨wlanEidExtSuppRates, [12], by decide⟩] (fun _ => 0) ∧
    ¬FindsMaxRate .ghz52
      [⟨wlanEidHtCap, [0, 0, 0, 0x80, 0x01] ++ List.replicate 21 0, by decide⟩] (fun _ => 0) ∧
    ¬FindsMaxRate .ghz52
      [⟨wlanEidVhtCap, [0, 0, 0, 0, 0xff, 0xfb] ++ List.replicate 6 0, by decide⟩] fun _ => 0 := by
  refine ⟨?_, ?_, ?_⟩
  · rintro ⟨out, hfinds⟩
    have hrate := (hfinds 4 (by decide)).2.2
    revert hrate
    decide
  · rintro ⟨out, hfinds⟩
    have hrate := (hfinds 2 (by decide)).2.2
    revert hrate
    decide
  · rintro ⟨out, hfinds⟩
    have hrate := (hfinds 2 (by decide)).2.2
    revert hrate
    decide +kernel

end Dwpal.Stats
