import Dwpal.Stats.InfoElements

/-! `parse_ies` of `stats.c` on a list of whole elements. -/

namespace Dwpal.Stats

open Stores

/-- An element, without the byte that tells how long it is. -/
structure Element where
  id : UInt8
  body : List UInt8
  length_lt : body.length < 256

namespace Element

def bytes (e : Element) : List UInt8 := e.id :: UInt8.ofNat e.body.length :: e.body

/-- An element of HT capabilities. -/
def isHt (e : Element) : Bool := e.id = wlanEidHtCap ∧ e.body.length = sizeofHtCap

/-- An element of VHT capabilities. -/
def isVht (e : Element) : Bool := e.id = wlanEidVhtCap ∧ e.body.length = sizeofVhtCap

/-- An element of HE capabilities. -/
def isHe (e : Element) : Bool :=
  e.id = wlanEidExtension ∧ e.body.head? = some wlanEidExtHeCapabilities ∧ 22 ≤ e.body.length

def isRates (e : Element) : Bool := IsRates e.id

/-- What `parse_ies` has after the element at `pos`. -/
def apply (e : Element) (pos : Nat) (out : ParsedIes) : ParsedIes where
  suppRatesLen := suppRatesLenAfter out.suppRatesLen e.id e.body.length
  stores :=
    if e.isRates ∧ copiedRates out.suppRatesLen e.body.length > 0 then
      out.stores ++ [⟨out.suppRatesLen, e.body.take (copiedRates out.suppRatesLen e.body.length)⟩]
    else out.stores
  htCap := if e.isHt then some (pos + 2) else out.htCap
  vhtCap := if e.isVht then some (pos + 2) else out.vhtCap
  heCap := if e.isHe then some (pos + 3) else out.heCap

end Element

/-- The string of some elements. -/
def encode (els : List Element) : List UInt8 := els.flatMap Element.bytes

/-- What `parse_ies` has after the elements from `pos` on. It ends with the HE capabilities. -/
def walkElements (pos : Nat) (out : ParsedIes) : List Element → ParsedIes
  | [] => out
  | e :: els =>
    if e.isHe then e.apply pos out
    else walkElements (pos + (e.body.length + 2)) (e.apply pos out) els

/-- The elements that `parse_ies` comes to. -/
def walked : List Element → List Element
  | [] => []
  | e :: els => if e.isHe then [e] else e :: walked els

/-- The elements behind the HE capabilities. -/
def behindHe : List Element → List Element
  | [] => []
  | e :: els => if e.isHe then els else behindHe els

/-- The rates of some elements, for each of them. -/
def ratesBodies (els : List Element) : List (List UInt8) :=
  (els.filter Element.isRates).map Element.body

/-- The stores to `supp_rates` for the rates of some elements. -/
def ratesStores (suppRatesLen : Nat) : List (List UInt8) → List (Store UInt8)
  | [] => []
  | body :: bodies =>
    if copiedRates suppRatesLen body.length > 0 then
      ⟨suppRatesLen, body.take (copiedRates suppRatesLen body.length)⟩ ::
        ratesStores (copiedRates suppRatesLen body.length) bodies
    else ratesStores suppRatesLen bodies

/-- The body of the last element that `P` holds of, or else `old`. -/
def lastBody (P : Element → Bool) (old : Option (List UInt8)) (els : List Element) :
    Option (List UInt8) :=
  els.foldl (fun old e => if P e then some e.body else old) old

/-- The memory has `bytes` from `p` on. -/
def PointsAt (mem : Memory UInt8) (p : Nat) (bytes : List UInt8) : Prop :=
  ∀ k b, bytes[k]? = some b → mem (p + k) = b

section

variable {band : HwBand} {bytes : List UInt8} {junk mem : Memory UInt8} {pos fuel : Nat}
  {ielen : Int} {out : ParsedIes} {e : Element} {els : List Element} {P : Element → Bool}
  {old : Option (List UInt8)}

/-! ### The walk -/

theorem encode_cons (e : Element) (els : List Element) :
    encode (e :: els) = e.id :: UInt8.ofNat e.body.length :: (e.body ++ encode els) := by
  simp only [encode, List.flatMap_cons, Element.bytes, List.cons_append]

theorem Element.toNat_length (e : Element) : (UInt8.ofNat e.body.length).toNat = e.body.length := by
  rw [UInt8.toNat_ofNat']
  exact Nat.mod_eq_of_lt e.length_lt

theorem bytesAt_memoryWith {id len : UInt8} {rest : List UInt8} {n : Nat}
    (hdrop : bytes.drop pos = id :: len :: rest) (hn : n ≤ rest.length) :
    bytesAt (memoryWith bytes junk) (pos + 2) n = rest.take n := by
  have hread : bytesAt (memoryWith bytes junk) (pos + 2) (rest.take n).length = rest.take n := by
    refine bytesAt_eq_iff.mpr fun k b hb => ?_
    rw [List.getElem?_take] at hb
    split_ifs at hb
    exact memoryWith_rest hdrop hb
  rwa [List.length_take_of_le hn] at hread

theorem takesHeCap_element (hdrop : bytes.drop pos = encode (e :: els)) :
    TakesHeCap (memoryWith bytes junk) pos e.body.length ↔ e.isHe = true := by
  rw [encode_cons] at hdrop
  have hguard : (UInt8.ofNat e.body.length).toNat ≤ (e.body ++ encode els).length + 2 := by
    rw [e.toNat_length, List.length_append]
    omega
  have htakes : TakesHeCap (memoryWith bytes junk) pos _ ↔ _ := takesHeCap_iff hdrop hguard
  rw [e.toNat_length] at htakes
  rw [htakes, IsHeCap, Element.isHe, decide_eq_true_eq]
  refine and_congr_right fun _ => and_congr_left fun hlen => ?_
  obtain ⟨ext, rest, hbody⟩ : ∃ ext rest, e.body = ext :: rest :=
    List.exists_cons_of_length_pos (by omega)
  rw [hbody, List.cons_append, List.head?_cons, List.head?_cons]

theorem afterElement_eq (hdrop : bytes.drop pos = encode (e :: els)) :
    afterElement (memoryWith bytes junk) pos e.body.length out = e.apply pos out := by
  have htakes : TakesHeCap (memoryWith bytes junk) pos _ ↔ _ := takesHeCap_element hdrop
  rw [encode_cons] at hdrop
  have hcopied : copiedRates out.suppRatesLen e.body.length ≤ e.body.length := Nat.min_le_left _ _
  have hbytes : bytesAt (memoryWith bytes junk) (pos + 2)
      (copiedRates out.suppRatesLen e.body.length) =
        e.body.take (copiedRates out.suppRatesLen e.body.length) := by
    rw [bytesAt_memoryWith hdrop (by rw [List.length_append]; omega),
      List.take_append_of_le_length hcopied]
  rw [afterElement, parseElement_value, memoryWith_id hdrop, hbytes]
  simp only [Element.apply, Element.isRates, Element.isHt, Element.isVht, decide_eq_true_eq, htakes]

theorem parseIesLoop_encode (hdrop : bytes.drop pos = encode els)
    (hielen : ielen = (bytes.length : Int) - pos) (hfuel : els.length < fuel) :
    (parseIesLoop (memoryWith bytes junk) fuel pos ielen out).value =
      some (walkElements pos out els) := by
  induction els generalizing pos ielen out fuel with
  | nil =>
    have hlength := congrArg List.length hdrop
    simp only [List.length_drop, encode, List.flatMap_nil, List.length_nil] at hlength
    obtain ⟨fuel, rfl⟩ := Nat.exists_eq_succ_of_ne_zero (Nat.ne_of_gt hfuel)
    exact (parseIesLoop_stop (P := fun _ => True) (.inl (by omega))).1
  | cons e els ih =>
    have hdrop' := hdrop
    rw [encode_cons] at hdrop'
    have hlength := length_of_drop hdrop'
    rw [List.length_append] at hlength
    have hlen : (memoryWith bytes junk (pos + 1)).toNat = e.body.length := by
      rw [memoryWith_len hdrop', e.toNat_length]
    obtain ⟨fuel, rfl⟩ := Nat.exists_eq_succ_of_ne_zero (Nat.ne_of_gt (Nat.zero_lt_of_lt hfuel))
    rw [(parseIesLoop_element (P := fun _ => True) (by omega) (by omega)).1, hlen,
      afterElement_eq hdrop, walkElements]
    by_cases hhe : e.isHe = true
    · rw [if_pos ((takesHeCap_element hdrop).mpr hhe), if_pos hhe]
    · have hnext : bytes.drop (pos + (e.body.length + 2)) = encode els := by
        rw [drop_element hdrop', List.drop_left']
        rfl
      rw [if_neg fun h => hhe ((takesHeCap_element hdrop).mp h), if_neg hhe, restOfWalk,
        afterElement_eq hdrop]
      exact ih hnext (by omega) (Nat.lt_of_succ_lt_succ hfuel)

/-! ### The elements that are reached -/

theorem walked_append_behindHe (els : List Element) : walked els ++ behindHe els = els := by
  induction els with
  | nil => rfl
  | cons e els ih =>
    rw [walked, behindHe]
    split_ifs
    · rfl
    · rw [List.cons_append, ih]

theorem filter_walked (h : ∀ e ∈ behindHe els, P e = false) :
    (walked els).filter P = els.filter P := by
  have hnone : (behindHe els).filter P = [] :=
    List.filter_eq_nil_iff.mpr fun e he => by rw [h e he]; nofun
  conv_rhs => rw [← walked_append_behindHe els, List.filter_append, hnone, List.append_nil]

/-- Something is behind HE capabilities only if these were reached. -/
theorem exists_he_walked (h : e ∈ behindHe els) : ∃ he ∈ walked els, he.isHe = true := by
  induction els with
  | nil => cases h
  | cons first els ih =>
    rw [behindHe] at h
    rw [walked]
    split_ifs at h ⊢ with hhe
    · exact ⟨first, List.mem_singleton_self first, hhe⟩
    · obtain ⟨he, hmem, hishe⟩ := ih h
      exact ⟨he, List.mem_cons_of_mem first hmem, hishe⟩

/-- One element of HE capabilities is not behind another. -/
theorem not_isHe_behindHe (hone : (els.filter Element.isHe).length ≤ 1) :
    ∀ e ∈ behindHe els, e.isHe = false := by
  intro e he
  refine (Bool.not_eq_true _).mp fun hishe => ?_
  obtain ⟨he', hmem', hishe'⟩ := exists_he_walked he
  have hfirst := List.length_pos_of_mem (List.mem_filter.mpr ⟨hmem', hishe'⟩)
  have hsecond := List.length_pos_of_mem (List.mem_filter.mpr ⟨he, hishe⟩)
  rw [← walked_append_behindHe els, List.filter_append, List.length_append] at hone
  omega

/-- Of at most one element the last is the first. -/
theorem lastBody_eq (hone : (els.filter P).length ≤ 1) :
    lastBody P none els = (els.find? P).map Element.body := by
  have hfold : lastBody P none els = (els.filter P).foldl (fun _ e => some e.body) none :=
    (List.foldl_filter ..).symm
  rw [hfold, ← List.head?_filter]
  cases hfilter : els.filter P with
  | nil => rfl
  | cons e rest =>
    rw [hfilter, List.length_cons] at hone
    obtain rfl : rest = [] := List.length_eq_zero_iff.mp (by omega)
    rfl

theorem lastBody_walked (hbehind : ∀ e ∈ behindHe els, P e = false)
    (hone : (els.filter P).length ≤ 1) :
    lastBody P none (walked els) = (els.find? P).map Element.body := by
  rw [lastBody_eq (by rwa [filter_walked hbehind]), ← List.head?_filter, filter_walked hbehind,
    List.head?_filter]

/-- A pointer that `parse_ies` sets to a place in the elements that `P` holds of points there in the
last of them. -/
theorem walkElements_points {field : ParsedIes → Option Nat} {d : Nat}
    (hfield : ∀ (e : Element) pos out,
      field (e.apply pos out) = if P e then some (pos + 2 + d) else field out)
    (hdrop : bytes.drop pos = encode els)
    (hold : Option.Rel (fun p body => PointsAt (memoryWith bytes junk) p (body.drop d))
      (field out) old) :
    Option.Rel (fun p body => PointsAt (memoryWith bytes junk) p (body.drop d))
      (field (walkElements pos out els)) (lastBody P old (walked els)) := by
  induction els generalizing pos out old with
  | nil => exact hold
  | cons e els ih =>
    have hdrop' := hdrop
    rw [encode_cons] at hdrop'
    have hnext : Option.Rel (fun p body => PointsAt (memoryWith bytes junk) p (body.drop d))
        (field (e.apply pos out)) (if P e then some e.body else old) := by
      rw [hfield]
      split_ifs
      · refine .some fun k b hb => ?_
        rw [List.getElem?_drop] at hb
        rw [Nat.add_assoc]
        refine memoryWith_rest hdrop' ?_
        rw [List.getElem?_append_left (List.getElem?_eq_some_iff.mp hb).1, hb]
      · exact hold
    rw [walkElements, walked]
    split_ifs
    · exact hnext
    · refine ih ?_ hnext
      rw [drop_element hdrop', List.drop_left']
      rfl

/-! ### The rates -/

theorem ratesBodies_cons (e : Element) (els : List Element) :
    ratesBodies (e :: els) = if e.isRates then e.body :: ratesBodies els else ratesBodies els := by
  unfold ratesBodies
  rw [List.filter_cons]
  split_ifs
  · rfl
  · rfl

/-- The stores for an element come before those for the elements behind it. -/
theorem apply_stores (e : Element) (pos : Nat) (out : ParsedIes) (bodies : List (List UInt8)) :
    (e.apply pos out).stores ++ ratesStores (e.apply pos out).suppRatesLen bodies =
      out.stores ++
        ratesStores out.suppRatesLen (if e.isRates then e.body :: bodies else bodies) := by
  have hrates : IsRates e.id ↔ e.isRates = true := (decide_eq_true_iff ..).symm
  simp only [Element.apply, suppRatesLenAfter, hrates]
  cases e.isRates with
  | false => simp
  | true =>
    by_cases hcopied : copiedRates out.suppRatesLen e.body.length > 0
    · simp [ratesStores, hcopied]
    · simp [ratesStores, hcopied]

theorem walkElements_stores : (walkElements pos out els).stores =
    out.stores ++ ratesStores out.suppRatesLen (ratesBodies (walked els)) := by
  induction els generalizing pos out with
  | nil => exact (List.append_nil _).symm
  | cons e els ih =>
    rw [walkElements, walked]
    split_ifs
    · rw [ratesBodies_cons, ← apply_stores e pos out]
      exact (List.append_nil _).symm
    · rw [ih, ratesBodies_cons, apply_stores]

/-- What the claimed rates are: the bytes of the elements, one behind the other, as far as they
fit. -/
def collectedRates (els : List Element) : List UInt8 :=
  (ratesBodies els).flatten.take maxNumSupportedRates

/-- At most two of the elements have rates, or the first of them fills `supp_rates`. -/
def RatesFit (els : List Element) : Prop :=
  ((ratesBodies els).filter (· ≠ [])).length ≤ 2 ∨
    ∃ body ∈ ((ratesBodies els).filter (· ≠ [])).head?, maxNumSupportedRates ≤ body.length

theorem ratesStores_filter (n : Nat) (bodies : List (List UInt8)) :
    ratesStores n (bodies.filter (· ≠ [])) = ratesStores n bodies := by
  induction bodies generalizing n with
  | nil => rfl
  | cons body bodies ih =>
    cases body with
    | nil =>
      have hnone : ¬copiedRates n ([] : List UInt8).length > 0 := by simp [copiedRates]
      rw [List.filter_cons_of_neg (by simp), ih, ratesStores, if_neg hnone]
    | cons b body =>
      rw [List.filter_cons_of_pos (by simp), ratesStores, ratesStores, ih, ih]

theorem ratesStores_full (bodies : List (List UInt8)) :
    ratesStores maxNumSupportedRates bodies = [] := by
  induction bodies with
  | nil => rfl
  | cons body bodies ih =>
    have hnone : ¬copiedRates maxNumSupportedRates body.length > 0 := by
      simp [copiedRates]
    rw [ratesStores, if_neg hnone, ih]

/-- The first rates that fit, one behind the other. -/
theorem ratesStores_writes {bodies : List (List UInt8)}
    (hfit : bodies.length ≤ 2 ∨ ∃ body ∈ bodies.head?, maxNumSupportedRates ≤ body.length)
    (hne : ∀ body ∈ bodies, body ≠ []) :
    Writes (ratesStores 0 bodies) 0 (bodies.flatten.take maxNumSupportedRates) := by
  cases bodies with
  | nil => exact Writes.nil
  | cons first bodies =>
    have hfirst := List.length_pos_iff.mpr (hne first List.mem_cons_self)
    have hcopied : copiedRates 0 first.length = min first.length 32 := rfl
    rw [ratesStores, hcopied, if_pos (by omega), List.flatten_cons]
    by_cases hfull : maxNumSupportedRates ≤ first.length
    · have hmin : min first.length 32 = maxNumSupportedRates := Nat.min_eq_right hfull
      rw [hmin, ratesStores_full, List.take_append_of_le_length hfull]
      exact Writes.single
    · have hmin : min first.length 32 = first.length := Nat.min_eq_left (Nat.le_of_not_le hfull)
      rw [hmin, List.take_length, List.take_append, List.take_of_length_le (Nat.le_of_not_le hfull)]
      have hfew : bodies.length ≤ 1 := by
        rcases hfit with hfew | ⟨body, hbody, hlong⟩
        · exact Nat.le_of_succ_le_succ hfew
        · cases hbody
          exact absurd hlong hfull
      refine Writes.cons ?_
      rw [Nat.zero_add]
      cases bodies with
      | nil =>
        rw [List.flatten_nil, List.take_nil]
        exact Writes.nil
      | cons second bodies =>
        obtain rfl : bodies = [] :=
          List.length_eq_zero_iff.mp (Nat.le_zero.mp (Nat.le_of_succ_le_succ hfew))
        have hsecond := List.length_pos_iff.mpr
          (hne second (List.mem_cons_of_mem first List.mem_cons_self))
        have htake : second.take (copiedRates first.length second.length) =
            second.take (maxNumSupportedRates - first.length) := by
          rw [copiedRates, List.take_eq_take_iff]
          omega
        have hcopied' : copiedRates first.length second.length > 0 := by
          unfold copiedRates
          omega
        rw [ratesStores, if_pos hcopied', htake, List.flatten_singleton]
        exact Writes.single

/-- `supp_rates` after the elements, if they fit. -/
theorem bytesAt_suppRates (hfit : RatesFit els) (hbehind : ∀ e ∈ behindHe els, e.isRates = false) :
    bytesAt (runAll (walkElements pos ⟨0, [], none, none, none⟩ els).stores fun _ => 0) 0
        maxNumSupportedRates =
      collectedRates els ++ List.replicate
        (maxNumSupportedRates - (collectedRates els).length) 0 := by
  have hwrites := ratesStores_writes hfit fun body hbody => by
    simpa using (List.mem_filter.mp hbody).2
  rw [ratesStores_filter, List.flatten_filter_ne_nil] at hwrites
  have hbodies : ratesBodies (walked els) = ratesBodies els := by
    rw [ratesBodies, filter_walked hbehind, ratesBodies]
  rw [walkElements_stores, List.nil_append, hbodies]
  exact hwrites.bytesAt_clear (List.length_take_le _ _) 0

end

end Dwpal.Stats
