import Mathlib.Algebra.GroupWithZero.Nat
import Mathlib.Data.List.Basic
import Mathlib.Algebra.BigOperators.Group.List.Basic

/-! Length-prefixed frames: a byte with the length of a frame, the bytes of the frame, the next
frame, up to a zero length byte or the end of the area. -/

namespace Dwpal.Frames

/-- The frames one after the other, each behind its length byte. -/
def encode (fs : List (List UInt8)) : List UInt8 :=
  fs.flatMap fun f => UInt8.ofNat f.length :: f

/-- A frame that a length byte can announce. -/
def Fits (f : List UInt8) : Prop := 0 < f.length ∧ f.length < 256

/-- The length bytes and the frames that a reader meets that may look at `left` bytes: it ends at a
zero length byte or behind the `left` bytes. The last frame may reach further than they do. -/
def scan : Nat → Nat → List UInt8 → List (UInt8 × List UInt8)
  | 0, _, _ => []
  | fuel + 1, left, bytes =>
    if left = 0 ∨ bytes.headD 0 = 0 then []
    else
      let len := bytes.headD 0
      (len, (bytes.drop 1).take len.toNat) ::
        scan fuel (left - (1 + len.toNat)) (bytes.drop (1 + len.toNat))

/-- The length bytes that a reader of exactly these bytes meets. -/
def lengths (bytes : List UInt8) : List UInt8 :=
  (scan bytes.length bytes.length bytes).map Prod.fst

@[simp] theorem encode_nil : encode [] = [] := rfl

theorem encode_cons (f : List UInt8) (fs : List (List UInt8)) :
    encode (f :: fs) = UInt8.ofNat f.length :: f ++ encode fs := rfl

theorem encode_append (fs gs : List (List UInt8)) : encode (fs ++ gs) = encode fs ++ encode gs :=
  List.flatMap_append

theorem length_encode (fs : List (List UInt8)) :
    (encode fs).length = (fs.map fun f => f.length + 1).sum := by
  induction fs with
  | nil => rfl
  | cons f fs ih => simp [encode_cons, ih]; omega

theorem length_le_encode (fs : List (List UInt8)) : fs.length ≤ (encode fs).length := by
  induction fs with
  | nil => exact Nat.le_refl 0
  | cons f fs ih =>
    rw [encode_cons, List.length_append, List.length_cons, List.length_cons]
    omega

theorem Fits.toNat {f : List UInt8} (h : Fits f) : (UInt8.ofNat f.length).toNat = f.length := by
  rw [UInt8.toNat_ofNat']
  exact Nat.mod_eq_of_lt h.2

theorem Fits.ne_zero {f : List UInt8} (h : Fits f) : UInt8.ofNat f.length ≠ 0 := fun e => by
  have := congrArg UInt8.toNat e
  rw [h.toNat] at this
  exact absurd this (Nat.pos_iff_ne_zero.mp h.1)

theorem length_scan : ∀ {fuel left : Nat} {bytes : List UInt8} {x : UInt8 × List UInt8},
    x ∈ scan fuel left bytes → x.2.length ≤ x.1.toNat := by
  intro fuel
  induction fuel with
  | zero =>
    intro left bytes x hx
    cases hx
  | succ fuel ih =>
    intro left bytes x hx
    rw [scan] at hx
    split at hx
    · cases hx
    · rcases List.mem_cons.mp hx with rfl | hx
      · exact List.length_take_le ..
      · exact ih hx

/-- Reading an encoding back, up to the zero byte behind it. -/
theorem scan_encode {fs : List (List UInt8)} (hfits : ∀ f ∈ fs, Fits f) (rest : List UInt8) :
    ∀ {fuel left : Nat}, fs.length < fuel → (encode fs).length < left →
      scan fuel left (encode fs ++ 0 :: rest) = fs.map fun f => (UInt8.ofNat f.length, f) := by
  induction fs with
  | nil =>
    intro fuel left hfuel _
    obtain ⟨fuel, rfl⟩ : ∃ n, fuel = n + 1 := ⟨fuel - 1, by simp at hfuel; omega⟩
    simp [scan]
  | cons f fs ih =>
    intro fuel left hfuel hleft
    obtain ⟨fuel, rfl⟩ : ∃ n, fuel = n + 1 := ⟨fuel - 1, by simp at hfuel; omega⟩
    have hf := hfits f List.mem_cons_self
    have hhead : (encode (f :: fs) ++ 0 :: rest).headD 0 = UInt8.ofNat f.length := rfl
    have hfront : ((encode (f :: fs) ++ 0 :: rest).drop 1).take f.length = f := by
      simp [encode_cons, List.take_left']
    have hback : (encode (f :: fs) ++ 0 :: rest).drop (1 + f.length) = encode fs ++ 0 :: rest := by
      rw [Nat.add_comm]
      simp [encode_cons, List.drop_left']
    simp only [encode_cons, List.length_append, List.length_cons] at hleft
    simp only [List.length_cons] at hfuel
    rw [scan, hhead, if_neg (by simp [hf.ne_zero]; omega)]
    simp only [hf.toNat, hfront, hback, List.map_cons]
    rw [ih (fun g hg => hfits g (List.mem_cons_of_mem f hg)) (by omega) (by omega)]

/-- The length bytes that are met do not depend on what lies behind the bytes. -/
theorem scan_append_lengths (rest : List UInt8) : ∀ {fuel left : Nat} {bytes : List UInt8},
    left ≤ bytes.length →
      (scan fuel left (bytes ++ rest)).map Prod.fst = (scan fuel left bytes).map Prod.fst := by
  intro fuel
  induction fuel with
  | zero =>
    intro left bytes _
    rfl
  | succ fuel ih =>
    intro left bytes hleft
    by_cases hend : left = 0
    · simp [scan, hend]
    · obtain ⟨b, bytes, rfl⟩ : ∃ b bs, bytes = b :: bs := by
        cases bytes with
        | nil => exact absurd (Nat.le_zero.mp hleft) hend
        | cons b bs => exact ⟨b, bs, rfl⟩
      have hsame : (b :: bytes ++ rest).headD 0 = (b :: bytes).headD 0 := rfl
      rw [scan, scan, hsame]
      by_cases hb : left = 0 ∨ (b :: bytes).headD 0 = 0
      · rw [if_pos hb, if_pos hb]
      · rw [if_neg hb, if_neg hb, List.map_cons, List.map_cons, List.headD_cons]
        by_cases hcut : 1 + b.toNat ≤ (b :: bytes).length
        · rw [List.drop_append_of_le_length hcut, ih (by rw [List.length_drop]; omega)]
        · rw [show left - (1 + b.toNat) = 0 by omega]
          cases fuel <;> simp [scan]

/-- The frames in front of a length byte that is not `ok` do not reach behind the bytes. -/
theorem scan_append_until (ok : UInt8 → Bool) (rest : List UInt8) :
    ∀ {fuel left : Nat} {bytes : List UInt8}, left ≤ bytes.length →
      (∃ x ∈ scan fuel left bytes, ok x.1 = false) →
        (scan fuel left (bytes ++ rest)).takeWhile (fun x => ok x.1) =
          (scan fuel left bytes).takeWhile fun x => ok x.1 := by
  intro fuel
  induction fuel with
  | zero =>
    rintro left bytes _ ⟨x, hx, _⟩
    cases hx
  | succ fuel ih =>
    intro left bytes hleft hstop
    cases bytes with
    | nil => simp [scan, Nat.le_zero.mp hleft]
    | cons b bytes =>
      have hsame : (b :: bytes ++ rest).headD 0 = (b :: bytes).headD 0 := rfl
      rw [scan] at hstop
      rw [scan, scan, hsame]
      by_cases hb : left = 0 ∨ (b :: bytes).headD 0 = 0
      · rw [if_pos hb, if_pos hb]
      · rw [if_neg hb] at hstop
        rw [if_neg hb, if_neg hb, List.headD_cons]
        cases hok : ok b with
        | false => rw [List.takeWhile_cons_of_neg (by simp [hok]),
            List.takeWhile_cons_of_neg (by simp [hok])]
        | true =>
          obtain ⟨x, hx, hbad⟩ := hstop
          rcases List.mem_cons.mp hx with rfl | hx
          · exact absurd (hok.symm.trans hbad) (by decide)
          · rw [List.headD_cons] at hx
            -- the bad byte is still to come, so this frame ends inside
            have hcut : 1 + b.toNat < left := by
              by_contra hcut
              rw [show left - (1 + b.toNat) = 0 by omega] at hx
              cases fuel <;> simp [scan] at hx
            have htake : ((b :: bytes ++ rest).drop 1).take b.toNat =
                ((b :: bytes).drop 1).take b.toNat := by
              rw [List.cons_append, List.drop_one, List.drop_one, List.tail_cons, List.tail_cons,
                List.take_append_of_le_length (by rw [List.length_cons] at hleft; omega)]
            rw [List.takeWhile_cons_of_pos (by simp [hok]),
              List.takeWhile_cons_of_pos (by simp [hok]),
              htake, List.drop_append_of_le_length (by omega),
              ih (by rw [List.length_drop]; omega) ⟨x, hx, hbad⟩]

/-- Zero bytes behind the bytes are not read. -/
theorem scan_append_zeros : ∀ {fuel fuel' k : Nat} {bytes : List UInt8},
    bytes.length ≤ fuel → bytes.length ≤ fuel' →
      (scan fuel (bytes.length + k) (bytes ++ List.replicate k 0)).map Prod.fst =
        (scan fuel' bytes.length bytes).map Prod.fst := by
  intro fuel
  induction fuel with
  | zero =>
    intro fuel' k bytes hfuel _
    rw [List.length_eq_zero_iff.mp (Nat.le_zero.mp hfuel)]
    cases fuel' <;> simp [scan]
  | succ fuel ih =>
    intro fuel' k bytes hfuel hfuel'
    cases bytes with
    | nil =>
      have hzeros : (List.replicate k (0 : UInt8)).headD 0 = 0 := by cases k <;> rfl
      rw [List.nil_append, scan, hzeros, if_pos (Or.inr rfl)]
      cases fuel' <;> simp [scan]
    | cons b bytes =>
      obtain ⟨fuel', rfl⟩ : ∃ n, fuel' = n + 1 := ⟨fuel' - 1, by simp at hfuel'; omega⟩
      have hhead : (b :: bytes ++ List.replicate k 0).headD 0 = b := rfl
      rw [List.length_cons] at hfuel hfuel' ⊢
      rw [scan, scan, hhead, List.headD_cons]
      by_cases hb : b = 0
      · rw [if_pos (Or.inr hb), if_pos (Or.inr hb)]
      · rw [if_neg (by simp [hb]), if_neg (by simp [hb]), List.map_cons, List.map_cons]
        congr 1
        by_cases hcut : 1 + b.toNat ≤ (b :: bytes).length
        · have hlen : ((b :: bytes).drop (1 + b.toNat)).length =
            bytes.length + 1 - (1 + b.toNat) := by
            rw [List.length_drop, List.length_cons]
          rw [List.length_cons] at hcut
          have := @ih fuel' k ((b :: bytes).drop (1 + b.toNat)) (by omega) (by omega)
          rw [hlen, show bytes.length + 1 - (1 + b.toNat) + k =
            bytes.length + 1 + k - (1 + b.toNat) by omega] at this
          rw [List.drop_append_of_le_length (by rw [List.length_cons]; omega), this]
        · rw [List.length_cons] at hcut
          have hnil : (b :: bytes).drop (1 + b.toNat) = [] :=
            List.drop_of_length_le (by rw [List.length_cons]; omega)
          have hzeros : ((b :: bytes ++ List.replicate k 0).drop (1 + b.toNat)).headD 0 = 0 := by
            rw [List.drop_append, hnil, List.nil_append, List.drop_replicate]
            cases k - (1 + b.toNat - (b :: bytes).length) <;> rfl
          have hleft : ∀ f left mem, List.headD mem (0 : UInt8) = 0 → scan f left mem = [] := by
            intro f left mem hmem
            cases f with
            | zero => rfl
            | succ f => rw [scan, if_pos (Or.inr hmem)]
          rw [hleft _ _ _ hzeros, hleft _ _ _ (by rw [hnil]; rfl)]

theorem lengths_append_zeros (bytes : List UInt8) (k : Nat) :
    lengths (bytes ++ List.replicate k 0) = lengths bytes := by
  rw [lengths, List.length_append, List.length_replicate]
  exact scan_append_zeros (Nat.le_add_right _ _) (Nat.le_refl _)

/-- The bytes are whole frames up to a length byte that `stops` the reader, or to the end. -/
def WholeUntil (stops : UInt8 → Prop) (bytes : List UInt8) : Prop :=
  ∃ fs rest, bytes = encode fs ++ rest ∧
    (∀ f ∈ fs, Fits f ∧ ¬stops (UInt8.ofNat f.length)) ∧ stops (rest.headD 0)

variable {stops : UInt8 → Prop} {b : UInt8} {bytes : List UInt8}

theorem wholeUntil_stop (h : stops (bytes.headD 0)) : WholeUntil stops bytes :=
  ⟨[], bytes, rfl, nofun, h⟩

/-- The first frame is all there, and so is the rest. -/
theorem wholeUntil_cons (hzero : stops 0) (hb : ¬stops b) :
    WholeUntil stops (b :: bytes) ↔
      b.toNat ≤ bytes.length ∧ WholeUntil stops (bytes.drop b.toNat) := by
  have hpos : 0 < b.toNat := by
    refine Nat.pos_of_ne_zero fun h => hb ?_
    rwa [show b = 0 from UInt8.toNat_inj.mp h]
  constructor
  · rintro ⟨fs, rest, heq, hfits, hrest⟩
    cases fs with
    | nil =>
      rw [encode_nil, List.nil_append] at heq
      rw [← heq] at hrest
      exact absurd hrest hb
    | cons f fs =>
      rw [encode_cons, List.cons_append, List.cons_append, List.append_assoc] at heq
      obtain ⟨rfl, rfl⟩ := List.cons.inj heq
      have hf := (hfits f List.mem_cons_self).1.toNat
      rw [hf, List.drop_left' rfl, List.length_append]
      exact ⟨Nat.le_add_right _ _, fs, rest, rfl, fun g hg => hfits g (List.mem_cons_of_mem f hg),
        hrest⟩
  · rintro ⟨hlen, fs, rest, heq, hfits, hrest⟩
    have htake : (bytes.take b.toNat).length = b.toNat := by
      rw [List.length_take]
      exact Nat.min_eq_left hlen
    have hback : UInt8.ofNat b.toNat = b :=
      UInt8.toNat_inj.mp (UInt8.toNat_ofNat_of_lt' b.toNat_lt)
    refine ⟨bytes.take b.toNat :: fs, rest, ?_, fun f hf => ?_, hrest⟩
    · rw [encode_cons, htake, hback, List.cons_append, List.cons_append, List.append_assoc, ← heq,
        List.take_append_drop]
    · rcases List.mem_cons.mp hf with rfl | hf
      · rw [Fits, htake, hback]
        exact ⟨⟨hpos, b.toNat_lt⟩, hb⟩
      · exact hfits f hf

theorem wholeUntil_zero_cons (hb : b ≠ 0) : WholeUntil (· = 0) (b :: bytes) ↔
    b.toNat ≤ bytes.length ∧ WholeUntil (· = 0) (bytes.drop b.toNat) :=
  wholeUntil_cons rfl hb

end Dwpal.Frames
