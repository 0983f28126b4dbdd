import Dwpal.Lib.Stores
import Mathlib.Logic.Function.Basic

/-! Values that are laid out in a memory: those of a stream one behind the other in a region for
each key, values that are copied to other addresses, and loops in loops that read with a running
index. -/

namespace Dwpal.Stores

section Regions

variable {α β κ : Type*} [DecidableEq κ]

/-- Each value is stored behind the ones with the same key. -/
def place (base : κ → Nat) (key : α → κ) (value : α → β) : (κ → Nat) → List α → List (Store β)
  | _, [] => []
  | count, x :: xs =>
    ⟨base (key x) + count (key x), [value x]⟩ ::
      place base key value (Function.update count (key x) (count (key x) + 1)) xs

/-- The values of the stream that have a key. -/
def withKey (key : α → κ) (k : κ) (xs : List α) : List α := xs.filter fun x => key x = k

variable {base : κ → Nat} {key : α → κ} {value : α → β} {count : κ → Nat} {xs : List α} {k : κ}
  {n a : Nat} {x : α} {s : Store β} {m : Memory β}

theorem withKey_cons_self (x : α) (xs : List α) :
    withKey key (key x) (x :: xs) = x :: withKey key (key x) xs :=
  List.filter_cons_of_pos (decide_eq_true rfl)

theorem withKey_cons_of_ne (h : key x ≠ k) : withKey key k (x :: xs) = withKey key k xs :=
  List.filter_cons_of_neg fun hk => h (of_decide_eq_true hk)

/-- There is a store for each value, at its place in the region of its key. -/
theorem mem_place : s ∈ place base key value count xs ↔
    ∃ k n x, (withKey key k xs)[n]? = some x ∧ s = ⟨base k + (count k + n), [value x]⟩ := by
  induction xs generalizing count with
  | nil =>
    refine ⟨fun h => (List.not_mem_nil h).elim, ?_⟩
    rintro ⟨k, n, x, hx, -⟩
    rw [withKey, List.filter_nil, List.getElem?_nil] at hx
    cases hx
  | cons y ys ih =>
    rw [place, List.mem_cons, ih]
    constructor
    · rintro (rfl | ⟨k, n, x, hx, rfl⟩)
      · refine ⟨key y, 0, y, ?_, rfl⟩
        rw [withKey_cons_self]
        rfl
      · by_cases hk : key y = k
        · subst hk
          refine ⟨key y, n + 1, x, ?_, ?_⟩
          · rw [withKey_cons_self]
            exact hx
          · rw [Function.update_self, Nat.add_assoc, Nat.add_comm 1 n]
        · refine ⟨k, n, x, ?_, ?_⟩
          · rw [withKey_cons_of_ne hk]
            exact hx
          · rw [Function.update_of_ne (Ne.symm hk)]
    · rintro ⟨k, n, x, hx, rfl⟩
      by_cases hk : key y = k
      · subst hk
        rw [withKey_cons_self] at hx
        cases n with
        | zero =>
          cases hx
          exact .inl rfl
        | succ n =>
          refine .inr ⟨key y, n, x, hx, ?_⟩
          rw [Function.update_self, Nat.add_assoc, Nat.add_comm 1 n]
      · rw [withKey_cons_of_ne hk] at hx
        refine .inr ⟨k, n, x, hx, ?_⟩
        rw [Function.update_of_ne (Ne.symm hk)]

theorem Store.covers_single {b : β} {c : Nat} : (⟨a, [b]⟩ : Store β).Covers c ↔ c = a := by
  simp only [Store.Covers, List.length_singleton]
  omega

theorem touches_place : Touches (place base key value count xs) a ↔
    ∃ k n, n < (withKey key k xs).length ∧ a = base k + (count k + n) := by
  constructor
  · rintro ⟨s, hs, hcovers⟩
    obtain ⟨k, n, x, hx, rfl⟩ := mem_place.mp hs
    exact ⟨k, n, (List.getElem?_eq_some_iff.mp hx).1, Store.covers_single.mp hcovers⟩
  · rintro ⟨k, n, hn, rfl⟩
    exact ⟨_, mem_place.mpr ⟨k, n, _, List.getElem?_eq_getElem hn, rfl⟩,
      Store.covers_single.mpr rfl⟩

/-- Where all the stores to an address store the same, it is there after them. -/
theorem runAll_eq {stores : List (Store β)} {b : β} (h : Touches stores a)
    (hstores : ∀ s ∈ stores, s.Covers a → s.bytes[a - s.address]? = some b) :
    runAll stores m a = b :=
  (runAll_congr h).trans (runAll_const (m := fun _ => b) hstores rfl)

/-- In regions that do not overlap every value is at its place. -/
theorem runAll_place (hregions : ∀ k' n', n' < (withKey key k' xs).length →
      base k + n = base k' + n' → k' = k ∧ n' = n)
    (hx : (withKey key k xs)[n]? = some x) :
    runAll (place base key value (fun _ => 0) xs) m (base k + n) = value x := by
  have hn := (List.getElem?_eq_some_iff.mp hx).1
  refine runAll_eq (touches_place.mpr ⟨k, n, hn, by rw [Nat.zero_add]⟩) fun s hs hcovers => ?_
  obtain ⟨k', n', y, hy, rfl⟩ := mem_place.mp hs
  rw [Nat.zero_add] at hcovers ⊢
  have haddress := Store.covers_single.mp hcovers
  obtain ⟨rfl, rfl⟩ := hregions k' n' (List.getElem?_eq_some_iff.mp hy).1 haddress
  cases hx.symm.trans hy
  rw [Nat.sub_self]
  rfl

end Regions

section Copies

variable {β : Type*} {pairs : List (Nat × Nat)} {source m : Memory β} {a b : Nat}

/-- A value is copied for each pair of an address and the one that it comes from. -/
def copies (pairs : List (Nat × Nat)) (source : Memory β) : List (Store β) :=
  pairs.map fun p => ⟨p.1, [source p.2]⟩

theorem runAll_copies (h : (a, b) ∈ pairs) (hpairs : ∀ b', (a, b') ∈ pairs → b' = b) :
    runAll (copies pairs source) m a = source b := by
  refine runAll_eq ⟨_, List.mem_map_of_mem h, Store.covers_single.mpr rfl⟩ fun s hs hcovers => ?_
  obtain ⟨⟨c, d⟩, hp, rfl⟩ := List.mem_map.mp hs
  obtain rfl := Store.covers_single.mp hcovers
  rw [hpairs d hp, Nat.sub_self]
  rfl

end Copies

section Counted

variable {β : Type} {f : Nat → StateM Nat β} {g : Nat → Nat → β} {c : Nat}

/-- A loop each round of which moves the index on by `c`. -/
theorem run_mapM_range (hf : ∀ i z, (f i).run z = (g i z, z + c)) (n z : Nat) :
    ((List.range n).mapM f).run z = ((List.range n).map fun i => g i (z + i * c), z + n * c) := by
  induction n with
  | zero =>
    rw [List.range_zero, List.mapM_nil, List.map_nil, Nat.zero_mul]
    rfl
  | succ n ih =>
    rw [List.range_succ, List.mapM_append, List.map_append, StateT.run_bind, ih]
    simp only [List.mapM_cons, List.mapM_nil, bind_pure_comp, map_pure, StateT.run_map, hf]
    rw [Nat.succ_mul, ← Nat.add_assoc]
    rfl

end Counted

end Dwpal.Stores
