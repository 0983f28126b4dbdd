import Mathlib.Data.List.Fold
import Mathlib.Data.List.MinMax
import Mathlib.Order.Nat

/-! The largest of some numbers, and of the numbers in the rows of a table whose search starts at
the highest row. -/

namespace Dwpal.Greatest

/-- The largest of some numbers; 0 if there are none. -/
def greatest (xs : List Nat) : Nat := xs.foldr max 0

/-- The highest number below `n` that `P` holds of. -/
structure IsTop (P : Nat → Prop) (n i : Nat) : Prop where
  lt : i < n
  holds : P i
  above : ∀ k < n, i < k → ¬P k

/-- The highest row that has numbers has the largest. -/
def HighestBest (rows : Nat → List Nat) (n : Nat) : Prop :=
  ∀ i < n, rows i ≠ [] → (∀ k < n, i < k → rows k = []) →
    ∀ j < i, greatest (rows j) ≤ greatest (rows i)

instance (rows : Nat → List Nat) (n : Nat) : Decidable (HighestBest rows n) :=
  inferInstanceAs (Decidable (∀ i < n, _ → _ → ∀ j < i, _ ≤ _))

variable {xs ys : List Nat} {x n i : Nat} {P : Nat → Prop} {rows : Nat → List Nat}

@[simp] theorem greatest_nil : greatest [] = 0 := rfl

@[simp] theorem greatest_cons : greatest (x :: xs) = max x (greatest xs) := rfl

theorem le_greatest (h : x ∈ xs) : x ≤ greatest xs := List.le_max_of_le' 0 h (Nat.le_refl x)

theorem greatest_le (h : ∀ x ∈ xs, x ≤ n) : greatest xs ≤ n := List.max_le_of_forall_le xs n h

theorem greatest_append : greatest (xs ++ ys) = max (greatest xs) (greatest ys) := by
  induction xs with
  | nil => exact (Nat.zero_max _).symm
  | cons y xs ih => rw [List.cons_append, greatest_cons, ih, greatest_cons, max_assoc]

theorem greatest_map {f : Nat → Nat} (hmono : Monotone f) (hzero : f 0 = 0) :
    greatest (xs.map f) = f (greatest xs) := by
  induction xs with
  | nil => exact hzero.symm
  | cons y xs ih => rw [List.map_cons, greatest_cons, ih, greatest_cons, hmono.map_max]

theorem foldl_max {α : Type*} (f : α → Nat) (xs : List α) :
    xs.foldl (fun n x => max n (f x)) 0 = greatest (xs.map f) := by
  rw [← List.foldl_map, List.foldl_eq_foldr]
  rfl

theorem greatest_eq (hmem : x ∈ xs) (hle : ∀ y ∈ xs, y ≤ x) : greatest xs = x :=
  Nat.le_antisymm (greatest_le hle) (le_greatest hmem)

theorem isTop_succ (h : P n) : IsTop P (n + 1) n :=
  ⟨Nat.lt_succ_self n, h, fun k hk hlt => by omega⟩

theorem IsTop.succ (h : IsTop P n i) (hn : ¬P n) : IsTop P (n + 1) i := by
  refine ⟨Nat.lt_succ_of_lt h.lt, h.holds, fun k hk hlt => ?_⟩
  rcases Nat.lt_succ_iff_lt_or_eq.mp hk with hk | rfl
  · exact h.above k hk hlt
  · exact hn

/-- The search from the highest row down finds the largest number. -/
theorem greatest_rows (htop : IsTop (fun i => rows i ≠ []) n i) (hbest : HighestBest rows n) :
    greatest ((List.range n).flatMap rows) = greatest (rows i) := by
  refine Nat.le_antisymm (greatest_le fun x hx => ?_) (greatest_le fun x hx => ?_)
  · obtain ⟨j, hj, hx⟩ := List.mem_flatMap.mp hx
    have hnone : ∀ k < n, i < k → rows k = [] := fun k hk hlt => not_not.mp (htop.above k hk hlt)
    rcases Nat.lt_trichotomy j i with hlt | rfl | hgt
    · exact Nat.le_trans (le_greatest hx) (hbest i htop.lt htop.holds hnone j hlt)
    · exact le_greatest hx
    · rw [hnone j (List.mem_range.mp hj) hgt] at hx
      cases hx
  · exact le_greatest (List.mem_flatMap.mpr ⟨i, List.mem_range.mpr htop.lt, hx⟩)

theorem greatest_rows_of_none (h : ∀ i < n, rows i = []) :
    greatest ((List.range n).flatMap rows) = 0 := by
  refine Nat.le_zero.mp (greatest_le fun x hx => ?_)
  obtain ⟨j, hj, hx⟩ := List.mem_flatMap.mp hx
  rw [h j (List.mem_range.mp hj)] at hx
  cases hx

end Dwpal.Greatest
