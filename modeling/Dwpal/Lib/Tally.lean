import Mathlib.Algebra.BigOperators.Group.Finset.Basic

/-! Sums over the first entries of a table, when one entry is overwritten or a new one added. -/

namespace Dwpal.Tally

variable {α M : Type*} [AddCommMonoid M]

/-- The sum of `w` over the first `n` entries of `f`. -/
def tally (w : α → M) (f : ℕ → α) (n : ℕ) : M := ∑ i ∈ Finset.range n, w (f i)

@[simp] theorem tally_zero (w : α → M) (f : ℕ → α) : tally w f 0 = 0 := rfl

theorem tally_succ (w : α → M) (f : ℕ → α) (n : ℕ) : tally w f (n + 1) = tally w f n + w (f n) :=
  Finset.sum_range_succ _ _

/-- What is beyond the entries that are summed up does not count. -/
theorem tally_update_beyond (w : α → M) (f : ℕ → α) {n k : ℕ} (hk : n ≤ k) (a : α) :
    tally w (Function.update f k a) n = tally w f n := by
  refine Finset.sum_congr rfl fun i hi => ?_
  have hne : i ≠ k := Nat.ne_of_lt (Nat.lt_of_lt_of_le (Finset.mem_range.mp hi) hk)
  rw [Function.update_of_ne hne]

theorem tally_new (w : α → M) (f : ℕ → α) (n : ℕ) (a : α) :
    tally w (Function.update f n a) (n + 1) = tally w f n + w a := by
  rw [tally_succ, tally_update_beyond w f (Nat.le_refl n), Function.update_self]

/-- The old entry and the new one change sides. -/
theorem tally_update (w : α → M) (f : ℕ → α) {n k : ℕ} (hk : k < n) (a : α) :
    tally w (Function.update f k a) n + w (f k) = tally w f n + w a := by
  induction n with
  | zero => exact absurd hk (Nat.not_lt_zero k)
  | succ n ih =>
    rw [tally_succ, tally_succ]
    rcases Nat.lt_succ_iff_lt_or_eq.mp hk with hlt | rfl
    · rw [Function.update_of_ne (Nat.ne_of_gt hlt), add_right_comm, ih hlt, add_right_comm]
    · rw [tally_update_beyond w f (Nat.le_refl k), Function.update_self, add_right_comm]

/-- An entry that weighs as much as the old one. -/
theorem tally_update_same (w : α → M) (f : ℕ → α) (n : ℕ) {k : ℕ} {a : α} (hw : w a = w (f k)) :
    tally w (Function.update f k a) n = tally w f n := by
  refine Finset.sum_congr rfl fun i _ => ?_
  by_cases hi : i = k
  · rw [hi, Function.update_self, hw]
  · rw [Function.update_of_ne hi]

end Dwpal.Tally
