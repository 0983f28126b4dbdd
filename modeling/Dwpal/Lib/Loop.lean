import Mathlib.Data.Finset.Card

/-! Loops whose next state depends on the state alone: how many rounds one takes that ends. -/

namespace Dwpal.Loop

variable {α : Type*}

/-- From `a` the loop takes `n` rounds and ends. -/
inductive EndsIn (next : α → Option α) : α → Nat → Prop
  | stop {a : α} (hstop : next a = none) : EndsIn next a 0
  | round {a b : α} {n : Nat} (hnext : next a = some b) (hrest : EndsIn next b n) :
      EndsIn next a (n + 1)

variable {next : α → Option α} {a b : α} {m n : Nat}

theorem EndsIn.unique (h : EndsIn next a n) (h' : EndsIn next a m) : n = m := by
  induction h generalizing m with
  | stop hstop =>
    cases h' with
    | stop => rfl
    | round hnext => exact absurd (hstop.symm.trans hnext) nofun
  | round hnext _ ih =>
    cases h' with
    | stop hstop => exact absurd (hstop.symm.trans hnext) nofun
    | round hnext' hrest' =>
      obtain rfl := Option.some.inj (hnext.symm.trans hnext')
      rw [ih hrest']

/-- On its way the loop is once `m` rounds from its end. -/
theorem EndsIn.passes (h : EndsIn next a n) (hm : m ≤ n) : ∃ b, EndsIn next b m := by
  induction h with
  | stop hstop =>
    obtain rfl := Nat.le_zero.mp hm
    exact ⟨_, .stop hstop⟩
  | @round a b n hnext hrest ih =>
    rcases Nat.lt_or_ge n m with hlt | hle
    · obtain rfl : m = n + 1 := Nat.le_antisymm hm hlt
      exact ⟨a, .round hnext hrest⟩
    · exact ih hle

/-- A loop that goes on only from the states `s` takes at most as many rounds as there are. -/
theorem EndsIn.le_card {s : Finset α} (hs : ∀ a b, next a = some b → a ∈ s)
    (h : EndsIn next a n) : n ≤ s.card := by
  have hpasses : ∀ m : Nat, ∃ b, m < n → EndsIn next b (m + 1) := by
    intro m
    by_cases hm : m < n
    · obtain ⟨b, hb⟩ := h.passes (show m + 1 ≤ n from hm)
      exact ⟨b, fun _ => hb⟩
    · exact ⟨a, fun hlt => absurd hlt hm⟩
  choose state hstate using hpasses
  rw [← Finset.card_range n]
  refine Finset.card_le_card_of_injOn state (fun m hm => ?_) fun m hm m' hm' heq => ?_
  · cases hstate m (Finset.mem_range.mp hm) with
    | round hnext => exact hs _ _ hnext
  · have hends := hstate m (Finset.mem_range.mp hm)
    rw [heq] at hends
    exact Nat.succ.inj (hends.unique (hstate m' (Finset.mem_range.mp hm')))

end Dwpal.Loop
