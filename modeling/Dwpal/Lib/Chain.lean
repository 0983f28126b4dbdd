import Mathlib.Data.List.Nodup
import Mathlib.Data.List.Perm.Subperm
import Mathlib.Logic.Function.Basic

/-! Lists that are linked in memory: each cell has the address of the next one, and the list is
known by the address of its first cell. -/

namespace Dwpal.Chain

variable {α : Type*}

/-- The cells `as`, in this order, are linked from the pointer `p` on. -/
def Linked (next : α → Option α) : Option α → List α → Prop
  | p, [] => p = none
  | p, a :: as => p = some a ∧ Linked next (next a) as

variable {next next' : α → Option α} {p : Option α} {a : α} {as bs : List α}

@[simp] theorem linked_nil : Linked next p [] ↔ p = none := Iff.rfl

@[simp] theorem linked_cons : Linked next p (a :: as) ↔ p = some a ∧
    Linked next (next a) as := Iff.rfl

/-- The first cell of a list is where its pointer points. -/
theorem Linked.head? (h : Linked next p as) : as.head? = p := by
  cases as with
  | nil => exact (linked_nil.mp h).symm
  | cons a as => exact (linked_cons.mp h).1.symm

/-- A pointer has one list. -/
theorem Linked.unique (h : Linked next p as) (h' : Linked next p bs) : as = bs := by
  induction as generalizing p bs with
  | nil =>
    cases bs with
    | nil => rfl
    | cons b bs => exact absurd ((linked_nil.mp h).symm.trans h'.1) nofun
  | cons a as ih =>
    cases bs with
    | nil => exact absurd ((linked_nil.mp h').symm.trans h.1) nofun
    | cons b bs =>
      obtain rfl : a = b := Option.some.inj (h.1.symm.trans h'.1)
      rw [ih h.2 h'.2]

/-- A list is not changed by what happens to other cells. -/
theorem Linked.congr (h : Linked next p as) (hsame : ∀ a ∈ as, next' a = next a) :
    Linked next' p as := by
  induction as generalizing p with
  | nil => exact h
  | cons a as ih =>
    refine ⟨h.1, ?_⟩
    rw [hsame a List.mem_cons_self]
    exact ih h.2 fun b hb => hsame b (List.mem_cons_of_mem a hb)

/-- The end of a list is a list. -/
theorem Linked.tail (h : Linked next p (as ++ bs)) : Linked next bs.head? bs := by
  induction as generalizing p with
  | nil =>
    rw [List.nil_append] at h
    rwa [h.head?]
  | cons a as ih => exact ih h.2

/-- A cell has the address of the one behind it. -/
theorem Linked.next_eq (h : Linked next p (as ++ a :: bs)) : next a = bs.head? :=
  (Linked.head? h.tail.2).symm

/-- A list that ends has each of its cells once. -/
theorem Linked.nodup (h : Linked next p as) : as.Nodup := by
  induction as generalizing p with
  | nil => exact List.nodup_nil
  | cons a as ih =>
    refine List.nodup_cons.mpr ⟨fun hmem => ?_, ih h.2⟩
    obtain ⟨front, back, rfl⟩ := List.append_of_mem hmem
    -- from `a` on both the whole list and its end are linked
    have hwhole : Linked next (some a) (a :: (front ++ a :: back)) := ⟨rfl, h.2⟩
    have hlength := congrArg List.length (hwhole.unique h.2.tail)
    simp only [List.length_cons, List.length_append] at hlength
    omega

/-- Two lists of which the one has the elements of the other that `f` does not mark. -/
theorem length_add_countP {f : α → Bool} (has : as.Nodup) (hbs : bs.Nodup)
    (hmem : ∀ a, a ∈ as ↔ a ∈ bs ∧ f a = false) : as.length + bs.countP f = bs.length := by
  have hperm : as.Perm (bs.filter fun a => !f a) := by
    rw [List.perm_ext_iff_of_nodup has (hbs.filter _)]
    intro a
    rw [hmem, List.mem_filter, Bool.not_eq_true']
  rw [hperm.length_eq, ← List.countP_eq_length_filter, Nat.add_comm,
    List.length_eq_countP_add_countP f]
  congr 1
  exact List.countP_congr fun a _ => by simp

variable [DecidableEq α]

theorem Linked.update (h : Linked next p as) (hnot : a ∉ as) (q : Option α) :
    Linked (Function.update next a q) p as :=
  h.congr fun b hb => Function.update_of_ne (fun heq : b = a => hnot (heq ▸ hb)) q next

/-- A cell is put in front of a list. -/
theorem Linked.push (h : Linked next p as) (hnot : a ∉ as) :
    Linked (Function.update next a p) (some a) (a :: as) := by
  refine ⟨rfl, ?_⟩
  rw [Function.update_self]
  exact h.update hnot p

/-- The last cell in front of a place is linked to another end of the list. -/
theorem Linked.splice {b : α} {tail tail' : List α} {q : Option α} (h : Linked next p (as ++ tail))
    (hlast : as.getLast? = some b) (hnodup : as.Nodup) (hnot : b ∉ tail')
    (htail : Linked next q tail') :
    Linked (Function.update next b q) p (as ++ tail') := by
  induction as generalizing p with
  | nil => cases hlast
  | cons a as ih =>
    obtain ⟨hfirst, hrest⟩ := h
    refine ⟨hfirst, ?_⟩
    cases as with
    | nil =>
      obtain rfl : a = b := Option.some.inj hlast
      rw [Function.update_self]
      exact htail.update hnot q
    | cons a' as =>
      rw [List.getLast?_cons_cons] at hlast
      have hne : a ≠ b := by
        rintro rfl
        exact (List.nodup_cons.mp hnodup).1 (List.mem_of_getLast? hlast)
      rw [Function.update_of_ne hne]
      exact ih hrest hlast (List.nodup_cons.mp hnodup).2

/-- A list still ends when one of the cells is linked to another list, which does not have it. -/
theorem Linked.exists_update {q : Option α} (h : Linked next p as) (hq : Linked next q bs)
    (hnot : a ∉ bs) :
    ∃ cs, Linked (Function.update next a q) p cs ∧ ∀ c ∈ cs, c ∈ as ∨ c ∈ bs := by
  by_cases hmem : a ∈ as
  · obtain ⟨front, back, rfl⟩ := List.append_of_mem hmem
    have hsplit : front ++ a :: back = (front ++ [a]) ++ back := by
      rw [List.append_assoc, List.singleton_append]
    rw [hsplit] at h ⊢
    refine ⟨(front ++ [a]) ++ bs, h.splice List.getLast?_concat
      (List.nodup_append.mp h.nodup).1 hnot hq, fun c hc => ?_⟩
    exact (List.mem_append.mp hc).imp_left (List.mem_append_left back)
  · exact ⟨as, h.update hmem q, fun c hc => .inl hc⟩

end Dwpal.Chain
