import Mathlib.Data.Finset.Basic
import Mathlib.Logic.Function.Basic

/-! Threads that run code with mutexes that are not recursive. Of the code only its locks, its
branches and the points where other code is entered are kept; a judgement on code says which locks
it may start with and which it leaves, and in threads whose code meets it no thread asks for a lock
that it holds. -/

namespace Dwpal.LockCode

variable {L T : Type} [DecidableEq L] [DecidableEq T]

/-- Code: it returns, locks, unlocks, branches on data, calls something that succeeds or fails and
may enter other code before it does, or calls a function of the user, which may do anything. -/
inductive Code (L : Type) where
  | ret
  | lock (l : L) (k : Code L)
  | unlock (l : L) (k : Code L)
  | choose (a b : Code L)
  | call (ok err : Code L)
  | callback (k : Code L)

/-- Started with the locks `held`, the code asks for no lock that it holds, gives back only what it
holds, calls no function of the user under a lock, and returns with the locks `held'`. -/
def Safe : Code L → Finset L → Finset L → Prop
  | .ret, held, held' => held = held'
  | .lock l k, held, held' => l ∉ held ∧ Safe k (insert l held) held'
  | .unlock l k, held, held' => l ∈ held ∧ Safe k (held.erase l) held'
  | .choose a b, held, held' => Safe a held held' ∧ Safe b held held'
  | .call ok err, held, held' => Safe ok held held' ∧ Safe err held held'
  | .callback k, held, held' => held = ∅ ∧ Safe k held held'

instance decidableSafe : ∀ (c : Code L) (held held' : Finset L), Decidable (Safe c held held')
  | .ret, held, held' => inferInstanceAs (Decidable (held = held'))
  | .lock l k, held, held' =>
    have := decidableSafe k (insert l held) held'
    inferInstanceAs (Decidable (l ∉ held ∧ _))
  | .unlock l k, held, held' =>
    have := decidableSafe k (held.erase l) held'
    inferInstanceAs (Decidable (l ∈ held ∧ _))
  | .choose a b, held, held' =>
    have := decidableSafe a held held'
    have := decidableSafe b held held'
    inferInstanceAs (Decidable (Safe a held held' ∧ Safe b held held'))
  | .call ok err, held, held' =>
    have := decidableSafe ok held held'
    have := decidableSafe err held held'
    inferInstanceAs (Decidable (Safe ok held held' ∧ Safe err held held'))
  | .callback k, held, held' =>
    have := decidableSafe k held held'
    inferInstanceAs (Decidable (held = ∅ ∧ _))

/-- The functions that a thread is in, the innermost first; the last one returns without locks. -/
def SafeStack : List (Code L) → Finset L → Prop
  | [], held => held = ∅
  | c :: rest, held => ∃ held', Safe c held held' ∧ SafeStack rest held'

/-- The owners of the mutexes, and where each thread is. -/
structure Threads (L T : Type) where
  owner : L → Option T
  stack : T → List (Code L)

namespace Threads

def setStack (s : Threads L T) (t : T) (cs : List (Code L)) : Threads L T :=
  { s with stack := Function.update s.stack t cs }

/-- The thread takes its next step; `first` says which branch it takes. A mutex that has an owner
blocks it. -/
def advance (s : Threads L T) (t : T) (first : Bool) : Option (Threads L T) :=
  match s.stack t with
  | .ret :: rest => some (s.setStack t rest)
  | .lock l k :: rest =>
    if s.owner l = none then
      some { s.setStack t (k :: rest) with owner := Function.update s.owner l (some t) }
    else none
  | .unlock l k :: rest =>
    some { s.setStack t (k :: rest) with owner := Function.update s.owner l none }
  | .choose a b :: rest => some (s.setStack t ((if first then a else b) :: rest))
  | .callback k :: rest => some (s.setStack t (k :: rest))
  | _ => none

/-- The call that the thread is in comes to its end, after the code `entered`. -/
def leaveCall (s : Threads L T) (t : T) (ok : Bool) (entered : List (Code L)) :
    Option (Threads L T) :=
  match s.stack t with
  | .call a b :: rest => some (s.setStack t (entered ++ (if ok then a else b) :: rest))
  | _ => none

/-- The thread enters a function. -/
def enter (s : Threads L T) (t : T) (c : Code L) : Threads L T := s.setStack t (c :: s.stack t)

/-- The thread is in no function, or in a function of the user. -/
def Free (s : Threads L T) (t : T) : Prop :=
  s.stack t = [] ∨ ∃ k rest, s.stack t = .callback k :: rest

/-- Every thread is in code that is safe with the locks that it holds. -/
def Good (s : Threads L T) : Prop :=
  ∃ held : T → Finset L, (∀ t l, l ∈ held t ↔ s.owner l = some t) ∧
    ∀ t, SafeStack (s.stack t) (held t)

namespace Good

variable {s s' : Threads L T} {t : T}

omit [DecidableEq T] in
/-- No thread asks for a mutex that it owns. -/
theorem not_self (h : s.Good) {l : L} {k : Code L} {rest : List (Code L)}
    (htop : s.stack t = .lock l k :: rest) : s.owner l ≠ some t := by
  obtain ⟨held, howner, hsafe⟩ := h
  intro hself
  have hstack := hsafe t
  rw [htop] at hstack
  obtain ⟨held', ⟨hnew, -⟩, -⟩ := hstack
  exact hnew ((howner t l).mpr hself)

theorem setStack {held : T → Finset L} (howner : ∀ t l, l ∈ held t ↔ s.owner l = some t)
    (hsafe : ∀ t, SafeStack (s.stack t) (held t)) {cs : List (Code L)}
    (hcs : SafeStack cs (held t)) : (s.setStack t cs).Good := by
  refine ⟨held, howner, fun u => ?_⟩
  by_cases hu : u = t
  · subst hu
    simpa [Threads.setStack] using hcs
  · simpa [Threads.setStack, hu] using hsafe u

/-- The owner of one mutex changes along with the locks of one thread. -/
theorem setOwner {held : T → Finset L} (howner : ∀ t l, l ∈ held t ↔ s.owner l = some t)
    (hsafe : ∀ t, SafeStack (s.stack t) (held t)) {cs : List (Code L)} {l : L} {o : Option T}
    {mine : Finset L} (hcs : SafeStack cs mine)
    (hmine : ∀ m, m ∈ mine ↔ Function.update s.owner l o m = some t)
    (hothers : ∀ u, u ≠ t → s.owner l ≠ some u ∧ o ≠ some u) :
    Good { s.setStack t cs with owner := Function.update s.owner l o } := by
  refine ⟨Function.update held t mine, fun u m => ?_, fun u => ?_⟩
  · by_cases hu : u = t
    · subst hu
      rw [Function.update_self]
      exact hmine m
    · rw [Function.update_of_ne hu, howner]
      by_cases hm : m = l
      · subst hm
        simp [hothers u hu]
      · show s.owner m = some u ↔ Function.update s.owner l o m = some u
        rw [Function.update_of_ne hm]
  · by_cases hu : u = t
    · subst hu
      simpa [Threads.setStack] using hcs
    · simpa [Threads.setStack, hu] using hsafe u

theorem advance (h : s.Good) {first : Bool} (hstep : s.advance t first = some s') : s'.Good := by
  obtain ⟨held, howner, hsafe⟩ := h
  have hstack := hsafe t
  simp only [Threads.advance] at hstep
  split at hstep
  · next rest htop =>
    cases hstep
    rw [htop] at hstack
    obtain ⟨held', hret, hrest⟩ := hstack
    exact setStack howner hsafe (show SafeStack rest (held t) from hret ▸ hrest)
  · next l k rest htop =>
    simp only [Option.ite_none_right_eq_some] at hstep
    obtain ⟨hnone, hstep⟩ := hstep
    cases hstep
    rw [htop] at hstack
    obtain ⟨held', ⟨-, hk⟩, hrest⟩ := hstack
    refine setOwner howner hsafe ⟨held', hk, hrest⟩ (fun m => ?_) (fun u hu => ?_)
    · by_cases hm : m = l
      · simp [hm]
      · rw [Finset.mem_insert, Function.update_of_ne hm, howner]
        simp [hm]
    · simp [hnone, Ne.symm hu]
  · next l k rest htop =>
    cases hstep
    rw [htop] at hstack
    obtain ⟨held', ⟨hmem, hk⟩, hrest⟩ := hstack
    refine setOwner howner hsafe ⟨held', hk, hrest⟩ (fun m => ?_) (fun u hu => ?_)
    · by_cases hm : m = l
      · simp [hm]
      · rw [Finset.mem_erase, Function.update_of_ne hm, howner]
        simp [hm]
    · simp [(howner t l).mp hmem, Ne.symm hu]
  · next a b rest htop =>
    cases hstep
    rw [htop] at hstack
    obtain ⟨held', ⟨ha, hb⟩, hrest⟩ := hstack
    refine setStack howner hsafe ⟨held', ?_, hrest⟩
    split
    · exact ha
    · exact hb
  · next k rest htop =>
    cases hstep
    rw [htop] at hstack
    obtain ⟨held', ⟨-, hk⟩, hrest⟩ := hstack
    exact setStack howner hsafe ⟨held', hk, hrest⟩
  · cases hstep

/-- A call that ends without entering other code. -/
theorem leaveCall (h : s.Good) {ok : Bool} (hstep : s.leaveCall t ok [] = some s') : s'.Good := by
  obtain ⟨held, howner, hsafe⟩ := h
  have hstack := hsafe t
  simp only [Threads.leaveCall] at hstep
  split at hstep
  · next a b rest htop =>
    cases hstep
    rw [htop] at hstack
    obtain ⟨held', ⟨ha, hb⟩, hrest⟩ := hstack
    refine setStack howner hsafe ⟨held', ?_, hrest⟩
    split
    · exact ha
    · exact hb
  · cases hstep

/-- A call that ends with code that is safe under the locks of the thread. -/
theorem leaveCall_enter (h : s.Good) {ok : Bool} {c : Code L}
    (hc : ∀ held : Finset L, (∀ l ∈ held, s.owner l = some t) → Safe c held held)
    (hstep : s.leaveCall t ok [c] = some s') : s'.Good := by
  obtain ⟨held, howner, hsafe⟩ := h
  have hstack := hsafe t
  simp only [Threads.leaveCall] at hstep
  split at hstep
  · next a b rest htop =>
    cases hstep
    rw [htop] at hstack
    obtain ⟨held', ⟨ha, hb⟩, hrest⟩ := hstack
    refine setStack howner hsafe ⟨held t, hc _ fun l hl => (howner t l).mp hl, held', ?_, hrest⟩
    split
    · exact ha
    · exact hb
  · cases hstep

/-- A function that starts and ends without locks is entered. -/
theorem enter (h : s.Good) (hfree : s.Free t) {c : Code L} (hc : Safe c ∅ ∅) :
    (s.enter t c).Good := by
  obtain ⟨held, howner, hsafe⟩ := h
  refine setStack howner hsafe ⟨∅, ?_, ?_⟩
  all_goals
    have hstack := hsafe t
    rcases hfree with htop | ⟨k, rest, htop⟩
  · rw [htop] at hstack
    rwa [show held t = ∅ from hstack]
  · rw [htop] at hstack
    obtain ⟨held', ⟨hnone, -⟩, -⟩ := hstack
    rwa [hnone]
  · rw [htop]
    rfl
  · rw [htop] at hstack ⊢
    obtain ⟨held', ⟨hnone, hk⟩, hrest⟩ := hstack
    exact ⟨held', ⟨rfl, hnone ▸ hk⟩, hrest⟩

end Good

end Threads

end Dwpal.LockCode
