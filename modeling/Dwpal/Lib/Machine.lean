import Mathlib.Algebra.Group.Int.Defs
import Mathlib.Algebra.GroupWithZero.Nat
import Mathlib.Data.List.Basic

/-! Labelled transition functions and their runs: a step may refuse an action, a run is a list of
actions that were all accepted, and an invariant of the steps is an invariant of the runs. -/

namespace Dwpal.Machine

variable {σ : Type*} {α : Type*}

/-- The state after the actions `as`, in order; `none` as soon as one of them is not enabled. -/
def exec (step : σ → α → Option σ) : σ → List α → Option σ
  | s, [] => some s
  | s, a :: as => (step s a).bind fun s' => exec step s' as

/-- Every step of the run `as` from `s` is taken in a state and with an action that meet `ok`. -/
def Along (step : σ → α → Option σ) (ok : σ → α → Prop) : σ → List α → Prop
  | _, [] => True
  | s, a :: as => ok s a ∧ (step s a).elim True fun s' => Along step ok s' as

instance decidableAlong {step : σ → α → Option σ} {ok : σ → α → Prop}
    [∀ s a, Decidable (ok s a)] : ∀ s as, Decidable (Along step ok s as)
  | _, [] => .isTrue trivial
  | s, a :: as =>
    have : Decidable ((step s a).elim True fun s' => Along step ok s' as) :=
      match step s a with
      | none => .isTrue trivial
      | some s' => decidableAlong s' as
    inferInstanceAs (Decidable (ok s a ∧ _))

/-- What `note` makes of `log` at each step of the run `as` from `s`, in order. -/
def record {γ : Type*} (step : σ → α → Option σ) (note : σ → α → σ → γ → γ) :
    σ → γ → List α → γ
  | _, log, [] => log
  | s, log, a :: as =>
    match step s a with
    | none => log
    | some s' => record step note s' (note s a s' log) as

/-- `s` is the state of some run from one of the states `init`. -/
def Reachable (step : σ → α → Option σ) (init : σ → Prop) (s : σ) : Prop :=
  ∃ s0 as, init s0 ∧ exec step s0 as = some s

variable {step : σ → α → Option σ}

@[simp] theorem exec_nil (s : σ) : exec step s [] = some s := rfl

@[simp] theorem exec_cons (s : σ) (a : α) (as : List α) :
    exec step s (a :: as) = (step s a).bind fun s' => exec step s' as := rfl

theorem exec_append (s : σ) (as bs : List α) :
    exec step s (as ++ bs) = (exec step s as).bind fun s' => exec step s' bs := by
  induction as generalizing s with
  | nil => rfl
  | cons a as ih => simp [ih, Option.bind_assoc]

/-- What every step that meets `ok` preserves holds at the end of every run whose steps all
meet it. -/
theorem exec_along {ok : σ → α → Prop} {Inv : σ → Prop}
    (hstep : ∀ {s a s'}, Inv s → ok s a → step s a = some s' → Inv s') :
    ∀ {s s' : σ} {as : List α}, Inv s → Along step ok s as → exec step s as = some s' → Inv s' := by
  intro s s' as
  induction as generalizing s with
  | nil =>
    intro hs _ hrun
    cases hrun
    exact hs
  | cons a as ih =>
    intro hs hok hrun
    obtain ⟨mid, hfirst, hrest⟩ := Option.bind_eq_some_iff.mp hrun
    have hnext := hok.2
    rw [hfirst] at hnext
    exact ih (hstep hs hok.1 hfirst) hnext hrest

theorem along_of_mem {ok : σ → α → Prop} :
    ∀ {as : List α} (_ : ∀ a ∈ as, ∀ s, ok s a) (s : σ), Along step ok s as
  | [], _, _ => trivial
  | a :: _, h, s => ⟨h a List.mem_cons_self s, by
    cases step s a with
    | none => trivial
    | some s' => exact along_of_mem (fun b hb => h b (List.mem_cons_of_mem a hb)) s'⟩

theorem along_of_forall {ok : σ → α → Prop} (h : ∀ s a, ok s a) (s : σ) (as : List α) :
    Along step ok s as :=
  along_of_mem (fun a _ s => h s a) s

theorem Along.mono {ok ok' : σ → α → Prop} (h : ∀ s a, ok s a → ok' s a) :
    ∀ {s : σ} {as : List α}, Along step ok s as → Along step ok' s as
  | _, [], _ => trivial
  | s, a :: _, hok => ⟨h _ _ hok.1, by
    have hnext := hok.2
    cases hs : step s a with
    | none => trivial
    | some s' =>
      rw [hs] at hnext
      exact hnext.mono h⟩

theorem Along.and {ok ok' : σ → α → Prop} :
    ∀ {s : σ} {as : List α}, Along step ok s as → Along step ok' s as →
      Along step (fun s a => ok s a ∧ ok' s a) s as
  | _, [], _, _ => trivial
  | s, a :: _, h, h' => ⟨⟨h.1, h'.1⟩, by
    have hnext := h.2
    have hnext' := h'.2
    cases hs : step s a with
    | none => trivial
    | some s' =>
      rw [hs] at hnext hnext'
      exact hnext.and hnext'⟩

theorem along_singleton {ok : σ → α → Prop} {s : σ} {a : α} (h : ok s a) : Along step ok s [a] :=
  ⟨h, by cases step s a <;> trivial⟩

theorem Along.append {ok : σ → α → Prop} :
    ∀ {s : σ} {as bs : List α}, Along step ok s as →
      (∀ s', exec step s as = some s' → Along step ok s' bs) → Along step ok s (as ++ bs)
  | s, [], _, _, hrest => hrest s rfl
  | s, a :: _, _, h, hrest => ⟨h.1, by
    have hnext := h.2
    cases hs : step s a with
    | none => trivial
    | some mid =>
      rw [hs] at hnext
      exact hnext.append fun s' hrun => hrest s' (by rw [exec_cons, hs]; exact hrun)⟩

/-- Two conditions on the steps are the same along a run if they are the same where an invariant
holds that each of them preserves. -/
theorem along_iff {ok ok' : σ → α → Prop} {Inv : σ → Prop}
    (hsame : ∀ {s a}, Inv s → (ok s a ↔ ok' s a))
    (hstep : ∀ {s a s'}, Inv s → ok s a → step s a = some s' → Inv s') :
    ∀ {s : σ} {as : List α}, Inv s → (Along step ok s as ↔ Along step ok' s as) := by
  intro s as
  induction as generalizing s with
  | nil => exact fun _ => Iff.rfl
  | cons a as ih =>
    intro hs
    rw [Along, Along, ← hsame hs]
    refine and_congr_right fun hok => ?_
    cases hst : step s a with
    | none => exact Iff.rfl
    | some s' => exact ih (hstep hs hok hst)

/-- What every step preserves holds at the end of every run. -/
theorem exec_inv {Inv : σ → Prop} (hstep : ∀ {s a s'}, Inv s → step s a = some s' → Inv s')
    {s s' : σ} {as : List α} (hs : Inv s) (hrun : exec step s as = some s') : Inv s' :=
  exec_along (fun hi (_ : True) hst => hstep hi hst) hs
    (along_of_forall (fun _ _ => trivial) s as) hrun

/-- What every step preserves, of the state and of what is recorded, holds at the end of every
run. -/
theorem exec_record {γ : Type*} {note : σ → α → σ → γ → γ} {Inv : σ → γ → Prop}
    (hstep : ∀ {s a s' log}, Inv s log → step s a = some s' → Inv s' (note s a s' log)) :
    ∀ {s s' : σ} {log : γ} {as : List α}, Inv s log → exec step s as = some s' →
      Inv s' (record step note s log as) := by
  intro s s' log as
  induction as generalizing s log with
  | nil =>
    intro hs hrun
    cases hrun
    exact hs
  | cons a as ih =>
    intro hs hrun
    obtain ⟨mid, hfirst, hrest⟩ := Option.bind_eq_some_iff.mp hrun
    rw [record, hfirst]
    exact ih (hstep hs hfirst) hrest

theorem Reachable.inv {Inv init : σ → Prop} (hinit : ∀ s, init s → Inv s)
    (hstep : ∀ {s a s'}, Inv s → step s a = some s' → Inv s') {s : σ}
    (h : Reachable step init s) : Inv s := by
  obtain ⟨s0, as, h0, hrun⟩ := h
  exact exec_inv hstep (hinit s0 h0) hrun

end Dwpal.Machine
