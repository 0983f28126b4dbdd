import Dwpal.Serializer.Steps

/-! The lifetime of a work over whole runs of the serializer. -/

namespace Dwpal.Serializer

open Dwpal.Machine WorkSerializer

theorem WorkSerializer.Inv.lifetimeLaw {A : Prop} {O : List WorkOps} {s : WorkSerializer}
    (h : s.Inv A O) : s.LifetimeLaw := by
  refine ⟨h.faults, fun p hp => ?_⟩
  obtain ⟨l, hl⟩ := h.lives p
  have hborn := hl.born.mp hp
  have hfrees := hl.frees hborn
  cases howner : l.owner with
  | none =>
    have hfreed : l = .freed := by cases l <;> simp_all [Life.owner]
    refine .inl ⟨by rw [hfrees, if_pos hfreed], fun o ho => ?_⟩
    rw [hl.owns, howner] at ho
    cases ho
  | some o =>
    have hfreed : l ≠ .freed := by rintro rfl; cases howner
    refine .inr ⟨by rw [hfrees, if_neg hfreed], o, (hl.owns o).mpr howner, fun o' ho' => ?_⟩
    exact (Option.some.inj (howner.symm.trans ((hl.owns o').mp ho'))).symm

/-- In every run in which no `serializer_stop_all_by_ctx` stops a synchronous work, every work is
freed exactly once or owned by exactly one list or thread, and no freed work is touched. -/
theorem workLifetime (ops : List WorkOps) (startNow : Bool) (as : List Action)
    {s : WorkSerializer} (hok : Along step StopsNoneWaiting (serializerCreate ops startNow) as)
    (hrun : exec step (serializerCreate ops startNow) as = some s) : s.LifetimeLaw :=
  have hinv : s.Inv False ops :=
    exec_along (fun h hok hstep => step_inv h hok False.elim hstep)
      (serializerCreate_inv False ops startNow) hok hrun
  hinv.lifetimeLaw

/-- An asynchronous work of `ctx` 7 runs while thread 1 waits for a synchronous work of `ctx` 7; the
running work stops all works of `stopCtx`, and thread 1 leaves its call. -/
def stopRun (stopCtx : Nat) : List Action :=
  [.execWorkAsync 2 0 10 7 true, .insert 2 true 0, .workerTakes,
   .execWork 1 0 11 7 1000 true, .insert 1 true 0, .stopAllByCtx 0 stopCtx,
   .workFuncReturns 0, .freeFuncReturns, .workDone, .workerTakes, .workFuncReturns 5,
   .freeFuncReturns, .workDone, .callerWakes 1 .ok, .callerFinishes 1]

theorem workLifetime_stopRun :
    ∃ s, exec step (serializerCreate [⟨true, none⟩] true) (stopRun 8) = some s ∧
      s.LifetimeLaw :=
  ⟨_, rfl, workLifetime [⟨true, none⟩] true (stopRun 8) (by decide) rfl⟩

/-- The same, up to the return of thread 1, with the synchronous work stopped: its caller reads the
work after it was freed, and frees it again. -/
def abortRun : List Action :=
  [.execWorkAsync 2 0 10 7 true, .insert 2 true 0, .workerTakes,
   .execWork 1 0 11 7 1000 true, .insert 1 true 0, .stopAllByCtx 0 7,
   .callerWakes 1 .ok, .callerFinishes 1]

theorem abortRun_breaks_lifetime :
    ∃ s, exec step (serializerCreate [⟨true, none⟩] true) abortRun = some s ∧
      ¬ s.LifetimeLaw := by
  have hfaults : (exec step (serializerCreate [⟨true, none⟩] true) abortRun).map (·.faults) =
      some [.usedAfterFree 1, .usedAfterFree 1, .freedTwice 1] := by decide
  obtain ⟨s, hs, hs'⟩ := Option.map_eq_some_iff.mp hfaults
  refine ⟨s, hs, fun h => ?_⟩
  rw [LifetimeLaw, hs'] at h
  cases h.1

end Dwpal.Serializer
