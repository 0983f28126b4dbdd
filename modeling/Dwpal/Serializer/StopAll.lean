import Dwpal.Serializer.Dispatch

/-! What `serializer_stop_all_by_ctx` removes. Its two rounds both walk `work_list`, so it never
takes a work from `delayed_work_list`. -/

namespace Dwpal.Serializer

open Dwpal.Machine WorkSerializer

namespace WorkSerializer

/-- Every work of `ctx` is removed from the two lists, no other work is, and `free_func`, where
there is one, was called once on the object of each removed work and on no other. -/
structure StopsAll (s s' : WorkSerializer) (ctx : Nat) : Prop where
  gone : ∀ p ∈ s'.linked, ctx ≠ (s'.work p).ctx
  workList : s'.workList = s.workList.filter fun p => ctx ≠ (s.work p).ctx
  delayedWorkList : s'.delayedWorkList = s.delayedWorkList.filter fun p => ctx ≠ (s.work p).ctx
  released : ∀ p, (s'.heap p).freeFuncs = (s.heap p).freeFuncs +
    if p ∈ s.linked ∧ ctx = (s.work p).ctx then s.owedFreeFuncs p else 0

/-- What a part of the loop does that visits the entries `l`. -/
structure Stopped (ctx : Nat) (l : List Ptr) (s s' : WorkSerializer) : Prop where
  ops : s'.ops = s.ops
  delayedWorkList : s'.delayedWorkList = s.delayedWorkList
  ctxs : ∀ p, (s'.work p).ctx = (s.work p).ctx
  ids : ∀ p, (s'.work p).id = (s.work p).id
  released : ∀ p, (s'.heap p).freeFuncs = (s.heap p).freeFuncs +
    if p ∈ l ∧ ctx = (s.work p).ctx then s.owedFreeFuncs p else 0

variable {s s' s'' : WorkSerializer} {ctx : Nat} {p : Ptr} {l l' : List Ptr} {b : Bool}

theorem Stopped.owedFreeFuncs (h : Stopped ctx l s s') (p : Ptr) :
    s'.owedFreeFuncs p = s.owedFreeFuncs p := by
  rw [WorkSerializer.owedFreeFuncs, WorkSerializer.owedFreeFuncs, hasFreeFunc, hasFreeFunc, h.ops,
    h.ids p]

theorem Stopped.nil : Stopped ctx [] s s :=
  ⟨rfl, rfl, fun _ => rfl, fun _ => rfl, fun p => by
    rw [if_neg fun hmem => List.not_mem_nil hmem.1, Nat.add_zero]⟩

/-- Two parts of the loop, over different entries. -/
theorem Stopped.trans (h : Stopped ctx l s s') (h' : Stopped ctx l' s' s'')
    (hdisjoint : ∀ p ∈ l, p ∉ l') : Stopped ctx (l ++ l') s s'' := by
  refine ⟨h'.ops.trans h.ops, h'.delayedWorkList.trans h.delayedWorkList,
    fun p => (h'.ctxs p).trans (h.ctxs p), fun p => (h'.ids p).trans (h.ids p), fun p => ?_⟩
  rw [h'.released p, h.released p, h.ctxs p, h.owedFreeFuncs p, Nat.add_assoc]
  congr 1
  by_cases hp : p ∈ l
  · simp only [List.mem_append, hp, hdisjoint p hp, true_and, true_or, false_and, if_false,
      Nat.add_zero]
  · simp only [List.mem_append, hp, false_or, false_and, if_false, Nat.zero_add]

section Entries

attribute [local simp] modify settle setState unlinkWork callFreeFunc_eq free touch
  WorkSerializer.owedFreeFuncs hasFreeFunc work Function.update_apply

theorem stopWork_stopped (hctx : ctx = (s.work p).ctx) : Stopped ctx [p] s (stopWork s p) := by
  refine ⟨?_, ?_, fun q => ?_, fun q => ?_, fun q => ?_⟩
  · simp only [stopWork]
    split_ifs <;> simp
  · simp only [stopWork]
    split_ifs <;> simp
  · rcases eq_or_ne q p with rfl | hq
    · simp only [stopWork]
      split_ifs <;> simp
    · rw [work, stopWork_heap hq, work]
  · rcases eq_or_ne q p with rfl | hq
    · simp only [stopWork]
      split_ifs <;> simp
    · rw [work, stopWork_heap hq, work]
  · rcases eq_or_ne q p with rfl | hq
    · rw [if_pos ⟨List.mem_singleton_self q, hctx⟩]
      simp only [stopWork]
      split_ifs <;> simp
    · rw [stopWork_heap hq, if_neg fun hmem => hq (List.mem_singleton.mp hmem.1), Nat.add_zero]

end Entries

theorem stopEntry_stopped (ctx : Nat) (s : WorkSerializer) (p : Ptr) (b : Bool) :
    Stopped ctx [p] s (stopEntry ctx (s, b) p).1 := by
  unfold stopEntry
  by_cases hctx : ctx = ((s.touch [p]).work p).ctx
  · simp only [if_pos hctx]
    have hstop := stopWork_stopped (s := s.touch [p]) hctx
    exact ⟨hstop.ops, hstop.delayedWorkList, hstop.ctxs, hstop.ids, hstop.released⟩
  · simp only [if_neg hctx]
    exact ⟨rfl, rfl, fun _ => rfl, fun _ => rfl, fun q => by
      rw [if_neg, Nat.add_zero]
      · rfl
      · rintro ⟨hq, hctx'⟩
        obtain rfl := List.mem_singleton.mp hq
        exact hctx hctx'⟩

theorem stopEntry_workList (ctx : Nat) (s : WorkSerializer) (p : Ptr) (b : Bool) :
    (stopEntry ctx (s, b) p).1.workList =
    if ctx = (s.work p).ctx then s.workList.erase p else s.workList := by
  unfold stopEntry
  by_cases hctx : ctx = (s.work p).ctx
  · rw [if_pos hctx]
    simp only [if_pos (show ctx = ((s.touch [p]).work p).ctx from hctx)]
    exact stopWork_workList
  · rw [if_neg hctx]
    simp only [if_neg (show ¬ctx = ((s.touch [p]).work p).ctx from hctx)]
    rfl

/-- A round of the loop, from where it has passed the entries `before`. -/
theorem stopLoop_stopped (ctx : Nat) (b : Bool) (before : List Ptr) (hnodup : (before ++ l).Nodup)
    (hlist : s.workList = before ++ l) :
    Stopped ctx l s (l.foldl (stopEntry ctx) (s, b)).1 ∧
      (l.foldl (stopEntry ctx) (s, b)).1.workList =
        before ++ l.filter fun p => ctx ≠ (s.work p).ctx := by
  induction l generalizing s b before with
  | nil => exact ⟨.nil, hlist⟩
  | cons p l ih =>
    have hentry := stopEntry_stopped ctx s p b
    have hentryList := stopEntry_workList ctx s p b
    rw [List.foldl_cons]
    generalize stopEntry ctx (s, b) p = acc at hentry hentryList
    obtain ⟨s1, b1⟩ := acc
    have hp : p ∉ l := (List.nodup_cons.mp (hnodup.sublist (List.sublist_append_right _ _))).1
    have hsame : (fun q => decide (ctx ≠ (s1.work q).ctx)) = fun q =>
        decide (ctx ≠ (s.work q).ctx) :=
      funext fun q => by rw [hentry.ctxs q]
    have hdisjoint : ∀ q ∈ [p], q ∉ l := fun q hq => by rwa [List.mem_singleton.mp hq]
    by_cases hctx : ctx = (s.work p).ctx
    · have hbefore : p ∉ before := fun hmem =>
        (List.nodup_append.mp hnodup).2.2 p hmem p List.mem_cons_self rfl
      rw [if_pos hctx, hlist, List.erase_append_right _ hbefore, List.erase_cons_head] at hentryList
      obtain ⟨hstopped, hrest⟩ := ih b1 before
        (hnodup.sublist ((List.sublist_cons_self p l).append_left before)) hentryList
      refine ⟨hentry.trans hstopped hdisjoint, ?_⟩
      rw [hrest, hsame, List.filter_cons_of_neg (by simpa using hctx)]
    · rw [if_neg hctx, hlist, List.append_cons] at hentryList
      obtain ⟨hstopped, hrest⟩ := ih b1 (before ++ [p])
        (List.append_cons before p l ▸ hnodup) hentryList
      refine ⟨hentry.trans hstopped hdisjoint, ?_⟩
      rw [hrest, hsame, List.filter_cons_of_pos (by simpa using hctx), ← List.append_cons]

/-- What the call does from the thread of the serializer: the delayed works stay. -/
theorem stopAllByCtx_stopped (ctx : Nat) (hnodup : s.workList.Nodup) :
    Stopped ctx s.workList s (serializerStopAllByCtx s serializerThread ctx).2 ∧
      (serializerStopAllByCtx s serializerThread ctx).2.workList =
        s.workList.filter fun p => ctx ≠ (s.work p).ctx := by
  obtain ⟨hfirst, hfirstList⟩ := stopLoop_stopped ctx false [] hnodup rfl
  unfold serializerStopAllByCtx
  rw [if_neg (not_not.mpr rfl)]
  generalize s.workList.foldl (stopEntry ctx) (s, false) = acc at hfirst hfirstList
  obtain ⟨s1, b1⟩ := acc
  rw [List.nil_append] at hfirstList
  change s1.workList = _ at hfirstList
  have hnodup1 : s1.workList.Nodup := hfirstList ▸ hnodup.filter _
  obtain ⟨hsecond, hsecondList⟩ :=
    stopLoop_stopped ctx b1 [] hnodup1 rfl
  simp only
  generalize s1.workList.foldl (stopEntry ctx) (s1, b1) = acc at hsecond hsecondList
  obtain ⟨s2, b2⟩ := acc
  have hnone : ∀ p ∈ s1.workList, ctx ≠ (s1.work p).ctx := by
    intro p hp
    rw [hfirst.ctxs p]
    rw [hfirstList] at hp
    exact of_decide_eq_true (List.mem_filter.mp hp).2
  have hlist : s2.workList = s.workList.filter fun p => ctx ≠ (s.work p).ctx := by
    rw [← hfirstList]
    refine hsecondList.trans ?_
    rw [List.nil_append, List.filter_eq_self.mpr fun p hp => by simpa using hnone p hp]
  have hboth : Stopped ctx s.workList s s2 := by
    refine ⟨hsecond.ops.trans hfirst.ops, hsecond.delayedWorkList.trans hfirst.delayedWorkList,
      fun p => (hsecond.ctxs p).trans (hfirst.ctxs p),
      fun p => (hsecond.ids p).trans (hfirst.ids p), fun p => ?_⟩
    rw [hsecond.released p, if_neg fun hmem => hnone p hmem.1 hmem.2, Nat.add_zero,
      hfirst.released p]
  by_cases hnotify : b2 = true
  · rw [if_pos hnotify]
    exact ⟨⟨hboth.ops, hboth.delayedWorkList, hboth.ctxs, hboth.ids, hboth.released⟩, hlist⟩
  · rw [if_neg hnotify]
    exact ⟨hboth, hlist⟩

end WorkSerializer

/-- The call does what it is for exactly if no delayed work is of `ctx`, and it is made by the
thread of the serializer unless no other work is of `ctx` either. -/
theorem stopAllByCtx_complete (s : WorkSerializer) (t : Thread) (ctx : Nat)
    (hnodup : s.linked.Nodup) :
    s.StopsAll (serializerStopAllByCtx s t ctx).2 ctx ↔
      (∀ p ∈ s.delayedWorkList, ctx ≠ (s.work p).ctx) ∧
        (t = serializerThread ∨ ∀ p ∈ s.workList, ctx ≠ (s.work p).ctx) := by
  by_cases ht : t = serializerThread
  · subst ht
    obtain ⟨hstopped, hlist⟩ := stopAllByCtx_stopped ctx (List.nodup_append.mp hnodup).1
    generalize (serializerStopAllByCtx s serializerThread ctx).2 = s' at hstopped hlist
    refine ⟨fun h => ⟨fun p hp => ?_, .inl rfl⟩, fun ⟨hdelayed, _⟩ => ⟨fun p hp => ?_, hlist, ?_,
      fun p => ?_⟩⟩
    · rw [← hstopped.ctxs p]
      refine h.gone p (List.mem_append_right _ ?_)
      rwa [hstopped.delayedWorkList]
    · rw [hstopped.ctxs p]
      rcases List.mem_append.mp hp with hp | hp
      · rw [hlist] at hp
        exact of_decide_eq_true (List.mem_filter.mp hp).2
      · rw [hstopped.delayedWorkList] at hp
        exact hdelayed p hp
    · rw [hstopped.delayedWorkList,
        List.filter_eq_self.mpr fun p hp => by simpa using hdelayed p hp]
    · rw [hstopped.released p]
      congr 1
      refine if_congr ⟨fun hmem => ⟨List.mem_append_left _ hmem.1, hmem.2⟩, fun hmem => ?_⟩ rfl rfl
      refine ⟨(List.mem_append.mp hmem.1).resolve_right fun hp => ?_, hmem.2⟩
      exact hdelayed p hp hmem.2
  · have hsame : (serializerStopAllByCtx s t ctx).2 = s := by
      rw [serializerStopAllByCtx, if_pos ht]
    rw [hsame, or_iff_right ht]
    constructor
    · intro h
      exact ⟨fun p hp => h.gone p (List.mem_append_right _ hp),
        fun p hp => h.gone p (List.mem_append_left _ hp)⟩
    · rintro ⟨hdelayed, hwork⟩
      have hnone : ∀ p ∈ s.linked, ctx ≠ (s.work p).ctx := by
        intro p hp
        exact (List.mem_append.mp hp).elim (hwork p) (hdelayed p)
      refine ⟨hnone, ?_, ?_, fun p => ?_⟩
      · rw [List.filter_eq_self.mpr fun p hp => by simpa using hwork p hp]
      · rw [List.filter_eq_self.mpr fun p hp => by simpa using hdelayed p hp]
      · rw [if_neg fun hmem => hnone p hmem.1 hmem.2, Nat.add_zero]

/-- No work is linked twice in any run. -/
theorem linked_nodup (ops : List WorkOps) (startNow : Bool) (as : List Action) {s : WorkSerializer}
    (hrun : exec step (serializerCreate ops startNow) as = some s) : s.linked.Nodup := by
  have hinv : s.view.OrderInv (logOf ops startNow as) :=
    @exec_record _ _ step _ note (fun s log => s.view.OrderInv log) step_order _ _ _ _
      (serializerCreate_order ops startNow) hrun
  exact hinv.linked_nodup

/-- A delayed work of `ctx` 7 and two works, one of them of `ctx` 7, are submitted, and the thread
of the serializer executes the other. -/
def delayedOfCtxRun : List Action :=
  [.addDelayedWork 2 0 10 7 5 0 true, .insert 2 true 0, .execWorkAsync 2 0 11 8 true,
    .insert 2 true 0, .execWorkAsync 2 0 12 7 true, .insert 2 true 0, .workerTakes]

/-- A delayed work of `ctx` 7 and four works, two of them of `ctx` 8, are submitted, and the thread
of the serializer executes the first one. -/
def worksOfCtxRun : List Action :=
  [.addDelayedWork 2 0 10 7 5 0 true, .insert 2 true 0, .execWorkAsync 2 0 11 7 true,
    .insert 2 true 0, .execWorkAsync 2 0 12 8 true, .insert 2 true 0, .execWorkAsync 2 0 13 7 true,
    .insert 2 true 0, .execWorkAsync 2 0 14 8 true, .insert 2 true 0, .workerTakes]

/-- The work that is executed stops the two works of `ctx` 8. -/
theorem stopAllByCtx_complete_two :
    ∃ s, exec step (serializerCreate [⟨true, none⟩] true) worksOfCtxRun = some s ∧
      s.CanCall serializerThread ∧ s.workList.map (fun p => (s.work p).ctx) = [8, 7, 8] ∧
      s.StopsAll (serializerStopAllByCtx s serializerThread 8).2 8 :=
  ⟨_, rfl, by decide, rfl,
    (stopAllByCtx_complete _ serializerThread 8 (by decide)).mpr ⟨by decide, .inl rfl⟩⟩

/-- The works of `ctx` 7 are stopped, and the delayed one stays. -/
theorem delayedOfCtx_stays :
    ∃ s, exec step (serializerCreate [⟨true, none⟩] true) delayedOfCtxRun = some s ∧
      s.CanCall 0 ∧ (serializerStopAllByCtx s 0 7).1 = 0 ∧
      ¬ s.StopsAll (serializerStopAllByCtx s 0 7).2 7 := by
  refine ⟨_, rfl, by decide, rfl, fun h => ?_⟩
  exact h.gone 0 (by decide) (by decide)

end Dwpal.Serializer
