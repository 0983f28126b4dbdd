import Dwpal.Serializer.Wakeup
import Mathlib.Data.List.Sublists

/-! The order in which the thread of the serializer takes works: what a run has accepted, dispatched
and withdrawn, how the two lists are ordered by it, and which work is taken next. -/

namespace Dwpal.Serializer

open Dwpal.Machine WorkSerializer

/-- What has happened to the works of a run: those that were linked, by class and in the order in
which they were, those that the thread of the serializer has taken, and those that left their list
because they timed out or were cancelled or stopped. -/
structure Log where
  sync : List Ptr
  async : List Ptr
  delayed : List Ptr
  dispatched : List Ptr
  withdrawn : List Ptr
deriving DecidableEq, Repr

namespace Log

def empty : Log := ⟨[], [], [], [], []⟩

def accepted (log : Log) : List Ptr := log.sync ++ log.async ++ log.delayed

/-- The work `p` is linked in `state`. -/
def accept (log : Log) (p : Ptr) : WorkState → Log
  | .async => { log with async := log.async ++ [p] }
  | .delayed => { log with delayed := log.delayed ++ [p] }
  | _ => { log with sync := log.sync ++ [p] }

def dispatch (log : Log) (p : Ptr) : Log := { log with dispatched := log.dispatched ++ [p] }

def withdraw (log : Log) (ps : List Ptr) : Log := { log with withdrawn := log.withdrawn ++ ps }

end Log

/-- The linked works. -/
def WorkSerializer.linked (s : WorkSerializer) : List Ptr := s.workList ++ s.delayedWorkList

/-- What the step from `s` to `s'` adds to the log. -/
def note (s : WorkSerializer) (a : Action) (s' : WorkSerializer) (log : Log) : Log :=
  match a with
  | .insert t _ _ =>
    match s.callers t with
    | .again p _ => if p ∈ s'.linked then log.accept p (s.work p).state else log
    | _ => log
  | .workerTakes | .workerWakes _ =>
    match s'.worker with
    | .working p => log.dispatch p
    | _ => log
  | .callerWakes _ _ | .cancelDelayedWork _ _ _ _ | .stopAllByCtx _ _ =>
    log.withdraw (s.linked.filter (· ∉ s'.linked))
  | _ => log

/-- The log of a run of a new serializer. -/
def logOf (ops : List WorkOps) (startNow : Bool) (as : List Action) : Log :=
  record step note (serializerCreate ops startNow) .empty as

/-- `p` was linked before `q`, in one class. -/
def Older (accepted : List Ptr) (p q : Ptr) : Prop := [p, q].Sublist accepted

/-- `p` is due before `q`, or they are due at the same time and `p` was linked first. -/
def Earlier (work : Ptr → Work) (log : Log) (p q : Ptr) : Prop :=
  isDelayedWorkBefore (work p) (work q).ts = true ∨
    (work p).ts = (work q).ts ∧ Older log.delayed p q

/-- The two lists are ordered by what was accepted, and every accepted work is linked once, or was
dispatched once, or was withdrawn. -/
structure DispatchOrder (s : WorkSerializer) (log : Log) : Prop where
  workList : ∃ syncs asyncs, s.workList = syncs ++ asyncs ∧ syncs.Sublist log.sync ∧
    asyncs.Sublist log.async ∧ (∀ p ∈ syncs, (s.work p).state = .waitingForFinish) ∧
    ∀ p ∈ asyncs, (s.work p).state ≠ .waitingForFinish
  delayed : ∀ p ∈ s.delayedWorkList, p ∈ log.delayed
  sorted : s.delayedWorkList.Pairwise (Earlier s.work log)
  accounted : log.accepted.Perm (s.linked ++ log.dispatched ++ log.withdrawn)
  once : log.accepted.Nodup

/-- The delayed work that is due and before all others. -/
def DueFirst (s : WorkSerializer) (log : Log) (p : Ptr) : Prop :=
  p ∈ s.delayedWorkList ∧ isDelayedWorkBefore (s.work p) s.clock = true ∧
    ∀ q ∈ s.delayedWorkList, q ≠ p → Earlier s.work log p q

/-- The oldest synchronous work in the list, else the oldest asynchronous one, else the earliest
delayed work, if it is due. -/
def NextWork (s : WorkSerializer) (log : Log) (p : Ptr) : Prop :=
  match (log.sync ++ log.async).find? (· ∈ s.workList) with
  | some q => p = q
  | none => DueFirst s log p

/-- No work of the class of `p` that comes before it is left. -/
def NoneSkipped (s : WorkSerializer) (log : Log) (p : Ptr) : Prop :=
  ∀ q, Older log.sync q p ∨ Older log.async q p ∨
    q ∈ log.delayed ∧ p ∈ log.delayed ∧ Earlier s.work log q p →
      q ∈ log.dispatched ∨ q ∈ log.withdrawn

/-! The lists by themselves: what an insertion and a removal do to their order. -/

section Lists

variable {p q : Ptr} {l l' : List Ptr}

theorem Older.mono (h : Older l p q) (hsub : l.Sublist l') : Older l' p q := h.trans hsub

theorem older_append (hp : p ∈ l) : Older (l ++ [q]) p q :=
  (List.singleton_sublist.mpr hp).append (List.Sublist.refl [q])

theorem Earlier.congr {work work' : Ptr → Work} {log log' : Log}
    (hts : ∀ p, (work' p).ts = (work p).ts) (hsub : log.delayed.Sublist log'.delayed)
    (h : Earlier work log p q) : Earlier work' log' p q := by
  rcases h with hbefore | ⟨hsame, holder⟩
  · refine .inl ?_
    simpa only [isDelayedWorkBefore, hts] using hbefore
  · exact .inr ⟨by rw [hts, hts, hsame], holder.mono hsub⟩

/-- A synchronous work is inserted behind the synchronous ones. -/
theorem insertBefore_append {before : Ptr → Bool} {syncs asyncs : List Ptr}
    (hsyncs : ∀ q ∈ syncs, before q = false) (hasyncs : ∀ q ∈ asyncs, before q = true) :
    insertBefore before p (syncs ++ asyncs) = syncs ++ [p] ++ asyncs := by
  induction syncs with
  | nil =>
    cases asyncs with
    | nil => rfl
    | cons q asyncs => simp [insertBefore, hasyncs q List.mem_cons_self]
  | cons q syncs ih =>
    rw [List.forall_mem_cons] at hsyncs
    simp [insertBefore, hsyncs.1, ih hsyncs.2]

/-- No work was linked before itself, or before a work that was linked before it. -/
theorem Older.asymm (h : Older l p q) (h' : Older l q p) : ¬l.Nodup := by
  induction l with
  | nil => cases h
  | cons a l ih =>
    rw [List.nodup_cons, not_and]
    intro ha
    rcases List.sublist_cons_iff.mp h with hrest | ⟨_, hcons, hq⟩
    · rcases List.sublist_cons_iff.mp h' with hrest' | ⟨_, hcons, -⟩
      · exact ih hrest hrest'
      · cases hcons
        exact absurd (hrest.subset (by simp)) ha
    · cases hcons
      rcases List.sublist_cons_iff.mp h' with hrest' | ⟨_, hcons, -⟩
      · exact absurd (hrest'.subset (by simp)) ha
      · cases hcons
        exact absurd (hq.subset (by simp)) ha

theorem Earlier.asymm {work : Ptr → Work} {log : Log} (hnodup : log.delayed.Nodup)
    (h : Earlier work log p q) : ¬Earlier work log q p := by
  intro h'
  rw [Earlier, isDelayedWorkBefore_iff] at h h'
  rcases h with hpq | ⟨hts, holder⟩
  · rcases h' with hqp | ⟨hts, -⟩
    · omega
    · rw [hts] at hpq
      omega
  · rcases h' with hqp | ⟨-, holder'⟩
    · rw [hts] at hqp
      omega
    · exact holder.asymm holder' hnodup

/-- What is left of a list, in the order of the list. -/
theorem filter_mem_sublist (hsub : l'.Sublist l) (hnodup : l.Nodup) : l.filter (· ∈ l') = l' := by
  induction hsub with
  | slnil => rfl
  | @cons l' l a hsub ih =>
    rw [List.nodup_cons] at hnodup
    rw [List.filter_cons_of_neg (by simpa using fun ha => hnodup.1 (hsub.subset ha)),
      ih hnodup.2]
  | @cons_cons l' l a hsub ih =>
    rw [List.nodup_cons] at hnodup
    rw [List.filter_cons_of_pos (by simp)]
    congr 1
    rw [← ih hnodup.2]
    refine List.filter_congr fun b hb => ?_
    have hne : b ≠ a := fun h => hnodup.1 (h ▸ hb)
    simp [hne, ih hnodup.2]

/-- What is left of a list and what is not. -/
theorem perm_filter_sublist (hsub : l'.Sublist l) (hnodup : l.Nodup) :
    l.Perm (l' ++ l.filter (· ∉ l')) := by
  have hsplit := List.filter_append_perm (fun q => decide (q ∈ l')) l
  rw [filter_mem_sublist hsub hnodup] at hsplit
  simp only [decide_not]
  exact hsplit.symm

end Lists

namespace View

/-- The facts about the lists, and what keeps a work from being linked a second time: works that are
about to be linked are no accepted ones, and those that callers wait for or that are executed
are. -/
structure OrderInv (v : View) (log : Log) : Prop where
  workList : ∃ syncs asyncs, v.workList = syncs ++ asyncs ∧ syncs.Sublist log.sync ∧
    asyncs.Sublist log.async ∧ (∀ p ∈ syncs, (v.work p).state = .waitingForFinish) ∧
    ∀ p ∈ asyncs, (v.work p).state ≠ .waitingForFinish
  delayed : ∀ p ∈ v.delayedWorkList, p ∈ log.delayed
  sorted : v.delayedWorkList.Pairwise (Earlier v.work log)
  accounted : log.accepted.Perm
    (v.workList ++ v.delayedWorkList ++ log.dispatched ++ log.withdrawn)
  once : log.accepted.Nodup
  fresh : ∀ p ∈ log.accepted, p < v.next
  again : ∀ t p m, v.callers t = .again p m → p < v.next ∧ p ∉ log.accepted ∧
    ((v.work p).state = .async ∨ (v.work p).state = .delayed ∨
      (v.work p).state = .waitingForFinish)
  again_unique : ∀ t t' p m m', v.callers t = .again p m → v.callers t' = .again p m' → t = t'
  waiting : ∀ t p d, v.callers t = .waiting p d → p ∈ log.accepted
  executed : ∀ p, v.worker.work? = some p → p ∈ log.dispatched

/-- A step that links no work and dispatches none: the lists may lose entries, and the state of an
accepted work may change once it is not in the list. -/
structure Shrinks (v v' : View) (accepted : List Ptr) : Prop where
  workList : v'.workList.Sublist v.workList
  delayed : v'.delayedWorkList.Sublist v.delayedWorkList
  state : ∀ p, (v'.work p).state = (v.work p).state ∨ p ∉ v'.workList ∧ p ∈ accepted
  ts : ∀ p, (v'.work p).ts = (v.work p).ts
  next : v'.next = v.next
  again : ∀ t p m, v'.callers t = .again p m → v.callers t = .again p m
  waiting : ∀ t p d, v'.callers t = .waiting p d → ∃ d', v.callers t = .waiting p d'
  worker : ∀ p, v'.worker.work? = some p → v.worker.work? = some p
  working : ∀ p, v'.worker = .working p → v.worker = .working p

variable {v v' v'' : View} {log : Log} {accepted : List Ptr} {p q : Ptr} {t : Thread}

theorem Shrinks.refl (v : View) (accepted : List Ptr) : v.Shrinks v accepted where
  workList := .refl _
  delayed := .refl _
  state _ := .inl rfl
  ts _ := rfl
  next := rfl
  again _ _ _ h := h
  waiting _ _ d h := ⟨d, h⟩
  worker _ h := h
  working _ h := h

theorem Shrinks.trans (h : v.Shrinks v' accepted) (h' : v'.Shrinks v'' accepted) :
    v.Shrinks v'' accepted where
  workList := h'.workList.trans h.workList
  delayed := h'.delayed.trans h.delayed
  state p := by
    rcases h'.state p with hsame | hgone
    · rcases h.state p with hsame' | ⟨hout, hmem⟩
      · exact .inl (hsame.trans hsame')
      · exact .inr ⟨fun hin => hout (h'.workList.subset hin), hmem⟩
    · exact .inr hgone
  ts p := (h'.ts p).trans (h.ts p)
  next := h'.next.trans h.next
  again t p m hc := h.again t p m (h'.again t p m hc)
  waiting t p d hc := by
    obtain ⟨d', hc'⟩ := h'.waiting t p d hc
    exact h.waiting t p d' hc'
  worker p hp := h.worker p (h'.worker p hp)
  working p hp := h.working p (h'.working p hp)

theorem OrderInv.linked_nodup (h : v.OrderInv log) : (v.workList ++ v.delayedWorkList).Nodup :=
  (((h.accounted.nodup_iff.mp h.once).sublist (List.sublist_append_left _ _)).sublist
    (List.sublist_append_left _ _))

theorem OrderInv.mem_accepted (h : v.OrderInv log)
    (hp : p ∈ v.workList ∨ p ∈ v.delayedWorkList ∨ p ∈ log.dispatched ∨ p ∈ log.withdrawn) :
    p ∈ log.accepted := by
  rw [h.accounted.mem_iff]
  simp only [List.mem_append]
  tauto

/-- A dispatched work is not linked. -/
theorem OrderInv.not_linked (h : v.OrderInv log) (hp : p ∈ log.dispatched) :
    p ∉ v.workList ∧ p ∉ v.delayedWorkList := by
  have hnodup := h.accounted.nodup_iff.mp h.once
  rw [List.nodup_append', List.nodup_append'] at hnodup
  have hdisjoint := hnodup.1.2.2
  exact ⟨fun hin => hdisjoint (List.mem_append_left _ hin) hp,
    fun hin => hdisjoint (List.mem_append_right _ hin) hp⟩

/-- The entries that a step takes from the lists are withdrawn. -/
theorem OrderInv.shrink (h : v.OrderInv log) (hshrinks : v.Shrinks v' log.accepted) :
    v'.OrderInv (log.withdraw
      ((v.workList ++ v.delayedWorkList).filter (· ∉ v'.workList ++ v'.delayedWorkList))) where
  workList := by
    obtain ⟨syncs, asyncs, hlist, hsyncs, hasyncs, hwaiting, hnot⟩ := h.workList
    have hsub := hshrinks.workList
    rw [hlist] at hsub
    obtain ⟨syncs', asyncs', hlist', hsyncs', hasyncs'⟩ := List.sublist_append_iff.mp hsub
    refine ⟨syncs', asyncs', hlist', hsyncs'.trans hsyncs, hasyncs'.trans hasyncs, ?_, ?_⟩
    · intro p hp
      rcases hshrinks.state p with hsame | ⟨hout, -⟩
      · exact hsame.trans (hwaiting p (hsyncs'.subset hp))
      · exact absurd (hlist' ▸ List.mem_append_left _ hp) hout
    · intro p hp
      rcases hshrinks.state p with hsame | ⟨hout, -⟩
      · rw [hsame]
        exact hnot p (hasyncs'.subset hp)
      · exact absurd (hlist' ▸ List.mem_append_right _ hp) hout
  delayed p hp := h.delayed p (hshrinks.delayed.subset hp)
  sorted := (h.sorted.sublist hshrinks.delayed).imp fun hearlier =>
    hearlier.congr hshrinks.ts (.refl _)
  accounted := by
    have hsub := hshrinks.workList.append hshrinks.delayed
    have hperm := perm_filter_sublist hsub h.linked_nodup
    refine h.accounted.trans ?_
    refine ((hperm.append_right _).append_right _).trans ?_
    simp only [Log.withdraw, List.append_assoc]
    refine List.Perm.append_left _ (List.Perm.append_left _ ?_)
    rw [← List.append_assoc log.dispatched]
    exact List.perm_append_comm
  once := h.once
  fresh p hp := hshrinks.next ▸ h.fresh p hp
  again t p m hc := by
    obtain ⟨hlt, hnot, hstate⟩ := h.again t p m (hshrinks.again t p m hc)
    have hsame := (hshrinks.state p).resolve_right fun hgone => hnot hgone.2
    rw [hshrinks.next, hsame]
    exact ⟨hlt, hnot, hstate⟩
  again_unique t t' p m m' hc hc' :=
    h.again_unique t t' p m m' (hshrinks.again t p m hc) (hshrinks.again t' p m' hc')
  waiting t p d hc := by
    obtain ⟨d', hc'⟩ := hshrinks.waiting t p d hc
    exact h.waiting t p d' hc'
  executed p hp := h.executed p (hshrinks.worker p hp)

/-- Thread `t` leaves `again` with its work `p` linked. -/
structure Links (v v' : View) (t : Thread) (p : Ptr) : Prop where
  start : ∃ m, v.callers t = .again p m
  work : v'.work = v.work
  next : v'.next = v.next
  others : ∀ t', t' ≠ t → v'.callers t' = v.callers t'
  caller : v'.callers t = .idle ∨ ∃ d, v'.callers t = .waiting p d
  worker : ∀ q, v'.worker.work? = some q → v.worker.work? = some q

theorem Links.again (h : v.Links v' t p) {t' : Thread} {m : UInt32}
    (hc : v'.callers t' = .again q m) : v.callers t' = .again q m ∧ t' ≠ t := by
  by_cases ht : t' = t
  · subst ht
    rcases h.caller with hidle | ⟨d, hwait⟩
    · cases hidle.symm.trans hc
    · cases hwait.symm.trans hc
  · exact ⟨(h.others t' ht).symm.trans hc, ht⟩

/-- The lists and the log gain the work `p`, and are still in order. -/
theorem OrderInv.link {log' : Log} (h : v.OrderInv log) (hlinks : v.Links v' t p)
    (haccepted : log'.accepted.Perm (p :: log.accepted))
    (hlinked : (v'.workList ++ v'.delayedWorkList).Perm (p :: (v.workList ++ v.delayedWorkList)))
    (hdispatched : log'.dispatched = log.dispatched) (hwithdrawn : log'.withdrawn = log.withdrawn)
    (hwork : ∃ syncs asyncs, v'.workList = syncs ++ asyncs ∧ syncs.Sublist log'.sync ∧
      asyncs.Sublist log'.async ∧ (∀ p ∈ syncs, (v'.work p).state = .waitingForFinish) ∧
      ∀ p ∈ asyncs, (v'.work p).state ≠ .waitingForFinish)
    (hdelayed : ∀ p ∈ v'.delayedWorkList, p ∈ log'.delayed)
    (hsorted : v'.delayedWorkList.Pairwise (Earlier v'.work log')) : v'.OrderInv log' where
  workList := hwork
  delayed := hdelayed
  sorted := hsorted
  accounted := by
    rw [hdispatched, hwithdrawn]
    refine haccepted.trans ((h.accounted.cons p).trans ?_)
    exact ((hlinked.append_right _).append_right _).symm
  once := by
    obtain ⟨m, hc⟩ := hlinks.start
    obtain ⟨-, hnot, -⟩ := h.again t p m hc
    rw [haccepted.nodup_iff]
    exact List.nodup_cons.mpr ⟨hnot, h.once⟩
  fresh q hq := by
    obtain ⟨m, hc⟩ := hlinks.start
    rw [hlinks.next]
    rcases List.mem_cons.mp (haccepted.mem_iff.mp hq) with rfl | hq
    · exact (h.again t q m hc).1
    · exact h.fresh q hq
  again t' q m hc := by
    obtain ⟨m', hp⟩ := hlinks.start
    obtain ⟨hold, hne⟩ := hlinks.again hc
    obtain ⟨hlt, hnot, hstate⟩ := h.again t' q m hold
    rw [hlinks.next, hlinks.work]
    refine ⟨hlt, fun hq => ?_, hstate⟩
    rcases List.mem_cons.mp (haccepted.mem_iff.mp hq) with rfl | hq
    · exact hne (h.again_unique t' t q m m' hold hp)
    · exact hnot hq
  again_unique t' t'' q m m' hc hc' :=
    h.again_unique t' t'' q m m' (hlinks.again hc).1 (hlinks.again hc').1
  waiting t' q d hc := by
    rw [haccepted.mem_iff, List.mem_cons]
    by_cases ht : t' = t
    · subst ht
      rcases hlinks.caller with hidle | ⟨d', hwait⟩
      · cases hidle.symm.trans hc
      · cases hwait.symm.trans hc
        exact .inl rfl
    · exact .inr (h.waiting t' q d ((hlinks.others t' ht).symm.trans hc))
  executed q hq := by
    rw [hdispatched]
    exact h.executed q (hlinks.worker q hq)

theorem accepted_accept (log : Log) (p : Ptr) (state : WorkState) :
    (log.accept p state).accepted.Perm (p :: log.accepted) := by
  have hmiddle : ∀ xs ys : List Ptr, (xs ++ [p] ++ ys).Perm (p :: (xs ++ ys)) := fun xs ys => by
    rw [List.append_assoc, List.singleton_append]
    exact List.perm_middle
  cases state with
  | async =>
    have := hmiddle (log.sync ++ log.async) log.delayed
    simpa only [Log.accept, Log.accepted, List.append_assoc] using this
  | delayed =>
    have := hmiddle (log.sync ++ log.async ++ log.delayed) []
    simpa only [Log.accept, Log.accepted, List.append_assoc, List.append_nil] using this
  | waitingForFinish | done | abandoned | aborted =>
    have := hmiddle log.sync (log.async ++ log.delayed)
    simpa only [Log.accept, Log.accepted, List.append_assoc] using this

theorem OrderInv.linkAsync (h : v.OrderInv log) (hlinks : v.Links v' t p)
    (hwork : v'.workList = v.workList ++ [p]) (hdelayed : v'.delayedWorkList = v.delayedWorkList)
    (hst : (v.work p).state = .async) : v'.OrderInv (log.accept p .async) := by
  obtain ⟨syncs, asyncs, hlist, hsyncs, hasyncs, hwaiting, hnot⟩ := h.workList
  refine h.link hlinks (accepted_accept log p .async) ?_ rfl rfl ?_ ?_ ?_
  · rw [hwork, hdelayed, List.append_assoc, List.singleton_append]
    exact List.perm_middle
  · refine ⟨syncs, asyncs ++ [p], by rw [hwork, hlist, List.append_assoc], hsyncs,
      hasyncs.append (.refl _), hlinks.work ▸ hwaiting, ?_⟩
    intro q hq
    rw [hlinks.work]
    rcases List.mem_append.mp hq with hq | hq
    · exact hnot q hq
    · rw [List.mem_singleton.mp hq, hst]
      decide
  · rw [hdelayed]
    exact h.delayed
  · rw [hdelayed, hlinks.work]
    exact h.sorted

theorem OrderInv.linkSync (h : v.OrderInv log) (hlinks : v.Links v' t p)
    (hwork : v'.workList =
      insertBefore (fun q => decide ((v.work q).state ≠ .waitingForFinish)) p v.workList)
    (hdelayed : v'.delayedWorkList = v.delayedWorkList)
    (hst : (v.work p).state = .waitingForFinish) :
    v'.OrderInv (log.accept p .waitingForFinish) := by
  obtain ⟨syncs, asyncs, hlist, hsyncs, hasyncs, hwaiting, hnot⟩ := h.workList
  refine h.link hlinks (accepted_accept log p .waitingForFinish) ?_ rfl rfl ?_ ?_ ?_
  · rw [hwork, hdelayed]
    exact (insertBefore_perm _ p _).append_right _
  · refine ⟨syncs ++ [p], asyncs, ?_, hsyncs.append (.refl _), hasyncs, ?_, hlinks.work ▸ hnot⟩
    · rw [hwork, hlist]
      apply insertBefore_append
      · exact fun q hq => by simp [hwaiting q hq]
      · exact fun q hq => by simp [hnot q hq]
    · intro q hq
      rw [hlinks.work]
      rcases List.mem_append.mp hq with hq | hq
      · exact hwaiting q hq
      · rw [List.mem_singleton.mp hq, hst]
  · rw [hdelayed]
    exact h.delayed
  · rw [hdelayed, hlinks.work]
    exact h.sorted

/-- The delayed list stays in order when a work is put before the first one that is due later. -/
theorem insertBefore_earlier {work : Ptr → Work} {log' : Log}
    (hlater : ∀ q ∈ log.delayed, Older log'.delayed q p)
    (hsub : log.delayed.Sublist log'.delayed) : ∀ {l : List Ptr},
      (∀ q ∈ l, q ∈ log.delayed) → l.Pairwise (Earlier work log) →
      (insertBefore (fun q => isDelayedWorkBefore (work p) (work q).ts) p l).Pairwise
        (Earlier work log')
  | [], _, _ => List.pairwise_singleton _ p
  | q :: l, hmem, hl => by
    rw [List.forall_mem_cons] at hmem
    obtain ⟨hq, hrest⟩ := List.pairwise_cons.mp hl
    have hgrown : l.Pairwise (Earlier work log') :=
      hrest.imp fun hearlier => hearlier.congr (fun _ => rfl) hsub
    have hq' : ∀ r ∈ l, Earlier work log' q r := fun r hr =>
      (hq r hr).congr (fun _ => rfl) hsub
    unfold insertBefore
    split
    · next hbefore =>
      refine List.pairwise_cons.mpr ⟨?_, List.pairwise_cons.mpr ⟨hq', hgrown⟩⟩
      rw [List.forall_mem_cons]
      refine ⟨.inl hbefore, fun r hr => ?_⟩
      left
      rw [isDelayedWorkBefore_iff] at hbefore ⊢
      rcases hq r hr with hqr | ⟨hts, -⟩
      · rw [isDelayedWorkBefore_iff] at hqr
        omega
      · rw [← hts]
        exact hbefore
    · next hbefore =>
      refine List.pairwise_cons.mpr ⟨fun r hr => ?_, insertBefore_earlier hlater hsub hmem.2 hrest⟩
      rcases List.mem_cons.mp ((insertBefore_perm _ p l).mem_iff.mp hr) with rfl | hr
      · rw [Bool.not_eq_true, isDelayedWorkBefore_eq_false] at hbefore
        rw [Earlier, isDelayedWorkBefore_iff]
        by_cases hts : (work q).ts = (work r).ts
        · exact .inr ⟨hts, hlater q hmem.1⟩
        · left
          have hne : (work q).ts.tvSec ≠ (work r).ts.tvSec ∨
              (work q).ts.tvNsec ≠ (work r).ts.tvNsec := by
            by_contra hsame
            rw [not_or, not_not, not_not] at hsame
            cases hwq : (work q).ts
            cases hwr : (work r).ts
            simp_all
          omega
      · exact hq' r hr

theorem OrderInv.linkDelayed (h : v.OrderInv log) (hlinks : v.Links v' t p)
    (hwork : v'.workList = v.workList)
    (hdelayed : v'.delayedWorkList =
      insertBefore (fun q => isDelayedWorkBefore (v.work p) (v.work q).ts) p v.delayedWorkList) :
    v'.OrderInv (log.accept p .delayed) := by
  refine h.link hlinks (accepted_accept log p .delayed) ?_ rfl rfl ?_ ?_ ?_
  · rw [hwork, hdelayed]
    exact ((insertBefore_perm _ p _).append_left _).trans List.perm_middle
  · rw [hwork, hlinks.work]
    exact h.workList
  · intro q hq
    rw [hdelayed, (insertBefore_perm _ p _).mem_iff] at hq
    rcases List.mem_cons.mp hq with rfl | hq
    · exact List.mem_append_right _ List.mem_cons_self
    · exact List.mem_append_left _ (h.delayed q hq)
  · rw [hdelayed, hlinks.work]
    exact insertBefore_earlier (fun q hq => older_append hq) (List.sublist_append_left _ _)
      h.delayed h.sorted

theorem OrderInv.quiet (h : v.OrderInv log) (hshrinks : v.Shrinks v' log.accepted)
    (hwork : v'.workList = v.workList) (hdelayed : v'.delayedWorkList = v.delayedWorkList) :
    v'.OrderInv log := by
  have hnone : (v.workList ++ v.delayedWorkList).filter
      (· ∉ v'.workList ++ v'.delayedWorkList) = [] := by
    rw [hwork, hdelayed, List.filter_eq_nil_iff]
    intro p hp
    rw [decide_eq_true_eq, not_not]
    exact hp
  have := h.shrink hshrinks
  rw [hnone] at this
  simpa [Log.withdraw] using this

/-- The thread of the serializer takes the first work of one of the lists. -/
theorem OrderInv.take {work delayed : List Ptr} (h : v.OrderInv log)
    (hwork : work.Sublist v.workList) (hdelayed : delayed.Sublist v.delayedWorkList)
    (htaken : (v.workList ++ v.delayedWorkList).Perm (p :: (work ++ delayed))) :
    { v with workList := work, delayedWorkList := delayed, worker := .working p }.OrderInv
      (log.dispatch p) where
  workList := by
    obtain ⟨syncs, asyncs, hlist, hsyncs, hasyncs, hwaiting, hnot⟩ := h.workList
    rw [hlist] at hwork
    obtain ⟨syncs', asyncs', hlist', hsyncs', hasyncs'⟩ := List.sublist_append_iff.mp hwork
    exact ⟨syncs', asyncs', hlist', hsyncs'.trans hsyncs, hasyncs'.trans hasyncs,
      fun q hq => hwaiting q (hsyncs'.subset hq), fun q hq => hnot q (hasyncs'.subset hq)⟩
  delayed q hq := h.delayed q (hdelayed.subset hq)
  sorted := h.sorted.sublist hdelayed
  accounted := by
    refine h.accounted.trans (((htaken.append_right _).append_right _).trans ?_)
    simp only [Log.dispatch, List.append_assoc, List.cons_append, List.nil_append]
    simp only [← List.append_assoc]
    exact List.perm_middle.symm
  once := h.once
  fresh := h.fresh
  again := h.again
  again_unique := h.again_unique
  waiting := h.waiting
  executed q hq := by
    cases hq
    exact List.mem_append_right _ List.mem_cons_self

end View

section Steps

variable {s s' : WorkSerializer} {log : Log} {t : Thread} {p : Ptr} {accepted : List Ptr}

theorem shrinks_callers {v : View} {ph : CallPhase} (ws : List Thread)
    (hagain : ∀ p m, ph ≠ .again p m)
    (hwaiting : ∀ p d, ph = .waiting p d → ∃ d', v.callers t = .waiting p d') :
    v.Shrinks { v with condWaiters := ws, callers := Function.update v.callers t ph }
      accepted where
  workList := .refl _
  delayed := .refl _
  state _ := .inl rfl
  ts _ := rfl
  next := rfl
  again t' p m hc := by
    by_cases ht : t' = t
    · subst ht
      replace hc : Function.update v.callers t' ph t' = .again p m := hc
      rw [Function.update_self] at hc
      exact absurd hc (hagain p m)
    · replace hc : Function.update v.callers t ph t' = .again p m := hc
      rwa [Function.update_of_ne ht] at hc
  waiting t' p d hc := by
    by_cases ht : t' = t
    · subst ht
      replace hc : Function.update v.callers t' ph t' = .waiting p d := hc
      rw [Function.update_self] at hc
      exact hwaiting p d hc
    · replace hc : Function.update v.callers t ph t' = .waiting p d := hc
      rw [Function.update_of_ne ht] at hc
      exact ⟨d, hc⟩
  worker _ h := h
  working _ h := h

theorem shrinks_lists {v : View} {work delayed : List Ptr} (ws : List Thread)
    (hwork : work.Sublist v.workList) (hdelayed : delayed.Sublist v.delayedWorkList) :
    v.Shrinks { v with workList := work, delayedWorkList := delayed, condWaiters := ws }
      accepted where
  workList := hwork
  delayed := hdelayed
  state _ := .inl rfl
  ts _ := rfl
  next := rfl
  again _ _ _ h := h
  waiting _ _ d h := ⟨d, h⟩
  worker _ h := h
  working _ h := h

/-- The state of an accepted work that is not linked is set. -/
theorem shrinks_setState {v : View} (st : WorkState) (r : Int) {work : List Ptr}
    (hsub : work.Sublist v.workList) (hp : p ∉ work) (hmem : p ∈ accepted) :
    v.Shrinks { v with
      workList := work
      work := Function.update v.work p { v.work p with state := st, result := r } } accepted where
  workList := hsub
  delayed := .refl _
  state q := by
    by_cases hq : q = p
    · subst hq
      exact .inr ⟨hp, hmem⟩
    · left
      show (Function.update v.work p _ q).state = _
      rw [Function.update_of_ne hq]
  ts q := by
    show (Function.update v.work p _ q).ts = _
    by_cases hq : q = p
    · subst hq
      rw [Function.update_self]
    · rw [Function.update_of_ne hq]
  next := rfl
  again _ _ _ h := h
  waiting _ _ d h := ⟨d, h⟩
  worker _ h := h
  working _ h := h

theorem callerWakes_shrinks {cw : CwRes} (hp : p ∈ accepted) :
    s.view.Shrinks (callerWakes s t p cw).view accepted := by
  have hleave : ∀ {v : View} {ws : List Thread} {abandoned : Bool},
      v.Shrinks { v with
        condWaiters := ws
        callers := Function.update v.callers t (.unlocked p abandoned) } accepted :=
    shrinks_callers _ nofun nofun
  unfold callerWakes
  simp only
  split_ifs with hst hok hin
  · exact shrinks_lists (v := s.view) _ (.refl _) (.refl _)
  · exact (shrinks_lists (v := s.view) s.condWaiters List.erase_sublist (.refl _)).trans hleave
  · have hset := shrinks_setState (v := s.view) .abandoned (s.work p).result
      (.refl _) hin hp
    rw [view_setCaller, view_setState]
    exact hset.trans hleave
  · exact hleave

theorem stopWork_shrinks (hnodup : s.workList.Nodup) (hp : p ∈ accepted) :
    s.view.Shrinks (stopWork s p).view accepted := by
  have hout : p ∉ s.workList.erase p := fun hin => ((hnodup.mem_erase_iff).mp hin).1 rfl
  rw [view_stopWork]
  split
  · exact shrinks_setState (v := s.view) .aborted (s.work p).result
      List.erase_sublist hout hp
  · exact shrinks_lists (v := s.view) s.condWaiters List.erase_sublist (.refl _)

theorem stopLoop_shrinks (ctx : Nat) {l : List Ptr} {acc : WorkSerializer × Bool}
    (hnodup : acc.1.workList.Nodup) (hl : ∀ p ∈ l, p ∈ accepted) :
    acc.1.view.Shrinks (l.foldl (stopEntry ctx) acc).1.view accepted := by
  induction l generalizing acc with
  | nil => exact .refl _ _
  | cons p l ih =>
    rw [List.forall_mem_cons] at hl
    have hentry : acc.1.view.Shrinks (stopEntry ctx acc p).1.view accepted := by
      unfold stopEntry
      simp only
      split
      · exact stopWork_shrinks (s := acc.1.touch [p]) hnodup hl.1
      · exact .refl acc.1.view accepted
    exact hentry.trans (ih (hnodup.sublist hentry.workList) hl.2)

theorem serializerStopAllByCtx_shrinks {ctx : Nat} (hnodup : s.workList.Nodup)
    (hmem : ∀ p ∈ s.workList, p ∈ accepted) :
    s.view.Shrinks (serializerStopAllByCtx s t ctx).2.view accepted := by
  have hfirst := stopLoop_shrinks ctx (show (s, false).1.workList.Nodup from hnodup) hmem
  have hsecond := stopLoop_shrinks ctx (hnodup.sublist hfirst.workList) fun p hp =>
    hmem p (hfirst.workList.subset hp)
  have hboth := hfirst.trans hsecond
  unfold serializerStopAllByCtx
  split
  · exact .refl _ _
  · simp only
    split
    · exact hboth.trans (shrinks_lists (v := View.mk _ _ _ _ _ _ _ _) [] (.refl _) (.refl _))
    · exact hboth

theorem serializerCancelDelayedWork_shrinks {id key ctx : Nat} :
    s.view.Shrinks (serializerCancelDelayedWork s t id key ctx).2.view accepted := by
  have hloop : ∀ (l : List Ptr) (s : WorkSerializer),
      s.view.Shrinks (l.foldl (cancelEntry id key ctx) s).view accepted := by
    intro l
    induction l with
    | nil => exact fun s => .refl _ _
    | cons p l ih =>
      intro s
      have hentry : s.view.Shrinks (cancelEntry id key ctx s p).view accepted := by
        unfold cancelEntry
        simp only
        split
        · rw [view_free, view_settle, view_callFreeFunc]
          exact shrinks_lists (v := s.view) s.condWaiters (.refl _) List.erase_sublist
        · exact .refl s.view accepted
      exact hentry.trans (ih _)
  unfold serializerCancelDelayedWork
  split_ifs
  · exact .refl _ _
  · exact .refl _ _
  · exact hloop _ s

theorem linked_view (s : WorkSerializer) :
    s.linked = s.view.workList ++ s.view.delayedWorkList := rfl

theorem insertWork_order {tmo : UInt32} {nodeOk : Bool} {woken : Thread}
    (h : s.view.OrderInv log) (hc : s.callers t = .again p tmo) :
    (insertWork s t p tmo nodeOk woken).view.OrderInv
      (note s (.insert t nodeOk woken) (insertWork s t p tmo nodeOk woken) log) := by
  obtain ⟨-, hnew, hstate⟩ := h.again t p tmo hc
  have hunlinked : p ∉ s.linked := fun hin => hnew
    (h.mem_accepted ((List.mem_append.mp hin).imp_right .inl))
  have hnote : ∀ s', note s (.insert t nodeOk woken) s' log =
      if p ∈ s'.linked then log.accept p (s.work p).state else log := by
    intro s'
    simp only [note, hc]
  have hrefused : ((s.touch [p]).setCaller t (.insertErr p)).view.OrderInv log :=
    h.quiet (shrinks_callers (v := s.view) s.condWaiters nofun nofun) rfl rfl
  have hsignal : ∀ q, (s.view.signal woken).worker.work? = some q → s.worker.work? = some q := by
    intro q hq
    simp only [View.signal] at hq
    split at hq
    · cases hq
    · exact hq
  have hlinks : ∀ (ph : CallPhase) (work delayed : List Ptr) (ws : List Thread),
      ph = .idle ∨ (∃ d, ph = .waiting p d) →
      s.view.Links { s.view.signal woken with
        workList := work
        delayedWorkList := delayed
        condWaiters := ws
        callers := Function.update s.callers t ph } t p := by
    intro ph work delayed ws hph
    refine ⟨⟨tmo, hc⟩, rfl, rfl, ?_, ?_, hsignal⟩
    · exact fun t' ht => Function.update_of_ne ht ph s.callers
    · show Function.update s.callers t ph t = _ ∨ ∃ d, Function.update s.callers t ph t = _
      rw [Function.update_self]
      exact hph
  rw [hnote]
  rcases hstate with hst | hst | hst
  · have hst' : ((s.touch [p]).work p).state = .async := hst
    simp only [insertWork, hst']
    split_ifs with hfull hin hnode hin hin
    · exact absurd hin hunlinked
    · exact h
    · exact absurd hin hunlinked
    · exact hrefused
    · rw [show (s.work p).state = .async from hst, view_callReturns, view_startOrSignal]
      exact h.linkAsync (hlinks .idle _ _ _ (.inl rfl)) rfl rfl hst
    · rw [linked_view, view_callReturns, view_startOrSignal] at hin
      exact absurd (List.mem_append_left _ (List.mem_append_right _ List.mem_cons_self)) hin
  · have hst' : ((s.touch [p]).work p).state = .delayed := hst
    simp only [insertWork, hst']
    split_ifs with hfull hin hnode hin hin
    · exact absurd hin hunlinked
    · exact h
    · exact absurd hin hunlinked
    · exact hrefused
    · rw [show (s.work p).state = .delayed from hst, view_callReturns, view_startOrSignal]
      exact h.linkDelayed (hlinks .idle _ _ _ (.inl rfl)) rfl rfl
    · rw [linked_view, view_callReturns, view_startOrSignal] at hin
      exact absurd (List.mem_append_right _
        ((insertBefore_perm _ p _).mem_iff.mpr List.mem_cons_self)) hin
  · have hst' : ((s.touch [p]).work p).state = .waitingForFinish := hst
    simp only [insertWork, hst']
    split_ifs with hnode hin hin
    · exact absurd hin hunlinked
    · exact hrefused
    · rw [show (s.work p).state = .waitingForFinish from hst, view_condBlock, view_setCaller,
        view_startOrSignal]
      exact h.linkSync (hlinks (.waiting p _) _ _ _ (.inr ⟨_, rfl⟩)) rfl rfl hst
    · rw [linked_view, view_condBlock, view_setCaller, view_startOrSignal] at hin
      exact absurd (List.mem_append_left _
        ((insertBefore_perm _ p _).mem_iff.mpr List.mem_cons_self)) hin

/-- The steps of the thread of the serializer that look at the lists. -/
def Action.Looks : Action → Prop
  | .workerTakes | .workerWakes .ok => True
  | _ => False

theorem View.OrderInv.works_nodup {v : View} (h : v.OrderInv log) :
    (log.sync ++ log.async).Nodup ∧ log.delayed.Nodup ∧
      ∀ p ∈ log.sync ++ log.async, p ∉ log.delayed := by
  have hnodup := h.once
  rw [Log.accepted, List.nodup_append'] at hnodup
  exact ⟨hnodup.1, hnodup.2.1, fun p hp hd => hnodup.2.2 hp hd⟩

/-- The list holds what is left of the synchronous and then of the asynchronous works. -/
theorem filter_works (h : s.view.OrderInv log) :
    (log.sync ++ log.async).filter (· ∈ s.workList) = s.workList := by
  obtain ⟨syncs, asyncs, hlist, hsyncs, hasyncs, -, -⟩ := h.workList
  have hsub : s.workList.Sublist (log.sync ++ log.async) := by
    rw [show s.workList = syncs ++ asyncs from hlist]
    exact hsyncs.append hasyncs
  exact filter_mem_sublist hsub h.works_nodup.1

theorem find_works (h : s.view.OrderInv log) :
    (log.sync ++ log.async).find? (· ∈ s.workList) = s.workList.head? := by
  rw [← List.head?_filter, filter_works h]

theorem nextWork_cons {rest : List Ptr} (h : s.view.OrderInv log) (hl : s.workList = p :: rest)
    (q : Ptr) : NextWork s log q ↔ q = p := by
  simp only [NextWork, find_works h]
  rw [hl, List.head?_cons]

theorem nextWork_nil (h : s.view.OrderInv log) (hl : s.workList = []) (q : Ptr) :
    NextWork s log q ↔ DueFirst s log q := by
  simp only [NextWork, find_works h]
  rw [hl, List.head?_nil]

theorem workerTakes_order (h : s.view.OrderInv log) :
    (workerTakes s).view.OrderInv (note s .workerTakes (workerTakes s) log) ∧
      ∀ p, (workerTakes s).worker = .working p ↔ NextWork s log p := by
  have hwaits : ∀ (deadline : Timespec) (faults : List Fault) (s' : WorkSerializer),
      s' = { s with
        worker := .waiting deadline
        faults := faults }.condBlock serializerThread →
      (∀ p, ¬DueFirst s log p) → s.workList = [] →
      s'.view.OrderInv (note s .workerTakes s' log) ∧
        ∀ p, s'.worker = .working p ↔ NextWork s log p := by
    rintro deadline faults s' rfl hnone hl
    refine ⟨?_, fun p => ?_⟩
    · refine h.quiet { View.Shrinks.refl s.view log.accepted with
        worker := nofun, working := nofun } rfl rfl
    · rw [nextWork_nil h hl]
      exact iff_of_false nofun (hnone p)
  have hsorted : s.delayedWorkList.Pairwise (Earlier s.work log) := h.sorted
  unfold workerTakes
  split
  · next p rest hl =>
    refine ⟨?_, fun q => ?_⟩
    · refine h.take ?_ (.refl _) ?_
      · show rest.Sublist s.workList
        rw [hl]
        exact List.sublist_cons_self p rest
      · show (s.workList ++ _).Perm _
        rw [hl]
        exact .refl _
    · rw [nextWork_cons h hl, WorkerPhase.working.injEq, eq_comm]
  · next hl =>
    simp only
    split
    · next hd =>
      refine hwaits _ _ _ rfl (fun p hp => ?_) hl
      rw [DueFirst, hd] at hp
      exact absurd hp.1 List.not_mem_nil
    · next p rest hd =>
      rw [hd] at hsorted
      obtain ⟨hfirst, -⟩ := List.pairwise_cons.mp hsorted
      have hlate : isDelayedWorkBefore (s.work p) s.clock = false → ∀ q, ¬DueFirst s log q := by
        rintro hp q ⟨hq, hdue, -⟩
        rw [hd] at hq
        rcases List.mem_cons.mp hq with rfl | hq
        · cases hp.symm.trans hdue
        · rw [isDelayedWorkBefore_eq_false] at hp
          rw [isDelayedWorkBefore_iff] at hdue
          rcases hfirst q hq with hbefore | ⟨hts, -⟩
          · rw [isDelayedWorkBefore_iff] at hbefore
            omega
          · rw [← hts] at hdue
            omega
      split_ifs with hbefore hsec
      · refine ⟨?_, fun q => ?_⟩
        · refine h.take (.refl _) ?_ ?_
          · show rest.Sublist s.delayedWorkList
            rw [hd]
            exact List.sublist_cons_self p rest
          · show (_ ++ s.delayedWorkList).Perm _
            rw [hd]
            exact List.perm_middle
        · rw [nextWork_nil h hl, WorkerPhase.working.injEq]
          constructor
          · rintro rfl
            refine ⟨hd ▸ List.mem_cons_self, hbefore, fun r hr hne => ?_⟩
            rw [hd] at hr
            exact hfirst r ((List.mem_cons.mp hr).resolve_left hne)
          · rintro ⟨hq, -, hfirst'⟩
            by_contra hne
            rw [hd] at hq
            have hpq := hfirst q ((List.mem_cons.mp hq).resolve_left fun he => hne he.symm)
            exact hpq.asymm h.works_nodup.2.1 (hfirst' p (hd ▸ List.mem_cons_self) hne)
      · exact hwaits _ _ _ rfl (hlate (Bool.eq_false_iff.mpr hbefore)) hl
      · exact hwaits _ _ _ rfl (hlate (Bool.eq_false_iff.mpr hbefore)) hl

/-- The work that is taken next leaves none behind that comes before it. -/
theorem noneSkipped (h : s.view.OrderInv log) (hnext : NextWork s log p) : NoneSkipped s log p := by
  obtain ⟨hnodup, hdelayed, hdisjoint⟩ := h.works_nodup
  intro q hq
  have hplace : ∀ q ∈ log.accepted, q ∈ s.workList ∨ q ∈ s.delayedWorkList ∨
      q ∈ log.dispatched ∨ q ∈ log.withdrawn := by
    intro q hq
    have hmem : q ∈ s.workList ++ s.delayedWorkList ++ log.dispatched ++ log.withdrawn :=
      h.accounted.mem_iff.mp hq
    simp only [List.mem_append] at hmem
    tauto
  have hwork : ∀ q ∈ s.workList, q ∈ log.sync ++ log.async := by
    intro q hq
    rw [← filter_works h] at hq
    exact List.mem_of_mem_filter hq
  by_cases hclass : Older (log.sync ++ log.async) q p
  · have hmem : q ∈ log.sync ++ log.async := hclass.subset (by simp)
    rcases hplace q (List.mem_append_left _ hmem) with hlinked | hlinked | hgone
    · obtain ⟨first, rest, hl⟩ := List.exists_cons_of_ne_nil (List.ne_nil_of_mem hlinked)
      have hp : p = first := (nextWork_cons h hl p).mp hnext
      subst hp
      have hpair : [q, p].Sublist s.workList := by
        have hfilter := hclass.filter (· ∈ s.workList)
        have hboth : [q, p].filter (· ∈ s.workList) = [q, p] := by
          have hp : p ∈ s.workList := hl ▸ List.mem_cons_self
          simp [hlinked, hp]
        rwa [filter_works h, hboth] at hfilter
      have hlistNodup : s.workList.Nodup := by
        rw [← filter_works h]
        exact hnodup.filter _
      rw [hl] at hpair hlistNodup
      rw [List.nodup_cons] at hlistNodup
      rcases List.sublist_cons_iff.mp hpair with hrest | ⟨_, hcons, hrest⟩
      · exact absurd (hrest.subset (by simp)) hlistNodup.1
      · cases hcons
        exact absurd (hrest.subset (by simp)) hlistNodup.1
    · exact absurd (h.delayed q hlinked) (hdisjoint q hmem)
    · exact hgone
  · have hearlier : q ∈ log.delayed ∧ p ∈ log.delayed ∧ Earlier s.work log q p := by
      rcases hq with hsync | hasync | hearlier
      · exact absurd (hsync.mono (List.sublist_append_left _ _)) hclass
      · exact absurd (hasync.mono (List.sublist_append_right _ _)) hclass
      · exact hearlier
    obtain ⟨hq, hp, hearlier⟩ := hearlier
    rcases hplace q (List.mem_append_right _ hq) with hlinked | hlinked | hgone
    · exact absurd hq (hdisjoint q (hwork q hlinked))
    · cases hl : s.workList with
      | nil =>
        obtain ⟨-, -, hfirst⟩ := (nextWork_nil h hl p).mp hnext
        have hself : q ≠ p := by
          rintro rfl
          exact hearlier.asymm hdelayed hearlier
        exact absurd hearlier ((hfirst q hlinked hself).asymm hdelayed)
      | cons first rest =>
        have hp' : p = first := (nextWork_cons h hl p).mp hnext
        subst hp'
        exact absurd hp (hdisjoint p (hwork p (hl ▸ List.mem_cons_self)))
    · exact hgone

theorem View.OrderInv.create {v : View} {work : Work} (h : v.OrderInv log)
    (hst : work.state = .async ∨ work.state = .delayed ∨ work.state = .waitingForFinish)
    (tmo : UInt32) :
    { v with
      next := v.next + 1
      work := Function.update v.work v.next work
      callers := Function.update v.callers t (.again v.next tmo) }.OrderInv log := by
  have hold : ∀ p ∈ log.accepted, Function.update v.work v.next work p = v.work p := fun p hp =>
    Function.update_of_ne (Nat.ne_of_lt (h.fresh p hp)) work v.work
  have hnew : v.next ∉ log.accepted := fun hmem => Nat.lt_irrefl _ (h.fresh _ hmem)
  have hcaller : ∀ {t' p m}, Function.update v.callers t (.again v.next tmo) t' = .again p m →
      t' = t ∧ p = v.next ∨ t' ≠ t ∧ v.callers t' = .again p m := by
    intro t' p m hc
    rcases View.callers_cases hc with ⟨rfl, hph⟩ | ⟨hne, hph⟩
    · cases hph
      exact .inl ⟨rfl, rfl⟩
    · exact .inr ⟨hne, hph⟩
  obtain ⟨syncs, asyncs, hlist, hsyncs, hasyncs, hwaiting, hnot⟩ := h.workList
  refine ⟨⟨syncs, asyncs, hlist, hsyncs, hasyncs, fun p hp => ?_, fun p hp => ?_⟩, h.delayed, ?_,
    h.accounted, h.once, fun p hp => Nat.lt_succ_of_lt (h.fresh p hp), ?_, ?_, ?_, h.executed⟩
  · show (Function.update v.work v.next work p).state = _
    rw [hold p (h.mem_accepted (.inl (hlist ▸ List.mem_append_left _ hp)))]
    exact hwaiting p hp
  · show (Function.update v.work v.next work p).state ≠ _
    rw [hold p (h.mem_accepted (.inl (hlist ▸ List.mem_append_right _ hp)))]
    exact hnot p hp
  · refine h.sorted.imp_of_mem fun {p q} hp hq hearlier => ?_
    show Earlier (Function.update v.work v.next work) log p q
    rw [Earlier, hold p (h.mem_accepted (.inr (.inl hp))),
      hold q (h.mem_accepted (.inr (.inl hq)))]
    exact hearlier
  · intro t' p m hc
    rcases hcaller hc with ⟨-, rfl⟩ | ⟨-, hc⟩
    · refine ⟨Nat.lt_succ_self _, hnew, ?_⟩
      simp only [Function.update_self]
      exact hst
    · obtain ⟨hlt, hout, hstate⟩ := h.again t' p m hc
      refine ⟨Nat.lt_succ_of_lt hlt, hout, ?_⟩
      simp only [Function.update_of_ne (Nat.ne_of_lt hlt)]
      exact hstate
  · intro t' t'' p m m' hc hc'
    rcases hcaller hc with ⟨ht, hp⟩ | ⟨-, hold⟩ <;>
      rcases hcaller hc' with ⟨ht', hp'⟩ | ⟨-, hold'⟩
    · exact ht.trans ht'.symm
    · exact absurd (hp ▸ (h.again t'' p m' hold').1) (Nat.lt_irrefl _)
    · exact absurd (hp' ▸ (h.again t' p m hold).1) (Nat.lt_irrefl _)
    · exact h.again_unique t' t'' p m m' hold hold'
  · intro t' p d hc
    rcases View.callers_cases hc with ⟨-, hph⟩ | ⟨-, hph⟩
    · cases hph
    · exact h.waiting t' p d hph

/-- The steps that leave the log as it is. -/
def Action.Silent : Action → Prop
  | .insert _ _ _ | .workerTakes | .workerWakes _ | .callerWakes _ _ | .cancelDelayedWork _ _ _ _
  | .stopAllByCtx _ _ => False
  | _ => True

theorem Stepped.silent {a : Action} (h : Stepped s a s') (ha : a.Silent)
    (hinv : s.view.OrderInv log) : s'.view.OrderInv log := by
  cases h with
  | ticks now => exact hinv
  | refused => exact hinv
  | @created _ t _ _ _ state ts tmo hidle hst =>
    rw [view_createNewWork]
    exact hinv.create (hst.imp_right (Or.imp_right And.right)) tmo
  | inserted => exact ha.elim
  | freed hc =>
    rw [freeUninserted, view_callReturns, view_free]
    exact hinv.quiet (shrinks_callers (v := s.view) s.condWaiters (fun _ _ h => by cases h)
      fun _ _ h => by cases h) rfl rfl
  | callerWoke => exact ha.elim
  | callerFinished =>
    rw [view_callerFinishes]
    exact hinv.quiet (shrinks_callers (v := s.view) s.condWaiters (fun _ _ h => by cases h)
      fun _ _ h => by cases h) rfl rfl
  | workerTook => exact ha.elim
  | workerWoke => exact ha.elim
  | @workFuncReturned p workRes hw =>
    rw [view_workFuncReturns]
    have hexec : ∀ q, (if s.hasFreeFunc p then WorkerPhase.freeing p workRes
        else .finishing p workRes).work? = some q → s.worker.work? = some q := by
      intro q hq
      rw [hw]
      split at hq <;> exact hq
    have hnot : ∀ q, (if s.hasFreeFunc p then WorkerPhase.freeing p workRes
        else .finishing p workRes) ≠ .working q := by
      intro q
      split <;> exact fun h => by cases h
    exact hinv.quiet { View.Shrinks.refl s.view log.accepted with
      worker := hexec
      working := fun q hq => absurd hq (hnot q) } rfl rfl
  | @freeFuncReturned p workRes hw =>
    have hexec : ∀ q, (WorkerPhase.finishing p workRes).work? = some q →
        s.worker.work? = some q := by
      intro q hq
      rw [hw]
      exact hq
    exact hinv.quiet { View.Shrinks.refl s.view log.accepted with
      worker := hexec
      working := fun _ h => by cases h } rfl rfl
  | @workFinished p workRes hw =>
    have hdispatched : p ∈ log.dispatched := hinv.executed p (by
      show s.worker.work? = some p
      rw [hw]
      rfl)
    have hidle : s.view.Shrinks { s.view with worker := .top } log.accepted :=
      { View.Shrinks.refl s.view log.accepted with
        worker := fun _ h => by cases h
        working := fun _ h => by cases h }
    rw [view_workDone]
    split
    · have hset := shrinks_setState (v := s.view) .done workRes (.refl _)
        (hinv.not_linked hdispatched).1 (hinv.mem_accepted (.inr (.inr (.inl hdispatched))))
      have hwoken :=
        hset.trans (shrinks_lists (v := View.mk _ _ _ _ _ _ _ _) [] (.refl _) (.refl _))
      exact hinv.quiet (hwoken.trans { View.Shrinks.refl _ log.accepted with
        worker := fun _ h => by cases h
        working := fun _ h => by cases h }) rfl rfl
    · exact hinv.quiet hidle rfl rfl
  | cancelled => exact ha.elim
  | stopped => exact ha.elim

theorem condUnblock_order (h : s.view.OrderInv log) : (s.condUnblock t).view.OrderInv log :=
  h.quiet (shrinks_lists (v := s.view) _ (.refl _) (.refl _)) rfl rfl

theorem step_order {a : Action} (h : s.view.OrderInv log) (hstep : step s a = some s') :
    s'.view.OrderInv (note s a s' log) := by
  by_cases ha : a.Silent
  · have hnote : note s a s' log = log := by
      cases a <;> first | rfl | exact ha.elim
    rw [hnote]
    exact (step_stepped hstep).silent ha h
  cases a with
  | insert t nodeOk woken =>
    simp only [step] at hstep
    split at hstep
    · next hc =>
      cases hstep
      exact insertWork_order h hc
    · cases hstep
  | callerWakes t cw =>
    simp only [step] at hstep
    split at hstep
    · next p d hc =>
      split at hstep
      · cases hstep
        exact h.shrink (callerWakes_shrinks (h.waiting t p d hc))
      · cases hstep
    · cases hstep
  | workerTakes =>
    simp only [step] at hstep
    split at hstep
    · cases hstep
      exact (workerTakes_order h).1
    · cases hstep
  | workerWakes cw =>
    simp only [step] at hstep
    split at hstep
    · split at hstep
      · cases hstep
        have hidle : ∀ w : WorkerPhase, w.work? = none →
            { (s.condUnblock serializerThread).view with worker := w }.OrderInv log := by
          intro w hw
          refine (condUnblock_order h).quiet { View.Shrinks.refl _ log.accepted with
            worker := fun p hp => ?_
            working := fun p hp => ?_ } rfl rfl
          · cases hw.symm.trans hp
          · cases hw.symm.trans (congrArg WorkerPhase.work? hp)
        cases cw with
        | ok => exact (workerTakes_order (condUnblock_order h)).1
        | timedOut => exact hidle .top rfl
        | failed => exact hidle .exited rfl
      · cases hstep
    · cases hstep
  | cancelDelayedWork t id key ctx =>
    simp only [step] at hstep
    split at hstep
    · cases hstep
      exact h.shrink serializerCancelDelayedWork_shrinks
    · cases hstep
  | stopAllByCtx t ctx =>
    simp only [step] at hstep
    split at hstep
    · cases hstep
      have hnodup : s.workList.Nodup := h.linked_nodup.sublist (List.sublist_append_left _ _)
      exact h.shrink (serializerStopAllByCtx_shrinks hnodup fun p hp => h.mem_accepted (.inl hp))
    · cases hstep
  | _ => exact (ha trivial).elim

theorem insertWork_worker {tmo : UInt32} {nodeOk : Bool} {woken : Thread} :
    (insertWork s t p tmo nodeOk woken).worker = s.worker ∨
      (insertWork s t p tmo nodeOk woken).worker = .top := by
  have hstart : ∀ s' : WorkSerializer, (startOrSignal s' woken).worker = s'.worker ∨
      (startOrSignal s' woken).worker = .top := by
    intro s'
    unfold startOrSignal
    split
    · exact .inr rfl
    · exact .inl rfl
  unfold insertWork
  simp only
  split <;> split_ifs <;> first | exact .inl rfl | exact hstart _

/-- The thread of the serializer takes a work only when it looks at the lists. -/
theorem step_working {a : Action} (h : s.view.OrderInv log) (hstep : step s a = some s')
    (hp : s'.worker = .working p) : s.worker = .working p ∨ a.Looks := by
  cases step_stepped hstep with
  | ticks | refused | created => exact .inl hp
  | inserted =>
    rcases insertWork_worker with hsame | htop
    · exact .inl (hsame.symm.trans hp)
    · cases htop.symm.trans hp
  | freed => exact .inl hp
  | @callerWoke t q d cw hc =>
    exact .inl ((@callerWakes_shrinks s t q [q] cw List.mem_cons_self).working p hp)
  | @callerFinished t q abandoned hc =>
    have hworker := congrArg View.worker (@view_callerFinishes s t q abandoned)
    exact .inl (hworker.symm.trans hp)
  | workerTook => exact .inr trivial
  | @workerWoke d cw hw =>
    cases cw with
    | ok => exact .inr trivial
    | timedOut => cases hp
    | failed => cases hp
  | @workFuncReturned q workRes hw =>
    have hworker := congrArg View.worker (@view_workFuncReturns s q workRes)
    replace hp := hworker.symm.trans hp
    simp only at hp
    split at hp <;> cases hp
  | freeFuncReturned => cases hp
  | @workFinished q workRes hw =>
    have hworker := congrArg View.worker (@view_workDone s q workRes)
    replace hp := hworker.symm.trans hp
    split at hp <;> cases hp
  | @cancelled t id key ctx =>
    have hshrinks := @serializerCancelDelayedWork_shrinks s t [] id key ctx
    exact .inl (hshrinks.working p hp)
  | stopped =>
    have hnodup : s.workList.Nodup := h.linked_nodup.sublist (List.sublist_append_left _ _)
    exact .inl ((serializerStopAllByCtx_shrinks hnodup fun _ hq => hq).working p hp)

theorem step_takes {a : Action} (h : s.view.OrderInv log) (ha : a.Looks)
    (hstep : step s a = some s') (p : Ptr) : s'.worker = .working p ↔ NextWork s log p := by
  cases a with
  | workerTakes =>
    simp only [step] at hstep
    split at hstep
    · cases hstep
      exact (workerTakes_order h).2 p
    · cases hstep
  | workerWakes cw =>
    simp only [step] at hstep
    split at hstep
    · split at hstep
      · cases hstep
        cases cw with
        | ok => exact (workerTakes_order (condUnblock_order h)).2 p
        | timedOut => exact ha.elim
        | failed => exact ha.elim
      · cases hstep
    · cases hstep
  | _ => exact ha.elim

end Steps

theorem serializerCreate_order (ops : List WorkOps) (startNow : Bool) :
    (serializerCreate ops startNow).view.OrderInv .empty where
  workList := ⟨[], [], rfl, .refl _, .refl _, nofun, nofun⟩
  delayed := nofun
  sorted := .nil
  accounted := .refl _
  once := .nil
  fresh := nofun
  again := nofun
  again_unique := nofun
  waiting := nofun
  executed p hp := by cases startNow <;> cases hp

theorem View.OrderInv.order {s : WorkSerializer} {log : Log} (h : s.view.OrderInv log) :
    DispatchOrder s log where
  workList := h.workList
  delayed := h.delayed
  sorted := h.sorted
  accounted := h.accounted
  once := h.once

/-- An asynchronous work, a delayed one and then a synchronous one are submitted. -/
def mixedRun : List Action :=
  [.execWorkAsync 1 0 10 7 true, .insert 1 true 0, .addDelayedWork 1 0 11 7 0 0 true,
    .insert 1 true 0, .execWork 2 0 12 7 1000 true, .insert 2 true 0, .tick ⟨1, 0⟩]

end Dwpal.Serializer
