import Dwpal.Serializer.Ownership
import Mathlib.Data.List.Nodup

/-! Every step of the serializer moves at most one work from one station to the next, except for
`serializer_stop_all_by_ctx` where it stops a synchronous work: that work is freed although its
caller still waits for it. -/

namespace Dwpal.Serializer

open Dwpal.Machine

namespace WorkSerializer

variable {A : Prop} {O : List WorkOps} {s s' : WorkSerializer} {p q : Ptr} {t : Thread} {l : Life}

theorem touch_live {ps : List Ptr} (h : ∀ p ∈ ps, s.Live p) : s.touch ps = s := by
  have hf : ps.filter (fun p => ¬ s.Live p) = [] := by simpa using h
  rw [touch, hf, List.map_nil, List.append_nil]

theorem free_live (hp : s.Live p) (hw : p ∉ s.workList) (hd : p ∉ s.delayedWorkList) :
    s.free p = s.modify p fun c => { c with frees := c.frees + 1 } := by
  simp [free, hp, hw, hd, modify]

theorem modify_modify (f g : Cell → Cell) :
    (s.modify p f).modify p g = s.modify p fun c => g (f c) := by
  simp [modify]

theorem callFreeFunc_eq :
    s.callFreeFunc p =
      s.modify p fun c => { c with freeFuncs := c.freeFuncs + s.owedFreeFuncs p } := by
  unfold callFreeFunc owedFreeFuncs
  split
  · next h => simp [h]
  · next h => simp [h, modify]

/-- Calling `free_func` and freeing a work that nothing links to any more. -/
theorem release_live (hp : s.Live p) (hw : p ∉ s.workList) (hd : p ∉ s.delayedWorkList) :
    ((s.callFreeFunc p).settle p).free p = s.modify p fun c =>
      { c with freeFuncs := c.freeFuncs + s.owedFreeFuncs p, settled := true,
               frees := c.frees + 1 } := by
  have hlive : ((s.callFreeFunc p).settle p).Live p := by
    simpa [callFreeFunc_eq, settle, modify, Live] using hp
  rw [free_live hlive (by simpa [callFreeFunc_eq, settle, modify] using hw)
    (by simpa [callFreeFunc_eq, settle, modify] using hd)]
  simp only [callFreeFunc_eq, settle, modify_modify]

theorem At.notLinked (hl : s.At A p l) (ho : l.owner ≠ some .workList) : p ∉ s.workList :=
  fun h => ho (hl.workList.mp h)

theorem At.notLinkedDelayed (hl : s.At A p l) (ho : l.owner ≠ some .delayedWorkList) :
    p ∉ s.delayedWorkList :=
  fun h => ho (hl.delayedWorkList.mp h)

/-- The caller that gave up on `p` is no longer inside its call. -/
theorem Inv.notGivenUp (h : s.Inv A O) (hp : (s.work p).state ≠ .abandoned) :
    s.callers t ≠ .unlocked p true :=
  fun hc => hp (h.gaveUp t p hc).2

theorem callers_update_ne {ph ph' : CallPhase} (h : ∀ t', s.callers t' ≠ ph) (hne : ph' ≠ ph)
    (t' : Thread) : Function.update s.callers t ph' t' ≠ ph := by
  rw [Function.update_apply]
  split
  · exact hne
  · exact h t'

theorem Inv.same (h : s.Inv A O) (hsame : ∀ q, SameAt s s' q) (hwork : s'.workList.Nodup)
    (hdelayed : s'.delayedWorkList.Nodup) (hfaults : s'.faults = [])
    (hpaused : s'.state = .paused → s'.worker = .notCreated) : s'.Inv A O where
  ops := (hsame 0).ops.trans h.ops
  lives q := by
    obtain ⟨l, hl⟩ := h.lives q
    exact ⟨l, hl.same (hsame q)⟩
  workNodup := hwork
  delayedNodup := hdelayed
  faults := hfaults
  paused := hpaused
  gaveUp t q hc := by
    have hs := hsame q
    have := h.gaveUp t q ((hs.callers_eq rfl t).mp hc)
    rwa [hs.born, work, hs.cell]

theorem Inv.condWaiters (h : s.Inv A O) (ws : List Thread) : { s with condWaiters := ws }.Inv A O :=
  h.same (fun _ => ⟨rfl, .rfl, .rfl, .rfl, .inl rfl, fun _ => .inl rfl, rfl⟩) h.workNodup
    h.delayedNodup h.faults h.paused

theorem Inv.clock (h : s.Inv A O) (now : Timespec) : { s with clock := now }.Inv A O :=
  h.same (fun _ => ⟨rfl, .rfl, .rfl, .rfl, .inl rfl, fun _ => .inl rfl, rfl⟩) h.workNodup
    h.delayedNodup h.faults h.paused

theorem Inv.running (h : s.Inv A O) (hw : s.worker ≠ .notCreated) : s.state = .running := by
  cases hs : s.state with
  | running => rfl
  | paused => exact absurd (h.paused hs) hw

/-- The thread of the serializer moves on without a work before or after. -/
theorem Inv.workerIdle (h : s.Inv A O) {w : WorkerPhase} (hs : s.state = .running)
    (hold : s.worker.work? = none) (hnew : w.work? = none) : { s with worker := w }.Inv A O :=
  h.same (fun _ => ⟨rfl, .rfl, .rfl, .rfl, .inr (by simp [hold, hnew]), fun _ => .inl rfl, rfl⟩)
    h.workNodup h.delayedNodup h.faults (by simp [hs])

theorem Inv.startOrSignal (h : s.Inv A O) (woken : Thread) : (startOrSignal s woken).Inv A O := by
  unfold Serializer.startOrSignal
  split
  · next hs =>
    exact h.same
      (fun _ => ⟨rfl, .rfl, .rfl, .rfl, .inr (by simp [h.paused hs, WorkerPhase.work?]),
        fun _ => .inl rfl, rfl⟩) h.workNodup h.delayedNodup h.faults (by simp)
  · exact h.condWaiters _

section Steps

attribute [local simp] Life.owner Life.caller Life.Phase Life.Holds CallPhase.subject
  CallPhase.work? WorkerPhase.work? Function.update_apply modify setCaller callReturns work
  owedFreeFuncs workerFreeFuncs hasFreeFunc

theorem createNewWork_inv {id obj ctx : Nat} {state : WorkState} {ts : Timespec} {tmo : UInt32}
    (h : s.Inv A O) (hc : s.callers t = .idle)
    (hst : state = .async ∨ state = .delayed ∨ state = .waitingForFinish) :
    (createNewWork s t id obj ctx state ts tmo).Inv A O := by
  have hfresh : s.At A s.next .unborn := by
    obtain ⟨l, hl⟩ := h.lives s.next
    have := hl.born
    cases l <;> simp_all
  have hgone : ∀ t', s.callers t' ≠ .unlocked s.next true :=
    fun t' e => Nat.lt_irrefl _ (h.gaveUp t' _ e).1
  refine h.focus s.next (l := .created t) (fun q hq => ?_) ?_ h.workNodup h.delayedNodup h.faults
    h.paused fun t' ht' => ?_
  · constructor <;> simp_all [createNewWork]
    · grind
    · grind [CallPhase.subject]
  · obtain ⟨born, workList, delayedWorkList, worker, callers, phase, frees, cell⟩ := hfresh
    constructor <;> simp_all [createNewWork]
    · grind [CallPhase.work?]
  · exact absurd ht' (callers_update_ne hgone (by simp) t')

theorem freeUninserted_inv (h : s.Inv A O) (hc : s.callers t = .insertErr p) :
    (freeUninserted s t p).Inv A O := by
  have hl := h.insertErr hc
  have hgone : ∀ t', s.callers t' ≠ .unlocked p true := fun t' => h.notGivenUp hl.cell.1
  rw [freeUninserted, free_live (hl.live (by simp) (by simp)) (hl.notLinked (by simp))
    (hl.notLinkedDelayed (by simp))]
  refine h.focus p (l := .freed) (fun q hq => ?_) ?_ h.workNodup h.delayedNodup h.faults
    h.paused fun t' ht' => ?_
  · constructor <;> simp_all
    grind [CallPhase.subject]
  · obtain ⟨born, workList, delayedWorkList, worker, callers, phase, frees, cell⟩ := hl
    constructor <;> simp_all
    · grind [CallPhase.work?]
  · exact absurd ht' (callers_update_ne hgone (by simp) t')

theorem Inv.refuse {tmo : UInt32} (h : s.Inv A O) (hc : s.callers t = .again p tmo) :
    (s.setCaller t (.insertErr p)).Inv A O := by
  have hl := h.again hc
  have hst : (s.work p).state ≠ .abandoned := by
    rcases hl.cell.1 with e | e | e <;> simp_all
  refine h.focus p (l := .refused t) (fun q hq => ?_) ?_ h.workNodup h.delayedNodup h.faults
    h.paused fun t' ht' => ?_
  · constructor <;> simp_all
    grind [CallPhase.subject]
  · obtain ⟨born, workList, delayedWorkList, worker, callers, phase, frees, cell⟩ := hl
    constructor <;> simp_all
    · grind [CallPhase.work?]
  · exact absurd ht' (callers_update_ne (fun _ => h.notGivenUp hst) (by simp) t')

theorem Inv.linkAsync {tmo : UInt32} (h : s.Inv A O) (hc : s.callers t = .again p tmo)
    (hst : (s.work p).state = .async) :
    ({ s with workList := s.workList ++ [p] }.callReturns t p 0 none).Inv A O := by
  have hl := h.again hc
  have hgone : ∀ t', s.callers t' ≠ .unlocked p true := fun _ => h.notGivenUp (hst ▸ by simp)
  refine h.focus p (l := .queued) (fun q hq => ?_) ?_ ?_ h.delayedNodup h.faults
    h.paused fun t' ht' => ?_
  · constructor <;> simp_all
    grind [CallPhase.subject]
  · obtain ⟨born, workList, delayedWorkList, worker, callers, phase, frees, cell⟩ := hl
    constructor <;> simp_all
    · grind [CallPhase.work?]
  · exact List.concat_eq_append ▸ List.Nodup.concat (hl.notLinked (by simp)) h.workNodup
  · exact absurd ht' (callers_update_ne hgone (by simp) t')

theorem Inv.linkDelayed {tmo : UInt32} {l : List Ptr} (h : s.Inv A O)
    (hc : s.callers t = .again p tmo) (hst : (s.work p).state = .delayed)
    (hperm : l.Perm (p :: s.delayedWorkList)) :
    ({ s with delayedWorkList := l }.callReturns t p 0 none).Inv A O := by
  have hl := h.again hc
  have hgone : ∀ t', s.callers t' ≠ .unlocked p true := fun _ => h.notGivenUp (hst ▸ by simp)
  have hmem : ∀ q, q ∈ l ↔ q = p ∨ q ∈ s.delayedWorkList := fun q => by
    rw [hperm.mem_iff, List.mem_cons]
  refine h.focus p (l := .scheduled) (fun q hq => ?_) ?_ h.workNodup ?_ h.faults
    h.paused fun t' ht' => ?_
  · constructor <;> simp_all
    grind [CallPhase.subject]
  · obtain ⟨born, workList, delayedWorkList, worker, callers, phase, frees, cell⟩ := hl
    constructor <;> simp_all
    · grind [CallPhase.work?]
  · exact hperm.nodup_iff.mpr (List.nodup_cons.mpr ⟨hl.notLinkedDelayed (by simp), h.delayedNodup⟩)
  · exact absurd ht' (callers_update_ne hgone (by simp) t')

theorem Inv.linkSync {tmo : UInt32} {l : List Ptr} {d : Timespec} (h : s.Inv A O)
    (hc : s.callers t = .again p tmo) (hst : (s.work p).state = .waitingForFinish)
    (hperm : l.Perm (p :: s.workList)) :
    ({ s with workList := l }.setCaller t (.waiting p d)).Inv A O := by
  have hl := h.again hc
  have hgone : ∀ t', s.callers t' ≠ .unlocked p true := fun _ => h.notGivenUp (hst ▸ by simp)
  have hmem : ∀ q, q ∈ l ↔ q = p ∨ q ∈ s.workList := fun q => by
    rw [hperm.mem_iff, List.mem_cons]
  refine h.focus p (l := .queuedFor t) (fun q hq => ?_) ?_ ?_ h.delayedNodup h.faults
    h.paused fun t' ht' => ?_
  · constructor <;> simp_all
    grind [CallPhase.subject]
  · obtain ⟨born, workList, delayedWorkList, worker, callers, phase, frees, cell⟩ := hl
    constructor <;> simp_all
    · grind [CallPhase.work?]
  · exact hperm.nodup_iff.mpr (List.nodup_cons.mpr ⟨hl.notLinked (by simp), h.workNodup⟩)
  · exact absurd ht' (callers_update_ne hgone (by simp) t')

theorem Inv.takeBack {d : Timespec} (h : s.Inv A O) (hc : s.callers t = .waiting p d)
    (hp : p ∈ s.workList) :
    ((s.unlinkWork p).setCaller t (.unlocked p false)).Inv A O := by
  have hl : s.At A p (.queuedFor t) := by
    rcases h.waiting hc with hl | hl | hl
    · exact hl
    · exact absurd (hl.workList.mp hp) (by simp)
    · exact absurd (hl.workList.mp hp) (by simp)
  have hgone : ∀ t', s.callers t' ≠ .unlocked p true :=
    fun _ => h.notGivenUp (by simp [hl.cell.1])
  have hmem : ∀ q, q ∈ s.workList.erase p ↔ q ≠ p ∧ q ∈ s.workList :=
    fun q => h.workNodup.mem_erase_iff
  refine h.focus p (l := .takenBack t) (fun q hq => ?_) ?_ (h.workNodup.erase p) h.delayedNodup
    h.faults h.paused fun t' ht' => ?_
  · constructor <;> simp_all [unlinkWork]
    grind [CallPhase.subject]
  · obtain ⟨born, workList, delayedWorkList, worker, callers, phase, frees, cell⟩ := hl
    constructor <;> simp_all [unlinkWork]
    · grind [CallPhase.work?]
  · exact absurd ht' (callers_update_ne hgone (by simp) t')

theorem Inv.abandon {d : Timespec} (h : s.Inv A O) (hc : s.callers t = .waiting p d)
    (hst : (s.work p).state = .waitingForFinish) (hp : p ∉ s.workList)
    (hA : A → s.hasFreeFunc p = false) :
    ((s.setState p .abandoned).setCaller t (.unlocked p true)).Inv A O := by
  have hl : s.At A p (.executingFor t) := by
    rcases h.waiting hc with hl | hl | hl
    · exact absurd (hl.workList.mpr (by simp)) hp
    · exact hl
    · exact absurd hst (by simp [hl.cell.1])
  have hborn := hl.born.mpr (by simp)
  refine h.focus p (l := .abandoned) (fun q hq => ?_) ?_ h.workNodup h.delayedNodup
    h.faults h.paused fun t' ht' => ?_
  · constructor <;> simp_all [setState]
    grind [CallPhase.subject]
  · obtain ⟨born, workList, delayedWorkList, worker, callers, phase, frees, cell⟩ := hl
    constructor <;> simp_all [setState]
    · grind [CallPhase.work?]
  · exact ⟨hborn, by simp [setState]⟩

theorem Inv.leaveWait {d : Timespec} (h : s.Inv A O) (hc : s.callers t = .waiting p d)
    (hst : (s.work p).state ≠ .waitingForFinish) :
    (s.setCaller t (.unlocked p false)).Inv A O := by
  have hl : s.At A p (.done t) := by
    rcases h.waiting hc with hl | hl | hl
    · exact absurd hl.cell.1 hst
    · exact absurd hl.cell.1 hst
    · exact hl
  have hgone : ∀ t', s.callers t' ≠ .unlocked p true :=
    fun _ => h.notGivenUp (by simp [hl.cell.1])
  refine h.focus p (l := .done t) (fun q hq => ?_) ?_ h.workNodup h.delayedNodup
    h.faults h.paused fun t' ht' => ?_
  · constructor <;> simp_all
    grind [CallPhase.subject]
  · obtain ⟨born, workList, delayedWorkList, worker, callers, phase, frees, cell⟩ := hl
    constructor <;> simp_all
    · grind [CallPhase.work?]
  · exact absurd ht' (callers_update_ne hgone (by simp) t')

theorem Inv.leaveAbandoned (h : s.Inv A O) (hc : s.callers t = .unlocked p true) :
    (s.callReturns t p 1 none).Inv A O := by
  obtain ⟨hborn, hst⟩ := h.gaveUp t p hc
  obtain ⟨l, hl⟩ := h.lives p
  have hl' : l = .abandoned ∨ l = .freed := by
    have := hl.cell
    have := hl.born
    cases l <;> simp_all
  refine h.focus p (l := l) (fun q hq => ?_) ?_ h.workNodup h.delayedNodup h.faults h.paused
    fun t' ht' => ⟨hborn, by simpa using hst⟩
  · constructor <;> simp_all
    grind [CallPhase.subject]
  · obtain ⟨born, workList, delayedWorkList, worker, callers, phase, frees, cell⟩ := hl
    rcases hl' with rfl | rfl <;> constructor <;> simp_all
    · grind [CallPhase.work?]
    · grind [CallPhase.work?]

theorem Inv.finishSync {r : Int} {out : Option Int} (h : s.Inv A O)
    (hc : s.callers t = .unlocked p false)
    (hr : r = if (s.work p).state = .waitingForFinish then 1 else 0) :
    ((s.free p).callReturns t p r out).Inv A O := by
  have hl : ∃ l, s.At A p l ∧ (l = .done t ∨ l = .takenBack t) := by
    rcases h.unlocked hc with hl | hl
    · exact ⟨_, hl, .inl rfl⟩
    · exact ⟨_, hl, .inr rfl⟩
  obtain ⟨l, hl, hlt⟩ := hl
  have howner : l.owner = some (.caller t) := by rcases hlt with rfl | rfl <;> rfl
  have hgone : ∀ t', s.callers t' ≠ .unlocked p true := fun t' => h.notGivenUp (by
    have := hl.cell
    rcases hlt with rfl | rfl <;> simp_all)
  have hlive : s.Live p := hl.live (by rintro rfl; simp at howner) (by rintro rfl; simp at howner)
  have hw : p ∉ s.workList := hl.notLinked (howner ▸ nofun)
  have hd : p ∉ s.delayedWorkList := hl.notLinkedDelayed (howner ▸ nofun)
  rw [free_live hlive hw hd]
  refine h.focus p (l := .freed) (fun q hq => ?_) ?_ h.workNodup h.delayedNodup h.faults
    h.paused fun t' ht' => ?_
  · constructor <;> simp_all
    grind [CallPhase.subject]
  · obtain ⟨born, workList, delayedWorkList, worker, callers, phase, frees, cell⟩ := hl
    rcases hlt with rfl | rfl <;> constructor <;> simp_all
    · grind [CallPhase.work?]
    · grind [CallPhase.work?]
  · exact absurd ht' (callers_update_ne hgone (by simp) t')

/-- The thread of the serializer takes the first work of the work list. -/
theorem Inv.takeWork {rest : List Ptr} (h : s.Inv A O) (hs : s.state = .running)
    (hidle : s.worker.work? = none) (hp : s.workList = p :: rest) :
    { s with workList := rest, worker := .working p }.Inv A O := by
  have hnodup := h.workNodup
  rw [hp, List.nodup_cons] at hnodup
  have hgone : ∀ t', s.callers t' ≠ .unlocked p true := fun t' => h.notGivenUp (by
    rcases h.linked (p := p) (by simp [hp]) with hl | ⟨t, hl⟩ <;> simp [hl.cell.1])
  have hl : ∃ l l', s.At A p l ∧ (l = .queued ∧ l' = Life.executing ∨
      ∃ t, l = .queuedFor t ∧ l' = Life.executingFor t) := by
    rcases h.linked (p := p) (by simp [hp]) with hl | ⟨t, hl⟩
    · exact ⟨_, _, hl, .inl ⟨rfl, rfl⟩⟩
    · exact ⟨_, _, hl, .inr ⟨t, rfl, rfl⟩⟩
  obtain ⟨l, l', hl, hll⟩ := hl
  refine h.focus p (l := l') (fun q hq => ?_) ?_ hnodup.2 h.delayedNodup h.faults
    (by simp [hs]) fun t' ht' => absurd ht' (hgone t')
  · constructor <;> simp_all
    exact .inr fun e => hq (Eq.symm e)
  · obtain ⟨born, workList, delayedWorkList, worker, callers, phase, frees, cell⟩ := hl
    rcases hll with ⟨rfl, rfl⟩ | ⟨t, rfl, rfl⟩ <;> constructor <;> simp_all
    cases hc : s.callers t <;> simp_all

/-- The thread of the serializer takes the first delayed work. -/
theorem Inv.takeDelayed {rest : List Ptr} (h : s.Inv A O) (hs : s.state = .running)
    (hidle : s.worker.work? = none) (hp : s.delayedWorkList = p :: rest) :
    { s with delayedWorkList := rest, worker := .working p }.Inv A O := by
  have hnodup := h.delayedNodup
  rw [hp, List.nodup_cons] at hnodup
  have hl := h.linkedDelayed (p := p) (by simp [hp])
  have hgone : ∀ t', s.callers t' ≠ .unlocked p true :=
    fun t' => h.notGivenUp (by simp [hl.cell.1])
  refine h.focus p (l := .executing) (fun q hq => ?_) ?_ h.workNodup hnodup.2 h.faults
    (by simp [hs]) fun t' ht' => absurd ht' (hgone t')
  · constructor <;> simp_all
    exact .inr fun e => hq (Eq.symm e)
  · obtain ⟨born, workList, delayedWorkList, worker, callers, phase, frees, cell⟩ := hl
    constructor <;> simp_all

theorem Inv.workFuncReturns {workRes : Int} (h : s.Inv A O) (hw : s.worker = .working p) :
    (workFuncReturns s p workRes).Inv A O := by
  have hs : s.state = .running := h.running (by simp [hw])
  have hl : ∃ l, s.At A p l ∧ (l = .executing ∨ (∃ t, l = .executingFor t) ∨ l = .abandoned) := by
    rcases h.executed (p := p) (by simp [hw]) with hl | ⟨t, hl⟩ | hl
    · exact ⟨_, hl, .inl rfl⟩
    · exact ⟨_, hl, .inr (.inl ⟨t, rfl⟩)⟩
    · exact ⟨_, hl, .inr (.inr rfl)⟩
  obtain ⟨l, hl, hlt⟩ := hl
  have hlive : s.Live p := hl.live (by rintro rfl; simp at hlt) (by rintro rfl; simp at hlt)
  have hborn := hl.born.mpr (by rintro rfl; simp at hlt)
  rw [Serializer.workFuncReturns, touch_live (by simpa using hlive), callFreeFunc]
  cases hfree : s.hasFreeFunc p
  · refine h.focus p (l := l) (fun q hq => ?_) ?_ h.workNodup h.delayedNodup h.faults
      (by simp [hs]) fun t' ht' => h.gaveUp t' p ht'
    · constructor <;> simp_all
      exact fun e => hq (Eq.symm e)
    · obtain ⟨born, workList, delayedWorkList, worker, callers, phase, frees, cell⟩ := hl
      rcases hlt with rfl | ⟨t, rfl⟩ | rfl <;> constructor <;> simp_all
  · refine h.focus p (l := l) (fun q hq => ?_) ?_ h.workNodup h.delayedNodup h.faults
      (by simp [hs]) fun t' ht' => ⟨hborn, by simpa using (h.gaveUp t' p ht').2⟩
    · constructor <;> simp_all
      exact fun e => hq (Eq.symm e)
    · obtain ⟨born, workList, delayedWorkList, worker, callers, phase, frees, cell⟩ := hl
      rcases hlt with rfl | ⟨t, rfl⟩ | rfl <;> constructor <;> simp_all

theorem Inv.freeFuncReturns {workRes : Int} (h : s.Inv A O) (hw : s.worker = .freeing p workRes) :
    { s with worker := .finishing p workRes }.Inv A O := by
  have hs : s.state = .running := h.running (by simp [hw])
  obtain ⟨l, hl⟩ := h.lives p
  refine h.focus p (l := l) (fun q hq => ?_) ?_ h.workNodup h.delayedNodup h.faults
    (by simp [hs]) fun t' ht' => h.gaveUp t' p ht'
  · constructor <;> simp_all
    exact fun e => hq (Eq.symm e)
  · obtain ⟨born, workList, delayedWorkList, worker, callers, phase, frees, cell⟩ := hl
    constructor <;> simp_all

theorem Inv.workDone {workRes : Int} (h : s.Inv A O) (hw : s.worker = .finishing p workRes) :
    (workDone s p workRes).Inv A O := by
  have hs : s.state = .running := h.running (by simp [hw])
  have hpaused : s.state = .paused → WorkerPhase.top = .notCreated := by simp [hs]
  have hlive : s.Live p := by
    rcases h.executed (p := p) (by simp [hw]) with hl | ⟨t, hl⟩ | hl <;>
      exact hl.live (fun e => by cases e) (fun e => by cases e)
  rw [Serializer.workDone, touch_live (by simpa using hlive)]
  by_cases hst : (s.work p).state = .waitingForFinish
  · -- the caller still waits: the work is done, and the caller's from now on
    have hl : ∃ t, s.At A p (.executingFor t) := by
      rcases h.executed (p := p) (by simp [hw]) with hl | hl | hl
      · rcases hl.cell.1 with e | e <;> simp_all
      · exact hl
      · exact absurd hst (by simp [hl.cell.1])
    obtain ⟨t, hl⟩ := hl
    have hgone : ∀ t', s.callers t' ≠ .unlocked p true :=
      fun _ => h.notGivenUp (by rw [hst]; rintro ⟨⟩)
    rw [if_pos (by simpa [settle] using hst)]
    refine h.focus p (l := .done t) (fun q hq => ?_) ?_ h.workNodup h.delayedNodup h.faults
      hpaused fun t' ht' => absurd ht' (hgone t')
    · constructor <;> simp_all [settle, condBroadcast]
      exact fun e => hq (Eq.symm e)
    · obtain ⟨born, workList, delayedWorkList, worker, callers, phase, frees, cell⟩ := hl
      constructor <;> simp_all [settle, condBroadcast]
      cases hc : s.callers t <;> simp_all
  · have hl : ∃ l, s.At A p l ∧ (l = .executing ∨ l = .abandoned) := by
      rcases h.executed (p := p) (by simp [hw]) with hl | ⟨t, hl⟩ | hl
      · exact ⟨_, hl, .inl rfl⟩
      · exact absurd hl.cell.1 hst
      · exact ⟨_, hl, .inr rfl⟩
    obtain ⟨l, hl, hlt⟩ := hl
    have howner : l.owner = some .worker := by rcases hlt with rfl | rfl <;> rfl
    have hwl : p ∉ s.workList := hl.notLinked (by rw [howner]; rintro ⟨⟩)
    have hdl : p ∉ s.delayedWorkList := hl.notLinkedDelayed (by rw [howner]; rintro ⟨⟩)
    have hfree : ({ s.settle p with worker := .top } : WorkSerializer).free p =
        ({ s.settle p with worker := .top } : WorkSerializer).modify p fun c =>
          { c with frees := c.frees + 1 } :=
      free_live (by simpa [settle, Live] using hlive) hwl hdl
    rw [if_neg (by simpa [settle] using hst), hfree]
    refine h.focus p (l := .freed) (fun q hq => ?_) ?_ h.workNodup h.delayedNodup h.faults
      hpaused fun t' ht' => ?_
    · constructor <;> simp_all [settle]
      exact fun e => hq (Eq.symm e)
    · obtain ⟨born, workList, delayedWorkList, worker, callers, phase, frees, cell⟩ := hl
      rcases hlt with rfl | rfl <;> constructor <;> simp_all [settle]
      rcases cell.1 with e | e <;> simp_all
    · simpa [settle] using h.gaveUp t' p ht'

theorem Inv.cancelEntry {id key ctx : Nat} (h : s.Inv A O) (hp : p ∈ s.delayedWorkList) :
    (cancelEntry id key ctx s p).Inv A O := by
  have hl := h.linkedDelayed hp
  have hlive : s.Live p := hl.live nofun nofun
  have hgone : ∀ t', s.callers t' ≠ .unlocked p true :=
    fun t' => h.notGivenUp (by simp [hl.cell.1])
  rw [Serializer.cancelEntry, touch_live (by simpa using hlive)]
  split
  · have hmem : ∀ q, q ∈ s.delayedWorkList.erase p ↔ q ≠ p ∧ q ∈ s.delayedWorkList :=
      fun q => h.delayedNodup.mem_erase_iff
    have hrel := release_live (s := s.unlinkDelayed p) hlive (hl.notLinked nofun)
      h.delayedNodup.not_mem_erase
    rw [hrel]
    refine h.focus p (l := .freed) (fun q hq => ?_) ?_ h.workNodup (h.delayedNodup.erase p)
      h.faults h.paused fun t' ht' => absurd ht' (hgone t')
    · constructor <;> simp_all [unlinkDelayed]
    · obtain ⟨born, workList, delayedWorkList, worker, callers, phase, frees, cell⟩ := hl
      constructor <;> simp_all [unlinkDelayed]
  · exact h

/-- Stopping a work that no caller waits for. -/
theorem Inv.stopWork (h : s.Inv A O) (hp : p ∈ s.workList)
    (hst : (s.work p).state ≠ .waitingForFinish) : (stopWork s p).Inv A O := by
  have hl : s.At A p .queued := by
    rcases h.linked hp with hl | ⟨t, hl⟩
    · exact hl
    · exact absurd hl.cell.1 hst
  have hgone : ∀ t', s.callers t' ≠ .unlocked p true :=
    fun t' => h.notGivenUp (by simp [hl.cell.1])
  have hmem : ∀ q, q ∈ s.workList.erase p ↔ q ≠ p ∧ q ∈ s.workList :=
    fun q => h.workNodup.mem_erase_iff
  have hst' : ((((s.unlinkWork p).callFreeFunc p).settle p).work p).state ≠ .waitingForFinish := by
    simpa [callFreeFunc_eq, settle, unlinkWork] using hst
  have hrel := release_live (s := s.unlinkWork p) (hl.live nofun nofun) h.workNodup.not_mem_erase
    (hl.notLinkedDelayed nofun)
  have hstop : Serializer.stopWork s p = (((s.unlinkWork p).callFreeFunc p).settle p).free p := by
    simp only [Serializer.stopWork]
    rw [if_neg (show ¬ ((s.unlinkWork p).work p).state = .waitingForFinish from hst), if_pos hst']
  rw [hstop, hrel]
  refine h.focus p (l := .freed) (fun q hq => ?_) ?_ (h.workNodup.erase p) h.delayedNodup
    h.faults h.paused fun t' ht' => absurd ht' (hgone t')
  · constructor <;> simp_all [unlinkWork]
  · obtain ⟨born, workList, delayedWorkList, worker, callers, phase, frees, cell⟩ := hl
    constructor <;> simp_all [unlinkWork]

end Steps

/-- One entry of `serializer_stop_all_by_ctx`, if no caller waits for it. -/
theorem Inv.stopEntry {ctx : Nat} {b : Bool} (h : s.Inv A O) (hp : p ∈ s.workList)
    (hok : (s.work p).ctx = ctx → (s.work p).state ≠ .waitingForFinish) :
    (stopEntry ctx (s, b) p).1.Inv A O := by
  have hlive : s.Live p := by
    rcases h.linked hp with hl | ⟨t, hl⟩ <;> exact hl.live nofun nofun
  rw [Serializer.stopEntry, touch_live (by simpa using hlive)]
  split
  · next hctx => exact h.stopWork hp (hok hctx.symm)
  · exact h

theorem startOrSignal_callReturns (woken : Thread) (r : Int) (out : Option Int) :
    (startOrSignal s woken).callReturns t p r out =
      startOrSignal (s.callReturns t p r out) woken := by
  unfold startOrSignal
  cases hs : s.state <;> simp [callReturns, setCaller, modify, condSignal, hs]

theorem startOrSignal_waits (woken : Thread) (tmo : UInt32) :
    ((startOrSignal s woken).setCaller t
        (.waiting p (addTimeToTimespec (startOrSignal s woken).clock 0 tmo))).condBlock t =
      (startOrSignal (s.setCaller t (.waiting p (addTimeToTimespec s.clock 0 tmo)))
        woken).condBlock t := by
  unfold startOrSignal
  cases hs : s.state <;> simp [setCaller, condBlock, condSignal, hs]

theorem insertBefore_perm (before : Ptr → Bool) (p : Ptr) :
    ∀ l : List Ptr, (insertBefore before p l).Perm (p :: l)
  | [] => .refl _
  | q :: l => by
    unfold insertBefore
    split
    · exact .refl _
    · exact ((insertBefore_perm before p l).cons q).trans (.swap p q l)

theorem scanned_subset (before : Ptr → Bool) : ∀ {l : List Ptr}, q ∈ scanned before l → q ∈ l
  | p :: l, h => by
    unfold scanned at h
    split at h
    · rw [List.mem_singleton] at h
      exact h ▸ List.mem_cons_self
    · rcases List.mem_cons.mp h with rfl | h
      · exact List.mem_cons_self
      · exact List.mem_cons_of_mem p (scanned_subset before h)

section Loops

attribute [local simp] modify settle setState unlinkWork unlinkDelayed callFreeFunc_eq free touch
  Function.update_apply

theorem stopWork_workList : (stopWork s p).workList = s.workList.erase p := by
  simp only [Serializer.stopWork]
  split_ifs <;> simp

theorem stopWork_heap (hq : q ≠ p) : (stopWork s p).heap q = s.heap q := by
  simp only [Serializer.stopWork]
  split_ifs <;> simp [hq]

theorem cancelEntry_delayedWorkList {id key ctx : Nat} (hq : q ≠ p) :
    q ∈ (cancelEntry id key ctx s p).delayedWorkList ↔ q ∈ s.delayedWorkList := by
  simp only [Serializer.cancelEntry]
  split
  · simp [List.mem_erase_of_ne hq]
  · rfl

end Loops

/-- No synchronous work of `ctx` is linked. -/
def NoneWaiting (s : WorkSerializer) (ctx : Nat) : Prop :=
  ∀ p ∈ s.workList, (s.work p).ctx = ctx → (s.work p).state ≠ .waitingForFinish

instance (s : WorkSerializer) (ctx : Nat) : Decidable (s.NoneWaiting ctx) :=
  inferInstanceAs (Decidable (∀ p ∈ s.workList, _))

theorem stopEntry_noneWaiting {ctx : Nat} {b : Bool} (h : s.Inv A O) (hok : s.NoneWaiting ctx) :
    (stopEntry ctx (s, b) p).1.NoneWaiting ctx := by
  simp only [Serializer.stopEntry]
  split
  · intro q hq
    rw [stopWork_workList, touch, h.workNodup.mem_erase_iff] at hq
    rw [work, stopWork_heap hq.1]
    exact hok q hq.2
  · exact hok

/-- The entries that the loop has not reached yet stay linked. -/
theorem stopEntry_mem {ctx : Nat} {b : Bool} (hq : q ≠ p) (hmem : q ∈ s.workList) :
    q ∈ (stopEntry ctx (s, b) p).1.workList := by
  simp only [Serializer.stopEntry]
  split
  · rw [stopWork_workList, touch]
    exact (List.mem_erase_of_ne hq).mpr hmem
  · exact hmem

theorem Inv.stopLoop {ctx : Nat} {b : Bool} {l : List Ptr} (h : s.Inv A O)
    (hok : s.NoneWaiting ctx) (hl : l.Nodup) (hmem : ∀ p ∈ l, p ∈ s.workList) :
    (l.foldl (Serializer.stopEntry ctx) (s, b)).1.Inv A O ∧
      (l.foldl (Serializer.stopEntry ctx) (s, b)).1.NoneWaiting ctx := by
  induction l generalizing s b with
  | nil => exact ⟨h, hok⟩
  | cons p l ih =>
    rw [List.nodup_cons] at hl
    have hp := hmem p List.mem_cons_self
    have hnext := h.stopEntry (b := b) hp (hok p hp)
    refine ih hnext (stopEntry_noneWaiting h hok) hl.2 fun q hq => ?_
    exact stopEntry_mem (fun e => hl.1 (e ▸ hq)) (hmem q (List.mem_cons_of_mem p hq))

theorem Inv.cancelLoop {id key ctx : Nat} {l : List Ptr} (h : s.Inv A O) (hl : l.Nodup)
    (hmem : ∀ p ∈ l, p ∈ s.delayedWorkList) :
    (l.foldl (Serializer.cancelEntry id key ctx) s).Inv A O := by
  induction l generalizing s with
  | nil => exact h
  | cons p l ih =>
    rw [List.nodup_cons] at hl
    refine ih (h.cancelEntry (hmem p List.mem_cons_self)) hl.2 fun q hq => ?_
    have hqp : q ≠ p := fun e => hl.1 (e ▸ hq)
    rw [cancelEntry_delayedWorkList hqp]
    exact hmem q (List.mem_cons_of_mem p hq)

theorem Inv.stopAllByCtx {ctx : Nat} (h : s.Inv A O)
    (hok : t = serializerThread → s.NoneWaiting ctx) :
    (serializerStopAllByCtx s t ctx).2.Inv A O := by
  unfold serializerStopAllByCtx
  split
  · exact h
  · next ht =>
    obtain ⟨hfirst, hnone⟩ := h.stopLoop (b := false) (hok (not_not.mp ht)) h.workNodup
      fun _ hp => hp
    obtain ⟨hsecond, -⟩ := hfirst.stopLoop
      (b := (s.workList.foldl (Serializer.stopEntry ctx) (s, false)).2) hnone
      hfirst.workNodup fun _ hp => hp
    simp only
    split
    · exact hsecond.condWaiters []
    · exact hsecond

theorem Inv.cancelDelayedWork {id key ctx : Nat} (h : s.Inv A O) :
    (serializerCancelDelayedWork s t id key ctx).2.Inv A O := by
  unfold serializerCancelDelayedWork
  split_ifs
  · exact h
  · exact h
  · exact h.cancelLoop h.delayedNodup fun _ hp => hp

theorem Inv.insertWork {tmo : UInt32} {nodeOk : Bool} {woken : Thread} (h : s.Inv A O)
    (hc : s.callers t = .again p tmo) : (insertWork s t p tmo nodeOk woken).Inv A O := by
  have hl := h.again hc
  have hlive : s.Live p := hl.live nofun nofun
  have hdelayed : ∀ before, s.touch (scanned before s.delayedWorkList) = s := fun before =>
    touch_live fun q hq => (h.linkedDelayed (scanned_subset before hq)).live nofun nofun
  have hwork : ∀ before, s.touch (scanned before s.workList) = s := fun before =>
    touch_live fun q hq => by
      rcases h.linked (scanned_subset before hq) with hl | ⟨t, hl⟩ <;> exact hl.live nofun nofun
  have hstates := hl.cell.1
  simp only [Serializer.insertWork, touch_live (show ∀ q ∈ [p], s.Live q by simpa using hlive),
    hdelayed, hwork]
  rcases hstates with hst | hst | hst <;> simp only [work, hst]
  · split_ifs
    · exact h
    · exact h.refuse hc
    · rw [startOrSignal_callReturns]
      exact (h.linkAsync hc hst).startOrSignal woken
  · split_ifs
    · exact h
    · exact h.refuse hc
    · rw [startOrSignal_callReturns]
      exact (h.linkDelayed hc hst (insertBefore_perm _ p _)).startOrSignal woken
  · split_ifs
    · exact h.refuse hc
    · rw [startOrSignal_waits]
      exact ((h.linkSync hc hst (insertBefore_perm _ p _)).startOrSignal woken).condWaiters _

theorem Inv.callerWakes {d : Timespec} {cw : CwRes} (h : s.Inv A O)
    (hc : s.callers t = .waiting p d)
    (hA : A → cw ≠ .ok → (s.work p).state = .waitingForFinish → p ∉ s.workList →
      s.hasFreeFunc p = false) : (callerWakes s t p cw).Inv A O := by
  have hlive : s.Live p := by
    rcases h.waiting hc with hl | hl | hl <;> exact hl.live nofun nofun
  have h' : (s.condUnblock t).Inv A O := h.condWaiters _
  rw [Serializer.callerWakes, touch_live (s := s.condUnblock t) (by simpa using! hlive)]
  split_ifs with hst hcw hp
  · exact h'.condWaiters _
  · exact h'.takeBack hc hp
  · exact h'.abandon hc hst hp fun a => hA a hcw hst hp
  · exact h'.leaveWait hc hst

theorem Inv.callerFinishes {abandoned : Bool} (h : s.Inv A O)
    (hc : s.callers t = .unlocked p abandoned) : (callerFinishes s t p abandoned).Inv A O := by
  cases abandoned with
  | true => exact h.leaveAbandoned hc
  | false =>
    have hl := h.unlocked hc
    have hlive : s.Live p := by rcases hl with hl | hl <;> exact hl.live nofun nofun
    rw [Serializer.callerFinishes, touch_live (by simpa using hlive)]
    rcases hl with hl | hl
    · have hst : (s.work p).state = .done := hl.cell.1
      simp only [Bool.false_eq_true, if_false, hst]
      exact h.finishSync hc (by simp [hst])
    · have hst : (s.work p).state = .waitingForFinish := hl.cell.1
      simp only [Bool.false_eq_true, if_false, hst]
      exact h.finishSync hc (by simp [hst])

theorem Inv.workerTakes (h : s.Inv A O) (hs : s.state = .running) (hidle : s.worker.work? = none) :
    (workerTakes s).Inv A O := by
  have hwait : ∀ d, ({ s with worker := .waiting d }.condBlock serializerThread).Inv A O := fun d =>
    (h.workerIdle (w := .waiting d) hs hidle rfl).condWaiters _
  unfold Serializer.workerTakes
  split
  · next p rest hp =>
    have hlive : s.Live p := by
      rcases h.linked (p := p) (by simp [hp]) with hl | ⟨t, hl⟩ <;> exact hl.live nofun nofun
    rw [touch_live (by simpa using hlive)]
    exact h.takeWork hs hidle hp
  · split
    · exact hwait _
    · next p rest hp =>
      have hlive : s.Live p := (h.linkedDelayed (p := p) (by simp [hp])).live nofun nofun
      rw [touch_live (by simpa using hlive)]
      simp only
      split_ifs
      · exact h.takeDelayed hs hidle hp
      · exact hwait _
      · exact hwait _

theorem Inv.workerWakes {d : Timespec} {cw : CwRes} (h : s.Inv A O) (hw : s.worker = .waiting d) :
    (workerWakes s cw).Inv A O := by
  have hs : s.state = .running := h.running (by simp [hw])
  have hidle : s.worker.work? = none := by rw [hw]; rfl
  have h' : (s.condUnblock serializerThread).Inv A O := h.condWaiters _
  cases cw with
  | ok => exact h'.workerTakes hs hidle
  | timedOut => exact h'.workerIdle hs hidle rfl
  | failed => exact h'.workerIdle hs hidle rfl

theorem CanCall.idle (h : s.CanCall t) : s.callers t = .idle := by
  unfold CanCall at h
  split at h
  · next ht => exact ht ▸ h.1
  · exact h

end WorkSerializer

/-- The step is not a `serializer_stop_all_by_ctx` that stops a synchronous work. -/
def StopsNoneWaiting (s : WorkSerializer) : Action → Prop
  | .stopAllByCtx t ctx => t = serializerThread → s.NoneWaiting ctx
  | _ => True

instance (s : WorkSerializer) (a : Action) : Decidable (StopsNoneWaiting s a) := by
  cases a <;> unfold StopsNoneWaiting <;> infer_instance

/-- The step is not that of a synchronous caller that gives up on its work while the thread of the
serializer executes it, if the object of the work is to be freed. -/
def GivesUpNone (s : WorkSerializer) : Action → Prop
  | .callerWakes t cw =>
    match s.callers t with
    | .waiting p _ =>
      cw ≠ .ok → (s.work p).state = .waitingForFinish → p ∉ s.workList → s.hasFreeFunc p = false
    | _ => True
  | _ => True

instance (s : WorkSerializer) (a : Action) : Decidable (GivesUpNone s a) := by
  unfold GivesUpNone
  split
  · split <;> infer_instance
  · infer_instance

/-- What a step does, with the phases in which it can be taken. -/
inductive Stepped (s : WorkSerializer) : Action → WorkSerializer → Prop where
  | ticks (now : Timespec) : Stepped s (.tick now) { s with clock := now }
  | refused (a : Action) : Stepped s a s
  | created {a : Action} {t : Thread} {id obj ctx : Nat} {state : WorkState} {ts : Timespec}
      {tmo : UInt32} (hidle : s.callers t = .idle)
      (hst : state = .async ∨ state = .delayed ∨ t ≠ serializerThread ∧ state = .waitingForFinish) :
      Stepped s a (createNewWork s t id obj ctx state ts tmo)
  | inserted {t : Thread} {p : Ptr} {tmo : UInt32} {nodeOk : Bool} {woken : Thread}
      (hc : s.callers t = .again p tmo) :
      Stepped s (.insert t nodeOk woken) (insertWork s t p tmo nodeOk woken)
  | freed {t : Thread} {p : Ptr} (hc : s.callers t = .insertErr p) :
      Stepped s (.freeUninserted t) (freeUninserted s t p)
  | callerWoke {t : Thread} {p : Ptr} {d : Timespec} {cw : CwRes}
      (hc : s.callers t = .waiting p d) : Stepped s (.callerWakes t cw) (callerWakes s t p cw)
  | callerFinished {t : Thread} {p : Ptr} {abandoned : Bool}
      (hc : s.callers t = .unlocked p abandoned) :
      Stepped s (.callerFinishes t) (callerFinishes s t p abandoned)
  | workerTook (hw : s.worker = .top) : Stepped s .workerTakes (workerTakes s)
  | workerWoke {d : Timespec} {cw : CwRes} (hw : s.worker = .waiting d) :
      Stepped s (.workerWakes cw) (workerWakes s cw)
  | workFuncReturned {p : Ptr} {workRes : Int} (hw : s.worker = .working p) :
      Stepped s (.workFuncReturns workRes) (workFuncReturns s p workRes)
  | freeFuncReturned {p : Ptr} {workRes : Int} (hw : s.worker = .freeing p workRes) :
      Stepped s .freeFuncReturns { s with worker := .finishing p workRes }
  | workFinished {p : Ptr} {workRes : Int} (hw : s.worker = .finishing p workRes) :
      Stepped s .workDone (workDone s p workRes)
  | cancelled {t : Thread} {id key ctx : Nat} :
      Stepped s (.cancelDelayedWork t id key ctx) (serializerCancelDelayedWork s t id key ctx).2
  | stopped {t : Thread} {ctx : Nat} :
      Stepped s (.stopAllByCtx t ctx) (serializerStopAllByCtx s t ctx).2

theorem step_stepped {s s' : WorkSerializer} {a : Action} (hstep : step s a = some s') :
    Stepped s a s' := by
  cases a with
  | tick now =>
    cases hstep
    exact .ticks now
  | execWork t id obj ctx tmo mallocOk =>
    simp only [step] at hstep
    split at hstep
    · next hcan =>
      cases hstep
      unfold serializerExecWork
      split_ifs with _ hself
      · exact .refused _
      · exact .refused _
      · exact .refused _
      · exact .created hcan.idle (.inr (.inr ⟨hself, rfl⟩))
    · cases hstep
  | execWorkAsync t id obj ctx mallocOk =>
    simp only [step] at hstep
    split at hstep
    · next hcan =>
      cases hstep
      unfold serializerExecWorkAsync
      split_ifs
      · exact .refused _
      · exact .refused _
      · exact .created hcan.idle (.inl rfl)
    · cases hstep
  | addDelayedWork t id obj ctx secs msecs mallocOk =>
    simp only [step] at hstep
    split at hstep
    · next hcan =>
      cases hstep
      unfold serializerAddDelayedWork
      split_ifs
      · exact .refused _
      · exact .refused _
      · exact .created hcan.idle (.inr (.inl rfl))
    · cases hstep
  | insert t nodeOk woken =>
    simp only [step] at hstep
    split at hstep
    · next hc =>
      cases hstep
      exact .inserted hc
    · cases hstep
  | freeUninserted t =>
    simp only [step] at hstep
    split at hstep
    · next hc =>
      cases hstep
      exact .freed hc
    · cases hstep
  | callerWakes t cw =>
    simp only [step] at hstep
    split at hstep
    · next hc =>
      split at hstep <;> cases hstep
      exact .callerWoke hc
    · cases hstep
  | callerFinishes t =>
    simp only [step] at hstep
    split at hstep
    · next hc =>
      cases hstep
      exact .callerFinished hc
    · cases hstep
  | workerTakes =>
    simp only [step] at hstep
    split at hstep
    · next hw =>
      cases hstep
      exact .workerTook hw
    · cases hstep
  | workerWakes cw =>
    simp only [step] at hstep
    split at hstep
    · next hw =>
      split at hstep <;> cases hstep
      exact .workerWoke hw
    · cases hstep
  | workFuncReturns workRes =>
    simp only [step] at hstep
    split at hstep
    · next hw =>
      split at hstep <;> cases hstep
      exact .workFuncReturned hw
    · cases hstep
  | freeFuncReturns =>
    simp only [step] at hstep
    split at hstep
    · next hw =>
      split at hstep <;> cases hstep
      exact .freeFuncReturned hw
    · cases hstep
  | workDone =>
    simp only [step] at hstep
    split at hstep
    · next hw =>
      cases hstep
      exact .workFinished hw
    · cases hstep
  | cancelDelayedWork t id key ctx =>
    simp only [step] at hstep
    split at hstep <;> cases hstep
    exact .cancelled
  | stopAllByCtx t ctx =>
    simp only [step] at hstep
    split at hstep <;> cases hstep
    exact .stopped

open WorkSerializer in
theorem step_inv {A : Prop} {O : List WorkOps} {s s' : WorkSerializer} {a : Action} (h : s.Inv A O)
    (hok : StopsNoneWaiting s a) (hA : A → GivesUpNone s a) (hstep : step s a = some s') :
    s'.Inv A O := by
  cases step_stepped hstep with
  | ticks now => exact h.clock now
  | refused => exact h
  | created hidle hst => exact createNewWork_inv h hidle (hst.imp_right (Or.imp_right And.right))
  | inserted hc => exact h.insertWork hc
  | freed hc => exact freeUninserted_inv h hc
  | callerWoke hc => exact h.callerWakes hc fun hnone => by simpa [GivesUpNone, hc] using hA hnone
  | callerFinished hc => exact h.callerFinishes hc
  | workerTook hw => exact h.workerTakes (h.running (by simp [hw])) (by rw [hw]; rfl)
  | workerWoke hw => exact h.workerWakes hw
  | workFuncReturned hw => exact h.workFuncReturns hw
  | freeFuncReturned hw => exact h.freeFuncReturns hw
  | workFinished hw => exact h.workDone hw
  | cancelled => exact h.cancelDelayedWork
  | stopped => exact h.stopAllByCtx hok

theorem serializerCreate_inv (A : Prop) (ops : List WorkOps) (startNow : Bool) :
    (serializerCreate ops startNow).Inv A ops where
  ops := rfl
  lives p := ⟨.unborn, by
    constructor <;> simp [serializerCreate, Life.owner, Life.caller, Life.Holds, CallPhase.work?]
    cases startNow <;> simp [WorkerPhase.work?]⟩
  workNodup := List.nodup_nil
  delayedNodup := List.nodup_nil
  faults := rfl
  paused := by cases startNow <;> simp [serializerCreate]
  gaveUp t p hc := by simp [serializerCreate] at hc

end Dwpal.Serializer
