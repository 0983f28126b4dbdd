import Dwpal.Serializer.Model
import Mathlib.Data.List.Perm.Basic

/-! The life of a `work_t`: the stations it passes from its `malloc` to its `free`, who owns it at
each of them, and the invariant that every work is at exactly one station. -/

namespace Dwpal.Serializer

open Dwpal.Machine

inductive Owner where
  | workList
  | delayedWorkList
  | worker
  | caller (t : Thread)
deriving DecidableEq, Repr

/-- The work that the thread of the serializer executes. -/
def WorkerPhase.work? : WorkerPhase → Option Ptr
  | .working p | .freeing p _ | .finishing p _ => some p
  | _ => none

/-- The work that a thread in `_serializer_exec_work` may still read, write or free. -/
def CallPhase.work? : CallPhase → Option Ptr
  | .idle | .unlocked _ true => none
  | .again p _ | .waiting p _ | .unlocked p false | .insertErr p => some p

/-- The work that the thread's call was made for. -/
def CallPhase.subject : CallPhase → Option Ptr
  | .idle => none
  | .again p _ | .waiting p _ | .unlocked p _ | .insertErr p => some p

theorem CallPhase.subject_of_work? {ph : CallPhase} {p : Ptr} (h : ph.work? = some p) :
    ph.subject = some p := by
  cases ph with
  | unlocked q abandoned => cases abandoned <;> simp_all [work?, subject]
  | _ => simp_all [work?, subject]

namespace WorkSerializer

variable (s : WorkSerializer)

/-- The work that thread `t` has to free. A waiting caller owns its work once the work is done or
aborted; before that the list or the thread of the serializer does. -/
def callerOwns (t : Thread) : Option Ptr :=
  match s.callers t with
  | .waiting p _ =>
    if (s.work p).state = .done ∨ (s.work p).state = .aborted then some p else none
  | ph => ph.work?

def Owns : Owner → Ptr → Prop
  | .workList, p => p ∈ s.workList
  | .delayedWorkList, p => p ∈ s.delayedWorkList
  | .worker, p => s.worker.work? = some p
  | .caller t, p => s.callerOwns t = some p

/-- Every work that was created is freed once and owned by nobody, or not freed and owned by one
list or thread; no work was used after its `free`, freed twice or freed while it was linked. -/
def LifetimeLaw : Prop :=
  s.faults = [] ∧
    ∀ p < s.next, ((s.heap p).frees = 1 ∧ ∀ o, ¬ s.Owns o p) ∨
      ((s.heap p).frees = 0 ∧ ∃! o, s.Owns o p)

end WorkSerializer

/-- The stations of a work: not created; with its creator before it is linked, or after linking it
failed; linked, and whether a synchronous caller waits for it; taken by the thread of the
serializer, for nobody, for a waiting caller or for a caller that gave up; executed, with its caller
still to read the result; taken back by its caller at the timeout; freed. -/
inductive Life where
  | unborn
  | created (t : Thread)
  | refused (t : Thread)
  | queued
  | queuedFor (t : Thread)
  | scheduled
  | executing
  | executingFor (t : Thread)
  | abandoned
  | done (t : Thread)
  | takenBack (t : Thread)
  | freed
deriving DecidableEq, Repr

namespace Life

def owner : Life → Option Owner
  | unborn | freed => none
  | created t | refused t | done t | takenBack t => some (.caller t)
  | queued | queuedFor _ => some .workList
  | scheduled => some .delayedWorkList
  | executing | executingFor _ | abandoned => some .worker

/-- The thread that may still come back to the work. -/
def caller : Life → Option Thread
  | created t | refused t | queuedFor t | executingFor t | done t | takenBack t => some t
  | _ => none

/-- Where that thread is. -/
def Phase : Life → CallPhase → Prop
  | created _, .again _ _ => True
  | refused _, .insertErr _ => True
  | queuedFor _, .waiting _ _ | executingFor _, .waiting _ _ => True
  | done _, .waiting _ _ | done _, .unlocked _ _ => True
  | takenBack _, .unlocked _ _ => True
  | _, _ => False

/-- The work's state, what its call has returned and how often `free_func` was called, `h` times
being what its execution, cancelling or stopping calls for and `n` times what the thread of the
serializer has called it if it holds the work. Under `A` no caller gives up on a work whose object
is to be freed. -/
def Holds (A : Prop) (h n : Nat) (c : Cell) : Life → Prop
  | unborn => True
  | created _ =>
    (c.work.state = .async ∨ c.work.state = .delayed ∨ c.work.state = .waitingForFinish) ∧
      c.ret = none ∧ c.freeFuncs = 0 ∧ c.settled = false
  | refused _ => c.work.state ≠ .abandoned ∧ c.ret = none ∧ c.freeFuncs = 0 ∧ c.settled = false
  | queued => c.work.state = .async ∧ c.ret = some 0 ∧ c.freeFuncs = 0 ∧ c.settled = false
  | scheduled => c.work.state = .delayed ∧ c.ret = some 0 ∧ c.freeFuncs = 0 ∧ c.settled = false
  | queuedFor _ | takenBack _ =>
    c.work.state = .waitingForFinish ∧ c.ret = none ∧ c.freeFuncs = 0 ∧ c.settled = false
  | executing =>
    (c.work.state = .async ∨ c.work.state = .delayed) ∧ c.ret = some 0 ∧ c.freeFuncs = n ∧
      c.settled = false
  | executingFor _ =>
    c.work.state = .waitingForFinish ∧ c.ret = none ∧ c.freeFuncs = n ∧ c.settled = false
  | abandoned =>
    c.work.state = .abandoned ∧ (c.ret = none ∨ c.ret = some 1) ∧ c.freeFuncs = n ∧
      c.settled = false ∧ (A → h = 0)
  | done _ => c.work.state = .done ∧ c.ret = none ∧ c.freeFuncs = h ∧ c.settled = true
  | freed =>
    (c.work.state = .abandoned ∧ (c.ret = none ∨ c.ret = some 1) ∧ c.freeFuncs = h ∧
        c.settled = true ∧ (A → h = 0)) ∨
      (c.work.state ≠ .abandoned ∧ c.ret = some 0 ∧ c.freeFuncs = h ∧ c.settled = true) ∨
      (c.work.state ≠ .abandoned ∧ c.ret = some 1 ∧ c.freeFuncs = 0 ∧ c.settled = false)

end Life

namespace WorkSerializer

variable (s : WorkSerializer)

/-- How often `free_func` is to be called on the object of `p`. -/
def owedFreeFuncs (p : Ptr) : Nat := (s.hasFreeFunc p).toNat

/-- How often the thread of the serializer has called `free_func` on the object of the work `p` it
executes. -/
def workerFreeFuncs (p : Ptr) : Nat :=
  match s.worker with
  | .working _ => 0
  | _ => s.owedFreeFuncs p

/-- The work `p` is at station `l`. -/
structure At (A : Prop) (p : Ptr) (l : Life) : Prop where
  born : p < s.next ↔ l ≠ .unborn
  workList : p ∈ s.workList ↔ l.owner = some .workList
  delayedWorkList : p ∈ s.delayedWorkList ↔ l.owner = some .delayedWorkList
  worker : s.worker.work? = some p ↔ l.owner = some .worker
  callers : ∀ t, (s.callers t).work? = some p ↔ l.caller = some t
  phase : ∀ t, l.caller = some t → l.Phase (s.callers t)
  frees : l ≠ .unborn → (s.heap p).frees = if l = .freed then 1 else 0
  cell : l.Holds A (s.owedFreeFuncs p) (s.workerFreeFuncs p) (s.heap p)

/-- What holds between any two steps of a serializer with the operations `O`. -/
structure Inv (A : Prop) (O : List WorkOps) : Prop where
  ops : s.ops = O
  lives : ∀ p, ∃ l, s.At A p l
  workNodup : s.workList.Nodup
  delayedNodup : s.delayedWorkList.Nodup
  faults : s.faults = []
  paused : s.state = .paused → s.worker = .notCreated
  gaveUp : ∀ t p, s.callers t = .unlocked p true → p < s.next ∧ (s.work p).state = .abandoned

/-- Nothing that concerns the work `q` differs between `s` and `s'`. -/
structure SameAt (s s' : WorkSerializer) (q : Ptr) : Prop where
  ops : s'.ops = s.ops
  born : q < s'.next ↔ q < s.next
  workList : q ∈ s'.workList ↔ q ∈ s.workList
  delayedWorkList : q ∈ s'.delayedWorkList ↔ q ∈ s.delayedWorkList
  worker : s'.worker = s.worker ∨ s'.worker.work? ≠ some q ∧ s.worker.work? ≠ some q
  callers : ∀ t, s'.callers t = s.callers t ∨
    (s'.callers t).subject ≠ some q ∧ (s.callers t).subject ≠ some q
  cell : s'.heap q = s.heap q

variable {A : Prop} {O : List WorkOps} {s} {s' : WorkSerializer} {p q : Ptr} {t : Thread} {l : Life}

theorem SameAt.worker_work? (h : SameAt s s' q) :
    s'.worker.work? = some q ↔ s.worker.work? = some q := by
  rcases h.worker with hw | ⟨hw', hw⟩
  · rw [hw]
  · exact iff_of_false hw' hw

theorem SameAt.callers_eq (h : SameAt s s' q) {ph : CallPhase} (hph : ph.subject = some q)
    (t : Thread) : s'.callers t = ph ↔ s.callers t = ph := by
  rcases h.callers t with hc | ⟨hc', hc⟩
  · rw [hc]
  · exact iff_of_false (fun e => hc' (e ▸ hph)) (fun e => hc (e ▸ hph))

theorem SameAt.callers_work? (h : SameAt s s' q) (t : Thread) :
    (s'.callers t).work? = some q ↔ (s.callers t).work? = some q := by
  rcases h.callers t with hc | ⟨hc', hc⟩
  · rw [hc]
  · exact iff_of_false (fun e => hc' (CallPhase.subject_of_work? e))
      (fun e => hc (CallPhase.subject_of_work? e))

theorem SameAt.owedFreeFuncs (h : SameAt s s' q) : s'.owedFreeFuncs q = s.owedFreeFuncs q := by
  rw [WorkSerializer.owedFreeFuncs, WorkSerializer.owedFreeFuncs, hasFreeFunc, hasFreeFunc, work,
    work, h.ops, h.cell]

theorem SameAt.workerFreeFuncs (h : SameAt s s' q) (hq : s.worker.work? = some q) :
    s'.workerFreeFuncs q = s.workerFreeFuncs q := by
  have hw : s'.worker = s.worker := h.worker.resolve_right fun hne => hne.2 hq
  simp only [WorkSerializer.workerFreeFuncs, hw, h.owedFreeFuncs]

/-- A step that concerns another work leaves the work where it is. -/
theorem At.same (hl : s.At A q l) (h : SameAt s s' q) : s'.At A q l where
  born := h.born.trans hl.born
  workList := h.workList.trans hl.workList
  delayedWorkList := h.delayedWorkList.trans hl.delayedWorkList
  worker := h.worker_work?.trans hl.worker
  callers t := (h.callers_work? t).trans (hl.callers t)
  phase t ht := by
    have hw := CallPhase.subject_of_work? ((hl.callers t).mpr ht)
    rw [(h.callers_eq hw t).mpr rfl]
    exact hl.phase t ht
  frees hne := by
    rw [h.cell]
    exact hl.frees hne
  cell := by
    rw [h.cell, h.owedFreeFuncs]
    by_cases hq : s.worker.work? = some q
    · rw [h.workerFreeFuncs hq]
      exact hl.cell
    · have howner := hl.worker
      cases l <;> simp_all [Life.owner, Life.Holds]
      all_goals exact hl.cell

theorem callerOwns_work? (h : s.callerOwns t = some p) : (s.callers t).work? = some p := by
  unfold callerOwns at h
  split at h
  · next q d hc =>
    rw [hc]
    exact (Option.ite_none_right_eq_some.mp h).2
  · exact h

theorem At.owns (hl : s.At A p l) (o : Owner) : s.Owns o p ↔ l.owner = some o := by
  cases o with
  | workList => exact hl.workList
  | delayedWorkList => exact hl.delayedWorkList
  | worker => exact hl.worker
  | caller t =>
    show s.callerOwns t = some p ↔ l.owner = some (.caller t)
    by_cases ht : l.caller = some t
    · have hwork := (hl.callers t).mpr ht
      have hphase := hl.phase t ht
      have hcell := hl.cell
      cases l <;> cases hc : s.callers t <;>
        simp_all [Life.caller, Life.Phase, Life.owner, Life.Holds, CallPhase.work?, callerOwns,
          work]
    · refine ⟨fun h => absurd ((hl.callers t).mp (callerOwns_work? h)) ht, fun h => absurd ?_ ht⟩
      cases l <;> simp_all [Life.caller, Life.owner]

/-- A work that exists and is not freed is live. -/
theorem At.live (hl : s.At A p l) (hb : l ≠ .unborn) (hf : l ≠ .freed) : s.Live p :=
  ⟨hl.born.mpr hb, by simpa [hf] using hl.frees hb⟩

/-! What a work in a given place says about its station. -/

theorem Inv.station (h : s.Inv A O) (hc : (s.callers t).work? = some p) :
    ∃ l, s.At A p l ∧ l.caller = some t ∧ l.Phase (s.callers t) := by
  obtain ⟨l, hl⟩ := h.lives p
  have ht := (hl.callers t).mp hc
  exact ⟨l, hl, ht, hl.phase t ht⟩

theorem Inv.again {tmo : UInt32} (h : s.Inv A O) (hc : s.callers t = .again p tmo) :
    s.At A p (.created t) := by
  obtain ⟨l, hl, ht, hphase⟩ := h.station (p := p) (t := t) (by rw [hc]; rfl)
  rw [hc] at hphase
  cases l <;> simp_all [Life.caller, Life.Phase]

theorem Inv.insertErr (h : s.Inv A O) (hc : s.callers t = .insertErr p) :
    s.At A p (.refused t) := by
  obtain ⟨l, hl, ht, hphase⟩ := h.station (p := p) (t := t) (by rw [hc]; rfl)
  rw [hc] at hphase
  cases l <;> simp_all [Life.caller, Life.Phase]

theorem Inv.waiting {d : Timespec} (h : s.Inv A O) (hc : s.callers t = .waiting p d) :
    s.At A p (.queuedFor t) ∨ s.At A p (.executingFor t) ∨ s.At A p (.done t) := by
  obtain ⟨l, hl, ht, hphase⟩ := h.station (p := p) (t := t) (by rw [hc]; rfl)
  rw [hc] at hphase
  cases l <;> simp_all [Life.caller, Life.Phase]

theorem Inv.unlocked (h : s.Inv A O) (hc : s.callers t = .unlocked p false) :
    s.At A p (.done t) ∨ s.At A p (.takenBack t) := by
  obtain ⟨l, hl, ht, hphase⟩ := h.station (p := p) (t := t) (by rw [hc]; rfl)
  rw [hc] at hphase
  cases l <;> simp_all [Life.caller, Life.Phase]

theorem Inv.linked (h : s.Inv A O) (hp : p ∈ s.workList) :
    s.At A p .queued ∨ ∃ t, s.At A p (.queuedFor t) := by
  obtain ⟨l, hl⟩ := h.lives p
  have howner := hl.workList.mp hp
  cases l <;> simp_all [Life.owner]
  exact .inr ⟨_, hl⟩

theorem Inv.linkedDelayed (h : s.Inv A O) (hp : p ∈ s.delayedWorkList) : s.At A p .scheduled := by
  obtain ⟨l, hl⟩ := h.lives p
  have howner := hl.delayedWorkList.mp hp
  cases l <;> simp_all [Life.owner]

theorem Inv.executed (h : s.Inv A O) (hp : s.worker.work? = some p) :
    s.At A p .executing ∨ (∃ t, s.At A p (.executingFor t)) ∨ s.At A p .abandoned := by
  obtain ⟨l, hl⟩ := h.lives p
  have howner := hl.worker.mp hp
  cases l <;> simp_all [Life.owner]
  exact .inr (.inl ⟨_, hl⟩)

/-- A step that concerns only the work `p` keeps the invariant if it leaves `p` at a station. -/
theorem Inv.focus (h : s.Inv A O) (p : Ptr) (hsame : ∀ q, q ≠ p → SameAt s s' q) (hp : s'.At A p l)
    (hwork : s'.workList.Nodup) (hdelayed : s'.delayedWorkList.Nodup) (hfaults : s'.faults = [])
    (hpaused : s'.state = .paused → s'.worker = .notCreated)
    (hgaveUp : ∀ t, s'.callers t = .unlocked p true →
      p < s'.next ∧ (s'.work p).state = .abandoned) : s'.Inv A O where
  ops := (hsame (p + 1) (Nat.succ_ne_self p)).ops.trans h.ops
  lives q := by
    by_cases hq : q = p
    · exact ⟨l, hq ▸ hp⟩
    · obtain ⟨lq, hlq⟩ := h.lives q
      exact ⟨lq, hlq.same (hsame q hq)⟩
  workNodup := hwork
  delayedNodup := hdelayed
  faults := hfaults
  paused := hpaused
  gaveUp t q hc := by
    by_cases hq : q = p
    · subst hq
      exact hgaveUp t hc
    · have hs := hsame q hq
      have := h.gaveUp t q ((hs.callers_eq rfl t).mp hc)
      rwa [hs.born, work, hs.cell]

end WorkSerializer

end Dwpal.Serializer
