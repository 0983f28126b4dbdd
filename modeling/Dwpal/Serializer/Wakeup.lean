import Dwpal.Serializer.Steps

/-! Wakeups: the thread of the serializer and the synchronous callers block on one condition
variable, and `pthread_cond_signal` wakes any one of those blocked. The invariant is that while the
thread of the serializer is blocked it is the only one, so that no signal goes to another. -/

namespace Dwpal.Serializer

open Dwpal.Machine WorkSerializer

/-- The work of a call that has not left its wait. -/
def CallPhase.pending : CallPhase → Option Ptr
  | .again p _ | .waiting p _ => some p
  | _ => none

/-- What decides who blocks and who is woken. -/
structure View where
  state : SerializerState
  next : Ptr
  workList : List Ptr
  delayedWorkList : List Ptr
  condWaiters : List Thread
  work : Ptr → Work
  callers : Thread → CallPhase
  worker : WorkerPhase

def WorkSerializer.view (s : WorkSerializer) : View where
  state := s.state
  next := s.next
  workList := s.workList
  delayedWorkList := s.delayedWorkList
  condWaiters := s.condWaiters
  work := s.work
  callers := s.callers
  worker := s.worker

namespace View

/-- Linked works, works under execution and works of calls have distinct addresses where it matters,
a caller that is blocked waits for a work that is linked or under execution, and the thread of the
serializer is blocked only while there is nothing to take before its deadline. -/
structure WakeInv (v : View) : Prop where
  fresh_work : ∀ p ∈ v.workList, p < v.next
  fresh_delayed : ∀ p ∈ v.delayedWorkList, p < v.next
  fresh_caller : ∀ t p, (v.callers t).pending = some p → p < v.next
  fresh_worker : ∀ p, v.worker.work? = some p → p < v.next
  unique : ∀ t t' p, (v.callers t).pending = some p → (v.callers t').pending = some p → t = t'
  again_unlinked : ∀ t p m, v.callers t = .again p m →
    p ∉ v.workList ∧ p ∉ v.delayedWorkList ∧ v.worker.work? ≠ some p
  again_state : ∀ t p m, v.callers t = .again p m → (v.work p).state = .async ∨
    (v.work p).state = .delayed ∨ t ≠ serializerThread ∧ (v.work p).state = .waitingForFinish
  waiting_caller : ∀ t p d, v.callers t = .waiting p d → t ≠ serializerThread
  waiting_linked : ∀ t p d, v.callers t = .waiting p d → (v.work p).state = .waitingForFinish →
    p ∈ v.workList ∨ v.worker.work? = some p
  waiting_woken : ∀ t p d, v.callers t = .waiting p d → (v.work p).state ≠ .waitingForFinish →
    t ∉ v.condWaiters
  waiters_caller : ∀ t ∈ v.condWaiters, t ≠ serializerThread → ∃ p d, v.callers t = .waiting p d
  waiters_worker : serializerThread ∈ v.condWaiters → ∃ d, v.worker = .waiting d
  nodup : v.condWaiters.Nodup
  blocked_work : serializerThread ∈ v.condWaiters → v.workList = []
  blocked_delayed : serializerThread ∈ v.condWaiters → ∀ d, v.worker = .waiting d →
    ∀ p ∈ v.delayedWorkList, isDelayedWorkBefore (v.work p) d = false
  sorted : v.delayedWorkList.Pairwise fun p q =>
    isDelayedWorkBefore (v.work q) (v.work p).ts = false
  paused : v.state = .paused → v.worker = .notCreated

/-- `pthread_cond_signal`, or the start of a paused serializer. -/
def signal (v : View) (woken : Thread) : View :=
  { v with
    state := .running
    condWaiters := if v.state = .paused then v.condWaiters else v.condWaiters.erase woken
    worker := if v.state = .paused then .top else v.worker }

variable {v : View} {t woken : Thread} {p : Ptr} {tmo : UInt32} {d : Timespec}

theorem WakeInv.wake (h : v.WakeInv) {ws : List Thread} (hsub : ws.Sublist v.condWaiters) :
    { v with condWaiters := ws }.WakeInv :=
  { h with
    waiting_woken := fun t p d hc hst hmem => h.waiting_woken t p d hc hst (hsub.subset hmem)
    waiters_caller := fun t ht => h.waiters_caller t (hsub.subset ht)
    waiters_worker := fun ht => h.waiters_worker (hsub.subset ht)
    nodup := h.nodup.sublist hsub
    blocked_work := fun ht => h.blocked_work (hsub.subset ht)
    blocked_delayed := fun ht => h.blocked_delayed (hsub.subset ht) }

/-- While the thread of the serializer is blocked, no caller is. -/
theorem WakeInv.only_waiter (h : v.WakeInv) (hw : serializerThread ∈ v.condWaiters) :
    v.condWaiters = [serializerThread] := by
  obtain ⟨d, hworker⟩ := h.waiters_worker hw
  have hall : ∀ t ∈ v.condWaiters, t = serializerThread := by
    intro t ht
    by_contra hne
    obtain ⟨p, d', hc⟩ := h.waiters_caller t ht hne
    by_cases hst : (v.work p).state = .waitingForFinish
    · rcases h.waiting_linked t p d' hc hst with hmem | hexec
      · rw [h.blocked_work hw] at hmem
        cases hmem
      · rw [hworker] at hexec
        cases hexec
    · exact h.waiting_woken t p d' hc hst ht
  match hlist : v.condWaiters, hw, hall, h.nodup with
  | [t], _, hall, _ => rw [hall t List.mem_cons_self]
  | t :: t' :: ts, _, hall, hnodup =>
    have ht := hall t List.mem_cons_self
    have ht' := hall t' (List.mem_cons_of_mem t List.mem_cons_self)
    subst ht'
    subst ht
    simp at hnodup

theorem WakeInv.worker_awake (h : v.WakeInv) (hw : ∀ d, v.worker ≠ .waiting d) :
    serializerThread ∉ v.condWaiters := fun hmem =>
  have ⟨d, hd⟩ := h.waiters_worker hmem
  hw d hd

theorem signal_paused (hs : v.state = .paused) (woken : Thread) :
    v.signal woken = { v with state := .running, worker := .top } := by
  simp [View.signal, hs]

theorem signal_running (hs : v.state = .running) (woken : Thread) :
    v.signal woken = { v with condWaiters := v.condWaiters.erase woken } := by
  cases v
  cases hs
  simp [View.signal]

theorem WakeInv.awake_unless_waiting (h : v.WakeInv) (hc : ∀ p d, v.callers t ≠ .waiting p d) :
    t ∉ v.condWaiters ∨ t = serializerThread := by
  by_contra hcon
  obtain ⟨hmem, hne⟩ := not_or.mp hcon
  obtain ⟨p, d, hwait⟩ := h.waiters_caller t (not_not.mp hmem) hne
  exact hc p d hwait

theorem WakeInv.signal (h : v.WakeInv) (woken : Thread) : (v.signal woken).WakeInv := by
  cases hs : v.state with
  | paused =>
    have hidle := h.paused hs
    have hawake := h.worker_awake (by simp [hidle])
    rw [signal_paused hs]
    exact { h with
      fresh_worker := nofun
      again_unlinked := fun t p m hc =>
        have ⟨hwork, hdelayed, _⟩ := h.again_unlinked t p m hc
        ⟨hwork, hdelayed, nofun⟩
      waiting_linked := fun t p d hc hst => by
        have := h.waiting_linked t p d hc hst
        rwa [hidle] at this
      waiters_worker := fun hmem => absurd hmem hawake
      blocked_delayed := fun hmem => absurd hmem hawake
      paused := nofun }
  | running =>
    rw [signal_running hs]
    exact h.wake List.erase_sublist

/-- A signal that goes to one of the threads blocked, if there are any, leaves the thread of the
serializer awake. -/
theorem WakeInv.signal_wakes (h : v.WakeInv) (hwoken : v.condWaiters = [] ∨ woken ∈ v.condWaiters) :
    serializerThread ∉ (v.signal woken).condWaiters := by
  cases hs : v.state with
  | paused =>
    rw [signal_paused hs]
    exact h.worker_awake (by simp [h.paused hs])
  | running =>
    rw [signal_running hs]
    by_cases hw : serializerThread ∈ v.condWaiters
    · have honly := h.only_waiter hw
      have heq : woken = serializerThread := by
        rcases hwoken with hnil | hmem
        · rw [hnil] at hw
          cases hw
        · rw [honly] at hmem
          exact List.mem_singleton.mp hmem
      simp [honly, heq]
    · exact fun hmem => hw (List.mem_of_mem_erase hmem)

theorem callers_cases {f : Thread → CallPhase} {ph ph' : CallPhase} {t' : Thread}
    (h : Function.update f t ph t' = ph') : t' = t ∧ ph = ph' ∨ t' ≠ t ∧ f t' = ph' := by
  by_cases ht : t' = t
  · subst ht
    rw [Function.update_self] at h
    exact .inl ⟨rfl, h⟩
  · rw [Function.update_of_ne ht] at h
    exact .inr ⟨ht, h⟩

/-- A thread that is not blocked leaves the phases in which a call waits or is about to. -/
theorem WakeInv.retire (h : v.WakeInv) (ht : t ∉ v.condWaiters ∨ t = serializerThread)
    (ph : CallPhase) (hph : ph.pending = none) :
    { v with callers := Function.update v.callers t ph }.WakeInv := by
  have hentry : ∀ t' p, (Function.update v.callers t ph t').pending = some p →
      (v.callers t').pending = some p := by
    intro t' p hp
    rcases callers_cases (rfl : Function.update v.callers t ph t' = _) with ⟨-, heq⟩ | ⟨-, heq⟩
    · rw [← heq, hph] at hp
      cases hp
    · exact heq ▸ hp
  have hagain : ∀ t' p m, Function.update v.callers t ph t' = .again p m →
      v.callers t' = .again p m := by
    intro t' p m hc
    rcases callers_cases hc with ⟨-, rfl⟩ | ⟨-, hc⟩
    · cases hph
    · exact hc
  have hwaiting : ∀ t' p d, Function.update v.callers t ph t' = .waiting p d →
      v.callers t' = .waiting p d := by
    intro t' p d hc
    rcases callers_cases hc with ⟨-, rfl⟩ | ⟨-, hc⟩
    · cases hph
    · exact hc
  exact { h with
    fresh_caller := fun t' p hp => h.fresh_caller t' p (hentry t' p hp)
    unique := fun t1 t2 p h1 h2 => h.unique t1 t2 p (hentry t1 p h1) (hentry t2 p h2)
    again_unlinked := fun t' p m hc => h.again_unlinked t' p m (hagain t' p m hc)
    again_state := fun t' p m hc => h.again_state t' p m (hagain t' p m hc)
    waiting_caller := fun t' p d hc => h.waiting_caller t' p d (hwaiting t' p d hc)
    waiting_linked := fun t' p d hc => h.waiting_linked t' p d (hwaiting t' p d hc)
    waiting_woken := fun t' p d hc => h.waiting_woken t' p d (hwaiting t' p d hc)
    waiters_caller := fun t' hmem hne => by
      obtain ⟨p, d, hc⟩ := h.waiters_caller t' hmem hne
      refine ⟨p, d, (Function.update_of_ne ?_ ..).trans hc⟩
      rintro rfl
      exact ht.elim (fun hnot => hnot hmem) hne }

/-- A thread that is in no call is about to link a new work. -/
theorem WakeInv.enter (h : v.WakeInv) (ht : t ∉ v.condWaiters ∨ t = serializerThread)
    (hp : ∀ t' q, (v.callers t').pending = some q → q ≠ p) (hnew : p < v.next)
    (hwork : p ∉ v.workList) (hdelayed : p ∉ v.delayedWorkList) (hexec : v.worker.work? ≠ some p)
    (hst : (v.work p).state = .async ∨ (v.work p).state = .delayed ∨
      t ≠ serializerThread ∧ (v.work p).state = .waitingForFinish) (tmo : UInt32) :
    { v with callers := Function.update v.callers t (.again p tmo) }.WakeInv := by
  have hentry : ∀ t' q, (Function.update v.callers t (.again p tmo) t').pending = some q →
      t' = t ∧ q = p ∨ (v.callers t').pending = some q := by
    intro t' q hq
    rcases callers_cases (rfl : Function.update v.callers t (.again p tmo) t' = _) with
      ⟨rfl, heq⟩ | ⟨-, heq⟩
    · rw [← heq] at hq
      cases hq
      exact .inl ⟨rfl, rfl⟩
    · exact .inr (heq ▸ hq)
  have hwaiting : ∀ t' q d, Function.update v.callers t (.again p tmo) t' = .waiting q d →
      v.callers t' = .waiting q d := by
    intro t' q d hc
    rcases callers_cases hc with ⟨-, heq⟩ | ⟨-, hc⟩
    · cases heq
    · exact hc
  exact { h with
    fresh_caller := fun t' q hq => by
      rcases hentry t' q hq with ⟨-, rfl⟩ | hq
      · exact hnew
      · exact h.fresh_caller t' q hq
    unique := fun t1 t2 q h1 h2 => by
      rcases hentry t1 q h1 with ⟨ht1, hq⟩ | hold1 <;> rcases hentry t2 q h2 with ⟨ht2, hq⟩ | hold2
      · rw [ht1, ht2]
      · exact absurd hq (hp t2 q hold2)
      · exact absurd hq (hp t1 q hold1)
      · exact h.unique t1 t2 q hold1 hold2
    again_unlinked := fun t' q m hc => by
      rcases callers_cases hc with ⟨-, heq⟩ | ⟨-, hc⟩
      · cases heq
        exact ⟨hwork, hdelayed, hexec⟩
      · exact h.again_unlinked t' q m hc
    again_state := fun t' q m hc => by
      rcases callers_cases hc with ⟨rfl, heq⟩ | ⟨-, hc⟩
      · cases heq
        exact hst
      · exact h.again_state t' q m hc
    waiting_caller := fun t' q d hc => h.waiting_caller t' q d (hwaiting t' q d hc)
    waiting_linked := fun t' q d hc => h.waiting_linked t' q d (hwaiting t' q d hc)
    waiting_woken := fun t' q d hc => h.waiting_woken t' q d (hwaiting t' q d hc)
    waiters_caller := fun t' hmem hne => by
      obtain ⟨q, d, hc⟩ := h.waiters_caller t' hmem hne
      refine ⟨q, d, (Function.update_of_ne ?_ ..).trans hc⟩
      rintro rfl
      exact ht.elim (fun hnot => hnot hmem) hne }

/-- The address of the next work is not in use. -/
theorem WakeInv.alloc (h : v.WakeInv) (w : Work) :
    { v with next := v.next + 1, work := Function.update v.work v.next w }.WakeInv := by
  have hold : ∀ p, p < v.next → Function.update v.work v.next w p = v.work p := fun p hp =>
    Function.update_of_ne (Nat.ne_of_lt hp) ..
  have hcaller : ∀ t p, (v.callers t).pending = some p →
      Function.update v.work v.next w p = v.work p := fun t p hp => hold p (h.fresh_caller t p hp)
  exact { h with
    fresh_work := fun p hp => Nat.lt_succ_of_lt (h.fresh_work p hp)
    fresh_delayed := fun p hp => Nat.lt_succ_of_lt (h.fresh_delayed p hp)
    fresh_caller := fun t p hp => Nat.lt_succ_of_lt (h.fresh_caller t p hp)
    fresh_worker := fun p hp => Nat.lt_succ_of_lt (h.fresh_worker p hp)
    again_state := fun t p m hc => by
      simp only [hcaller t p (by rw [hc]; rfl)]
      exact h.again_state t p m hc
    waiting_linked := fun t p d hc hst => by
      simp only [hcaller t p (by rw [hc]; rfl)] at hst
      exact h.waiting_linked t p d hc hst
    waiting_woken := fun t p d hc hst => by
      simp only [hcaller t p (by rw [hc]; rfl)] at hst
      exact h.waiting_woken t p d hc hst
    blocked_delayed := fun hmem d hd p hp => by
      simp only [hold p (h.fresh_delayed p hp)]
      exact h.blocked_delayed hmem d hd p hp
    sorted := h.sorted.imp_of_mem fun {p q} hp hq hpq => by
      simp only [hold p (h.fresh_delayed p hp), hold q (h.fresh_delayed q hq)]
      exact hpq }

/-- A call of thread `t` gets a new work. -/
theorem WakeInv.create (h : v.WakeInv) (hidle : v.callers t = .idle) {w : Work}
    (hw : w.state = .async ∨ w.state = .delayed ∨
      t ≠ serializerThread ∧ w.state = .waitingForFinish) (tmo : UInt32) :
    { v with
      next := v.next + 1
      work := Function.update v.work v.next w
      callers := Function.update v.callers t (.again v.next tmo) }.WakeInv := by
  have hawake := h.awake_unless_waiting (t := t) fun p d => by simp [hidle]
  have hself : Function.update v.work v.next w v.next = w := Function.update_self ..
  exact (h.alloc w).enter hawake (fun t' q hq => Nat.ne_of_lt (h.fresh_caller t' q hq))
    (Nat.lt_succ_self _) (fun hp => Nat.lt_irrefl _ (h.fresh_work _ hp))
    (fun hp => Nat.lt_irrefl _ (h.fresh_delayed _ hp))
    (fun hp => Nat.lt_irrefl _ (h.fresh_worker _ hp)) (by simpa only [hself] using hw) tmo

/-- More works are linked while the thread of the serializer is awake. -/
theorem WakeInv.linkWork (h : v.WakeInv) (hawake : serializerThread ∉ v.condWaiters) {l : List Ptr}
    (hl : l.Perm (p :: v.workList)) (hp : p < v.next)
    (hagain : ∀ t m, v.callers t ≠ .again p m) : { v with workList := l }.WakeInv :=
  { h with
    fresh_work := fun q hq => by
      rcases List.mem_cons.mp (hl.mem_iff.mp hq) with rfl | hq
      · exact hp
      · exact h.fresh_work q hq
    again_unlinked := fun t q m hc => by
      obtain ⟨hwork, hrest⟩ := h.again_unlinked t q m hc
      refine ⟨fun hq => ?_, hrest⟩
      rcases List.mem_cons.mp (hl.mem_iff.mp hq) with rfl | hq
      · exact hagain t m hc
      · exact hwork hq
    waiting_linked := fun t q d hc hst =>
      (h.waiting_linked t q d hc hst).imp_left fun hq => hl.mem_iff.mpr (List.mem_cons_of_mem p hq)
    blocked_work := fun hmem => absurd hmem hawake
    blocked_delayed := fun hmem => absurd hmem hawake }

theorem WakeInv.linkDelayed (h : v.WakeInv) (hawake : serializerThread ∉ v.condWaiters)
    {l : List Ptr} (hl : l.Perm (p :: v.delayedWorkList)) (hp : p < v.next)
    (hagain : ∀ t m, v.callers t ≠ .again p m)
    (hsorted : l.Pairwise fun p q => isDelayedWorkBefore (v.work q) (v.work p).ts = false) :
    { v with delayedWorkList := l }.WakeInv :=
  { h with
    fresh_delayed := fun q hq => by
      rcases List.mem_cons.mp (hl.mem_iff.mp hq) with rfl | hq
      · exact hp
      · exact h.fresh_delayed q hq
    again_unlinked := fun t q m hc => by
      obtain ⟨hwork, hdelayed, hexec⟩ := h.again_unlinked t q m hc
      refine ⟨hwork, fun hq => ?_, hexec⟩
      rcases List.mem_cons.mp (hl.mem_iff.mp hq) with rfl | hq
      · exact hagain t m hc
      · exact hdelayed hq
    blocked_delayed := fun hmem => absurd hmem hawake
    sorted := hsorted }

/-- A caller whose synchronous work is linked or under execution blocks. -/
theorem WakeInv.block (h : v.WakeInv) (ht : t ≠ serializerThread) (hnot : t ∉ v.condWaiters)
    (hfresh : p < v.next) (hother : ∀ t', t' ≠ t → (v.callers t').pending ≠ some p)
    (hlinked : p ∈ v.workList ∨ v.worker.work? = some p)
    (hst : (v.work p).state = .waitingForFinish) (d : Timespec) :
    { v with
      callers := Function.update v.callers t (.waiting p d)
      condWaiters := t :: v.condWaiters }.WakeInv := by
  have hentry : ∀ t' q, (Function.update v.callers t (.waiting p d) t').pending = some q →
      t' = t ∧ q = p ∨ t' ≠ t ∧ (v.callers t').pending = some q := by
    intro t' q hq
    rcases callers_cases (rfl : Function.update v.callers t (.waiting p d) t' = _) with
      ⟨rfl, heq⟩ | ⟨hne, heq⟩
    · rw [← heq] at hq
      cases hq
      exact .inl ⟨rfl, rfl⟩
    · exact .inr ⟨hne, heq ▸ hq⟩
  have hagain : ∀ t' q m, Function.update v.callers t (.waiting p d) t' = .again q m →
      v.callers t' = .again q m := by
    intro t' q m hc
    rcases callers_cases hc with ⟨-, heq⟩ | ⟨-, hc⟩
    · cases heq
    · exact hc
  have hworker : serializerThread ∈ t :: v.condWaiters → serializerThread ∈ v.condWaiters := by
    intro hmem
    rcases List.mem_cons.mp hmem with heq | hmem
    · exact absurd heq.symm ht
    · exact hmem
  exact { h with
    fresh_caller := fun t' q hq => by
      rcases hentry t' q hq with ⟨-, rfl⟩ | ⟨-, hq⟩
      · exact hfresh
      · exact h.fresh_caller t' q hq
    unique := fun t1 t2 q h1 h2 => by
      rcases hentry t1 q h1 with ⟨ht1, hq⟩ | ⟨hne1, hold1⟩ <;>
        rcases hentry t2 q h2 with ⟨ht2, hq⟩ | ⟨hne2, hold2⟩
      · rw [ht1, ht2]
      · exact absurd (hq ▸ hold2) (hother t2 hne2)
      · exact absurd (hq ▸ hold1) (hother t1 hne1)
      · exact h.unique t1 t2 q hold1 hold2
    again_unlinked := fun t' q m hc => h.again_unlinked t' q m (hagain t' q m hc)
    again_state := fun t' q m hc => h.again_state t' q m (hagain t' q m hc)
    waiting_caller := fun t' q d' hc => by
      rcases callers_cases hc with ⟨rfl, -⟩ | ⟨-, hc⟩
      · exact ht
      · exact h.waiting_caller t' q d' hc
    waiting_linked := fun t' q d' hc hwait => by
      rcases callers_cases hc with ⟨-, heq⟩ | ⟨-, hc⟩
      · cases heq
        exact hlinked
      · exact h.waiting_linked t' q d' hc hwait
    waiting_woken := fun t' q d' hc hwait hmem => by
      rcases callers_cases hc with ⟨-, heq⟩ | ⟨hne, hc⟩
      · cases heq
        exact hwait hst
      · rcases List.mem_cons.mp hmem with heq | hmem
        · exact hne heq
        · exact h.waiting_woken t' q d' hc hwait hmem
    waiters_caller := fun t' hmem hne => by
      by_cases heq : t' = t
      · exact ⟨p, d, by subst heq; exact Function.update_self ..⟩
      · obtain ⟨q, d', hc⟩ := h.waiters_caller t'
          ((List.mem_cons.mp hmem).resolve_left heq) hne
        exact ⟨q, d', (Function.update_of_ne heq ..).trans hc⟩
    waiters_worker := fun hmem => h.waiters_worker (hworker hmem)
    nodup := List.nodup_cons.mpr ⟨hnot, h.nodup⟩
    blocked_work := fun hmem => h.blocked_work (hworker hmem)
    blocked_delayed := fun hmem => h.blocked_delayed (hworker hmem) }

/-- A caller that has left its wait takes its work back. -/
theorem WakeInv.unlink (h : v.WakeInv)
    (hp : ∀ t d, v.callers t = .waiting p d → (v.work p).state ≠ .waitingForFinish) :
    { v with workList := v.workList.erase p }.WakeInv :=
  { h with
    fresh_work := fun q hq => h.fresh_work q (List.mem_of_mem_erase hq)
    again_unlinked := fun t q m hc =>
      have ⟨hwork, hrest⟩ := h.again_unlinked t q m hc
      ⟨fun hq => hwork (List.mem_of_mem_erase hq), hrest⟩
    waiting_linked := fun t q d hc hst => by
      have hne : q ≠ p := by
        rintro rfl
        exact hp t d hc hst
      exact (h.waiting_linked t q d hc hst).imp_left (List.mem_erase_of_ne hne).mpr
    blocked_work := fun hmem => by rw [h.blocked_work hmem]; rfl }

theorem WakeInv.unlinkDelayed (h : v.WakeInv) (p : Ptr) :
    { v with delayedWorkList := v.delayedWorkList.erase p }.WakeInv :=
  { h with
    fresh_delayed := fun q hq => h.fresh_delayed q (List.mem_of_mem_erase hq)
    again_unlinked := fun t q m hc =>
      have ⟨hwork, hdelayed, hexec⟩ := h.again_unlinked t q m hc
      ⟨hwork, fun hq => hdelayed (List.mem_of_mem_erase hq), hexec⟩
    blocked_delayed := fun hmem d hd q hq =>
      h.blocked_delayed hmem d hd q (List.mem_of_mem_erase hq)
    sorted := h.sorted.sublist List.erase_sublist }

/-- The state of a work changes for which nobody waits, or while nobody is blocked. -/
theorem WakeInv.setWork (h : v.WakeInv) {w : Work} (hts : w.ts = (v.work p).ts)
    (hagain : ∀ t m, v.callers t ≠ .again p m) (hwaiting : ∀ t d, v.callers t = .waiting p d →
      t ∉ v.condWaiters ∧ w.state ≠ .waitingForFinish) :
    { v with work := Function.update v.work p w }.WakeInv := by
  have hbefore : ∀ q ts, isDelayedWorkBefore (Function.update v.work p w q) ts =
      isDelayedWorkBefore (v.work q) ts := by
    intro q ts
    by_cases hq : q = p
    · subst hq
      rw [Function.update_self]
      simp only [isDelayedWorkBefore, hts]
    · rw [Function.update_of_ne hq]
  have htime : ∀ q, (Function.update v.work p w q).ts = (v.work q).ts := by
    intro q
    by_cases hq : q = p
    · subst hq
      rw [Function.update_self, hts]
    · rw [Function.update_of_ne hq]
  exact { h with
    again_state := fun t q m hc => by
      have hq : q ≠ p := by
        rintro rfl
        exact hagain t m hc
      simp only [Function.update_of_ne hq]
      exact h.again_state t q m hc
    waiting_linked := fun t q d hc hst => by
      by_cases hq : q = p
      · subst hq
        simp only [Function.update_self] at hst
        exact absurd hst (hwaiting t d hc).2
      · simp only [Function.update_of_ne hq] at hst
        exact h.waiting_linked t q d hc hst
    waiting_woken := fun t q d hc hst => by
      by_cases hq : q = p
      · subst hq
        exact (hwaiting t d hc).1
      · simp only [Function.update_of_ne hq] at hst
        exact h.waiting_woken t q d hc hst
    blocked_delayed := fun hmem d hd q hq => by
      simp only [hbefore]
      exact h.blocked_delayed hmem d hd q hq
    sorted := h.sorted.imp fun {a b} hab => by
      simp only [hbefore, htime]
      exact hab }

/-- The thread of the serializer takes the first work of a list. -/
theorem WakeInv.takeWork (h : v.WakeInv) (hawake : serializerThread ∉ v.condWaiters)
    (hidle : v.worker.work? = none) (hcreated : v.worker ≠ .notCreated) {rest : List Ptr}
    (hl : v.workList = p :: rest) :
    { v with workList := rest, worker := .working p }.WakeInv := by
  have hsub : ∀ q ∈ rest, q ∈ v.workList := fun q hq => hl ▸ List.mem_cons_of_mem p hq
  have hp : p ∈ v.workList := hl ▸ List.mem_cons_self
  exact { h with
    fresh_work := fun q hq => h.fresh_work q (hsub q hq)
    fresh_worker := fun q hq => by
      cases hq
      exact h.fresh_work p hp
    again_unlinked := fun t q m hc => by
      obtain ⟨hwork, hdelayed, -⟩ := h.again_unlinked t q m hc
      refine ⟨fun hq => hwork (hsub q hq), hdelayed, fun hq => ?_⟩
      cases hq
      exact hwork hp
    waiting_linked := fun t q d hc hst => by
      rcases h.waiting_linked t q d hc hst with hq | hq
      · rcases List.mem_cons.mp (hl ▸ hq) with rfl | hq
        · exact .inr rfl
        · exact .inl hq
      · rw [hidle] at hq
        cases hq
    waiters_worker := fun hmem => absurd hmem hawake
    blocked_work := fun hmem => absurd hmem hawake
    blocked_delayed := fun hmem => absurd hmem hawake
    paused := fun hs => absurd (h.paused hs) hcreated }

theorem WakeInv.takeDelayed (h : v.WakeInv) (hawake : serializerThread ∉ v.condWaiters)
    (hidle : v.worker.work? = none) (hcreated : v.worker ≠ .notCreated) {rest : List Ptr}
    (hl : v.delayedWorkList = p :: rest) :
    { v with delayedWorkList := rest, worker := .working p }.WakeInv := by
  have hsub : ∀ q ∈ rest, q ∈ v.delayedWorkList := fun q hq => hl ▸ List.mem_cons_of_mem p hq
  have hp : p ∈ v.delayedWorkList := hl ▸ List.mem_cons_self
  exact { h with
    fresh_delayed := fun q hq => h.fresh_delayed q (hsub q hq)
    fresh_worker := fun q hq => by
      cases hq
      exact h.fresh_delayed p hp
    again_unlinked := fun t q m hc => by
      obtain ⟨hwork, hdelayed, -⟩ := h.again_unlinked t q m hc
      refine ⟨hwork, fun hq => hdelayed (hsub q hq), fun hq => ?_⟩
      cases hq
      exact hdelayed hp
    waiting_linked := fun t q d hc hst => by
      rcases h.waiting_linked t q d hc hst with hq | hq
      · exact .inl hq
      · rw [hidle] at hq
        cases hq
    waiters_worker := fun hmem => absurd hmem hawake
    blocked_work := fun hmem => absurd hmem hawake
    blocked_delayed := fun hmem => absurd hmem hawake
    sorted := (List.pairwise_cons.mp (hl ▸ h.sorted)).2
    paused := fun hs => absurd (h.paused hs) hcreated }

/-- The thread of the serializer blocks: there is no work, and no delayed work is due before the
deadline. -/
theorem WakeInv.sleep (h : v.WakeInv) (hawake : serializerThread ∉ v.condWaiters)
    (hidle : v.worker.work? = none) (hcreated : v.worker ≠ .notCreated) (hl : v.workList = [])
    (hd : ∀ p ∈ v.delayedWorkList, isDelayedWorkBefore (v.work p) d = false) :
    { v with worker := .waiting d, condWaiters := serializerThread :: v.condWaiters }.WakeInv :=
  { h with
    fresh_worker := nofun
    again_unlinked := fun t q m hc =>
      have ⟨hwork, hdelayed, _⟩ := h.again_unlinked t q m hc
      ⟨hwork, hdelayed, nofun⟩
    waiting_linked := fun t q d hc hst => by
      have := h.waiting_linked t q d hc hst
      rwa [hidle] at this
    waiting_woken := fun t q d hc hst hmem => by
      rcases List.mem_cons.mp hmem with heq | hmem
      · exact h.waiting_caller t q d hc heq
      · exact h.waiting_woken t q d hc hst hmem
    waiters_caller := fun t hmem hne =>
      h.waiters_caller t ((List.mem_cons.mp hmem).resolve_left hne) hne
    waiters_worker := fun _ => ⟨d, rfl⟩
    nodup := List.nodup_cons.mpr ⟨hawake, h.nodup⟩
    blocked_work := fun _ => hl
    blocked_delayed := fun _ d' hd' => by
      cases hd'
      exact hd
    paused := fun hs => absurd (h.paused hs) hcreated }

/-- The thread of the serializer goes on with its work, or is done with it. -/
theorem WakeInv.turn (h : v.WakeInv) (hawake : serializerThread ∉ v.condWaiters)
    (hcreated : v.worker ≠ .notCreated) {w : WorkerPhase}
    (hsame : ∀ p, w.work? = some p → v.worker.work? = some p)
    (hdone : ∀ p, v.worker.work? = some p → w.work? = some p ∨
      ∀ t d, v.callers t = .waiting p d → (v.work p).state ≠ .waitingForFinish) :
    { v with worker := w }.WakeInv :=
  { h with
    fresh_worker := fun p hp => h.fresh_worker p (hsame p hp)
    again_unlinked := fun t q m hc =>
      have ⟨hwork, hdelayed, hexec⟩ := h.again_unlinked t q m hc
      ⟨hwork, hdelayed, fun hq => hexec (hsame q hq)⟩
    waiting_linked := fun t q d hc hst => by
      rcases h.waiting_linked t q d hc hst with hq | hq
      · exact .inl hq
      · exact .inr ((hdone q hq).resolve_right fun hnot => hnot t d hc hst)
    waiters_worker := fun hmem => absurd hmem hawake
    blocked_work := fun hmem => absurd hmem hawake
    blocked_delayed := fun hmem => absurd hmem hawake
    paused := fun hs => absurd (h.paused hs) hcreated }

end View

theorem isDelayedWorkBefore_iff {work : Work} {ts : Timespec} :
    isDelayedWorkBefore work ts = true ↔
      work.ts.tvSec < ts.tvSec ∨ work.ts.tvSec = ts.tvSec ∧ work.ts.tvNsec < ts.tvNsec := by
  simp [isDelayedWorkBefore]

theorem isDelayedWorkBefore_eq_false {work : Work} {ts : Timespec} :
    isDelayedWorkBefore work ts = false ↔
      ts.tvSec < work.ts.tvSec ∨ ts.tvSec = work.ts.tvSec ∧ ts.tvNsec ≤ work.ts.tvNsec := by
  rw [← Bool.not_eq_true, isDelayedWorkBefore_iff]
  omega

/-- The delayed list stays in the order of the times. -/
theorem insertBefore_sorted {work : Ptr → Work} {p : Ptr} : ∀ {l : List Ptr},
    (l.Pairwise fun p q => isDelayedWorkBefore (work q) (work p).ts = false) →
      (insertBefore (fun q => isDelayedWorkBefore (work p) (work q).ts) p l).Pairwise
        fun p q => isDelayedWorkBefore (work q) (work p).ts = false
  | [], _ => List.pairwise_singleton _ p
  | q :: l, h => by
    obtain ⟨hq, hl⟩ := List.pairwise_cons.mp h
    unfold insertBefore
    split
    · next hbefore =>
      rw [isDelayedWorkBefore_iff] at hbefore
      refine List.pairwise_cons.mpr ⟨fun r hr => ?_, h⟩
      rw [isDelayedWorkBefore_eq_false]
      rcases List.mem_cons.mp hr with rfl | hr
      · omega
      · have := isDelayedWorkBefore_eq_false.mp (hq r hr)
        omega
    · next hbefore =>
      refine List.pairwise_cons.mpr ⟨fun r hr => ?_, insertBefore_sorted hl⟩
      rcases List.mem_cons.mp ((insertBefore_perm _ p l).mem_iff.mp hr) with rfl | hr
      · simpa using hbefore
      · exact hq r hr

section Steps

variable {s : WorkSerializer} {t woken : Thread} {p : Ptr}

theorem view_modify {f : Cell → Cell} (hf : ∀ c, (f c).work = c.work) :
    (s.modify p f).view = s.view := by
  have hwork : (s.modify p f).work = s.work := by
    funext q
    by_cases hq : q = p
    · subst hq
      simp [work, WorkSerializer.modify, hf]
    · simp [work, WorkSerializer.modify, hq]
  simp only [view, hwork]
  rfl

@[simp] theorem view_touch (ps : List Ptr) : (s.touch ps).view = s.view := rfl

@[simp] theorem view_free : (s.free p).view = s.view :=
  (view_modify fun _ => rfl : (s.modify p fun c => { c with frees := c.frees + 1 }).view = s.view)

@[simp] theorem view_settle : (s.settle p).view = s.view := view_modify fun _ => rfl

@[simp] theorem view_callFreeFunc : (s.callFreeFunc p).view = s.view := by
  unfold callFreeFunc
  split
  · exact view_modify fun _ => rfl
  · rfl

@[simp] theorem view_callReturns (r : Int) (out : Option Int) :
    (s.callReturns t p r out).view =
      { s.view with callers := Function.update s.view.callers t .idle } := by
  have := view_modify (s := s) (p := p) (f := fun c => { c with ret := some r, res := out })
    fun _ => rfl
  rw [← this]
  rfl

@[simp] theorem view_setCaller (ph : CallPhase) : (s.setCaller t ph).view =
    { s.view with callers := Function.update s.view.callers t ph } := rfl

@[simp] theorem view_condBlock : (s.condBlock t).view =
    { s.view with condWaiters := t :: s.view.condWaiters } := rfl

theorem view_condBroadcast : s.condBroadcast.view = { s.view with condWaiters := [] } := rfl

theorem view_modifyWork (f : Work → Work) :
    (s.modify p fun c => { c with work := f c.work }).view =
      { s.view with work := Function.update s.view.work p (f (s.view.work p)) } := by
  have hwork : (s.modify p fun c => { c with work := f c.work }).work =
      Function.update s.work p (f (s.work p)) := by
    funext q
    by_cases hq : q = p
    · subst hq
      simp [work, WorkSerializer.modify]
    · simp [work, WorkSerializer.modify, hq]
  simp only [view, hwork]
  rfl

@[simp] theorem view_setState (st : WorkState) : (s.setState p st).view =
    { s.view with work := Function.update s.view.work p { s.view.work p with state := st } } :=
  view_modifyWork fun w => { w with state := st }

@[simp] theorem view_startOrSignal : (startOrSignal s woken).view = s.view.signal woken := by
  unfold startOrSignal
  cases hs : s.state with
  | paused =>
    rw [View.signal_paused (show s.view.state = .paused from hs)]
    rfl
  | running =>
    rw [View.signal_running (show s.view.state = .running from hs)]
    rfl

theorem insertWork_wake {tmo : UInt32} {nodeOk : Bool} (h : s.view.WakeInv)
    (hc : s.callers t = .again p tmo) (hwoken : s.condWaiters = [] ∨ woken ∈ s.condWaiters) :
    (insertWork s t p tmo nodeOk woken).view.WakeInv := by
  have hfresh : p < s.next := h.fresh_caller t p (by show (s.callers t).pending = _; rw [hc]; rfl)
  have hsignalled := h.signal woken
  have hawake := h.signal_wakes hwoken
  have hnot := hsignalled.awake_unless_waiting (t := t) fun q d hwait => nomatch hc.symm.trans hwait
  have hothers : ∀ ph, ph.pending = none → ∀ t', t' ≠ t →
      (Function.update s.callers t ph t').pending ≠ some p := by
    intro ph _ t' hne hentry
    rw [Function.update_of_ne hne] at hentry
    exact hne (h.unique t' t p hentry (by show (s.callers t).pending = _; rw [hc]; rfl))
  have hother : ∀ ph, ph.pending = none → ∀ t' m,
      Function.update s.callers t ph t' ≠ .again p m := by
    intro ph hph t' m hagain
    rcases View.callers_cases hagain with ⟨-, rfl⟩ | ⟨hne, -⟩
    · cases hph
    · exact hothers ph hph t' hne (by rw [hagain]; rfl)
  have hretired := hsignalled.retire hnot .idle rfl
  have hrefused : ((s.touch [p]).setCaller t (.insertErr p)).view.WakeInv := by
    exact h.retire (h.awake_unless_waiting fun q d hwait => nomatch hc.symm.trans hwait)
      (.insertErr p) rfl
  rcases h.again_state t p tmo hc with hst | hst | ⟨hne, hst⟩
  · have hst' : ((s.touch [p]).work p).state = .async := hst
    simp only [insertWork, hst']
    split_ifs
    · exact h
    · exact hrefused
    · rw [view_callReturns, view_startOrSignal]
      exact hretired.linkWork hawake (List.perm_append_singleton p _) hfresh (hother .idle rfl)
  · have hst' : ((s.touch [p]).work p).state = .delayed := hst
    simp only [insertWork, hst']
    split_ifs
    · exact h
    · exact hrefused
    · rw [view_callReturns, view_startOrSignal]
      exact hretired.linkDelayed hawake (insertBefore_perm _ p _) hfresh (hother .idle rfl)
        (insertBefore_sorted h.sorted)
  · have hst' : ((s.touch [p]).work p).state = .waitingForFinish := hst
    simp only [insertWork, hst']
    split_ifs
    · exact hrefused
    · have hlinked := hretired.linkWork hawake (insertBefore_perm
        (fun q => decide ((s.work q).state ≠ .waitingForFinish)) p _) hfresh (hother .idle rfl)
      have hmem : p ∈ insertBefore (fun q => decide ((s.work q).state ≠ .waitingForFinish)) p
          s.workList := (insertBefore_perm _ p _).mem_iff.mpr List.mem_cons_self
      have hblocked := hlinked.block hne (hnot.resolve_right hne) hfresh (hothers .idle rfl)
        (.inl hmem) hst
      simp only [Function.update_idem] at hblocked
      rw [view_condBlock, view_setCaller, view_startOrSignal]
      exact hblocked _

/-- A caller that returns from `pthread_cond_timedwait` is not blocked. -/
theorem condUnblock_wake (h : s.view.WakeInv) :
    (s.condUnblock t).view.WakeInv ∧ t ∉ (s.condUnblock t).condWaiters := by
  refine ⟨h.wake List.filter_sublist, ?_⟩
  simp [condUnblock]

theorem callerWakes_wake {d : Timespec} {cw : CwRes} (h : s.view.WakeInv)
    (hc : s.callers t = .waiting p d) : (callerWakes s t p cw).view.WakeInv := by
  obtain ⟨hawake, hnot⟩ := condUnblock_wake (t := t) h
  have hne := h.waiting_caller t p d hc
  have hentry : (s.callers t).pending = some p := by rw [hc]; rfl
  have hothers : ∀ t', t' ≠ t → (s.callers t').pending ≠ some p := fun t' hne hp =>
    hne (h.unique t' t p hp hentry)
  have hretired : ∀ ph ph' t', ph.pending = none → Function.update s.callers t ph t' = ph' →
      ph'.pending ≠ some p := by
    intro ph ph' t' hph hc hp
    rcases View.callers_cases hc with ⟨-, rfl⟩ | ⟨hne, rfl⟩
    · rw [hph] at hp
      cases hp
    · exact hothers t' hne hp
  unfold callerWakes
  by_cases hst : (s.work p).state = .waitingForFinish
  · simp only [show (((s.condUnblock t).touch [p]).work p).state = .waitingForFinish from hst,
      if_true]
    split_ifs
    · have hblock := hawake.block hne hnot (h.fresh_caller t p hentry) hothers
        (h.waiting_linked t p d hc hst) hst d
      have hsame : Function.update s.callers t (.waiting p d) = s.callers := by
        rw [← hc, Function.update_eq_self]
      rwa [show (s.condUnblock t).view.callers = s.callers from rfl, hsame] at hblock
    · exact (hawake.retire (.inl hnot) (.unlocked p false) rfl).unlink fun t' d' hwait =>
        absurd rfl (hretired _ _ t' rfl hwait)
    · rw [view_setCaller, view_setState]
      exact (hawake.retire (.inl hnot) (.unlocked p true) rfl).setWork rfl
        (fun t' m hagain => hretired _ _ t' rfl hagain rfl)
        fun t' d' hwait => absurd rfl (hretired _ _ t' rfl hwait)
  · simp only [show (((s.condUnblock t).touch [p]).work p).state ≠ .waitingForFinish from hst,
      if_false]
    exact hawake.retire (.inl hnot) (.unlocked p false) rfl

/-- The first delayed work is due within the second in which the wait of ten seconds ends. -/
def DueInLastSecond (s : WorkSerializer) : Prop :=
  s.workList = [] ∧ ∃ p ∈ s.delayedWorkList.head?, (s.work p).ts.tvSec = s.clock.tvSec + 10 ∧
    (s.work p).ts.tvNsec < s.clock.tvNsec

instance (s : WorkSerializer) : Decidable (DueInLastSecond s) := by
  unfold DueInLastSecond
  infer_instance

theorem workerTakes_wake (h : s.view.WakeInv) (hawake : serializerThread ∉ s.condWaiters)
    (hidle : s.worker.work? = none) (hcreated : s.worker ≠ .notCreated)
    (hdue : ¬ DueInLastSecond s) : (workerTakes s).view.WakeInv := by
  unfold workerTakes
  split
  · next p rest hl => exact h.takeWork hawake hidle hcreated hl
  · next hl =>
    simp only
    split
    · next hd =>
      refine h.sleep hawake hidle hcreated hl fun q hq => ?_
      rw [show s.view.delayedWorkList = [] from hd] at hq
      cases hq
    · next p rest hd =>
      have hsorted : s.delayedWorkList.Pairwise fun p q =>
          isDelayedWorkBefore (s.work q) (s.work p).ts = false := h.sorted
      rw [hd] at hsorted
      obtain ⟨hfirst, -⟩ := List.pairwise_cons.mp hsorted
      have hlater : ∀ d : Timespec, isDelayedWorkBefore (s.work p) d = false →
          ∀ q ∈ s.delayedWorkList, isDelayedWorkBefore (s.work q) d = false := by
        intro d hp q hq
        rw [hd] at hq
        rcases List.mem_cons.mp hq with rfl | hq
        · exact hp
        · have hle := isDelayedWorkBefore_eq_false.mp (hfirst q hq)
          have hp := isDelayedWorkBefore_eq_false.mp hp
          rw [isDelayedWorkBefore_eq_false]
          omega
      split_ifs with hbefore hsec
      · exact h.takeDelayed hawake hidle hcreated hd
      · refine h.sleep hawake hidle hcreated hl (hlater _ ?_)
        rw [isDelayedWorkBefore_eq_false]
        exact .inr ⟨rfl, Int.le_refl _⟩
      · refine h.sleep hawake hidle hcreated hl (hlater _ ?_)
        have hsec' : ¬ (s.work p).ts.tvSec < s.clock.tvSec + 10 := hsec
        have hnot : ¬ ((s.work p).ts.tvSec = s.clock.tvSec + 10 ∧
            (s.work p).ts.tvNsec < s.clock.tvNsec) := fun hp => hdue ⟨hl, p, by simp [hd], hp⟩
        rw [isDelayedWorkBefore_eq_false]
        show s.clock.tvSec + 10 < _ ∨ s.clock.tvSec + 10 = _ ∧ s.clock.tvNsec ≤ _
        omega

theorem workerWakes_wake {d : Timespec} {cw : CwRes} (h : s.view.WakeInv)
    (hw : s.worker = .waiting d) (hdue : cw = .ok → ¬ DueInLastSecond s) :
    (workerWakes s cw).view.WakeInv := by
  obtain ⟨hunblocked, hawake⟩ := condUnblock_wake (t := serializerThread) h
  have hidle : (s.condUnblock serializerThread).worker.work? = none := by
    show s.worker.work? = none
    rw [hw]
    rfl
  have hcreated : (s.condUnblock serializerThread).worker ≠ .notCreated := by
    show s.worker ≠ .notCreated
    simp [hw]
  have hrest : ∀ w : WorkerPhase, w.work? = none →
      { (s.condUnblock serializerThread).view with worker := w }.WakeInv := by
    intro w hnone
    refine hunblocked.turn hawake hcreated (fun p hp => ?_) fun p hp => ?_
    · rw [hnone] at hp
      cases hp
    · exact absurd (hidle.symm.trans hp) nofun
  unfold workerWakes
  cases cw with
  | ok => exact workerTakes_wake hunblocked hawake hidle hcreated (hdue rfl)
  | timedOut => exact hrest .top rfl
  | failed => exact hrest .exited rfl

theorem view_workFuncReturns {workRes : Int} : (workFuncReturns s p workRes).view =
    { s.view with
      worker := if s.hasFreeFunc p then .freeing p workRes else .finishing p workRes } := by
  have hview : ∀ w, ({ (s.touch [p]).callFreeFunc p with worker := w } : WorkSerializer).view =
      { s.view with worker := w } := by
    intro w
    have := view_callFreeFunc (s := s.touch [p]) (p := p)
    rw [view_touch] at this
    rw [← this]
    rfl
  exact hview _

theorem workFuncReturns_wake {workRes : Int} (h : s.view.WakeInv) (hw : s.worker = .working p) :
    (workFuncReturns s p workRes).view.WakeInv := by
  have hawake : serializerThread ∉ s.view.condWaiters := h.worker_awake (by simp [view, hw])
  have hexec : s.view.worker.work? = some p := by
    show s.worker.work? = _
    rw [hw]
    rfl
  have hturn : ∀ w : WorkerPhase, w.work? = some p →
      { s.view with worker := w }.WakeInv := by
    intro w hwork
    refine h.turn hawake (by simp [view, hw]) (fun q hq => ?_) fun q hq => .inl ?_
    · rw [hexec, ← hwork, hq]
    · rw [hwork, ← hexec, hq]
  rw [view_workFuncReturns]
  apply hturn
  split <;> rfl

/-- The work under execution is done if its caller still waits for it. -/
theorem view_workDone {workRes : Int} : (workDone s p workRes).view =
    if (s.work p).state = .waitingForFinish then
      { s.view with
        worker := .top
        work := Function.update s.view.work p { s.work p with result := workRes, state := .done }
        condWaiters := [] }
    else { s.view with worker := .top } := by
  have hview : (({ (s.touch [p]).settle p with worker := .top } : WorkSerializer)).view =
      { s.view with worker := .top } := by
    have := view_settle (s := s.touch [p]) (p := p)
    rw [view_touch] at this
    rw [← this]
    rfl
  have hwork : (({ (s.touch [p]).settle p with worker := .top } : WorkSerializer)).work p =
      s.work p := congrFun (congrArg View.work hview) p
  unfold workDone
  simp only [hwork]
  split
  · have hmodify := view_modifyWork (s := { (s.touch [p]).settle p with worker := .top }) (p := p)
      fun w => { w with result := workRes, state := .done }
    rw [hview] at hmodify
    rw [view_condBroadcast, hmodify]
    rfl
  · rw [view_free, hview]

theorem workDone_wake {workRes : Int} (h : s.view.WakeInv) (hw : s.worker = .finishing p workRes) :
    (workDone s p workRes).view.WakeInv := by
  have hawake : serializerThread ∉ s.view.condWaiters := h.worker_awake (by simp [view, hw])
  have hexec : s.view.worker.work? = some p := by
    show s.worker.work? = _
    rw [hw]
    rfl
  rw [view_workDone]
  split
  · next hst =>
    -- the works that are done are those that nobody is blocked for after the broadcast
    have hwoken := (h.wake (List.nil_sublist _)).setWork (p := p)
      (w := { s.work p with result := workRes, state := .done }) rfl
      (fun t m hc => (h.again_unlinked t p m hc).2.2 hexec) fun t d hc => ⟨nofun, nofun⟩
    exact hwoken.turn (w := .top) nofun (by simp [view, hw]) nofun fun q hq => .inr
      fun t d hc => by
        cases hexec.symm.trans hq
        simp
  · next hst =>
    refine h.turn hawake (by simp [view, hw]) nofun fun q hq => .inr fun t d hc => ?_
    cases hexec.symm.trans hq
    exact hst

theorem cancelEntry_wake {id key ctx : Nat} (h : s.view.WakeInv) :
    (cancelEntry id key ctx s p).view.WakeInv := by
  unfold cancelEntry
  simp only
  split
  · rw [view_free, view_settle, view_callFreeFunc]
    exact h.unlinkDelayed p
  · exact h

/-- What the loop of `serializer_stop_all_by_ctx` keeps: as long as no synchronous work was stopped
the invariant holds, and with a broadcast it does anyway. -/
def StopInv (acc : WorkSerializer × Bool) : Prop :=
  { acc.1.view with condWaiters := [] }.WakeInv ∧ (acc.2 = false → acc.1.view.WakeInv)

theorem view_stopWork : (stopWork s p).view =
    { s.view with
      workList := s.workList.erase p
      work := if (s.work p).state = .waitingForFinish then
          Function.update s.view.work p { s.work p with state := .aborted }
        else s.view.work } := by
  have hwork : (s.unlinkWork p).work p = s.work p := rfl
  by_cases hst : (s.work p).state = .waitingForFinish
  · have haborted : (((s.unlinkWork p).setState p .aborted).callFreeFunc p |>.settle p).view =
        { s.view with
          workList := s.workList.erase p
          work := Function.update s.view.work p { s.work p with state := .aborted } } := by
      rw [view_settle, view_callFreeFunc, view_setState]
      rfl
    rw [if_pos hst, ← haborted]
    unfold stopWork
    simp only [hwork, hst, if_true]
    split
    · exact view_free
    · rfl
  · have hkept : (((s.unlinkWork p).callFreeFunc p).settle p).view =
        { s.view with workList := s.workList.erase p } := by
      rw [view_settle, view_callFreeFunc]
      rfl
    rw [if_neg hst]
    unfold stopWork
    simp only [hwork, hst, if_false]
    split
    · exact view_free.trans hkept
    · exact hkept

theorem stopWork_wake (acc : WorkSerializer × Bool) (h : StopInv acc)
    (hagain : ∀ t m, acc.1.callers t ≠ .again p m) :
    StopInv (stopWork acc.1 p,
      acc.2 || decide ((acc.1.work p).state = .waitingForFinish)) ∧
    (stopWork acc.1 p).callers = acc.1.callers := by
  obtain ⟨s, flag⟩ := acc
  obtain ⟨hbroadcast, hquiet⟩ := h
  simp only at hagain hquiet ⊢
  have hview := view_stopWork (s := s) (p := p)
  refine ⟨?_, congrArg View.callers hview⟩
  by_cases hst : (s.work p).state = .waitingForFinish
  · refine ⟨?_, fun hflag => by simp [hst] at hflag⟩
    have hset := hbroadcast.setWork (p := p) (w := { s.work p with state := .aborted }) rfl hagain
      fun t d hc => ⟨nofun, nofun⟩
    have hunlinked := hset.unlink (p := p) fun t d hc => by simp
    rw [if_pos hst] at hview
    rw [hview]
    exact hunlinked
  · rw [if_neg hst] at hview
    refine ⟨?_, fun hflag => ?_⟩
    · rw [hview]
      exact hbroadcast.unlink fun t d hc => hst
    · rw [hview]
      exact (hquiet (by simpa [hst] using hflag)).unlink fun t d hc => hst

theorem stopEntry_wake (ctx : Nat) {acc : WorkSerializer × Bool} (h : StopInv acc)
    (hagain : ∀ t m, acc.1.callers t ≠ .again p m) :
    StopInv (stopEntry ctx acc p) ∧ (stopEntry ctx acc p).1.callers = acc.1.callers := by
  unfold stopEntry
  simp only
  split
  · exact stopWork_wake (acc.1.touch [p], acc.2) h hagain
  · exact ⟨h, rfl⟩

theorem stopLoop_wake (ctx : Nat) {l : List Ptr} {acc : WorkSerializer × Bool} (h : StopInv acc)
    (hagain : ∀ q ∈ l, ∀ t m, acc.1.callers t ≠ .again q m) :
    StopInv (l.foldl (stopEntry ctx) acc) := by
  induction l generalizing acc with
  | nil => exact h
  | cons q l ih =>
    obtain ⟨hnext, hcallers⟩ := stopEntry_wake ctx h (hagain q List.mem_cons_self)
    refine ih hnext fun r hr t m => ?_
    rw [hcallers]
    exact hagain r (List.mem_cons_of_mem q hr) t m

theorem serializerStopAllByCtx_wake {ctx : Nat} (h : s.view.WakeInv) :
    (serializerStopAllByCtx s t ctx).2.view.WakeInv := by
  have hstart : StopInv (s, false) := ⟨h.wake (List.nil_sublist _), fun _ => h⟩
  have hunlinked : ∀ {acc : WorkSerializer × Bool}, StopInv acc → ∀ q ∈ acc.1.workList, ∀ t m,
      acc.1.callers t ≠ .again q m := fun hacc q hq t m hc =>
    (hacc.1.again_unlinked t q m hc).1 hq
  have hfirst := stopLoop_wake ctx hstart (hunlinked hstart)
  have hsecond := stopLoop_wake ctx hfirst (hunlinked hfirst)
  unfold serializerStopAllByCtx
  split
  · exact h
  · simp only
    split
    · exact hsecond.1
    · next hflag => exact hsecond.2 (by simpa using hflag)

theorem serializerCancelDelayedWork_wake {id key ctx : Nat} (h : s.view.WakeInv) :
    (serializerCancelDelayedWork s t id key ctx).2.view.WakeInv := by
  have hloop : ∀ (l : List Ptr) (s : WorkSerializer), s.view.WakeInv →
      (l.foldl (cancelEntry id key ctx) s).view.WakeInv := by
    intro l
    induction l with
    | nil => exact fun s h => h
    | cons q l ih => exact fun s h => ih _ (cancelEntry_wake h)
  unfold serializerCancelDelayedWork
  split_ifs
  · exact h
  · exact h
  · exact hloop _ s h

end Steps

/-- The signal of a submission wakes one of the threads that are blocked, if there are any. -/
def SignalWakes (s : WorkSerializer) : Action → Prop
  | .insert _ _ woken => s.condWaiters = [] ∨ woken ∈ s.condWaiters
  | _ => True

instance (s : WorkSerializer) : ∀ a, Decidable (SignalWakes s a)
  | .insert _ _ _ => inferInstanceAs (Decidable (_ ∨ _))
  | .tick _ | .execWork _ _ _ _ _ _ | .execWorkAsync _ _ _ _ _ | .addDelayedWork _ _ _ _ _ _ _
  | .freeUninserted _ | .callerWakes _ _ | .callerFinishes _ | .workerTakes | .workerWakes _
  | .workFuncReturns _ | .freeFuncReturns | .workDone | .cancelDelayedWork _ _ _ _
  | .stopAllByCtx _ _ => .isTrue trivial

/-- The thread of the serializer does not go to its wait with a delayed work that is due in the
second in which a wait of ten seconds ends, before its end. -/
def WaitsForDelayed (s : WorkSerializer) : Action → Prop
  | .workerTakes | .workerWakes .ok => ¬ DueInLastSecond s
  | _ => True

instance (s : WorkSerializer) (a : Action) : Decidable (WaitsForDelayed s a) := by
  unfold WaitsForDelayed
  split <;> infer_instance

/-- No thread is blocked for which there is something to do: the thread of the serializer while a
work is linked or a delayed work is due before the deadline of its wait, or a synchronous caller
whose work is done or aborted. -/
structure NoLostWakeup (s : WorkSerializer) : Prop where
  worker : ∀ deadline, s.worker = .waiting deadline → serializerThread ∈ s.condWaiters →
    s.workList = [] ∧ ∀ p ∈ s.delayedWorkList, isDelayedWorkBefore (s.work p) deadline = false
  caller : ∀ t p deadline, s.callers t = .waiting p deadline → t ∈ s.condWaiters →
    (s.work p).state ≠ .done ∧ (s.work p).state ≠ .aborted

theorem View.WakeInv.noneLost {s : WorkSerializer} (h : s.view.WakeInv) : NoLostWakeup s where
  worker deadline hw hmem := ⟨h.blocked_work hmem, h.blocked_delayed hmem deadline hw⟩
  caller t p deadline hc hmem := by
    have hst : (s.work p).state = .waitingForFinish :=
      not_not.mp fun hne => h.waiting_woken t p deadline hc hne hmem
    simp [hst]

theorem view_createNewWork {s : WorkSerializer} {t : Thread} {id obj ctx : Nat} {st : WorkState}
    {ts : Timespec} {tmo : UInt32} :
    (createNewWork s t id obj ctx st ts tmo).view =
      { s.view with
        next := s.next + 1
        work := Function.update s.work s.next { ctx, obj, id, ts, state := st, result := 0 }
        callers := Function.update s.callers t (.again s.next tmo) } := by
  have hwork : (createNewWork s t id obj ctx st ts tmo).work =
      Function.update s.work s.next { ctx, obj, id, ts, state := st, result := 0 } := by
    funext q
    by_cases hq : q = s.next
    · subst hq
      simp [work, createNewWork]
    · simp [work, createNewWork, hq]
  simp only [view, hwork]
  rfl

theorem createNewWork_wake {s : WorkSerializer} {t : Thread} {id obj ctx : Nat} {st : WorkState}
    {ts : Timespec} {tmo : UInt32} (h : s.view.WakeInv) (hidle : s.callers t = .idle)
    (hst : st = .async ∨ st = .delayed ∨ t ≠ serializerThread ∧ st = .waitingForFinish) :
    (createNewWork s t id obj ctx st ts tmo).view.WakeInv := by
  rw [view_createNewWork]
  exact h.create hidle (w := { ctx, obj, id, ts, state := st, result := 0 }) hst tmo

theorem view_callerFinishes {s : WorkSerializer} {t : Thread} {p : Ptr} {abandoned : Bool} :
    (callerFinishes s t p abandoned).view =
      { s.view with callers := Function.update s.view.callers t .idle } := by
  unfold callerFinishes
  split
  · exact view_callReturns ..
  · simp only
    split <;> rw [view_callReturns, view_free, view_touch]

theorem step_wake {s s' : WorkSerializer} {a : Action} (h : s.view.WakeInv)
    (hsignal : SignalWakes s a) (hdelayed : WaitsForDelayed s a) (hstep : step s a = some s') :
    s'.view.WakeInv := by
  cases step_stepped hstep with
  | ticks now => exact h
  | refused => exact h
  | created hidle hst => exact createNewWork_wake h hidle hst
  | inserted hc => exact insertWork_wake h hc hsignal
  | @freed t p hc =>
    rw [freeUninserted, view_callReturns, view_free]
    exact h.retire (h.awake_unless_waiting fun q d => by simp [view, hc]) .idle rfl
  | callerWoke hc => exact callerWakes_wake h hc
  | callerFinished hc =>
    rw [view_callerFinishes]
    exact h.retire (h.awake_unless_waiting fun q d => by simp [view, hc]) .idle rfl
  | workerTook hw =>
    exact workerTakes_wake h (h.worker_awake (by simp [view, hw])) (by rw [hw]; rfl) (by simp [hw])
      hdelayed
  | workerWoke hw =>
    refine workerWakes_wake h hw fun hcw => ?_
    subst hcw
    exact hdelayed
  | workFuncReturned hw => exact workFuncReturns_wake h hw
  | freeFuncReturned hw =>
    have hawake := h.worker_awake (by simp [view, hw])
    refine h.turn hawake (by simp [view, hw]) (fun q hq => ?_) fun q hq => .inl ?_
    · rw [show s.view.worker = _ from hw]
      exact hq
    · rw [show s.view.worker = _ from hw] at hq
      exact hq
  | workFinished hw => exact workDone_wake h hw
  | cancelled => exact serializerCancelDelayedWork_wake h
  | stopped => exact serializerStopAllByCtx_wake h

theorem serializerCreate_wake (ops : List WorkOps) (startNow : Bool) :
    (serializerCreate ops startNow).view.WakeInv := by
  constructor <;> cases startNow <;>
    simp [view, serializerCreate, CallPhase.pending, WorkerPhase.work?]

/-- In every run in which every signal wakes one of the threads that are blocked, and in which the
thread of the serializer never waits past a delayed work that is due in the last second of its ten,
no wakeup is lost. -/
theorem noLostWakeup (ops : List WorkOps) (startNow : Bool) (as : List Action) {s : WorkSerializer}
    (hsignal : Along step SignalWakes (serializerCreate ops startNow) as)
    (hdelayed : Along step WaitsForDelayed (serializerCreate ops startNow) as)
    (hrun : exec step (serializerCreate ops startNow) as = some s) : NoLostWakeup s :=
  have hinv : s.view.WakeInv :=
    exec_along (fun h hok hstep => step_wake h hok.1 hok.2 hstep)
      (serializerCreate_wake ops startNow) (hsignal.and hdelayed) hrun
  hinv.noneLost

/-- The thread of the serializer waits while thread 1 adds a work that is delayed by `secs` seconds,
half a second before the next second begins, and looks at the lists again after that second has
begun. -/
def delayedRun (secs : UInt32) : List Action :=
  [.workerTakes, .addDelayedWork 1 0 10 7 secs 0 true, .insert 1 true 0, .tick ⟨0, 500000000⟩,
   .workerWakes .ok]

theorem noLostWakeup_delayedRun :
    ∃ s, exec step (serializerCreate [⟨true, none⟩] true) (delayedRun 9) = some s ∧
      NoLostWakeup s :=
  ⟨_, rfl, noLostWakeup [⟨true, none⟩] true (delayedRun 9) (by decide) (by decide) rfl⟩

/-- A work that is delayed by ten seconds: the thread of the serializer is blocked with a deadline
half a second behind the time at which the work is due. -/
theorem delayedRun_loses_wakeup :
    Along step SignalWakes (serializerCreate [⟨true, none⟩] true) (delayedRun 10) ∧
      ∃ s, exec step (serializerCreate [⟨true, none⟩] true) (delayedRun 10) = some s ∧
        ¬ NoLostWakeup s := by
  refine ⟨by decide, _, rfl, fun h => ?_⟩
  have hdue := (h.worker ⟨10, 500000000⟩ rfl (by decide)).2 0 (by decide)
  exact absurd hdue (by decide)

end Dwpal.Serializer
