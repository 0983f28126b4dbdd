import Dwpal.Serializer.Dispatch

/-! When a delayed work is executed: the time that `serializer_add_delayed_work` stores, and what
the clock shows when the thread of the serializer takes the work. -/

namespace Dwpal.Serializer

open Dwpal.Machine WorkSerializer

/-- What `clock_gettime` can return: a normalised time, with the seconds in a 64-bit `time_t`. -/
def Timespec.Valid (ts : Timespec) : Prop :=
  0 ≤ ts.tvNsec ∧ ts.tvNsec < 1000000000 ∧ -2 ^ 63 ≤ ts.tvSec ∧ ts.tvSec < 2 ^ 63

instance (ts : Timespec) : Decidable ts.Valid := inferInstanceAs (Decidable (_ ∧ _))

def Timespec.nanos (ts : Timespec) : Int := ts.tvSec * 1000000000 + ts.tvNsec

/-- A call of `serializer_add_delayed_work`: what the clock shows, and the delay. -/
structure DelayRequest where
  now : Timespec
  secs : UInt32
  msecs : UInt32
deriving DecidableEq, Repr

/-- The time of the submission plus the delay, in nanoseconds. -/
def DelayRequest.dueNanos (r : DelayRequest) : Int :=
  r.now.nanos + r.secs.toNat * 1000000000 + r.msecs.toNat * 1000000

/-- The time `due` is the one asked for. -/
def DelayRequest.Stored (r : DelayRequest) (due : Timespec) : Prop :=
  due.Valid ∧ due.nanos = r.dueNanos

/-- The seconds of the delay fit into an `unsigned`, and those of the due time into a `time_t`. -/
def DelayRequest.Fits (r : DelayRequest) : Prop :=
  r.secs.toNat + r.msecs.toNat / 1000 < 2 ^ 32 ∧ r.dueNanos / 1000000000 < 2 ^ 63

instance (r : DelayRequest) : Decidable r.Fits := inferInstanceAs (Decidable (_ ∧ _))

/-- `_add_time_to_timespec` is exact if the sum of its seconds does not wrap. -/
theorem addTimeToTimespec_stored {r : DelayRequest} (hnow : r.now.Valid) :
    r.Stored (addTimeToTimespec r.now r.secs r.msecs) ↔ r.Fits := by
  obtain ⟨now, secs, msecs⟩ := r
  obtain ⟨hlow, hhigh, hmin, hmax⟩ := hnow
  have hsecs := secs.toNat_lt
  have hmsecs := msecs.toNat_lt
  have hsum : (secs + msecs / 1000).toNat = (secs.toNat + msecs.toNat / 1000) % 2 ^ 32 := by
    rw [UInt32.toNat_add, UInt32.toNat_div]
    rfl
  have hnsec : (msecs % 1000 * 1000000).toNat = msecs.toNat % 1000 * 1000000 := by
    rw [UInt32.toNat_mul, UInt32.toNat_mod]
    refine Nat.mod_eq_of_lt ?_
    have := Nat.mod_lt msecs.toNat (show 0 < 1000 by decide)
    change msecs.toNat % 1000 * 1000000 < 2 ^ 32
    omega
  have hsplit := Nat.div_add_mod msecs.toNat 1000
  have hrest := Nat.mod_lt msecs.toNat (show 0 < 1000 by decide)
  simp only at hlow hhigh hmin hmax
  simp only [DelayRequest.Stored, DelayRequest.Fits, DelayRequest.dueNanos, Timespec.nanos,
    addTimeToTimespec, hsum, hnsec, Timespec.Valid]
  split
  · next hcarry =>
    rw [Int.tmod_eq_emod_of_nonneg (by omega)]
    dsimp only
    omega
  · next hcarry =>
    dsimp only
    omega

/-- A work that is taken once it is before the clock was due. -/
theorem dueNanos_lt {r : DelayRequest} {work : Work} {clock : Timespec} (hstored : r.Stored work.ts)
    (hclock : clock.Valid) (hbefore : isDelayedWorkBefore work clock = true) :
    r.dueNanos < clock.nanos := by
  obtain ⟨⟨hlow, hhigh, -, -⟩, hdue⟩ := hstored
  obtain ⟨hlow', hhigh', -, -⟩ := hclock
  rw [isDelayedWorkBefore_iff] at hbefore
  rw [← hdue, Timespec.nanos, Timespec.nanos]
  omega

/-- A serializer, with the delay that was asked for each of its delayed works. -/
structure Tracked where
  serializer : WorkSerializer
  requests : Ptr → Option DelayRequest

/-- The delayed work that the step submits. -/
def newRequest (s : WorkSerializer) : Action → Option DelayRequest
  | .addDelayedWork t id obj ctx secs msecs mallocOk =>
    if s.CanCall t ∧ (serializerAddDelayedWork s t id obj ctx secs msecs mallocOk).isSome then
      some ⟨s.clock, secs, msecs⟩
    else none
  | _ => none

/-- A step after which the clock shows a time it can show. -/
def trackedStep (x : Tracked) (a : Action) : Option Tracked :=
  (step x.serializer a).bind fun s' =>
    if s'.clock.Valid then
      some
        { serializer := s'
          requests :=
            match newRequest x.serializer a with
            | some r => Function.update x.requests x.serializer.next (some r)
            | none => x.requests }
    else none

def trackedCreate (ops : List WorkOps) (startNow : Bool) : Tracked :=
  ⟨serializerCreate ops startNow, fun _ => none⟩

/-- A submission stores the time that was asked for, and a work is taken only after that time. -/
def NeverEarly (x : Tracked) (a : Action) : Prop :=
  ∀ x', trackedStep x a = some x' →
    (∀ r, newRequest x.serializer a = some r →
        r.Stored (x'.serializer.work x.serializer.next).ts) ∧
      ∀ p r, x.requests p = some r → x'.serializer.worker = .working p →
        x.serializer.worker ≠ .working p → r.dueNanos < x.serializer.clock.nanos

/-- The delay of a submission does not overflow. -/
def DelayFits (x : Tracked) (a : Action) : Prop := ∀ r, newRequest x.serializer a = some r → r.Fits

/-! ### What the other steps do to the delayed works -/

/-- A step that creates no work: it leaves the delayed works as they are, makes no work delayed, and
links none of them in `work_list`. -/
structure View.KeepsDelayed (v v' : View) : Prop where
  next : v'.next = v.next
  kept : ∀ p, (v.work p).state = .delayed → v'.work p = v.work p
  only : ∀ p, (v'.work p).state = .delayed → (v.work p).state = .delayed
  workList : ∀ p ∈ v'.workList, p ∈ v.workList ∨ (v.work p).state ≠ .delayed

namespace View.KeepsDelayed

variable {v v' v'' : View} {p : Ptr}

theorem trans (h : v.KeepsDelayed v') (h' : v'.KeepsDelayed v'') : v.KeepsDelayed v'' := by
  refine ⟨h'.next.trans h.next, fun p hp => ?_, fun p hp => h.only p (h'.only p hp),
    fun p hp => ?_⟩
  · have hmid := h.kept p hp
    rw [← hmid]
    exact h'.kept p (hmid ▸ hp)
  · rcases h'.workList p hp with hp | hnot
    · exact h.workList p hp
    · exact .inr fun hdelayed => hnot (h.kept p hdelayed ▸ hdelayed)

/-- The works stay as they are. -/
theorem of_eq (hnext : v'.next = v.next) (hwork : v'.work = v.work)
    (hlist : v'.workList.Sublist v.workList) : v.KeepsDelayed v' :=
  ⟨hnext, fun p _ => congrFun hwork p, fun p hp => congrFun hwork p ▸ hp,
    fun _ hp => .inl (hlist.subset hp)⟩

theorem refl (v : View) : v.KeepsDelayed v := of_eq rfl rfl (.refl _)

/-- A work that is not delayed gets another state. -/
theorem setWork {w : Work} (hnext : v'.next = v.next) (hwork : v'.work = Function.update v.work p w)
    (hold : (v.work p).state ≠ .delayed) (hnew : w.state ≠ .delayed)
    (hlist : v'.workList.Sublist v.workList) : v.KeepsDelayed v' := by
  refine ⟨hnext, fun q hq => ?_, fun q hq => ?_, fun _ hp => .inl (hlist.subset hp)⟩
  · rw [hwork, Function.update_of_ne]
    rintro rfl
    exact hold hq
  · rw [hwork] at hq
    rcases eq_or_ne q p with rfl | hne
    · rw [Function.update_self] at hq
      exact absurd hq hnew
    · rwa [Function.update_of_ne hne] at hq

end View.KeepsDelayed

section Steps

variable {s s' : WorkSerializer} {t : Thread} {p : Ptr}

open View (KeepsDelayed)

theorem startOrSignal_keeps {woken : Thread} :
    s.view.KeepsDelayed (startOrSignal s woken).view := by
  unfold startOrSignal
  split <;> exact .of_eq rfl rfl (.refl _)

/-- A work that is not delayed is linked in `work_list`. -/
theorem View.KeepsDelayed.link {v : View} {l : List Ptr} (hst : (v.work p).state ≠ .delayed)
    (hl : l.Perm (p :: v.workList)) : v.KeepsDelayed { v with workList := l } := by
  refine ⟨rfl, fun _ _ => rfl, fun _ hq => hq, fun q hq => ?_⟩
  rcases List.mem_cons.mp (hl.mem_iff.mp hq) with rfl | hq
  · exact .inr hst
  · exact .inl hq

theorem insertWork_keeps {tmo : UInt32} {nodeOk : Bool} {woken : Thread} :
    s.view.KeepsDelayed (insertWork s t p tmo nodeOk woken).view := by
  have hcaller : ∀ {v : View} {ph : CallPhase},
      v.KeepsDelayed { v with callers := Function.update v.callers t ph } :=
    .of_eq rfl rfl (.refl _)
  have hsync : (s.work p).state ≠ .async → (s.work p).state ≠ .delayed →
      s.view.KeepsDelayed (insertWork s t p tmo nodeOk woken).view := by
    intro hasync hdelayed
    have heq : insertWork s t p tmo nodeOk woken =
        (let before q := decide ((s.work q).state ≠ .waitingForFinish)
        let s := (s.touch [p]).touch (scanned before s.workList)
        if !nodeOk then s.setCaller t (.insertErr p)
        else
          let s := startOrSignal { s with workList := insertBefore before p s.workList } woken
          (s.setCaller t (.waiting p (addTimeToTimespec s.clock 0 tmo))).condBlock t) := by
      unfold insertWork
      simp only
      split
      · next hst => exact absurd hst hasync
      · next hst => exact absurd hst hdelayed
      · rfl
    rw [heq]
    simp only
    split
    · exact hcaller
    · have hblocks : ∀ {s' : WorkSerializer} {ph : CallPhase},
          s'.view.KeepsDelayed ((s'.setCaller t ph).condBlock t).view :=
        .of_eq rfl rfl (.refl _)
      refine .trans (.trans ?_ startOrSignal_keeps) hblocks
      exact .link (v := s.view) hdelayed (insertBefore_perm _ p s.workList)
  cases hst : (s.work p).state with
  | async =>
    have hst' : ((s.touch [p]).work p).state = .async := hst
    simp only [insertWork, hst']
    split_ifs
    · exact .refl s.view
    · exact hcaller
    · rw [view_callReturns]
      refine .trans (.trans ?_ startOrSignal_keeps) hcaller
      exact .link (v := s.view) (p := p) (hst.trans_ne (by rintro ⟨⟩))
        (List.perm_append_singleton p _)
  | delayed =>
    have hst' : ((s.touch [p]).work p).state = .delayed := hst
    simp only [insertWork, hst']
    split_ifs
    · exact .refl s.view
    · exact hcaller
    · rw [view_callReturns]
      refine .trans (.trans ?_ startOrSignal_keeps) hcaller
      exact .of_eq rfl rfl (.refl _)
  | _ => exact hsync (by rw [hst]; rintro ⟨⟩) (by rw [hst]; rintro ⟨⟩)

theorem callerWakes_keeps {cw : CwRes} : s.view.KeepsDelayed (callerWakes s t p cw).view := by
  unfold callerWakes
  simp only
  split_ifs with hst
  · exact .of_eq rfl rfl (.refl _)
  · exact .of_eq rfl rfl List.erase_sublist
  · rw [view_setCaller, view_setState]
    exact .setWork (v := s.view) rfl rfl (hst ▸ nofun) nofun (.refl _)
  · exact .of_eq rfl rfl (.refl _)

theorem workerTakes_keeps : s.view.KeepsDelayed (workerTakes s).view := by
  unfold workerTakes
  split
  · next p rest hl =>
    refine .of_eq rfl rfl ?_
    change rest.Sublist s.workList
    rw [hl]
    exact List.sublist_cons_self p rest
  · simp only
    split
    · exact .of_eq rfl rfl (.refl _)
    · split_ifs <;> exact .of_eq rfl rfl (.refl _)

theorem stopEntry_keeps {ctx : Nat} {b : Bool} :
    s.view.KeepsDelayed (stopEntry ctx (s, b) p).1.view := by
  unfold stopEntry
  simp only
  split
  · rw [view_stopWork]
    split
    · next hst => exact .setWork (v := s.view) rfl rfl (hst ▸ nofun) nofun List.erase_sublist
    · exact .of_eq rfl rfl List.erase_sublist
  · exact .refl s.view

theorem stopLoop_keeps {ctx : Nat} {l : List Ptr} (acc : WorkSerializer × Bool) :
    acc.1.view.KeepsDelayed (l.foldl (stopEntry ctx) acc).1.view := by
  induction l generalizing acc with
  | nil => exact .refl _
  | cons p l ih => exact .trans stopEntry_keeps (ih _)

theorem cancelEntry_keeps {id key ctx : Nat} :
    s.view.KeepsDelayed (cancelEntry id key ctx s p).view := by
  unfold cancelEntry
  simp only
  split
  · rw [view_free, view_settle, view_callFreeFunc]
    exact .of_eq rfl rfl (.refl _)
  · exact .refl s.view

theorem cancelLoop_keeps {id key ctx : Nat} {l : List Ptr} :
    s.view.KeepsDelayed (l.foldl (cancelEntry id key ctx) s).view := by
  induction l generalizing s with
  | nil => exact .refl _
  | cons p l ih => exact .trans cancelEntry_keeps ih

/-- The step creates no work. -/
theorem step_keeps {a : Action} (hstep : step s a = some s') :
    s.view.KeepsDelayed s'.view ∨
      ∃ t id obj ctx state ts tmo, s' = createNewWork s t id obj ctx state ts tmo := by
  cases step_stepped hstep with
  | ticks | refused => exact .inl (.refl s.view)
  | freeFuncReturned => exact .inl (.of_eq rfl rfl (.refl _))
  | created => exact .inr ⟨_, _, _, _, _, _, _, rfl⟩
  | inserted => exact .inl insertWork_keeps
  | freed =>
    left
    rw [freeUninserted, view_callReturns, view_free]
    exact .of_eq rfl rfl (.refl _)
  | callerWoke => exact .inl callerWakes_keeps
  | callerFinished =>
    left
    rw [view_callerFinishes]
    exact .of_eq rfl rfl (.refl _)
  | workerTook => exact .inl workerTakes_keeps
  | @workerWoke d cw hw =>
    left
    have hwoken : s.view.KeepsDelayed (s.condUnblock serializerThread).view :=
      .of_eq rfl rfl (.refl _)
    cases cw with
    | ok => exact hwoken.trans workerTakes_keeps
    | timedOut => exact .of_eq rfl rfl (.refl _)
    | failed => exact .of_eq rfl rfl (.refl _)
  | workFuncReturned =>
    left
    rw [view_workFuncReturns]
    exact .of_eq rfl rfl (.refl _)
  | workFinished =>
    left
    rw [view_workDone]
    split
    · next hst =>
      exact .setWork (v := s.view) rfl rfl (hst.trans_ne (by rintro ⟨⟩)) (by rintro ⟨⟩) (.refl _)
    · exact .of_eq rfl rfl (.refl _)
  | cancelled =>
    left
    unfold serializerCancelDelayedWork
    split_ifs
    · exact .refl s.view
    · exact .refl s.view
    · exact cancelLoop_keeps
  | stopped =>
    left
    unfold serializerStopAllByCtx
    split
    · exact .refl s.view
    · have hnotified : ∀ {s' : WorkSerializer}, s'.view.KeepsDelayed s'.condBroadcast.view :=
        .of_eq rfl rfl (.refl _)
      simp only
      split
      · exact .trans (.trans (stopLoop_keeps (s, false)) (stopLoop_keeps _)) hnotified
      · exact .trans (stopLoop_keeps (s, false)) (stopLoop_keeps _)

end Steps

/-- What holds in a run whose delays all fit. -/
structure DelayedInv (x : Tracked) : Prop where
  order : ∃ log, x.serializer.view.OrderInv log
  clock : x.serializer.clock.Valid
  workList : ∀ p ∈ x.serializer.workList, (x.serializer.work p).state ≠ .delayed
  fresh : ∀ p r, x.requests p = some r → p < x.serializer.next
  state : ∀ p r, x.requests p = some r → (x.serializer.work p).state = .delayed
  stored : ∀ p r, x.requests p = some r → r.Stored (x.serializer.work p).ts

variable {x x' : Tracked} {a : Action} {r : DelayRequest}

/-- A submission that is accepted creates a delayed work. -/
theorem newRequest_step {s : WorkSerializer} (hnew : newRequest s a = some r) :
    r.now = s.clock ∧ ∃ t id obj ctx, step s a = some
      (createNewWork s t id obj ctx .delayed (addTimeToTimespec r.now r.secs r.msecs) 0) := by
  cases a with
  | addDelayedWork t id obj ctx secs msecs mallocOk =>
    simp only [newRequest] at hnew
    split at hnew
    · next hcan =>
      cases hnew
      obtain ⟨hcan, hsome⟩ := hcan
      refine ⟨rfl, t, id, obj, ctx, ?_⟩
      simp only [step, if_pos hcan]
      unfold serializerAddDelayedWork at hsome ⊢
      split_ifs at hsome ⊢
      · cases hsome
      · cases hsome
      · rfl
    · cases hnew
  | _ => cases hnew

theorem createNewWork_work {s : WorkSerializer} {t : Thread} {id obj ctx : Nat} {state : WorkState}
    {ts : Timespec} {tmo : UInt32} :
    (createNewWork s t id obj ctx state ts tmo).work =
      Function.update s.work s.next { ctx, obj, id, ts, state, result := 0 } :=
  congrArg View.work view_createNewWork

/-- A delayed work is taken only once it is before the clock. -/
theorem DelayedInv.taken {s' : WorkSerializer} {p : Ptr} (h : DelayedInv x)
    (hreq : x.requests p = some r) (hstep : step x.serializer a = some s')
    (hworking : s'.worker = .working p) (hnot : x.serializer.worker ≠ .working p) :
    isDelayedWorkBefore (x.serializer.work p) x.serializer.clock = true := by
  obtain ⟨log, horder⟩ := h.order
  have hlooks := (step_working horder hstep hworking).resolve_left hnot
  have hnext := (step_takes horder hlooks hstep p).mp hworking
  unfold NextWork at hnext
  split at hnext
  · next q hq =>
    subst hnext
    have hlinked : p ∈ x.serializer.workList := by simpa using List.find?_some hq
    exact absurd (h.state p r hreq) (h.workList p hlinked)
  · exact hnext.2.1

theorem trackedStep_eq {s' : WorkSerializer} (hstep : step x.serializer a = some s')
    (htracked : trackedStep x a = some x') :
    x'.serializer = s' ∧ s'.clock.Valid ∧
      x'.requests = match newRequest x.serializer a with
        | some r => Function.update x.requests x.serializer.next (some r)
        | none => x.requests := by
  rw [trackedStep, hstep, Option.bind_some] at htracked
  split at htracked
  · next hclock =>
    cases htracked
    exact ⟨rfl, hclock, rfl⟩
  · cases htracked

theorem DelayedInv.neverEarly (h : DelayedInv x) : NeverEarly x a ↔ DelayFits x a := by
  constructor
  · intro hnever r hnew
    obtain ⟨hnow, t, id, obj, ctx, hstep⟩ := newRequest_step hnew
    have htracked : ∃ x', trackedStep x a = some x' := by
      rw [trackedStep, hstep, Option.bind_some]
      exact ⟨_, if_pos h.clock⟩
    obtain ⟨x', htracked⟩ := htracked
    have hstored := (hnever x' htracked).1 r hnew
    rw [(trackedStep_eq hstep htracked).1, createNewWork_work, Function.update_self] at hstored
    exact (addTimeToTimespec_stored (hnow ▸ h.clock)).mp hstored
  · intro hfits x' htracked
    refine ⟨fun r hnew => ?_, fun p r hreq hworking hnot => ?_⟩
    · obtain ⟨hnow, t, id, obj, ctx, hstep⟩ := newRequest_step hnew
      rw [(trackedStep_eq hstep htracked).1, createNewWork_work, Function.update_self]
      exact (addTimeToTimespec_stored (hnow ▸ h.clock)).mpr (hfits r hnew)
    · obtain ⟨s', hstep, -⟩ := Option.bind_eq_some_iff.mp htracked
      rw [(trackedStep_eq hstep htracked).1] at hworking
      exact dueNanos_lt (h.stored p r hreq) h.clock (h.taken hreq hstep hworking hnot)

theorem trackedStep_inv (h : DelayedInv x) (hnever : NeverEarly x a)
    (htracked : trackedStep x a = some x') : DelayedInv x' := by
  obtain ⟨s', hstep, -⟩ := Option.bind_eq_some_iff.mp htracked
  obtain ⟨hserializer, hclock, hrequests⟩ := trackedStep_eq hstep htracked
  obtain ⟨log, horder⟩ := h.order
  have horder' := step_order horder hstep
  have hfresh : ∀ p ∈ x.serializer.workList, p ≠ x.serializer.next := by
    intro p hp
    exact Nat.ne_of_lt (horder.fresh p (horder.mem_accepted (.inl hp)))
  -- the works that were there keep their place, their state and their time
  have hold : ∀ p r, x.requests p = some r → s'.work p = x.serializer.work p ∧ p < s'.next := by
    intro p r hreq
    rcases step_keeps hstep with hkeeps | ⟨t, id, obj, ctx, state, ts, tmo, rfl⟩
    · exact ⟨hkeeps.kept p (h.state p r hreq),
        Nat.lt_of_lt_of_eq (h.fresh p r hreq) hkeeps.next.symm⟩
    · rw [createNewWork_work, Function.update_of_ne (Nat.ne_of_lt (h.fresh p r hreq))]
      exact ⟨rfl, Nat.lt_succ_of_lt (h.fresh p r hreq)⟩
  have hlist : ∀ p ∈ s'.workList, (s'.work p).state ≠ .delayed := by
    intro p hp
    rcases step_keeps hstep with hkeeps | ⟨t, id, obj, ctx, state, ts, tmo, rfl⟩
    · intro hdelayed
      have hwas := hkeeps.only p hdelayed
      exact (hkeeps.workList p hp).elim (fun hp => h.workList p hp hwas) fun hnot => hnot hwas
    · rw [createNewWork_work, Function.update_of_ne (hfresh p hp)]
      exact h.workList p hp
  -- the new one, if there is one, is delayed until the time that was asked for
  have hnewest : ∀ r, newRequest x.serializer a = some r →
      x.serializer.next < s'.next ∧ (s'.work x.serializer.next).state = .delayed ∧
        r.Stored (s'.work x.serializer.next).ts := by
    intro r hnew
    obtain ⟨-, t, id, obj, ctx, hstep'⟩ := newRequest_step hnew
    have hstored := (hnever x' htracked).1 r hnew
    rw [hserializer] at hstored
    cases hstep.symm.trans hstep'
    refine ⟨Nat.lt_succ_self _, ?_, hstored⟩
    rw [createNewWork_work, Function.update_self]
  have hall : ∀ p r, x'.requests p = some r →
      p < s'.next ∧ (s'.work p).state = .delayed ∧ r.Stored (s'.work p).ts := by
    intro p r hreq
    have hkept : x.requests p = some r →
        p < s'.next ∧ (s'.work p).state = .delayed ∧ r.Stored (s'.work p).ts := by
      intro hreq
      obtain ⟨hwork, hlt⟩ := hold p r hreq
      rw [hwork]
      exact ⟨hlt, h.state p r hreq, h.stored p r hreq⟩
    rw [hrequests] at hreq
    cases hnew : newRequest x.serializer a with
    | none =>
      rw [hnew] at hreq
      exact hkept hreq
    | some new =>
      rw [hnew] at hreq
      simp only at hreq
      rcases eq_or_ne p x.serializer.next with rfl | hne
      · rw [Function.update_self] at hreq
        cases hreq
        exact hnewest r hnew
      · rw [Function.update_of_ne hne] at hreq
        exact hkept hreq
  exact
    { order := ⟨_, hserializer ▸ horder'⟩
      clock := hserializer ▸ hclock
      workList := hserializer ▸ hlist
      fresh := fun p r hreq => hserializer ▸ (hall p r hreq).1
      state := fun p r hreq => hserializer ▸ (hall p r hreq).2.1
      stored := fun p r hreq => hserializer ▸ (hall p r hreq).2.2 }

theorem trackedCreate_inv (ops : List WorkOps) (startNow : Bool) :
    DelayedInv (trackedCreate ops startNow) where
  order := ⟨.empty, serializerCreate_order ops startNow⟩
  clock := (by decide : (⟨0, 0⟩ : Timespec).Valid)
  workList := nofun
  fresh := nofun
  state := nofun
  stored := nofun

/-- In every run: the stored times are those that were asked for and no delayed work is early
exactly if no delay overflows. -/
theorem delayedNeverEarly (ops : List WorkOps) (startNow : Bool) (as : List Action) :
    Along trackedStep NeverEarly (trackedCreate ops startNow) as ↔
      Along trackedStep DelayFits (trackedCreate ops startNow) as :=
  along_iff (fun h => h.neverEarly) trackedStep_inv (trackedCreate_inv ops startNow)

/-- A delay of `0xffffffff` seconds and a second more in milliseconds is none: the work is taken at
once. -/
def hugeDelayRun : List Action :=
  [.tick ⟨1000, 0⟩, .addDelayedWork 1 0 10 7 0xffffffff 1000 true, .insert 1 true 0,
    .tick ⟨1001, 0⟩, .workerTakes]

theorem hugeDelay_early :
    ¬ Along trackedStep NeverEarly (trackedCreate [⟨true, none⟩] true) hugeDelayRun ∧
      ∃ s, exec step (serializerCreate [⟨true, none⟩] true) hugeDelayRun = some s ∧
        s.worker = .working 0 := by
  refine ⟨fun h => ?_, _, rfl, rfl⟩
  have hnever : NeverEarly _ _ := h.2.1
  have hstored := (hnever _ rfl).1 _ rfl
  exact absurd hstored.2 (by decide)

end Dwpal.Serializer
