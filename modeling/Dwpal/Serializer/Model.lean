import Dwpal.Lib.Machine
import Mathlib.Logic.Function.Basic

/-! The work serializer of `wv_ipc/work_serializer.c`: the works in the heap, the two lists, the
threads that submit works and the thread that executes them. A critical section under `work_lock`
is one step; between two steps any other thread may step. `serializer_destroy` is left out, so
`stop` stays 0. -/

namespace Dwpal.Serializer

/-- The address of a `work_t`. An address is never given out twice. -/
abbrev Ptr := Nat

/-- A thread. The thread that `serializer_work_thread` runs in is `serializerThread`. -/
abbrev Thread := Nat

def serializerThread : Thread := 0

def asyncWorkListMaxSize : Nat := 500

def delayedWorkListMaxSize : Nat := 200

inductive SerializerState where
  | paused
  | running
deriving DecidableEq, Repr

structure Timespec where
  tvSec : Int
  tvNsec : Int
deriving DecidableEq, Repr, Inhabited

inductive WorkState where
  | async
  | delayed
  | waitingForFinish
  | done
  | abandoned
  | aborted
deriving DecidableEq, Repr, Inhabited

structure Work where
  ctx : Nat
  obj : Nat
  id : Nat
  ts : Timespec
  state : WorkState
  result : Int
deriving DecidableEq, Repr, Inhabited

/-- The part of a `work_ops_t` that the serializer's own code depends on: whether there is a
`free_func`, and the `cmp_func` if there is one. What `work_func` returns is chosen by the run. -/
structure WorkOps where
  hasFreeFunc : Bool
  cmpFunc : Option (Nat → Nat → Int)

/-- A `work_t` in the heap. The fields after `work` are not in the source: they count the
`free(work)` calls, the `free_func` calls on `work->obj`, and keep what the call that created the
work has returned (`ret`, and `*res` in `res`) and whether the work was executed, cancelled or
stopped (`settled`). -/
structure Cell where
  work : Work
  frees : Nat
  freeFuncs : Nat
  ret : Option Int
  res : Option Int
  settled : Bool
deriving Inhabited

/-- Where a thread is in `_serializer_exec_work`: before the lock at `again`, blocked in
`pthread_cond_timedwait`, past the unlock that ends the wait, or at `insert_err` past its unlock. -/
inductive CallPhase where
  | idle
  | again (work : Ptr) (timeoutMs : UInt32)
  | waiting (work : Ptr) (deadline : Timespec)
  | unlocked (work : Ptr) (abandoned : Bool)
  | insertErr (work : Ptr)
deriving DecidableEq, Repr, Inhabited

/-- Where `serializer_work_thread` is: not created, before the lock, blocked in
`pthread_cond_timedwait`, inside `work_func`, inside `free_func` with the result of `work_func`,
before the second lock, or returned. -/
inductive WorkerPhase where
  | notCreated
  | top
  | waiting (deadline : Timespec)
  | working (work : Ptr)
  | freeing (work : Ptr) (workRes : Int)
  | finishing (work : Ptr) (workRes : Int)
  | exited
deriving DecidableEq, Repr

/-- What is never to happen to a `work_t`. -/
inductive Fault where
  | usedAfterFree (work : Ptr)
  | freedTwice (work : Ptr)
  | freedWhileLinked (work : Ptr)
deriving DecidableEq, Repr

structure WorkSerializer where
  state : SerializerState
  ops : List WorkOps
  workList : List Ptr
  delayedWorkList : List Ptr
  /-- The threads blocked on `work_cond` that no signal has woken. -/
  condWaiters : List Thread
  heap : Ptr → Cell
  /-- The addresses below `next` have been handed out by `malloc`. -/
  next : Ptr
  worker : WorkerPhase
  callers : Thread → CallPhase
  /-- What `clock_gettime(CLOCK_REALTIME)` returns now. -/
  clock : Timespec
  faults : List Fault

namespace WorkSerializer

variable (s : WorkSerializer)

/-- The `work_t` at `p`. -/
def work (p : Ptr) : Work := (s.heap p).work

/-- `p` was handed out by `malloc` and is not freed. -/
def Live (p : Ptr) : Prop := p < s.next ∧ (s.heap p).frees = 0

instance (p : Ptr) : Decidable (s.Live p) := inferInstanceAs (Decidable (_ ∧ _))

def modify (p : Ptr) (f : Cell → Cell) : WorkSerializer :=
  { s with heap := Function.update s.heap p (f (s.heap p)) }

/-- The code reads or writes fields of the works `ps`. -/
def touch (ps : List Ptr) : WorkSerializer :=
  { s with faults := s.faults ++ (ps.filter fun p => ¬ s.Live p).map Fault.usedAfterFree }

/-- `free(work)`. -/
def free (p : Ptr) : WorkSerializer :=
  { s.modify p fun c => { c with frees := c.frees + 1 } with
    faults := s.faults ++
      (if s.Live p then [] else [.freedTwice p]) ++
      (if p ∈ s.workList ∨ p ∈ s.delayedWorkList then [.freedWhileLinked p] else []) }

/-- `work->state = st`. -/
def setState (p : Ptr) (st : WorkState) : WorkSerializer :=
  s.modify p fun c => { c with work := { c.work with state := st } }

def hasFreeFunc (p : Ptr) : Bool := (s.ops[(s.work p).id]?.map WorkOps.hasFreeFunc).getD false

/-- `if (s->ops[work->id].free_func) s->ops[work->id].free_func(work->obj, work->ctx)`. -/
def callFreeFunc (p : Ptr) : WorkSerializer :=
  if s.hasFreeFunc p then s.modify p fun c => { c with freeFuncs := c.freeFuncs + 1 } else s

/-- Removes the entry of `p` from `work_list`. -/
def unlinkWork (p : Ptr) : WorkSerializer := { s with workList := s.workList.erase p }

/-- Removes the entry of `p` from `delayed_work_list`. -/
def unlinkDelayed (p : Ptr) : WorkSerializer :=
  { s with delayedWorkList := s.delayedWorkList.erase p }

/-- The work was executed, cancelled or stopped. -/
def settle (p : Ptr) : WorkSerializer := s.modify p fun c => { c with settled := true }

def setCaller (t : Thread) (ph : CallPhase) : WorkSerializer :=
  { s with callers := Function.update s.callers t ph }

/-- The call of thread `t` that created work `p` returns `r`, with `*res = out`. -/
def callReturns (t : Thread) (p : Ptr) (r : Int) (out : Option Int) : WorkSerializer :=
  (s.modify p fun c => { c with ret := some r, res := out }).setCaller t .idle

/-- `pthread_cond_signal`: the run chooses the thread it wakes among those blocked. -/
def condSignal (woken : Thread) : WorkSerializer :=
  { s with condWaiters := s.condWaiters.erase woken }

def condBroadcast : WorkSerializer := { s with condWaiters := [] }

/-- Thread `t` blocks on `work_cond`. -/
def condBlock (t : Thread) : WorkSerializer := { s with condWaiters := t :: s.condWaiters }

/-- Thread `t` returns from `pthread_cond_timedwait`. -/
def condUnblock (t : Thread) : WorkSerializer :=
  { s with condWaiters := s.condWaiters.filter (· ≠ t) }

/-- The thread of the serializer is inside a callback, and no call it made there is under way. -/
def InCallback : Prop :=
  s.callers serializerThread = .idle ∧
    match s.worker with
    | .working _ | .freeing _ _ => True
    | _ => False

instance : Decidable s.InCallback := by
  unfold InCallback
  cases s.worker <;> infer_instance

/-- Thread `t` is running and not inside `_serializer_exec_work`: it may call the serializer. -/
def CanCall (t : Thread) : Prop :=
  if t = serializerThread then s.InCallback else s.callers t = .idle

instance (t : Thread) : Decidable (s.CanCall t) := by unfold CanCall; infer_instance

end WorkSerializer

open WorkSerializer

def isDelayedWorkBefore (work : Work) (ts : Timespec) : Bool :=
  work.ts.tvSec < ts.tvSec || (work.ts.tvSec == ts.tvSec && work.ts.tvNsec < ts.tvNsec)

/-- `ts` is not later than `now`. -/
def Timespec.Passed (ts now : Timespec) : Prop :=
  ts.tvSec < now.tvSec ∨ ts.tvSec = now.tvSec ∧ ts.tvNsec ≤ now.tvNsec

instance (ts now : Timespec) : Decidable (ts.Passed now) := inferInstanceAs (Decidable (_ ∨ _))

/-- The sums of `secs` and `msecs` are `unsigned`; `tv_sec` and `tv_nsec` are 64 bits wide. -/
def addTimeToTimespec (ts : Timespec) (secs msecs : UInt32) : Timespec :=
  let tvSec := ts.tvSec + ((secs + msecs / 1000).toNat : Int)
  let tvNsec := ts.tvNsec + ((msecs % 1000 * 1000000).toNat : Int)
  if tvNsec ≥ 1000000000 then ⟨tvSec + 1, tvNsec.tmod 1000000000⟩ else ⟨tvSec, tvNsec⟩

/-- `list_foreach` with `list_foreach_insert_before_current` at the first entry that meets
`before`, and `list_push_back` when there is none. -/
def insertBefore (before : Ptr → Bool) (p : Ptr) : List Ptr → List Ptr
  | [] => [p]
  | q :: l => if before q then p :: q :: l else q :: insertBefore before p l

/-- The entries that the scan of `insertBefore` reads. -/
def scanned (before : Ptr → Bool) : List Ptr → List Ptr
  | [] => []
  | q :: l => if before q then [q] else q :: scanned before l

/-- `serializer_create`. -/
def serializerCreate (ops : List WorkOps) (startNow : Bool) : WorkSerializer where
  state := if startNow then .running else .paused
  ops := ops
  workList := []
  delayedWorkList := []
  condWaiters := []
  heap := default
  next := 0
  worker := if startNow then .top else .notCreated
  callers := fun _ => .idle
  clock := ⟨0, 0⟩
  faults := []

/-- `_create_new_work` with a `malloc` that succeeds, up to the `again` label of
`_serializer_exec_work`. -/
def createNewWork (s : WorkSerializer) (t : Thread) (id obj ctx : Nat) (state : WorkState)
    (ts : Timespec) (timeoutMs : UInt32) : WorkSerializer :=
  { s with
    heap := Function.update s.heap s.next
      { work := { ctx, obj, id, ts, state, result := 0 }, frees := 0, freeFuncs := 0, ret := none,
        res := none, settled := false }
    next := s.next + 1
    callers := Function.update s.callers t (.again s.next timeoutMs) }

/-- `serializer_exec_work`: `none` when it returns 1 before it has a work. -/
def serializerExecWork (s : WorkSerializer) (t : Thread) (id obj ctx : Nat) (timeoutMs : UInt32)
    (mallocOk : Bool) : Option WorkSerializer :=
  if s.ops.length ≤ id then none
  else if t = serializerThread then none
  else if !mallocOk then none
  else some (createNewWork s t id obj ctx .waitingForFinish s.clock timeoutMs)

/-- `serializer_exec_work_async`. -/
def serializerExecWorkAsync (s : WorkSerializer) (t : Thread) (id obj ctx : Nat)
    (mallocOk : Bool) : Option WorkSerializer :=
  if s.ops.length ≤ id then none
  else if !mallocOk then none
  else some (createNewWork s t id obj ctx .async s.clock 0)

/-- `serializer_add_delayed_work`. -/
def serializerAddDelayedWork (s : WorkSerializer) (t : Thread) (id obj ctx : Nat)
    (secs msecs : UInt32) (mallocOk : Bool) : Option WorkSerializer :=
  if s.ops.length ≤ id then none
  else if !mallocOk then none
  else some (createNewWork s t id obj ctx .delayed (addTimeToTimespec s.clock secs msecs) 0)

/-- The lock is held and the new work is linked: start the thread of a paused serializer, or
signal `work_cond`. -/
def startOrSignal (s : WorkSerializer) (woken : Thread) : WorkSerializer :=
  match s.state with
  | .paused => { s with state := .running, worker := .top }
  | .running => s.condSignal woken

/-- The first critical section of `_serializer_exec_work`, up to the return of an asynchronous or
delayed submission, the wait of a synchronous one, the `again` of a full list or the unlock of
`insert_err` (`nodeOk` says whether the list node could be allocated). -/
def insertWork (s : WorkSerializer) (t : Thread) (p : Ptr) (timeoutMs : UInt32) (nodeOk : Bool)
    (woken : Thread) : WorkSerializer :=
  let s := s.touch [p]
  match (s.work p).state with
  | .async =>
    if s.workList.length ≥ asyncWorkListMaxSize then s
    else if !nodeOk then s.setCaller t (.insertErr p)
    else
      let s := startOrSignal { s with workList := s.workList ++ [p] } woken
      s.callReturns t p 0 none
  | .delayed =>
    if s.delayedWorkList.length ≥ delayedWorkListMaxSize then s
    else
      let before q := isDelayedWorkBefore (s.work p) (s.work q).ts
      let s := s.touch (scanned before s.delayedWorkList)
      if !nodeOk then s.setCaller t (.insertErr p)
      else
        let l := insertBefore before p s.delayedWorkList
        let s := startOrSignal { s with delayedWorkList := l } woken
        s.callReturns t p 0 none
  | _ =>
    let before q := decide ((s.work q).state ≠ .waitingForFinish)
    let s := s.touch (scanned before s.workList)
    if !nodeOk then s.setCaller t (.insertErr p)
    else
      let s := startOrSignal { s with workList := insertBefore before p s.workList } woken
      (s.setCaller t (.waiting p (addTimeToTimespec s.clock 0 timeoutMs))).condBlock t

/-- What `pthread_cond_timedwait` returns: 0 (a signal, or a spurious wakeup), `ETIMEDOUT`, or
another error. -/
inductive CwRes where
  | ok
  | timedOut
  | failed
deriving DecidableEq, Repr

/-- `pthread_cond_timedwait` returns `cw` to the synchronous caller `t`: it waits again, or leaves
the wait loop and unlocks. -/
def callerWakes (s : WorkSerializer) (t : Thread) (p : Ptr) (cw : CwRes) : WorkSerializer :=
  let s := (s.condUnblock t).touch [p]
  if (s.work p).state = .waitingForFinish then
    if cw = .ok then s.condBlock t
    else if p ∈ s.workList then (s.unlinkWork p).setCaller t (.unlocked p false)
    else (s.setState p .abandoned).setCaller t (.unlocked p true)
  else s.setCaller t (.unlocked p false)

/-- The tail of `_serializer_exec_work`, after the unlock. -/
def callerFinishes (s : WorkSerializer) (t : Thread) (p : Ptr) (abandoned : Bool) :
    WorkSerializer :=
  if abandoned then s.callReturns t p 1 none
  else
    let s := s.touch [p]
    match (s.work p).state with
    | .waitingForFinish | .aborted => (s.free p).callReturns t p 1 none
    | _ => (s.free p).callReturns t p 0 (some (s.work p).result)

/-- `insert_err`, after its unlock. -/
def freeUninserted (s : WorkSerializer) (t : Thread) (p : Ptr) : WorkSerializer :=
  (s.free p).callReturns t p 1 none

/-- The body of the inner loop of `serializer_work_thread`, under the lock, up to the unlock that
precedes `work_func` or to the wait. -/
def workerTakes (s : WorkSerializer) : WorkSerializer :=
  match s.workList with
  | p :: rest => { (s.touch [p]) with workList := rest, worker := .working p }
  | [] =>
    let wait (deadline : Timespec) (s : WorkSerializer) : WorkSerializer :=
      { s with worker := .waiting deadline }.condBlock serializerThread
    let later : Timespec := { s.clock with tvSec := s.clock.tvSec + 10 }
    match s.delayedWorkList with
    | [] => wait later s
    | p :: rest =>
      let s := s.touch [p]
      if isDelayedWorkBefore (s.work p) s.clock then
        { s with delayedWorkList := rest, worker := .working p }
      else if (s.work p).ts.tvSec < s.clock.tvSec + 10 then wait (s.work p).ts s
      else wait later s

/-- `pthread_cond_timedwait` returns `cw` to the thread of the serializer. -/
def workerWakes (s : WorkSerializer) (cw : CwRes) : WorkSerializer :=
  let s := s.condUnblock serializerThread
  match cw with
  | .ok => workerTakes s
  | .timedOut => { s with worker := .top }
  | .failed => { s with worker := .exited }

/-- `work_func` returns `workRes`; `free_func`, if there is one, is called. -/
def workFuncReturns (s : WorkSerializer) (p : Ptr) (workRes : Int) : WorkSerializer :=
  { (s.touch [p]).callFreeFunc p with
    worker := if s.hasFreeFunc p then .freeing p workRes else .finishing p workRes }

/-- The second critical section of `serializer_work_thread`. -/
def workDone (s : WorkSerializer) (p : Ptr) (workRes : Int) : WorkSerializer :=
  let s := { (s.touch [p]).settle p with worker := .top }
  if (s.work p).state = .waitingForFinish then
    (s.modify p fun c =>
      { c with work := { c.work with result := workRes, state := .done } }).condBroadcast
  else s.free p

/-- One entry of the loop of `serializer_cancel_delayed_work`. -/
def cancelEntry (id key ctx : Nat) (s : WorkSerializer) (p : Ptr) : WorkSerializer :=
  let s := s.touch [p]
  let cmpFunc := (s.ops[id]?.bind WorkOps.cmpFunc).getD fun _ _ => 0
  if id = (s.work p).id ∧ ctx = (s.work p).ctx ∧ cmpFunc (s.work p).obj key = 0 then
    (((s.unlinkDelayed p).callFreeFunc p).settle p).free p
  else s

/-- `serializer_cancel_delayed_work`, with its return value. -/
def serializerCancelDelayedWork (s : WorkSerializer) (t : Thread) (id key ctx : Nat) :
    Int × WorkSerializer :=
  if s.ops.length ≤ id then (1, s)
  else if t ≠ serializerThread then (1, s)
  else (0, s.delayedWorkList.foldl (cancelEntry id key ctx) s)

/-- What the loop of `serializer_stop_all_by_ctx` does to an entry whose `ctx` matches. -/
def stopWork (s : WorkSerializer) (p : Ptr) : WorkSerializer :=
  let s := s.unlinkWork p
  let s := if (s.work p).state = .waitingForFinish then s.setState p .aborted else s
  let s := (s.callFreeFunc p).settle p
  if (s.work p).state ≠ .waitingForFinish then s.free p else s

/-- One entry of that loop; the flag is `need_notify`. -/
def stopEntry (ctx : Nat) (acc : WorkSerializer × Bool) (p : Ptr) : WorkSerializer × Bool :=
  let s := acc.1.touch [p]
  if ctx = (s.work p).ctx then
    (stopWork s p, acc.2 || decide ((s.work p).state = .waitingForFinish))
  else (s, acc.2)

/-- `serializer_stop_all_by_ctx`, with its return value. Both rounds of its `again` loop walk
`work_list`. -/
def serializerStopAllByCtx (s : WorkSerializer) (t : Thread) (ctx : Nat) : Int × WorkSerializer :=
  if t ≠ serializerThread then (1, s)
  else
    let acc := s.workList.foldl (stopEntry ctx) (s, false)
    let acc := acc.1.workList.foldl (stopEntry ctx) acc
    (0, if acc.2 then acc.1.condBroadcast else acc.1)

/-- A step of a thread, or of the clock. -/
inductive Action where
  | tick (now : Timespec)
  | execWork (t : Thread) (id obj ctx : Nat) (timeoutMs : UInt32) (mallocOk : Bool)
  | execWorkAsync (t : Thread) (id obj ctx : Nat) (mallocOk : Bool)
  | addDelayedWork (t : Thread) (id obj ctx : Nat) (secs msecs : UInt32) (mallocOk : Bool)
  | insert (t : Thread) (nodeOk : Bool) (woken : Thread)
  | freeUninserted (t : Thread)
  | callerWakes (t : Thread) (cw : CwRes)
  | callerFinishes (t : Thread)
  | workerTakes
  | workerWakes (cw : CwRes)
  | workFuncReturns (workRes : Int)
  | freeFuncReturns
  | workDone
  | cancelDelayedWork (t : Thread) (id key ctx : Nat)
  | stopAllByCtx (t : Thread) (ctx : Nat)
deriving DecidableEq, Repr

/-- The state after a step, `none` where the step cannot be taken. A call that returns 1 before it
has a work changes nothing. -/
def step (s : WorkSerializer) : Action → Option WorkSerializer
  | .tick now => some { s with clock := now }
  | .execWork t id obj ctx timeoutMs mallocOk =>
    if s.CanCall t then some ((serializerExecWork s t id obj ctx timeoutMs mallocOk).getD s)
    else none
  | .execWorkAsync t id obj ctx mallocOk =>
    if s.CanCall t then some ((serializerExecWorkAsync s t id obj ctx mallocOk).getD s) else none
  | .addDelayedWork t id obj ctx secs msecs mallocOk =>
    if s.CanCall t then some ((serializerAddDelayedWork s t id obj ctx secs msecs mallocOk).getD s)
    else none
  | .insert t nodeOk woken =>
    match s.callers t with
    | .again p timeoutMs => some (insertWork s t p timeoutMs nodeOk woken)
    | _ => none
  | .freeUninserted t =>
    match s.callers t with
    | .insertErr p => some (freeUninserted s t p)
    | _ => none
  | .callerWakes t cw =>
    match s.callers t with
    | .waiting p deadline =>
      if cw = .timedOut → deadline.Passed s.clock then some (callerWakes s t p cw) else none
    | _ => none
  | .callerFinishes t =>
    match s.callers t with
    | .unlocked p abandoned => some (callerFinishes s t p abandoned)
    | _ => none
  | .workerTakes => if s.worker = .top then some (workerTakes s) else none
  | .workerWakes cw =>
    match s.worker with
    | .waiting deadline =>
      if cw = .timedOut → deadline.Passed s.clock then some (workerWakes s cw) else none
    | _ => none
  | .workFuncReturns workRes =>
    match s.worker with
    | .working p =>
      if s.callers serializerThread = .idle then some (workFuncReturns s p workRes) else none
    | _ => none
  | .freeFuncReturns =>
    match s.worker with
    | .freeing p workRes =>
      if s.callers serializerThread = .idle then some { s with worker := .finishing p workRes }
      else none
    | _ => none
  | .workDone =>
    match s.worker with
    | .finishing p workRes => some (workDone s p workRes)
    | _ => none
  | .cancelDelayedWork t id key ctx =>
    if s.CanCall t then some (serializerCancelDelayedWork s t id key ctx).2 else none
  | .stopAllByCtx t ctx =>
    if s.CanCall t then some (serializerStopAllByCtx s t ctx).2 else none

end Dwpal.Serializer
