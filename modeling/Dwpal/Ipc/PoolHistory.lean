import Dwpal.Ipc.ObjPool

/-! The pools against what their callers know of them: the objects that were handed out and not put
back, and the limits that the pools were made with. -/

namespace Dwpal.Ipc

open Machine Chain

/-- The pools, the pool that an object was handed out of and not put back to, and the `max_size`
that a pool was made with. -/
structure PoolHistory where
  world : PoolWorld
  out : ObjAddr → Option PoolAddr
  limit : PoolAddr → Nat

namespace PoolHistory

def initial : PoolHistory := ⟨noPools, fun _ => none, fun _ => 0⟩

/-- The object is now out of the pool. -/
def handOut (r : PoolHistory) (p : PoolAddr) : Option ObjAddr → PoolHistory
  | none => r
  | some a => { r with out := Function.update r.out a (some p) }

/-- The object is no longer out, if it was out of this pool. -/
def takeBack (r : PoolHistory) (p : PoolAddr) : Option ObjAddr → PoolHistory
  | none => r
  | some a => if r.out a = some p then { r with out := Function.update r.out a none } else r

def step (r : PoolHistory) : PoolCall → Option PoolHistory
  | .init malloc minSize maxSize =>
    some { r with
      world := objPoolInit malloc minSize maxSize r.world
      limit := Function.update r.limit r.world.freshPool maxSize }
  | .alloc malloc p =>
    (objPoolAllocObject malloc r.world p).map fun (ret, w) => { r with world := w }.handOut p ret
  | .put p object =>
    (objPoolPutObject r.world p object).map fun w => { r with world := w }.takeBack p object

/-- What holds of a pool: the available objects are its objects that are not out, each linked once,
the two counters add up, and the size is within the limit. -/
def Lawful (r : PoolHistory) (p : PoolAddr) (pool : ObjPool) : Prop :=
  ∃ available all : List ObjAddr,
    Linked r.world.heap.nextOf pool.availableObjects available ∧ available.Nodup ∧
      Linked r.world.heap.allNextOf pool.allObjects all ∧ all.Nodup ∧
      (∀ a, a ∈ all ↔ ∃ obj, r.world.heap.objs a = some obj ∧ obj.pool = p) ∧
      (∀ a, r.out a = some p → a ∈ all) ∧
      (∀ a, a ∈ available ↔ a ∈ all ∧ r.out a ≠ some p) ∧
      pool.numTravelingObjects = all.countP (fun a => r.out a = some p) ∧
      pool.currSize = available.length + pool.numTravelingObjects ∧
      (r.limit p ≠ 0 → pool.currSize ≤ r.limit p)

/-- The objects that are there stay in their pools. -/
def Stay (w w' : PoolWorld) : Prop :=
  ∀ a obj, w.heap.objs a = some obj → ∃ obj', w'.heap.objs a = some obj' ∧ obj'.pool = obj.pool

/-- Nothing can be handed out of the pool: each of its objects is out, and the limit is reached or
the growth fails. -/
def Exhausted (r : PoolHistory) (malloc : Nat → Bool) (p : PoolAddr) (pool : ObjPool) : Prop :=
  (∀ a obj, r.world.heap.objs a = some obj → obj.pool = p → r.out a = some p) ∧
    (sizeAllowed (grownSize pool.currSize) (r.limit p) ≤ pool.currSize ∨
      ∃ n < sizeAllowed (grownSize pool.currSize) (r.limit p) - pool.currSize, malloc n = false)

/-- What is asked of a call. `obj_pool_alloc_object` returns an object of the pool that was not out,
unless the pool is exhausted. A put of an object that is out of the pool makes it available, and one
of `NULL` or of another object changes nothing. -/
def CallLawful (r : PoolHistory) : PoolCall → Prop
  | .init .. => True
  | .alloc malloc p => ∃ ret w', objPoolAllocObject malloc r.world p = some (ret, w') ∧
      Stay r.world w' ∧
      (∀ a, ret = some a → r.out a = none ∧ ∃ obj, w'.heap.objs a = some obj ∧ obj.pool = p) ∧
      ∀ pool, r.world.pools p = some pool → (ret = none ↔ r.Exhausted malloc p pool)
  | .put p object =>
      (∀ a, object = some a → r.out a = some p →
        ∃ w' pool available, objPoolPutObject r.world p object = some w' ∧ Stay r.world w' ∧
          w'.pools p = some pool ∧ Linked w'.heap.nextOf pool.availableObjects available ∧
          a ∈ available) ∧
      ((∀ a, object = some a → r.out a ≠ some p ∧ (r.world.heap.objs a).isSome = true) →
        objPoolPutObject r.world p object = some r.world)

/-- What the callers know of the pools is what is in memory. -/
structure Inv (r : PoolHistory) : Prop where
  pools : PoolsInv r.world
  out : ∀ a p, r.out a = some p ↔ r.world.heap.Taken p a
  there : ∀ a p, r.out a = some p → (r.world.pools p).isSome = true
  limit : ∀ p pool, r.world.pools p = some pool → pool.maxSize = r.limit p

section

variable {r r' : PoolHistory} {p : PoolAddr} {a : ObjAddr} {obj : PooledObj} {pool : ObjPool}
  {malloc : Nat → Bool} {object : Option ObjAddr} {w' : PoolWorld}

theorem Inv.allocated_iff (hi : Inv r) (hobj : r.world.heap.objs a = some obj)
    (hown : obj.pool = p) : r.out a = some p ↔ obj.allocated = true := by
  rw [hi.out]
  constructor
  · rintro ⟨obj', hobj', -, hallocated⟩
    cases hobj.symm.trans hobj'
    exact hallocated
  · exact fun hallocated => ⟨obj, hobj, hown, hallocated⟩

theorem Inv.lawful (hi : Inv r) (hpool : r.world.pools p = some pool) : r.Lawful p pool := by
  obtain ⟨available, all, hl⟩ := hi.pools.lists p pool hpool
  have hout : ∀ a ∈ all, r.world.heap.allocated a = decide (r.out a = some p) := fun a ha => by
    obtain ⟨obj, hobj, hown⟩ := hl.exists_obj ha
    rw [ObjHeap.allocated_of hobj, Bool.eq_iff_iff, decide_eq_true_iff, hi.allocated_iff hobj hown]
  have hcount := length_add_countP hl.nodup hl.allNodup hl.mem_available
  have hsum := hl.traveling
  refine ⟨available, all, hl.linked, hl.nodup, hl.allLinked, hl.allNodup, hl.mem_all,
    fun a ha => ?_, fun a => ?_, ?_, hl.currSize.trans hsum.symm, ?_⟩
  · obtain ⟨obj, hobj, hown, -⟩ := (hi.out a p).mp ha
    exact (hl.mem_all a).mpr ⟨obj, hobj, hown⟩
  · rw [hl.mem_available]
    refine and_congr_right fun ha => ?_
    rw [hout a ha, decide_eq_false_iff_not]
  · have hsame : all.countP r.world.heap.allocated = all.countP fun a => r.out a = some p :=
      List.countP_congr fun a ha => by rw [hout a ha]
    omega
  · rw [← hi.limit p pool hpool]
    exact hl.bounded

/-- All objects of a pool are out when none is available. -/
theorem Inv.exhausted_iff (hi : Inv r) (hpool : r.world.pools p = some pool) :
    r.Exhausted malloc p pool ↔ Ipc.Exhausted malloc pool := by
  obtain ⟨available, all, hl⟩ := hi.pools.lists p pool hpool
  rw [Exhausted, Ipc.Exhausted, hi.limit p pool hpool]
  refine and_congr_left fun _ => ?_
  rw [← hl.linked.head?, List.head?_eq_none_iff, List.eq_nil_iff_forall_not_mem]
  constructor
  · intro hall a ha
    obtain ⟨hmem, hfree⟩ := (hl.mem_available a).mp ha
    obtain ⟨obj, hobj, hown⟩ := hl.exists_obj hmem
    rw [ObjHeap.allocated_of hobj, (hi.allocated_iff hobj hown).mp (hall a obj hobj hown)] at hfree
    cases hfree
  · intro hnone a obj hobj hown
    rw [hi.allocated_iff hobj hown, ← ObjHeap.allocated_of hobj, ← Bool.not_eq_false]
    exact fun hfree =>
      hnone a ((hl.mem_available a).mpr ⟨(hl.mem_all a).mpr ⟨obj, hobj, hown⟩, hfree⟩)

theorem initial_inv : Inv initial where
  pools := noPools_inv
  out a p := by
    refine iff_of_false (Option.some_ne_none p).symm ?_
    rintro ⟨obj, hobj, -⟩
    cases hobj
  there a p h := by cases h
  limit p pool h := by cases h

/-! ### The steps -/

theorem Inv.init (hi : Inv r) (malloc : Nat → Bool) (minSize maxSize : Nat) :
    Inv { r with
      world := objPoolInit malloc minSize maxSize r.world
      limit := Function.update r.limit r.world.freshPool maxSize } := by
  obtain ⟨h, v, heq, -, hothers, hnew, hlists⟩ :=
    objPoolInit_outcome malloc minSize maxSize hi.pools
  have hold : ∀ {p}, (r.world.pools p).isSome = true → p ≠ r.world.freshPool := by
    rintro p hpool rfl
    rw [hi.pools.poolGiven _ (Nat.le_refl _)] at hpool
    cases hpool
  refine ⟨objPoolInit_inv minSize maxSize hi.pools, fun a p => ?_, fun a p ha => ?_,
    fun p pool hpool => ?_⟩
  · rw [heq]
    change r.out a = some p ↔ h.Taken p a
    rcases eq_or_ne p r.world.freshPool with rfl | hne
    · refine iff_of_false (fun ha => hold (hi.there a _ ha) rfl) ?_
      rintro ⟨obj, hobj, hown, hallocated⟩
      rw [hnew a obj hobj hown] at hallocated
      cases hallocated
    · rw [hi.out]
      constructor
      · rintro ⟨obj, hobj, rfl, hallocated⟩
        exact ⟨obj, (hothers a obj hne).mp hobj, rfl, hallocated⟩
      · rintro ⟨obj, hobj, rfl, hallocated⟩
        exact ⟨obj, (hothers a obj hne).mpr hobj, rfl, hallocated⟩
  · have hpool := hi.there a p ha
    rw [heq, setPool_pools_of_ne (hold hpool)]
    exact hpool
  · rw [heq] at hpool
    change pool.maxSize = Function.update r.limit r.world.freshPool maxSize p
    rcases eq_or_ne p r.world.freshPool with rfl | hne
    · obtain ⟨hsame, -⟩ := hlists pool (setPool_pools_self.symm.trans hpool)
      have hcounts := @objPoolIncreaseSizeTo_counts r.world.heap r.world.freshPool
        ⟨none, none, maxSize, 0, 0⟩ malloc minSize
      rw [hsame] at hcounts
      rw [Function.update_self]
      exact hcounts.1
    · rw [Function.update_of_ne hne]
      exact hi.limit p pool ((Function.update_of_ne hne ..).symm.trans hpool)

/-- The objects that are out are the same after a growth. -/
theorem Inv.grown {h : ObjHeap} {q : PoolAddr} (hi : Inv r) (hgrown : Grown q r.world.heap h pool) :
    r.out a = some p ↔ h.Taken p a := by
  rw [hi.out]
  constructor
  · rintro ⟨obj, hobj, hown, hallocated⟩
    exact ⟨obj, hgrown.kept a obj hobj, hown, hallocated⟩
  · rintro ⟨obj, hobj, hown, hallocated⟩
    rcases hgrown.added a obj hobj with ⟨-, hfree⟩ | hold
    · rw [hallocated] at hfree
      cases hfree
    · exact ⟨obj, hold, hown, hallocated⟩

/-- What a call leaves of the pools, where it changes one of them. -/
theorem Inv.setPool {h : ObjHeap} {pool' : ObjPool} {out : ObjAddr → Option PoolAddr} (hi : Inv r)
    (hpool : r.world.pools p = some pool) (hpools : PoolsInv (r.world.setPool p h (some pool')))
    (hlimit : pool'.maxSize = pool.maxSize)
    (hout : ∀ a q, out a = some q ↔ h.Taken q a)
    (hthere : ∀ a q, out a = some q → q = p ∨ r.out a = some q) :
    Inv ⟨r.world.setPool p h (some pool'), out, r.limit⟩ := by
  refine ⟨hpools, hout, fun a q ha => ?_, fun q pool'' hpool'' => ?_⟩
  · rcases eq_or_ne q p with rfl | hne
    · rw [setPool_pools_self]
      rfl
    · rw [setPool_pools_of_ne hne]
      exact hi.there a q ((hthere a q ha).resolve_left hne)
  · rcases eq_or_ne q p with rfl | hne
    · cases setPool_pools_self.symm.trans hpool''
      exact hlimit.trans (hi.limit q pool hpool)
    · exact hi.limit q pool'' ((setPool_pools_of_ne hne).symm.trans hpool'')

/-- An object that is not allocated is out of no pool. -/
theorem Inv.out_none (hi : Inv r) (hfree : r.world.heap.allocated a = false) : r.out a = none := by
  rw [Option.eq_none_iff_forall_ne_some]
  intro p ha
  rw [((hi.out a p).mp ha).allocated] at hfree
  cases hfree

/-- An object of the pool is marked as allocated, or no longer so. -/
theorem out_update {h : ObjHeap} {out : ObjAddr → Option PoolAddr} {o : PooledObj}
    (hout : ∀ b q, out b = some q ↔ h.Taken q b) (hown : o.pool = p) (b : ObjAddr)
    (q : PoolAddr) :
    Function.update out a (if o.allocated then some p else none) b = some q ↔
      (h.set a (some o)).Taken q b := by
  unfold ObjHeap.Taken
  rcases eq_or_ne b a with rfl | hne
  · rw [Function.update_self, ObjHeap.set_self, Option.ite_none_right_eq_some, Option.some_inj]
    constructor
    · rintro ⟨hallocated, rfl⟩
      exact ⟨o, rfl, hown, hallocated⟩
    · rintro ⟨obj, heq, rfl, hallocated⟩
      cases heq
      exact ⟨hallocated, hown.symm⟩
  · rw [Function.update_of_ne hne, ObjHeap.set_of_ne hne]
    exact hout b q

theorem Inv.alloc (hi : Inv r) (malloc : Nat → Bool) (p : PoolAddr) :
    ∃ ret w', objPoolAllocObject malloc r.world p = some (ret, w') ∧
      Inv ({ r with world := w' }.handOut p ret) ∧ Stay r.world w' ∧
      ∀ a, ret = some a → r.out a = none ∧ ∃ obj, w'.heap.objs a = some obj ∧ obj.pool = p := by
  obtain ⟨ret, w', halloc, hpools, hret⟩ := objPoolAllocObject_cases hi.pools malloc p
  refine ⟨ret, w', halloc, ?_⟩
  obtain ⟨-, heq⟩ | ⟨pool, h, pool', hpool, hoffered, hgrown, houtcome⟩ :=
    objPoolAllocObject_outcome hi.pools malloc p
  · cases halloc.symm.trans heq
    exact ⟨hi, fun a obj hobj => ⟨obj, hobj, rfl⟩, fun a ha => by cases ha⟩
  · have hcounts := @offered_counts r.world.heap p pool malloc
    rw [hoffered] at hcounts
    rcases houtcome with heq | ⟨a, obj, -, hobj, heq⟩
    · cases halloc.symm.trans heq
      exact ⟨hi.setPool hpool hpools hcounts.1 (fun a q => hi.grown hgrown) fun a q => .inr,
        fun a obj hobj => ⟨obj, hgrown.kept a obj hobj, rfl⟩, fun a ha => by cases ha⟩
    · cases halloc.symm.trans heq
      obtain ⟨hfree, obj', hobj', hown, -⟩ := hret a rfl
      cases (ObjHeap.set_self _).symm.trans hobj'
      refine ⟨hi.setPool hpool hpools hcounts.1 ?_ fun b q hb => ?_, fun b old hold => ?_,
        fun b hb => ?_⟩
      · exact out_update (fun b q => hi.grown hgrown) hown
      · rcases eq_or_ne b a with rfl | hne
        · exact .inl (Option.some_inj.mp (hb.symm.trans (Function.update_self ..)))
        · exact .inr ((Function.update_of_ne hne ..).symm.trans hb)
      · rcases eq_or_ne b a with rfl | hne
        · cases hobj.symm.trans (hgrown.kept b old hold)
          exact ⟨_, ObjHeap.set_self _, rfl⟩
        · exact ⟨old, (ObjHeap.set_of_ne hne _).trans (hgrown.kept b old hold), rfl⟩
      · cases hb
        exact ⟨hi.out_none hfree, _, hobj', hown⟩

/-- An object that is out of the pool is put back to it. -/
theorem Inv.put (hi : Inv r) (hout : r.out a = some p) :
    ∃ w' pool available, objPoolPutObject r.world p (some a) = some w' ∧
      Inv ⟨w', Function.update r.out a none, r.limit⟩ ∧ Stay r.world w' ∧ w'.pools p = some pool ∧
      Linked w'.heap.nextOf pool.availableObjects available ∧ a ∈ available := by
  obtain ⟨obj, hobj, hown, hallocated⟩ := (hi.out a p).mp hout
  obtain ⟨pool, hpool⟩ := Option.isSome_iff_exists.mp (hi.there a p hout)
  obtain ⟨available, all, hl⟩ := hi.pools.lists p pool hpool
  have hput := objPoolPutObject_eq hpool hobj hown hallocated
  refine ⟨_, _, a :: available, hput, ?_, fun b old hold => ?_, setPool_pools_self,
    (hl.put hobj hown hallocated).linked, List.mem_cons_self⟩
  · refine hi.setPool hpool (objPoolPutObject_inv hi.pools hput) rfl
      (out_update (o := { obj with allocated := false, next := pool.availableObjects })
        hi.out hown)
      fun b q hb => .inr ?_
    rcases eq_or_ne b a with rfl | hne
    · cases (Function.update_self ..).symm.trans hb
    · exact (Function.update_of_ne hne ..).symm.trans hb
  · rcases eq_or_ne b a with rfl | hne
    · cases hobj.symm.trans hold
      exact ⟨_, ObjHeap.set_self _, rfl⟩
    · exact ⟨old, (ObjHeap.set_of_ne hne _).trans hold, rfl⟩

/-- `NULL`, and an object that is not out of the pool, are not put back to it. -/
theorem Inv.put_rejected (hi : Inv r)
    (hnot : ∀ a, object = some a → r.out a ≠ some p ∧ (r.world.heap.objs a).isSome = true) :
    objPoolPutObject r.world p object = some r.world := by
  unfold objPoolPutObject
  cases r.world.pools p with
  | none => rfl
  | some pool =>
    cases object with
    | none => rfl
    | some a =>
      obtain ⟨hout, hthere⟩ := hnot a rfl
      obtain ⟨obj, hobj⟩ := Option.isSome_iff_exists.mp hthere
      simp only [hobj, Option.map_some]
      by_cases hother : obj.pool ≠ p
      · rw [if_pos hother]
      · rw [if_neg hother, if_pos]
        exact (Bool.not_eq_true _).mp (mt (hi.allocated_iff hobj (not_ne_iff.mp hother)).mpr hout)

theorem step_inv {call : PoolCall} (hi : Inv r) (hstep : r.step call = some r') : Inv r' := by
  cases call with
  | init malloc minSize maxSize =>
    cases hstep
    exact hi.init malloc minSize maxSize
  | alloc malloc p =>
    obtain ⟨ret, w', halloc, hinv, -⟩ := hi.alloc malloc p
    rw [step, halloc] at hstep
    cases hstep
    exact hinv
  | put p object =>
    obtain ⟨w', hput, rfl⟩ := Option.map_eq_some_iff.mp hstep
    have hcases := objPoolPutObject_cases hput
    cases object with
    | none =>
      obtain rfl | ⟨-, a, -, -, hnone, -⟩ := hcases
      · exact hi
      · cases hnone
    | some a =>
      rw [takeBack]
      split_ifs with hout
      · obtain ⟨w'', pool, available, hput', hinv, -⟩ := hi.put hout
        cases hput.symm.trans hput'
        exact hinv
      · obtain rfl | ⟨-, b, obj, -, heq, hobj, hown, hallocated, -⟩ := hcases
        · exact hi
        · cases heq
          exact absurd ((hi.allocated_iff hobj hown).mpr hallocated) hout

theorem Inv.callLawful (hi : Inv r) (call : PoolCall) : r.CallLawful call := by
  cases call with
  | init => trivial
  | alloc malloc p =>
    obtain ⟨ret, w', halloc, -, hstay, hret⟩ := hi.alloc malloc p
    refine ⟨ret, w', halloc, hstay, hret, fun pool hpool => ?_⟩
    rw [objPoolAllocObject_none hpool halloc, hi.exhausted_iff hpool]
  | put p object =>
    refine ⟨?_, hi.put_rejected⟩
    rintro a rfl hout
    obtain ⟨w', pool, available, hput, -, hrest⟩ := hi.put hout
    exact ⟨w', pool, available, hput, hrest⟩

end

end PoolHistory

/-- After any calls each pool is lawful, and so is whatever is called next. -/
theorem objectPools {calls : List PoolCall} {r : PoolHistory}
    (hrun : exec PoolHistory.step .initial calls = some r) :
    (∀ p pool, r.world.pools p = some pool → r.Lawful p pool) ∧ ∀ call, r.CallLawful call := by
  have hinv : r.Inv := exec_inv PoolHistory.step_inv PoolHistory.initial_inv hrun
  exact ⟨fun p pool hpool => hinv.lawful hpool, hinv.callLawful⟩

/-- Two pools, the first with at most four objects, of which the last is refused. An object of the
first pool is put to the second one, then twice to its own, and is handed out again. -/
private def putTwice : List PoolCall :=
  [.init (fun _ => true) 2 4, .init (fun _ => true) 1 0, .alloc (fun _ => true) 0,
    .alloc (fun _ => true) 0, .alloc (fun n => n != 0) 0, .put 1 (some 0), .put 0 (some 0),
    .put 0 (some 0), .alloc (fun _ => false) 0, .alloc (fun _ => false) 0, .put 0 (some 1)]

theorem objectPools_putTwice : ∃ r, exec PoolHistory.step .initial putTwice = some r ∧
    (r.out 0 = some 0 ∧ r.out 1 = none ∧ r.out 2 = none ∧ r.out 3 = some 0) ∧
    (∀ p pool, r.world.pools p = some pool → r.Lawful p pool) ∧ ∀ call, r.CallLawful call :=
  have hsome : (exec PoolHistory.step .initial putTwice).isSome = true := rfl
  ⟨_, (Option.some_get hsome).symm, ⟨rfl, rfl, rfl, rfl⟩, objectPools (Option.some_get hsome).symm⟩

end Dwpal.Ipc
