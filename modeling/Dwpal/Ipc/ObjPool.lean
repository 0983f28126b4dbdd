import Dwpal.Lib.Chain
import Dwpal.Lib.Machine

/-! The object pools of `wv_ipc/obj_pool.c`: every object of a pool is in the list of all its
objects, and linked in the list of the available ones while it is not allocated. A call holds the
lock of its pool. -/

namespace Dwpal.Ipc

open Machine Chain

/-- The address of a `pooled_obj`. An address is never given out twice. -/
abbrev ObjAddr := Nat

/-- The address of an `obj_pool`. -/
abbrev PoolAddr := Nat

/-- `pooled_obj`, without the data. -/
structure PooledObj where
  next : Option ObjAddr
  allNext : Option ObjAddr
  pool : PoolAddr
  allocated : Bool

/-- `struct _obj_pool`. -/
structure ObjPool where
  availableObjects : Option ObjAddr
  allObjects : Option ObjAddr
  maxSize : Nat
  currSize : Nat
  numTravelingObjects : Nat

/-- The memory of the objects. -/
structure ObjHeap where
  objs : ObjAddr → Option PooledObj
  /-- The addresses below `fresh` have been given out. -/
  fresh : ObjAddr

/-- The pools and the memory of their objects. -/
structure PoolWorld where
  heap : ObjHeap
  pools : PoolAddr → Option ObjPool
  /-- The addresses of pools below `freshPool` have been given out. -/
  freshPool : PoolAddr

namespace ObjHeap

def set (h : ObjHeap) (a : ObjAddr) (obj : Option PooledObj) : ObjHeap :=
  { h with objs := Function.update h.objs a obj }

def nextOf (h : ObjHeap) (a : ObjAddr) : Option ObjAddr := (h.objs a).bind PooledObj.next

def allNextOf (h : ObjHeap) (a : ObjAddr) : Option ObjAddr := (h.objs a).bind PooledObj.allNext

/-- The object is there, and allocated. -/
def allocated (h : ObjHeap) (a : ObjAddr) : Bool := (h.objs a).any PooledObj.allocated

/-- The object belongs to the pool, and is allocated. -/
def Taken (h : ObjHeap) (p : PoolAddr) (a : ObjAddr) : Prop :=
  ∃ obj, h.objs a = some obj ∧ obj.pool = p ∧ obj.allocated = true

end ObjHeap

/-- The loop of `obj_pool_increase_size_to`, `n` rounds of it: whether no `malloc` failed. Each
round asks `malloc` for the `n`-th object from the end. -/
def increaseLoop (malloc : Nat → Bool) (p : PoolAddr) : (n : Nat) → ObjHeap → ObjPool →
    Bool × ObjHeap × ObjPool
  | 0, h, pool => (true, h, pool)
  | n + 1, h, pool =>
    if malloc n then
      increaseLoop malloc p n
        { h.set h.fresh (some
            { next := pool.availableObjects, allNext := pool.allObjects, pool := p,
              allocated := false }) with
          fresh := h.fresh + 1 }
        { pool with
          availableObjects := some h.fresh
          allObjects := some h.fresh
          currSize := pool.currSize + 1 }
    else (false, h, pool)

/-- `obj_pool_increase_size_to`: whether it returns 0. -/
def objPoolIncreaseSizeTo (malloc : Nat → Bool) (p : PoolAddr) (newSize : Nat) (h : ObjHeap)
    (pool : ObjPool) : Bool × ObjHeap × ObjPool :=
  if newSize ≤ pool.currSize then (false, h, pool)
  else if pool.maxSize ≠ 0 ∧ newSize > pool.maxSize then
    if pool.maxSize ≤ pool.currSize then (false, h, pool)
    else increaseLoop malloc p (pool.maxSize - pool.currSize) h pool
  else increaseLoop malloc p (newSize - pool.currSize) h pool

/-- `(int)((pool->curr_size * 3)/2) + 1` as a `size_t`. -/
def grownSize (currSize : Nat) : Nat :=
  ((((currSize * 3 % 2 ^ 64 / 2 : Nat) : Int).bmod (2 ^ 32) + 1) % 2 ^ 64).toNat

/-- The loop of `obj_pool_destroy`, which frees the available objects. -/
def destroyLoop : (fuel : Nat) → ObjHeap → Option ObjAddr → ObjHeap
  | 0, h, _ => h
  | _, h, none => h
  | fuel + 1, h, some a => destroyLoop fuel (h.set a none) (h.nextOf a)

namespace PoolWorld

def setPool (w : PoolWorld) (p : PoolAddr) (h : ObjHeap) (pool : Option ObjPool) : PoolWorld :=
  { w with heap := h, pools := Function.update w.pools p pool }

end PoolWorld

open PoolWorld

/-- `obj_pool_init` with a `malloc` for the pool that succeeds. A pool that does not get its first
objects is destroyed. -/
def objPoolInit (malloc : Nat → Bool) (minSize maxSize : Nat) (w : PoolWorld) : PoolWorld :=
  let p := w.freshPool
  let w := { w with freshPool := w.freshPool + 1 }
  match objPoolIncreaseSizeTo malloc p minSize w.heap ⟨none, none, maxSize, 0, 0⟩ with
  | (true, h, pool) => w.setPool p h (some pool)
  | (false, h, pool) => w.setPool p (destroyLoop h.fresh h pool.availableObjects) none

/-- `obj_pool_alloc_object`: the object, and the pools after it. There is no result where it uses
memory that is not there. -/
def objPoolAllocObject (malloc : Nat → Bool) (w : PoolWorld) (p : PoolAddr) :
    Option (Option ObjAddr × PoolWorld) :=
  match w.pools p with
  | none => some (none, w)
  | some pool =>
    let (ok, h, pool) :=
      if pool.availableObjects.isNone then
        objPoolIncreaseSizeTo malloc p (grownSize pool.currSize) w.heap pool
      else (true, w.heap, pool)
    match ok, pool.availableObjects with
    | false, _ | _, none => some (none, w.setPool p h (some pool))
    | true, some a =>
      (h.objs a).map fun obj =>
        (some a, w.setPool p (h.set a (some { obj with allocated := true }))
          (some { pool with
            availableObjects := obj.next
            numTravelingObjects := pool.numTravelingObjects + 1 }))

/-- `obj_pool_put_object`. There is no result for a pointer that is not one to an object of a
pool. -/
def objPoolPutObject (w : PoolWorld) (p : PoolAddr) (object : Option ObjAddr) : Option PoolWorld :=
  match w.pools p, object with
  | some pool, some a =>
    (w.heap.objs a).map fun obj =>
      if obj.pool ≠ p then w
      else if obj.allocated = false then w
      else
        w.setPool p
          (w.heap.set a (some { obj with allocated := false, next := pool.availableObjects }))
          (some { pool with
            availableObjects := some a
            numTravelingObjects := pool.numTravelingObjects - 1 })
  | _, _ => some w

/-- A call. -/
inductive PoolCall where
  | init (malloc : Nat → Bool) (minSize maxSize : Nat)
  | alloc (malloc : Nat → Bool) (p : PoolAddr)
  | put (p : PoolAddr) (object : Option ObjAddr)

def poolStep (w : PoolWorld) : PoolCall → Option PoolWorld
  | .init malloc minSize maxSize => some (objPoolInit malloc minSize maxSize w)
  | .alloc malloc p => (objPoolAllocObject malloc w p).map Prod.snd
  | .put p object => objPoolPutObject w p object

/-- No pool is there. -/
def noPools : PoolWorld := ⟨⟨fun _ => none, 0⟩, fun _ => none, 0⟩

/-- The available objects of a pool, linked in a list, are its objects that are not allocated, and
all of them are in the other list. -/
structure PoolLists (h : ObjHeap) (p : PoolAddr) (pool : ObjPool)
    (available all : List ObjAddr) : Prop where
  linked : Linked h.nextOf pool.availableObjects available
  nodup : available.Nodup
  allLinked : Linked h.allNextOf pool.allObjects all
  allNodup : all.Nodup
  mem_all : ∀ a, a ∈ all ↔ ∃ obj, h.objs a = some obj ∧ obj.pool = p
  mem_available : ∀ a, a ∈ available ↔ a ∈ all ∧ h.allocated a = false
  currSize : pool.currSize = all.length
  traveling : available.length + pool.numTravelingObjects = all.length
  bounded : pool.maxSize ≠ 0 → pool.currSize ≤ pool.maxSize

/-- `h'` has the same objects of the other pools than `p`. -/
def OthersKept (p : PoolAddr) (h h' : ObjHeap) : Prop :=
  ∀ a obj, obj.pool ≠ p → (h.objs a = some obj ↔ h'.objs a = some obj)

/-- The objects of the heap have addresses that have been given out. -/
def Given (h : ObjHeap) : Prop := ∀ a, h.fresh ≤ a → h.objs a = none

/-- What holds after any calls. -/
structure PoolsInv (w : PoolWorld) : Prop where
  given : Given w.heap
  poolGiven : ∀ p, w.freshPool ≤ p → w.pools p = none
  owner : ∀ a obj, w.heap.objs a = some obj → obj.pool < w.freshPool
  lists : ∀ p pool, w.pools p = some pool → ∃ available all, PoolLists w.heap p pool available all

section

variable {h h' : ObjHeap} {p q : PoolAddr} {a : ObjAddr} {obj : PooledObj} {pool : ObjPool}
  {available all : List ObjAddr} {malloc : Nat → Bool} {n : Nat} {w w' : PoolWorld}

@[simp] theorem ObjHeap.set_self (v : Option PooledObj) : (h.set a v).objs a = v := by
  simp only [set, Function.update_self]

theorem ObjHeap.set_of_ne {b : ObjAddr} (hne : b ≠ a) (v : Option PooledObj) :
    (h.set a v).objs b = h.objs b := by
  simp only [set, Function.update_of_ne hne]

@[simp] theorem ObjHeap.set_fresh (v : Option PooledObj) : (h.set a v).fresh = h.fresh := rfl

theorem setPool_pools_self {v : Option ObjPool} : (w.setPool p h v).pools p = v := by
  simp only [setPool, Function.update_self]

theorem setPool_pools_of_ne {v : Option ObjPool} (hne : q ≠ p) :
    (w.setPool p h v).pools q = w.pools q := by
  simp only [setPool, Function.update_of_ne hne]

theorem ObjHeap.nextOf_of (hobj : h.objs a = some obj) : h.nextOf a = obj.next := by
  rw [ObjHeap.nextOf, hobj, Option.bind_some]

theorem ObjHeap.allNextOf_of (hobj : h.objs a = some obj) : h.allNextOf a = obj.allNext := by
  rw [ObjHeap.allNextOf, hobj, Option.bind_some]

theorem ObjHeap.allocated_of (hobj : h.objs a = some obj) : h.allocated a = obj.allocated := by
  rw [ObjHeap.allocated, hobj, Option.any_some]

theorem ObjHeap.Taken.allocated (ha : h.Taken p a) : h.allocated a = true := by
  obtain ⟨obj, hobj, -, hallocated⟩ := ha
  rw [ObjHeap.allocated_of hobj, hallocated]

theorem Given.lt (hg : Given h) (hobj : h.objs a = some obj) : a < h.fresh := by
  refine Nat.not_le.mp fun hle => ?_
  rw [hg a hle] at hobj
  cases hobj

theorem PoolLists.exists_obj (hl : PoolLists h p pool available all) (ha : a ∈ all) :
    ∃ obj, h.objs a = some obj ∧ obj.pool = p :=
  (hl.mem_all a).mp ha

/-- A pool does not notice what happens to the objects of another one. -/
theorem PoolLists.others (hl : PoolLists h q pool available all) (hkept : OthersKept p h h')
    (hne : q ≠ p) : PoolLists h' q pool available all := by
  have hsame : ∀ a ∈ all, h'.objs a = h.objs a := by
    intro a ha
    obtain ⟨obj, hobj, hpool⟩ := hl.exists_obj ha
    rw [hobj, (hkept a obj (hpool ▸ hne)).mp hobj]
  have havailable : ∀ a ∈ available, a ∈ all := fun a ha => ((hl.mem_available a).mp ha).1
  refine ⟨hl.linked.congr fun a ha => ?_, hl.nodup, hl.allLinked.congr fun a ha => ?_, hl.allNodup,
    fun a => ?_, fun a => ?_, hl.currSize, hl.traveling, hl.bounded⟩
  · unfold ObjHeap.nextOf
    rw [hsame a (havailable a ha)]
  · unfold ObjHeap.allNextOf
    rw [hsame a ha]
  · rw [hl.mem_all]
    constructor
    · rintro ⟨obj, hobj, rfl⟩
      exact ⟨obj, (hkept a obj hne).mp hobj, rfl⟩
    · rintro ⟨obj, hobj, rfl⟩
      exact ⟨obj, (hkept a obj hne).mpr hobj, rfl⟩
  · rw [hl.mem_available]
    refine and_congr_right fun ha => ?_
    unfold ObjHeap.allocated
    rw [hsame a ha]

theorem OthersKept.refl : OthersKept p h h := fun _ _ _ => Iff.rfl

theorem OthersKept.trans {h'' : ObjHeap} (hk : OthersKept p h h') (hk' : OthersKept p h' h'') :
    OthersKept p h h'' :=
  fun a obj hne => (hk a obj hne).trans (hk' a obj hne)

/-- A cell that no other pool had is written with nothing that another pool has. -/
theorem OthersKept.set {v : Option PooledObj} (hold : ∀ obj, h.objs a = some obj → obj.pool = p)
    (hnew : ∀ obj, v = some obj → obj.pool = p) : OthersKept p h (h.set a v) := by
  intro b obj hne
  rcases eq_or_ne b a with rfl | hba
  · rw [ObjHeap.set_self]
    exact ⟨fun hobj => absurd (hold obj hobj) hne, fun hobj => absurd (hnew obj hobj) hne⟩
  · rw [ObjHeap.set_of_ne hba]

theorem OthersKept.set_own {obj' : PooledObj} (hobj : h.objs a = some obj) (hown : obj.pool = p)
    (hown' : obj'.pool = p) : OthersKept p h (h.set a (some obj')) := by
  refine .set (fun old hold => ?_) (fun new hnew => ?_)
  · cases hobj.symm.trans hold
    exact hown
  · cases hnew
    exact hown'

/-! ### Growth -/

/-- The heap after a round of the loop. -/
def addedHeap (h : ObjHeap) (p : PoolAddr) (pool : ObjPool) : ObjHeap :=
  { h.set h.fresh (some
      { next := pool.availableObjects, allNext := pool.allObjects, pool := p,
        allocated := false }) with
    fresh := h.fresh + 1 }

/-- The pool after a round of the loop. -/
def addedPool (h : ObjHeap) (pool : ObjPool) : ObjPool :=
  { pool with
    availableObjects := some h.fresh
    allObjects := some h.fresh
    currSize := pool.currSize + 1 }

theorem Given.added (hg : Given h) : Given (addedHeap h p pool) := by
  intro a ha
  have hlt : h.fresh < a := ha
  exact (ObjHeap.set_of_ne (Nat.ne_of_gt hlt) _).trans (hg a (Nat.le_of_lt hlt))

theorem PoolLists.added (hg : Given h) (hl : PoolLists h p pool available all)
    (hroom : pool.maxSize ≠ 0 → pool.currSize + 1 ≤ pool.maxSize) :
    PoolLists (addedHeap h p pool) p (addedPool h pool) (h.fresh :: available)
      (h.fresh :: all) := by
  have hnew : h.fresh ∉ all := by
    intro hmem
    obtain ⟨obj, hobj, -⟩ := hl.exists_obj hmem
    rw [hg h.fresh (Nat.le_refl _)] at hobj
    cases hobj
  have hnot : h.fresh ∉ available := fun hmem => hnew ((hl.mem_available _).mp hmem).1
  have hself : (addedHeap h p pool).objs h.fresh = some
      { next := pool.availableObjects, allNext := pool.allObjects, pool := p,
        allocated := false } := ObjHeap.set_self _
  have hother : ∀ {a}, a ≠ h.fresh → (addedHeap h p pool).objs a = h.objs a :=
    fun hne => ObjHeap.set_of_ne hne _
  have hne : ∀ {a}, a ∈ all → a ≠ h.fresh := fun ha heq => hnew (heq ▸ ha)
  have hsum := hl.traveling
  refine ⟨⟨rfl, ?_⟩, List.nodup_cons.mpr ⟨hnot, hl.nodup⟩, ⟨rfl, ?_⟩,
    List.nodup_cons.mpr ⟨hnew, hl.allNodup⟩, fun a => ?_, fun a => ?_,
    congrArg (· + 1) hl.currSize, ?_, hroom⟩
  · rw [ObjHeap.nextOf_of hself]
    refine hl.linked.congr fun a ha => ?_
    unfold ObjHeap.nextOf
    rw [hother (hne ((hl.mem_available a).mp ha).1)]
  · rw [ObjHeap.allNextOf_of hself]
    refine hl.allLinked.congr fun a ha => ?_
    unfold ObjHeap.allNextOf
    rw [hother (hne ha)]
  · rcases eq_or_ne a h.fresh with rfl | ha
    · exact iff_of_true List.mem_cons_self ⟨_, hself, rfl⟩
    · rw [List.mem_cons, or_iff_right ha, hother ha]
      exact hl.mem_all a
  · rcases eq_or_ne a h.fresh with rfl | ha
    · exact iff_of_true List.mem_cons_self ⟨List.mem_cons_self, ObjHeap.allocated_of hself⟩
    · rw [List.mem_cons, List.mem_cons, or_iff_right ha, or_iff_right ha, hl.mem_available]
      unfold ObjHeap.allocated
      rw [hother ha]
  · change available.length + 1 + pool.numTravelingObjects = all.length + 1
    omega

/-- What a growth leaves, whether or not it was complete. -/
structure Grown (p : PoolAddr) (h : ObjHeap) (h' : ObjHeap) (pool' : ObjPool) : Prop where
  given : Given h'
  kept : ∀ a obj, h.objs a = some obj → h'.objs a = some obj
  added : ∀ a obj, h'.objs a = some obj → obj.pool = p ∧ obj.allocated = false ∨ h.objs a = some obj
  lists : ∃ available all, PoolLists h' p pool' available all

theorem Grown.refl (hg : Given h) (hl : PoolLists h p pool available all) : Grown p h h pool :=
  ⟨hg, fun _ _ hobj => hobj, fun _ _ hobj => .inr hobj, ⟨available, all, hl⟩⟩

theorem Grown.others (hgrown : Grown p h h' pool) : OthersKept p h h' :=
  fun a obj hne => ⟨hgrown.kept a obj, fun hobj =>
    (hgrown.added a obj hobj).resolve_left fun hnew => hne hnew.1⟩

theorem increaseLoop_grown (hg : Given h) (hl : PoolLists h p pool available all)
    (hroom : pool.maxSize ≠ 0 → pool.currSize + n ≤ pool.maxSize) :
    Grown p h (increaseLoop malloc p n h pool).2.1 (increaseLoop malloc p n h pool).2.2 := by
  induction n generalizing h pool available all with
  | zero => exact .refl hg hl
  | succ n ih =>
    rw [increaseLoop]
    by_cases hm : malloc n = true
    · rw [if_pos hm]
      have hadded := hl.added hg fun hmax => by
        have := hroom hmax
        omega
      have hnext := ih hg.added hadded fun hmax => by
        have := hroom hmax
        change pool.currSize + 1 + n ≤ pool.maxSize
        omega
      refine ⟨hnext.given, fun a obj hobj => ?_, fun a obj hobj => ?_, hnext.lists⟩
      · have hne : a ≠ h.fresh := by
          rintro rfl
          rw [hg h.fresh (Nat.le_refl _)] at hobj
          cases hobj
        exact hnext.kept a obj ((ObjHeap.set_of_ne hne _).trans hobj)
      · rcases hnext.added a obj hobj with hp | hmid
        · exact .inl hp
        · rcases eq_or_ne a h.fresh with rfl | ha
          · cases (ObjHeap.set_self _).symm.trans hmid
            exact .inl ⟨rfl, rfl⟩
          · exact .inr ((ObjHeap.set_of_ne ha _).symm.trans hmid)
    · rw [if_neg hm]
      exact .refl hg hl

theorem objPoolIncreaseSizeTo_grown (malloc : Nat → Bool) (newSize : Nat) (hg : Given h)
    (hl : PoolLists h p pool available all) :
    Grown p h (objPoolIncreaseSizeTo malloc p newSize h pool).2.1
      (objPoolIncreaseSizeTo malloc p newSize h pool).2.2 := by
  unfold objPoolIncreaseSizeTo
  by_cases hsmall : newSize ≤ pool.currSize
  · rw [if_pos hsmall]
    exact .refl hg hl
  · rw [if_neg hsmall]
    by_cases hmax : pool.maxSize ≠ 0 ∧ newSize > pool.maxSize
    · rw [if_pos hmax]
      by_cases hfull : pool.maxSize ≤ pool.currSize
      · rw [if_pos hfull]
        exact .refl hg hl
      · rw [if_neg hfull]
        exact increaseLoop_grown hg hl fun _ => by omega
    · rw [if_neg hmax]
      exact increaseLoop_grown hg hl fun hne => by omega

/-- How many of `n` rounds of the loop there are before a `malloc` fails. -/
def roundsBeforeFailure (malloc : Nat → Bool) : (n : Nat) → Nat
  | 0 => 0
  | n + 1 => if malloc n then roundsBeforeFailure malloc n + 1 else 0

theorem roundsBeforeFailure_eq : roundsBeforeFailure malloc n = n ↔ ∀ k < n, malloc k = true := by
  induction n with
  | zero => exact iff_of_true rfl fun k hk => absurd hk (Nat.not_lt_zero k)
  | succ n ih =>
    rw [roundsBeforeFailure, Nat.forall_lt_succ_right, ← ih]
    by_cases hm : malloc n = true
    · rw [if_pos hm, Nat.succ_inj]
      exact (and_iff_left hm).symm
    · rw [if_neg hm]
      exact iff_of_false (Nat.succ_ne_zero n).symm fun hall => hm hall.2

/-- The counters and the limit of the pool after the loop. -/
theorem increaseLoop_counts : (increaseLoop malloc p n h pool).2.2.maxSize = pool.maxSize ∧
    (increaseLoop malloc p n h pool).2.2.numTravelingObjects = pool.numTravelingObjects ∧
    (increaseLoop malloc p n h pool).2.2.currSize =
      pool.currSize + roundsBeforeFailure malloc n := by
  induction n generalizing h pool with
  | zero => exact ⟨rfl, rfl, rfl⟩
  | succ n ih =>
    rw [increaseLoop, roundsBeforeFailure]
    by_cases hm : malloc n = true
    · rw [if_pos hm, if_pos hm]
      obtain ⟨hmax, htraveling, hsize⟩ := @ih (addedHeap h p pool) (addedPool h pool)
      refine ⟨hmax, htraveling, hsize.trans ?_⟩
      change pool.currSize + 1 + _ = _
      omega
    · rw [if_neg hm, if_neg hm]
      exact ⟨rfl, rfl, rfl⟩

theorem increaseLoop_ok :
    (increaseLoop malloc p n h pool).1 = true ↔ ∀ k < n, malloc k = true := by
  induction n generalizing h pool with
  | zero => exact iff_of_true rfl fun k hk => absurd hk (Nat.not_lt_zero k)
  | succ n ih =>
    rw [increaseLoop, Nat.forall_lt_succ_right]
    by_cases hm : malloc n = true
    · rw [if_pos hm, ih]
      exact (and_iff_left hm).symm
    · rw [if_neg hm]
      exact iff_of_false Bool.false_ne_true fun hall => hm hall.2

/-- How far a pool grows that is to have `newSize` objects. -/
def sizeAllowed (newSize maxSize : Nat) : Nat :=
  if maxSize = 0 then newSize else min newSize maxSize

/-- A pool grows to the size that its limit allows, unless a `malloc` fails. -/
theorem objPoolIncreaseSizeTo_eq (malloc : Nat → Bool) (newSize : Nat) :
    objPoolIncreaseSizeTo malloc p newSize h pool =
      if sizeAllowed newSize pool.maxSize ≤ pool.currSize then (false, h, pool)
      else increaseLoop malloc p (sizeAllowed newSize pool.maxSize - pool.currSize) h pool := by
  unfold objPoolIncreaseSizeTo sizeAllowed
  split_ifs <;> grind

theorem objPoolIncreaseSizeTo_counts (newSize : Nat) :
    (objPoolIncreaseSizeTo malloc p newSize h pool).2.2.maxSize = pool.maxSize ∧
      (objPoolIncreaseSizeTo malloc p newSize h pool).2.2.numTravelingObjects =
        pool.numTravelingObjects ∧
      (objPoolIncreaseSizeTo malloc p newSize h pool).2.2.currSize = pool.currSize +
        roundsBeforeFailure malloc (sizeAllowed newSize pool.maxSize - pool.currSize) := by
  rw [objPoolIncreaseSizeTo_eq]
  by_cases hfull : sizeAllowed newSize pool.maxSize ≤ pool.currSize
  · rw [if_pos hfull, Nat.sub_eq_zero_of_le hfull]
    exact ⟨rfl, rfl, rfl⟩
  · rw [if_neg hfull]
    exact increaseLoop_counts

/-! ### The calls -/

/-- The loop that destroys a pool frees the objects linked from `next` on, and no other. -/
theorem destroyLoop_linked {fuel : Nat} {next : Option ObjAddr} {as : List ObjAddr}
    (hl : Linked h.nextOf next as) (hnodup : as.Nodup) (hfuel : as.length ≤ fuel) :
    (∀ a ∈ as, (destroyLoop fuel h next).objs a = none) ∧
      ∀ a, a ∉ as → (destroyLoop fuel h next).objs a = h.objs a := by
  induction as generalizing fuel h next with
  | nil =>
    obtain rfl : next = none := hl
    refine ⟨fun a ha => absurd ha List.not_mem_nil, fun a _ => ?_⟩
    cases fuel <;> rfl
  | cons b as ih =>
    obtain ⟨rfl, hrest⟩ := hl
    cases fuel with
    | zero => exact absurd hfuel (Nat.not_succ_le_zero _)
    | succ fuel =>
      have hnot : b ∉ as := (List.nodup_cons.mp hnodup).1
      have hrest' : Linked (h.set b none).nextOf (h.nextOf b) as := by
        refine hrest.congr fun a ha => ?_
        unfold ObjHeap.nextOf
        rw [ObjHeap.set_of_ne (ne_of_mem_of_not_mem ha hnot)]
      obtain ⟨hfreed, hkept⟩ :=
        ih hrest' (List.nodup_cons.mp hnodup).2 (Nat.le_of_succ_le_succ hfuel)
      rw [destroyLoop]
      refine ⟨fun a ha => ?_, fun a ha => ?_⟩
      · rcases List.mem_cons.mp ha with rfl | ha
        · rw [hkept a hnot, ObjHeap.set_self]
        · exact hfreed a ha
      · rw [List.mem_cons, not_or] at ha
        rw [hkept a ha.2, ObjHeap.set_of_ne ha.1]

theorem destroyLoop_fresh (fuel : Nat) (next : Option ObjAddr) :
    (destroyLoop fuel h next).fresh = h.fresh := by
  induction fuel generalizing h next with
  | zero => rfl
  | succ fuel ih =>
    cases next with
    | none => rfl
    | some a => exact ih _

theorem destroyLoop_kept {fuel : Nat} {next : Option ObjAddr}
    (hobj : (destroyLoop fuel h next).objs a = some obj) : h.objs a = some obj := by
  induction fuel generalizing h next with
  | zero => exact hobj
  | succ fuel ih =>
    cases next with
    | none => exact hobj
    | some b =>
      have hset := ih hobj
      rcases eq_or_ne a b with rfl | hne
      · rw [ObjHeap.set_self] at hset
        cases hset
      · rwa [ObjHeap.set_of_ne hne] at hset

/-- A call that only changes the pool `p`. -/
theorem PoolsInv.setPool (hi : PoolsInv w) {v : Option ObjPool} (hp : p < w.freshPool)
    (hg : Given h) (hkept : OthersKept p w.heap h)
    (hlists : ∀ pool, v = some pool → ∃ available all, PoolLists h p pool available all) :
    PoolsInv (w.setPool p h v) := by
  refine ⟨hg, fun q hq => ?_, fun a obj hobj => ?_, fun q pool hpool => ?_⟩
  · have hne : q ≠ p := by
      rintro rfl
      exact absurd hp (Nat.not_lt.mpr hq)
    exact (setPool_pools_of_ne hne).trans (hi.poolGiven q hq)
  · rcases eq_or_ne obj.pool p with heq | hne
    · exact heq ▸ hp
    · exact hi.owner a obj ((hkept a obj hne).mpr hobj)
  · rcases eq_or_ne q p with rfl | hne
    · exact hlists pool (setPool_pools_self.symm.trans hpool)
    · obtain ⟨available, all, hl⟩ := hi.lists q pool ((setPool_pools_of_ne hne).symm.trans hpool)
      exact ⟨available, all, hl.others hkept hne⟩

theorem PoolsInv.lt_freshPool (hi : PoolsInv w) (hpool : w.pools p = some pool) :
    p < w.freshPool := by
  refine Nat.not_le.mp fun hle => ?_
  rw [hi.poolGiven p hle] at hpool
  cases hpool

/-- The next pool has no objects yet. -/
theorem PoolsInv.next_lists (hi : PoolsInv w) (maxSize : Nat) :
    PoolLists w.heap w.freshPool ⟨none, none, maxSize, 0, 0⟩ [] [] := by
  refine ⟨rfl, List.nodup_nil, rfl, List.nodup_nil, fun a => ?_, fun a => ?_, rfl, rfl,
    fun _ => Nat.zero_le _⟩
  · refine iff_of_false List.not_mem_nil ?_
    rintro ⟨obj, hobj, hpool⟩
    exact absurd hpool (Nat.ne_of_lt (hi.owner a obj hobj))
  · exact iff_of_false List.not_mem_nil fun hmem => List.not_mem_nil hmem.1

/-- The objects that are freed with a pool are its own. -/
theorem destroyLoop_others (hg : Given h) (hl : PoolLists h p pool available all) :
    Given (destroyLoop h.fresh h pool.availableObjects) ∧
      OthersKept p h (destroyLoop h.fresh h pool.availableObjects) := by
  have hbelow : ∀ a ∈ available, a ∈ List.range h.fresh := by
    intro a ha
    obtain ⟨obj, hobj, -⟩ := hl.exists_obj ((hl.mem_available a).mp ha).1
    exact List.mem_range.mpr (hg.lt hobj)
  have hfuel : available.length ≤ h.fresh := by
    have hsub := (List.subperm_of_subset hl.nodup hbelow).length_le
    rwa [List.length_range] at hsub
  obtain ⟨hfreed, hkept⟩ := destroyLoop_linked hl.linked hl.nodup hfuel
  refine ⟨fun a ha => ?_, fun a obj hne => ?_⟩
  · rw [destroyLoop_fresh] at ha
    by_cases hmem : a ∈ available
    · exact hfreed a hmem
    · rw [hkept a hmem, hg a ha]
  · by_cases hmem : a ∈ available
    · obtain ⟨obj', hobj', hpool'⟩ := hl.exists_obj ((hl.mem_available a).mp hmem).1
      rw [hfreed a hmem, hobj']
      refine ⟨fun heq => ?_, nofun⟩
      cases heq
      exact absurd hpool' hne
    · rw [hkept a hmem]

/-- What `obj_pool_init` does: the pool gets the objects that it asks for, or there is none. -/
theorem objPoolInit_outcome (malloc : Nat → Bool) (minSize maxSize : Nat) (hi : PoolsInv w) :
    ∃ h v, objPoolInit malloc minSize maxSize w =
        { w with freshPool := w.freshPool + 1 }.setPool w.freshPool h v ∧
      Given h ∧ OthersKept w.freshPool w.heap h ∧
      (∀ a obj, h.objs a = some obj → obj.pool = w.freshPool → obj.allocated = false) ∧
      ∀ pool, v = some pool →
        (objPoolIncreaseSizeTo malloc w.freshPool minSize w.heap ⟨none, none, maxSize, 0, 0⟩).2 =
            (h, pool) ∧
          ∃ available all, PoolLists h w.freshPool pool available all := by
  have hgrown := objPoolIncreaseSizeTo_grown malloc minSize hi.given (hi.next_lists maxSize)
  simp only [objPoolInit]
  generalize objPoolIncreaseSizeTo malloc w.freshPool minSize w.heap ⟨none, none, maxSize, 0, 0⟩ =
    grown at hgrown
  obtain ⟨ok, h, pool⟩ := grown
  have hnew : ∀ a obj, h.objs a = some obj → obj.pool = w.freshPool → obj.allocated = false :=
    fun a obj hobj hown => (hgrown.added a obj hobj).elim And.right fun hold =>
      absurd hown (Nat.ne_of_lt (hi.owner a obj hold))
  cases ok with
  | true =>
    refine ⟨h, some pool, rfl, hgrown.given, hgrown.others, hnew, fun pool' heq => ?_⟩
    cases heq
    exact ⟨rfl, hgrown.lists⟩
  | false =>
    obtain ⟨available, all, hl⟩ := hgrown.lists
    obtain ⟨hgiven, hothers⟩ := destroyLoop_others hgrown.given hl
    exact ⟨_, none, rfl, hgiven, hgrown.others.trans hothers,
      fun a obj hobj => hnew a obj (destroyLoop_kept hobj), nofun⟩

theorem objPoolInit_inv (minSize maxSize : Nat) (hi : PoolsInv w) :
    PoolsInv (objPoolInit malloc minSize maxSize w) := by
  have hinv : PoolsInv { w with freshPool := w.freshPool + 1 } :=
    ⟨hi.given, fun q hq => hi.poolGiven q (Nat.le_of_succ_le hq),
      fun a obj hobj => Nat.lt_succ_of_lt (hi.owner a obj hobj), hi.lists⟩
  obtain ⟨h, v, heq, hgiven, hothers, -, hlists⟩ := objPoolInit_outcome malloc minSize maxSize hi
  rw [heq]
  exact hinv.setPool (Nat.lt_succ_self _) hgiven hothers fun pool hpool => (hlists pool hpool).2

/-- A pool that is there has the objects that it asked for. -/
theorem objPoolInit_counts {minSize maxSize : Nat}
    (hpool : (objPoolInit malloc minSize maxSize w).pools w.freshPool = some pool) :
    pool.maxSize = maxSize ∧ pool.currSize = sizeAllowed minSize maxSize ∧
      pool.numTravelingObjects = 0 := by
  obtain ⟨hmax, htraveling, hsize⟩ := @objPoolIncreaseSizeTo_counts w.heap w.freshPool
    ⟨none, none, maxSize, 0, 0⟩ malloc minSize
  have hok : (objPoolIncreaseSizeTo malloc w.freshPool minSize w.heap
      ⟨none, none, maxSize, 0, 0⟩).1 =
      true → roundsBeforeFailure malloc (sizeAllowed minSize maxSize) =
        sizeAllowed minSize maxSize := by
    rw [objPoolIncreaseSizeTo_eq]
    split_ifs with hnone
    · exact False.elim
    · intro hok
      exact roundsBeforeFailure_eq.mpr (increaseLoop_ok.mp hok)
  rw [objPoolInit] at hpool
  generalize objPoolIncreaseSizeTo malloc w.freshPool minSize w.heap ⟨none, none, maxSize, 0, 0⟩ =
    grown at hpool hmax htraveling hsize hok
  obtain ⟨ok, h, pool'⟩ := grown
  cases ok with
  | false => cases setPool_pools_self.symm.trans hpool
  | true =>
    cases setPool_pools_self.symm.trans hpool
    exact ⟨hmax, hsize.trans (by rw [Nat.zero_add]; exact hok rfl), htraveling⟩

/-- The first of the available objects is handed out. -/
theorem PoolLists.alloc (hl : PoolLists h p pool available all)
    (ha : pool.availableObjects = some a) :
    ∃ obj rest, h.objs a = some obj ∧ obj.pool = p ∧ obj.allocated = false ∧
      PoolLists (h.set a (some { obj with allocated := true })) p
        { pool with
          availableObjects := obj.next
          numTravelingObjects := pool.numTravelingObjects + 1 } rest all := by
  cases available with
  | nil => exact absurd (ha.symm.trans hl.linked) nofun
  | cons b rest =>
    obtain rfl : b = a := Option.some.inj (hl.linked.1.symm.trans ha)
    obtain ⟨hb, hfree⟩ := (hl.mem_available b).mp List.mem_cons_self
    obtain ⟨obj, hobj, hpool⟩ := hl.exists_obj hb
    rw [ObjHeap.allocated_of hobj] at hfree
    have hnot : b ∉ rest := (List.nodup_cons.mp hl.nodup).1
    have hself := ObjHeap.set_self (h := h) (a := b) (some { obj with allocated := true })
    have hsum := hl.traveling
    refine ⟨obj, rest, hobj, hpool, hfree, ?_, (List.nodup_cons.mp hl.nodup).2, ?_, hl.allNodup,
      fun c => ?_, fun c => ?_, hl.currSize, ?_, hl.bounded⟩
    · have hrest := hl.linked.2
      rw [ObjHeap.nextOf_of hobj] at hrest
      refine hrest.congr fun c hc => ?_
      unfold ObjHeap.nextOf
      rw [ObjHeap.set_of_ne (ne_of_mem_of_not_mem hc hnot)]
    · refine hl.allLinked.congr fun c _ => ?_
      rcases eq_or_ne c b with rfl | hc
      · rw [ObjHeap.allNextOf_of hobj, ObjHeap.allNextOf_of hself]
      · unfold ObjHeap.allNextOf
        rw [ObjHeap.set_of_ne hc]
    · rcases eq_or_ne c b with rfl | hc
      · exact iff_of_true hb ⟨_, hself, hpool⟩
      · rw [ObjHeap.set_of_ne hc]
        exact hl.mem_all c
    · rcases eq_or_ne c b with rfl | hc
      · refine iff_of_false hnot fun hmem => ?_
        rw [ObjHeap.allocated_of hself] at hmem
        cases hmem.2
      · have hmem := hl.mem_available c
        rw [List.mem_cons, or_iff_right hc] at hmem
        rw [hmem]
        unfold ObjHeap.allocated
        rw [ObjHeap.set_of_ne hc]
    · change rest.length + (pool.numTravelingObjects + 1) = all.length
      rw [List.length_cons] at hsum
      omega

/-- An allocated object is put back in front of the available ones. -/
theorem PoolLists.put (hl : PoolLists h p pool available all) (hobj : h.objs a = some obj)
    (hpool : obj.pool = p) (hallocated : obj.allocated = true) :
    PoolLists (h.set a (some { obj with allocated := false, next := pool.availableObjects })) p
      { pool with
        availableObjects := some a
        numTravelingObjects := pool.numTravelingObjects - 1 } (a :: available) all := by
  have ha : a ∈ all := (hl.mem_all a).mpr ⟨obj, hobj, hpool⟩
  have hnot : a ∉ available := by
    intro hmem
    have hfree := ((hl.mem_available a).mp hmem).2
    rw [ObjHeap.allocated_of hobj, hallocated] at hfree
    cases hfree
  have hself := ObjHeap.set_self (h := h) (a := a)
    (some { obj with allocated := false, next := pool.availableObjects })
  have hnodup : (a :: available).Nodup := List.nodup_cons.mpr ⟨hnot, hl.nodup⟩
  have hmore : (a :: available).length ≤ all.length := by
    refine (List.subperm_of_subset hnodup fun b hb => ?_).length_le
    rcases List.mem_cons.mp hb with rfl | hb
    · exact ha
    · exact ((hl.mem_available b).mp hb).1
  have hsum := hl.traveling
  rw [List.length_cons] at hmore
  refine ⟨⟨rfl, ?_⟩, hnodup, ?_, hl.allNodup, fun b => ?_, fun b => ?_, hl.currSize, ?_,
    hl.bounded⟩
  · rw [ObjHeap.nextOf_of hself]
    refine hl.linked.congr fun b hb => ?_
    unfold ObjHeap.nextOf
    rw [ObjHeap.set_of_ne (ne_of_mem_of_not_mem hb hnot)]
  · refine hl.allLinked.congr fun b _ => ?_
    rcases eq_or_ne b a with rfl | hb
    · rw [ObjHeap.allNextOf_of hobj, ObjHeap.allNextOf_of hself]
    · unfold ObjHeap.allNextOf
      rw [ObjHeap.set_of_ne hb]
  · rcases eq_or_ne b a with rfl | hb
    · exact iff_of_true ha ⟨_, hself, hpool⟩
    · rw [ObjHeap.set_of_ne hb]
      exact hl.mem_all b
  · rcases eq_or_ne b a with rfl | hb
    · exact iff_of_true List.mem_cons_self ⟨ha, ObjHeap.allocated_of hself⟩
    · rw [List.mem_cons, or_iff_right hb, hl.mem_available]
      unfold ObjHeap.allocated
      rw [ObjHeap.set_of_ne hb]
  · change available.length + 1 + (pool.numTravelingObjects - 1) = all.length
    omega

/-- The pool and the heap that `obj_pool_alloc_object` takes the object from. -/
def offered (malloc : Nat → Bool) (p : PoolAddr) (h : ObjHeap) (pool : ObjPool) :
    Bool × ObjHeap × ObjPool :=
  if pool.availableObjects.isNone then
    objPoolIncreaseSizeTo malloc p (grownSize pool.currSize) h pool
  else (true, h, pool)

theorem offered_grown (malloc : Nat → Bool) (hg : Given h) (hl : PoolLists h p pool available all) :
    Grown p h (offered malloc p h pool).2.1 (offered malloc p h pool).2.2 := by
  unfold offered
  by_cases hnone : pool.availableObjects.isNone = true
  · rw [if_pos hnone]
    exact objPoolIncreaseSizeTo_grown _ _ hg hl
  · rw [if_neg hnone]
    exact .refl hg hl

theorem objPoolAllocObject_eq (hpool : w.pools p = some pool) : objPoolAllocObject malloc w p =
    match (offered malloc p w.heap pool).1,
      (offered malloc p w.heap pool).2.2.availableObjects with
    | false, _ | _, none => some (none, w.setPool p (offered malloc p w.heap pool).2.1
        (some (offered malloc p w.heap pool).2.2))
    | true, some a =>
      ((offered malloc p w.heap pool).2.1.objs a).map fun obj =>
        (some a, w.setPool p
          ((offered malloc p w.heap pool).2.1.set a (some { obj with allocated := true }))
          (some { (offered malloc p w.heap pool).2.2 with
            availableObjects := obj.next
            numTravelingObjects :=
              (offered malloc p w.heap pool).2.2.numTravelingObjects + 1 })) := by
  unfold objPoolAllocObject
  rw [hpool]
  rfl

theorem increaseLoop_available (havailable : pool.availableObjects.isSome = true) :
    (increaseLoop malloc p n h pool).2.2.availableObjects.isSome = true := by
  induction n generalizing h pool with
  | zero => exact havailable
  | succ n ih =>
    rw [increaseLoop]
    by_cases hm : malloc n = true
    · rw [if_pos hm]
      exact @ih (addedHeap h p pool) (addedPool h pool) rfl
    · rw [if_neg hm]
      exact havailable

/-- No object can be taken from the pool: none is available, and the limit is reached or a `malloc`
fails that the growth needs. -/
def Exhausted (malloc : Nat → Bool) (pool : ObjPool) : Prop :=
  pool.availableObjects = none ∧
    (sizeAllowed (grownSize pool.currSize) pool.maxSize ≤ pool.currSize ∨
      ∃ n < sizeAllowed (grownSize pool.currSize) pool.maxSize - pool.currSize, malloc n = false)

/-- The limit and the objects that are out do not change before an object is handed out. -/
theorem offered_counts : (offered malloc p h pool).2.2.maxSize = pool.maxSize ∧
    (offered malloc p h pool).2.2.numTravelingObjects = pool.numTravelingObjects := by
  unfold offered
  split_ifs
  · obtain ⟨hmax, htraveling, -⟩ :=
      @objPoolIncreaseSizeTo_counts h p pool malloc (grownSize pool.currSize)
    exact ⟨hmax, htraveling⟩
  · exact ⟨rfl, rfl⟩

theorem offered_currSize : (offered malloc p h pool).2.2.currSize =
    if pool.availableObjects = none then
      pool.currSize + roundsBeforeFailure malloc
        (sizeAllowed (grownSize pool.currSize) pool.maxSize - pool.currSize)
    else pool.currSize := by
  unfold offered
  simp only [Option.isNone_iff_eq_none]
  split_ifs
  · exact objPoolIncreaseSizeTo_counts _ |>.2.2
  · rfl

/-- An object is offered unless the pool is exhausted. -/
theorem offered_none (malloc : Nat → Bool) (p : PoolAddr) (h : ObjHeap) (pool : ObjPool) :
    (offered malloc p h pool).1 = false ∨ (offered malloc p h pool).2.2.availableObjects = none ↔
      Exhausted malloc pool := by
  unfold offered Exhausted
  cases havailable : pool.availableObjects with
  | some a =>
    rw [Option.isNone_some, if_neg Bool.false_ne_true]
    refine iff_of_false ?_ fun hnone => Option.some_ne_none a hnone.1
    rintro (hfail | hnone)
    · cases hfail
    · cases havailable.symm.trans hnone
  | none =>
    rw [Option.isNone_none, if_pos rfl, objPoolIncreaseSizeTo_eq, eq_self, true_and]
    by_cases hfull : sizeAllowed (grownSize pool.currSize) pool.maxSize ≤ pool.currSize
    · rw [if_pos hfull]
      exact iff_of_true (.inl rfl) (.inl hfull)
    · rw [if_neg hfull, or_iff_right hfull]
      obtain ⟨n, hn⟩ := Nat.exists_eq_succ_of_ne_zero (Nat.sub_ne_zero_of_lt (Nat.not_le.mp hfull))
      rw [hn]
      by_cases hall : ∀ k < n.succ, malloc k = true
      · refine iff_of_false ?_ ?_
        · rw [Bool.eq_false_iff, not_or, not_not, increaseLoop_ok]
          refine ⟨hall, fun hnone => ?_⟩
          rw [increaseLoop, if_pos (hall n (Nat.lt_succ_self n))] at hnone
          have hsome := @increaseLoop_available (addedHeap h p pool) p
            (addedPool h pool) malloc n rfl
          rw [addedHeap, addedPool, hnone] at hsome
          cases hsome
        · rintro ⟨k, hk, hfail⟩
          rw [hall k hk] at hfail
          cases hfail
      · refine iff_of_true (.inl ?_) ?_
        · rw [Bool.eq_false_iff]
          exact mt increaseLoop_ok.mp hall
        · simpa only [not_forall, Bool.not_eq_true, exists_prop] using hall

/-- What `obj_pool_alloc_object` can do: there is no pool, or nothing is returned, perhaps after
some growth, or the first available object is. -/
theorem objPoolAllocObject_outcome (hi : PoolsInv w) (malloc : Nat → Bool) (p : PoolAddr) :
    w.pools p = none ∧ objPoolAllocObject malloc w p = some (none, w) ∨
      ∃ pool h pool', w.pools p = some pool ∧ (offered malloc p w.heap pool).2 = (h, pool') ∧
        Grown p w.heap h pool' ∧
        (objPoolAllocObject malloc w p = some (none, w.setPool p h (some pool')) ∨
          ∃ a obj, pool'.availableObjects = some a ∧ h.objs a = some obj ∧
            objPoolAllocObject malloc w p = some (some a,
              w.setPool p (h.set a (some { obj with allocated := true }))
                (some { pool' with
                  availableObjects := obj.next
                  numTravelingObjects := pool'.numTravelingObjects + 1 }))) := by
  cases hpool : w.pools p with
  | none =>
    refine .inl ⟨rfl, ?_⟩
    unfold objPoolAllocObject
    rw [hpool]
  | some pool =>
    obtain ⟨available, all, hl⟩ := hi.lists p pool hpool
    have hgrown := offered_grown malloc hi.given hl
    rw [objPoolAllocObject_eq hpool]
    refine .inr ⟨pool, _, _, rfl, rfl, hgrown, ?_⟩
    generalize offered malloc p w.heap pool = grown at hgrown ⊢
    obtain ⟨ok, h, pool'⟩ := grown
    cases ok with
    | false => exact .inl rfl
    | true =>
      cases havailable : pool'.availableObjects with
      | none => exact .inl rfl
      | some a =>
        obtain ⟨available', all', hl'⟩ := hgrown.lists
        obtain ⟨obj, -, hobj, -⟩ := hl'.alloc havailable
        exact .inr ⟨a, obj, rfl, hobj, congrArg (Option.map _) hobj⟩

theorem objPoolAllocObject_none {ret : Option ObjAddr} (hpool : w.pools p = some pool)
    (halloc : objPoolAllocObject malloc w p = some (ret, w')) :
    ret = none ↔ Exhausted malloc pool := by
  rw [← offered_none malloc p w.heap pool]
  rw [objPoolAllocObject_eq hpool] at halloc
  generalize offered malloc p w.heap pool = grown at halloc ⊢
  obtain ⟨ok, h, pool'⟩ := grown
  cases ok with
  | false =>
    cases halloc
    exact iff_of_true rfl (.inl rfl)
  | true =>
    cases havailable : pool'.availableObjects with
    | none =>
      rw [havailable] at halloc
      cases halloc
      exact iff_of_true rfl (.inr rfl)
    | some a =>
      rw [havailable] at halloc
      obtain ⟨obj, -, heq⟩ := Option.map_eq_some_iff.mp halloc
      cases heq
      refine iff_of_false (Option.some_ne_none a) ?_
      rintro (hfail | hnone)
      · cases hfail
      · cases hnone

/-- What holds of `obj_pool_alloc_object`: the invariant stays, and an object that is returned was
not allocated, and is. -/
theorem objPoolAllocObject_cases (hi : PoolsInv w) (malloc : Nat → Bool) (p : PoolAddr) :
    ∃ ret w', objPoolAllocObject malloc w p = some (ret, w') ∧ PoolsInv w' ∧
      ∀ a, ret = some a → w.heap.allocated a = false ∧ w'.heap.Taken p a := by
  obtain ⟨-, halloc⟩ | ⟨pool, h, pool', hpool, -, hgrown, halloc⟩ :=
    objPoolAllocObject_outcome hi malloc p
  · exact ⟨none, w, halloc, hi, nofun⟩
  · have hfresh := hi.lt_freshPool hpool
    rcases halloc with halloc | ⟨a, obj, havailable, hobj, halloc⟩
    · refine ⟨none, _, halloc, ?_, nofun⟩
      refine hi.setPool hfresh hgrown.given hgrown.others fun pool'' heq => ?_
      cases heq
      exact hgrown.lists
    · obtain ⟨available, all, hl⟩ := hgrown.lists
      obtain ⟨obj', rest, hobj', hown, hfree, hrest⟩ := hl.alloc havailable
      cases hobj.symm.trans hobj'
      refine ⟨some a, _, halloc, ?_, fun b hb => ?_⟩
      · refine hi.setPool hfresh (fun b hb => ?_) (hgrown.others.trans (.set_own hobj hown hown)) ?_
        · have hlt := hgrown.given.lt hobj
          rw [ObjHeap.set_of_ne (Nat.ne_of_gt (Nat.lt_of_lt_of_le hlt hb))]
          exact hgrown.given b hb
        · rintro pool'' heq
          cases heq
          exact ⟨rest, all, hrest⟩
      · cases hb
        refine ⟨?_, _, ObjHeap.set_self _, hown, rfl⟩
        unfold ObjHeap.allocated
        cases hold : w.heap.objs a with
        | none => rw [Option.any_none]
        | some old =>
          cases hobj.symm.trans (hgrown.kept a old hold)
          rw [Option.any_some, hfree]

/-- An object that is allocated stays so while others are. -/
theorem objPoolAllocObject_kept (hi : PoolsInv w) {ret : Option ObjAddr}
    (halloc : objPoolAllocObject malloc w p = some (ret, w')) {b : ObjAddr}
    (hb : w.heap.Taken q b) : w'.heap.Taken q b := by
  obtain ⟨-, heq⟩ | ⟨pool, h, pool', -, -, hgrown, houtcome⟩ :=
    objPoolAllocObject_outcome hi malloc p
  · cases halloc.symm.trans heq
    exact hb
  · obtain ⟨obj, hobj, hown, hallocated⟩ := hb
    have hkept := hgrown.kept b obj hobj
    rcases houtcome with heq | ⟨a, obj', -, hobj', heq⟩
    · cases halloc.symm.trans heq
      exact ⟨obj, hkept, hown, hallocated⟩
    · cases halloc.symm.trans heq
      rcases eq_or_ne b a with rfl | hne
      · cases hkept.symm.trans hobj'
        exact ⟨_, ObjHeap.set_self _, hown, rfl⟩
      · exact ⟨obj, (ObjHeap.set_of_ne hne _).trans hkept, hown, hallocated⟩

/-- What a pool counts when it is asked for an object. -/
theorem objPoolAllocObject_counts {ret : Option ObjAddr} (hpool : w.pools p = some pool)
    (halloc : objPoolAllocObject malloc w p = some (ret, w')) :
    ∃ pool', w'.pools p = some pool' ∧ pool'.maxSize = pool.maxSize ∧
      pool'.numTravelingObjects = pool.numTravelingObjects + ret.isSome.toNat ∧
      pool'.currSize = (offered malloc p w.heap pool).2.2.currSize := by
  rw [objPoolAllocObject_eq hpool] at halloc
  obtain ⟨hmax, htraveling⟩ := @offered_counts w.heap p pool malloc
  generalize offered malloc p w.heap pool = grown at halloc hmax htraveling ⊢
  obtain ⟨ok, h, pool'⟩ := grown
  cases ok with
  | false =>
    cases halloc
    exact ⟨pool', setPool_pools_self, hmax, htraveling, rfl⟩
  | true =>
    cases havailable : pool'.availableObjects with
    | none =>
      rw [havailable] at halloc
      cases halloc
      exact ⟨pool', setPool_pools_self, hmax, htraveling, rfl⟩
    | some a =>
      rw [havailable] at halloc
      obtain ⟨obj, -, heq⟩ := Option.map_eq_some_iff.mp halloc
      cases heq
      exact ⟨_, setPool_pools_self, hmax, congrArg (· + 1) htraveling, rfl⟩

/-- What `obj_pool_put_object` can do: nothing, or an allocated object of the pool becomes the first
available one. -/
theorem objPoolPutObject_cases {object : Option ObjAddr}
    (hput : objPoolPutObject w p object = some w') :
    w' = w ∨ ∃ pool a obj, w.pools p = some pool ∧ object = some a ∧ w.heap.objs a = some obj ∧
      obj.pool = p ∧ obj.allocated = true ∧
      w' = w.setPool p
        (w.heap.set a (some { obj with allocated := false, next := pool.availableObjects }))
        (some { pool with
          availableObjects := some a
          numTravelingObjects := pool.numTravelingObjects - 1 }) := by
  unfold objPoolPutObject at hput
  cases hpool : w.pools p with
  | none =>
    rw [hpool] at hput
    cases hput
    exact .inl rfl
  | some pool =>
    rw [hpool] at hput
    cases object with
    | none =>
      cases hput
      exact .inl rfl
    | some a =>
      obtain ⟨obj, hobj, heq⟩ := Option.map_eq_some_iff.mp hput
      by_cases hother : obj.pool ≠ p
      · rw [if_pos hother] at heq
        exact .inl heq.symm
      · rw [if_neg hother] at heq
        by_cases hfree : obj.allocated = false
        · rw [if_pos hfree] at heq
          exact .inl heq.symm
        · rw [if_neg hfree] at heq
          exact .inr ⟨pool, a, obj, rfl, rfl, hobj, not_ne_iff.mp hother,
            (Bool.not_eq_false _).mp hfree, heq.symm⟩

theorem objPoolPutObject_inv (hi : PoolsInv w) {object : Option ObjAddr}
    (hput : objPoolPutObject w p object = some w') : PoolsInv w' := by
  obtain rfl | ⟨pool, a, obj, hpool, rfl, hobj, hown, hallocated, rfl⟩ :=
    objPoolPutObject_cases hput
  · exact hi
  · obtain ⟨available, all, hl⟩ := hi.lists p pool hpool
    refine hi.setPool (hi.lt_freshPool hpool) (fun b hb => ?_) (.set_own hobj hown hown) ?_
    · have hlt := hi.given.lt hobj
      rw [ObjHeap.set_of_ne (Nat.ne_of_gt (Nat.lt_of_lt_of_le hlt hb))]
      exact hi.given b hb
    · rintro pool' heq
      cases heq
      exact ⟨_, all, hl.put hobj hown hallocated⟩

/-- An allocated object of the pool is put back. -/
theorem objPoolPutObject_eq (hpool : w.pools p = some pool) (hobj : w.heap.objs a = some obj)
    (hown : obj.pool = p) (hallocated : obj.allocated = true) :
    objPoolPutObject w p (some a) = some (w.setPool p
      (w.heap.set a (some { obj with allocated := false, next := pool.availableObjects }))
      (some { pool with
        availableObjects := some a
        numTravelingObjects := pool.numTravelingObjects - 1 })) := by
  unfold objPoolPutObject
  simp only [hpool, hobj, Option.map_some]
  rw [if_neg (not_ne_iff.mpr hown), if_neg (Bool.not_eq_false _ ▸ hallocated)]

theorem poolStep_inv {call : PoolCall} (hi : PoolsInv w) (hstep : poolStep w call = some w') :
    PoolsInv w' := by
  cases call with
  | init malloc minSize maxSize =>
    cases hstep
    exact objPoolInit_inv minSize maxSize hi
  | alloc malloc p =>
    obtain ⟨ret, after, halloc, hinv, -⟩ := objPoolAllocObject_cases hi malloc p
    rw [poolStep, halloc, Option.map_some] at hstep
    cases hstep
    exact hinv
  | put p object => exact objPoolPutObject_inv hi hstep

theorem noPools_inv : PoolsInv noPools :=
  ⟨fun _ _ => rfl, fun _ _ => rfl, (fun _ _ hobj => nomatch hobj),
    fun _ _ hpool => nomatch hpool⟩

end

end Dwpal.Ipc
