import Dwpal.Ipc.ObjPool

/-! `obj_pool_walk` and `obj_pool_destroy` of `wv_ipc/obj_pool.c`, which report the objects of a
pool that have not been put back. Both go from the first of all objects on by `next`, the pointer
that links the available objects. -/

namespace Dwpal.Ipc

open Machine Chain

/-- The loop of `obj_pool_walk`: the number of the allocated objects, and the objects that the
callback is called on. There is no result where the loop reads memory that is not there, or does not
end. -/
def walkLoop (cb : Bool) : (fuel : Nat) → ObjHeap → Option ObjAddr → (objNum : Nat) →
    (called : List ObjAddr) → Option (Nat × List ObjAddr)
  | _, _, none, objNum, called => some (objNum, called)
  | 0, _, some _, _, _ => none
  | fuel + 1, h, some a, objNum, called =>
    (h.objs a).bind fun obj =>
      if obj.allocated then
        walkLoop cb fuel h obj.next (objNum + 1) (if cb then called ++ [a] else called)
      else walkLoop cb fuel h obj.next objNum called

/-- `obj_pool_walk`: what it returns, and the objects that the callback is called on; `cb` says
whether there is one. -/
def objPoolWalk (fuel : Nat) (w : PoolWorld) (p : PoolAddr) (cb : Bool) :
    Option (Nat × List ObjAddr) :=
  match w.pools p with
  | none => some (0, [])
  | some pool =>
    if pool.numTravelingObjects > 0 then walkLoop cb fuel w.heap pool.allObjects 0 []
    else some (0, [])

/-- The loop of `obj_pool_destroy` that frees the available objects. There is no result where it
touches an object that is not there. -/
def freeLoop : (fuel : Nat) → ObjHeap → Option ObjAddr → Option ObjHeap
  | _, h, none => some h
  | 0, _, some _ => none
  | fuel + 1, h, some a => (h.objs a).bind fun obj => freeLoop fuel (h.set a none) obj.next

/-- The loop of `obj_pool_destroy` that calls the callback: the objects that it is called on. There
is no result where an object is not there. -/
def callbackLoop : (fuel : Nat) → ObjHeap → Option ObjAddr → Option (List ObjAddr)
  | _, _, none => some []
  | 0, _, some _ => none
  | fuel + 1, h, some a =>
    (h.objs a).bind fun obj => (callbackLoop fuel h obj.next).map fun called => a :: called

/-- `obj_pool_destroy`: what it returns, the objects that the callback is called on, and the pools
after it. `callback` says whether one was set. -/
def objPoolDestroy (fuel : Nat) (w : PoolWorld) (p : PoolAddr) (callback : Bool) :
    Option (Nat × List ObjAddr × PoolWorld) :=
  match w.pools p with
  | none => some (0, [], w)
  | some pool =>
    (freeLoop fuel w.heap pool.availableObjects).bind fun h =>
      if pool.numTravelingObjects ≠ 0 ∧ callback = true then
        (callbackLoop fuel h pool.allObjects).map fun called =>
          (pool.numTravelingObjects, called, w.setPool p h none)
      else some (pool.numTravelingObjects, [], w.setPool p h none)

/-- `a` is an object of the pool `p`. -/
def Owned (h : ObjHeap) (p : PoolAddr) (a : ObjAddr) : Prop :=
  ∃ obj, h.objs a = some obj ∧ obj.pool = p

/-- `a` is an object of the pool `p` that has not been put back. -/
def Unreturned (h : ObjHeap) (p : PoolAddr) (a : ObjAddr) : Prop :=
  Owned h p a ∧ h.allocated a = true

/-- What `obj_pool_walk` is to report: each object that has not been put back once, and nothing
else. -/
def WalkRight (w : PoolWorld) (p : PoolAddr) : Prop :=
  ∃ called : List ObjAddr, called.Nodup ∧ (∀ a, a ∈ called ↔ Unreturned w.heap p a) ∧
    ∃ enough, ∀ fuel ≥ enough, ∀ cb,
      objPoolWalk fuel w p cb = some (called.length, if cb then called else [])

/-- What `obj_pool_destroy` is to report: the same, and it has a result, so that no object is
touched after it is freed. -/
def DestroyRight (w : PoolWorld) (p : PoolAddr) (callback : Bool) : Prop :=
  ∃ called : List ObjAddr, called.Nodup ∧ (∀ a, a ∈ called ↔ Unreturned w.heap p a) ∧
    ∃ enough, ∀ fuel ≥ enough, ∃ w',
      objPoolDestroy fuel w p callback =
        some (called.length, if callback then called else [], w')

/-- `next` leads to `a` from the first of all objects on. -/
def OnNextChain (h : ObjHeap) (pool : ObjPool) (a : ObjAddr) : Prop :=
  ∃ chain, Linked h.nextOf pool.allObjects chain ∧ a ∈ chain

/-- A call that keeps to the order of a stack: the pool does not grow, and an object is put back
while the one that was first available when it was allocated is so again. -/
def StackCall (w : PoolWorld) : PoolCall → Prop
  | .init .. => True
  | .alloc _ p => ∀ pool ∈ w.pools p,
      pool.availableObjects.isSome ∨ pool.maxSize ≠ 0 ∧ pool.maxSize ≤ pool.currSize
  | .put p object => ∀ pool ∈ w.pools p, ∀ a ∈ object, ∀ obj ∈ w.heap.objs a,
      obj.pool = p → obj.allocated = true → obj.next = pool.availableObjects

instance (w : PoolWorld) : ∀ call, Decidable (StackCall w call)
  | .init .. => .isTrue trivial
  | .alloc _ p => inferInstanceAs (Decidable (∀ pool ∈ w.pools p, _ ∨ _))
  | .put p object =>
    inferInstanceAs (Decidable (∀ pool ∈ w.pools p, ∀ a ∈ object, ∀ obj ∈ w.heap.objs a, _ → _ → _))

/-- From each object of `p` on `next` leads through objects of `p` to an end. -/
def Chained (h : ObjHeap) (p : PoolAddr) : Prop :=
  ∀ a, Owned h p a → ∃ chain, Linked h.nextOf (some a) chain ∧ ∀ b ∈ chain, Owned h p b

section

variable {h h' : ObjHeap} {p q : PoolAddr} {a : ObjAddr} {obj : PooledObj} {pool : ObjPool}
  {available all chain : List ObjAddr} {malloc : Nat → Bool} {w w' : PoolWorld} {fuel : Nat}
  {next : Option ObjAddr}

/-! ### The loops -/

theorem walkLoop_linked {cb : Bool} {objNum : Nat} {called : List ObjAddr}
    (hl : Linked h.nextOf next chain) (hthere : ∀ a ∈ chain, ∃ obj, h.objs a = some obj)
    (hfuel : chain.length ≤ fuel) :
    walkLoop cb fuel h next objNum called =
      some (objNum + (chain.filter h.allocated).length,
        called ++ if cb then chain.filter h.allocated else []) := by
  induction chain generalizing fuel next objNum called with
  | nil =>
    obtain rfl : next = none := hl
    cases fuel <;> simp [walkLoop]
  | cons a chain ih =>
    obtain ⟨rfl, hrest⟩ := hl
    obtain ⟨obj, hobj⟩ := hthere a List.mem_cons_self
    have hthere' : ∀ b ∈ chain, ∃ obj, h.objs b = some obj :=
      fun b hb => hthere b (List.mem_cons_of_mem a hb)
    rw [ObjHeap.nextOf_of hobj] at hrest
    cases fuel with
    | zero => exact absurd hfuel (Nat.not_succ_le_zero _)
    | succ fuel =>
      have hfuel' : chain.length ≤ fuel := Nat.le_of_succ_le_succ hfuel
      rw [walkLoop, hobj, Option.bind_some]
      cases hallocated : obj.allocated with
      | false =>
        rw [if_neg Bool.false_ne_true, ih hrest hthere' hfuel',
          List.filter_cons_of_neg (by rw [ObjHeap.allocated_of hobj, hallocated]; nofun)]
      | true =>
        rw [if_pos rfl, ih hrest hthere' hfuel',
          List.filter_cons_of_pos (by rw [ObjHeap.allocated_of hobj, hallocated]),
          List.length_cons, Nat.add_right_comm, Nat.add_assoc]
        cases cb
        · rfl
        · simp

/-- The available objects are freed, each once. -/
theorem freeLoop_linked (hl : Linked h.nextOf next available) (hnodup : available.Nodup)
    (hthere : ∀ a ∈ available, ∃ obj, h.objs a = some obj) (hfuel : available.length ≤ fuel) :
    freeLoop fuel h next = some (destroyLoop fuel h next) := by
  induction available generalizing fuel h next with
  | nil =>
    obtain rfl : next = none := hl
    cases fuel <;> rfl
  | cons a available ih =>
    obtain ⟨rfl, hrest⟩ := hl
    obtain ⟨hnot, hnodup'⟩ := List.nodup_cons.mp hnodup
    obtain ⟨obj, hobj⟩ := hthere a List.mem_cons_self
    cases fuel with
    | zero => exact absurd hfuel (Nat.not_succ_le_zero _)
    | succ fuel =>
      have hkept : ∀ b ∈ available, (h.set a none).objs b = h.objs b :=
        fun b hb => ObjHeap.set_of_ne (ne_of_mem_of_not_mem hb hnot) none
      rw [freeLoop, destroyLoop, hobj, Option.bind_some, ObjHeap.nextOf_of hobj]
      rw [ObjHeap.nextOf_of hobj] at hrest
      refine ih (hrest.congr fun b hb => ?_) hnodup' (fun b hb => ?_)
        (Nat.le_of_succ_le_succ hfuel)
      · unfold ObjHeap.nextOf
        rw [hkept b hb]
      · rw [hkept b hb]
        exact hthere b (List.mem_cons_of_mem a hb)

/-- The callback is called on the objects that `next` leads to, if all of them are still there. -/
theorem callbackLoop_linked (hl : Linked h.nextOf next chain)
    (hthere : ∀ a ∈ chain, ∃ obj, h.objs a = some obj)
    (hless : ∀ a ∈ chain, h'.objs a = none ∨ h'.objs a = h.objs a) (hfuel : chain.length ≤ fuel) :
    callbackLoop fuel h' next =
      if chain.all fun a => (h'.objs a).isSome then some chain else none := by
  induction chain generalizing fuel next with
  | nil =>
    obtain rfl : next = none := hl
    cases fuel <;> rfl
  | cons a chain ih =>
    obtain ⟨rfl, hrest⟩ := hl
    obtain ⟨obj, hobj⟩ := hthere a List.mem_cons_self
    cases fuel with
    | zero => exact absurd hfuel (Nat.not_succ_le_zero _)
    | succ fuel =>
      rw [callbackLoop, List.all_cons]
      rcases hless a List.mem_cons_self with hgone | hkept
      · rw [hgone, Option.bind_none, Option.isSome_none, Bool.false_and, if_neg Bool.false_ne_true]
      · rw [ObjHeap.nextOf_of hobj] at hrest
        rw [hkept, hobj, Option.bind_some, Option.isSome_some, Bool.true_and,
          ih hrest (fun b hb => hthere b (List.mem_cons_of_mem a hb))
            (fun b hb => hless b (List.mem_cons_of_mem a hb)) (Nat.le_of_succ_le_succ hfuel)]
        split_ifs
        · rfl
        · rfl

/-! ### The chains of the pools -/

theorem Chained.others (hc : Chained h q) (hkept : OthersKept p h h') (hne : q ≠ p) :
    Chained h' q := by
  have hsame : ∀ {a}, Owned h' q a → h'.objs a = h.objs a := by
    rintro a ⟨obj, hobj, rfl⟩
    rw [hobj, (hkept a obj hne).mpr hobj]
  have howned : ∀ {a}, Owned h q a ↔ Owned h' q a := by
    intro a
    refine exists_congr fun obj => and_congr_left ?_
    rintro rfl
    exact hkept a obj hne
  intro a ha
  obtain ⟨chain, hl, hmem⟩ := hc a (howned.mpr ha)
  refine ⟨chain, hl.congr fun b hb => ?_, fun b hb => howned.mp (hmem b hb)⟩
  unfold ObjHeap.nextOf
  rw [hsame (howned.mp (hmem b hb))]

/-- An object of `p` is linked to a list of objects of `p` that does not have it. -/
theorem Chained.set (hc : Chained h p) {obj' : PooledObj} (hobj : h.objs a = some obj)
    (hown : obj.pool = p) (hown' : obj'.pool = p) (hl : Linked h.nextOf obj'.next available)
    (hmem : ∀ b ∈ available, Owned h p b) (hnot : a ∉ available) :
    Chained (h.set a (some obj')) p := by
  have hnext : (h.set a (some obj')).nextOf = Function.update h.nextOf a obj'.next := by
    funext b
    rcases eq_or_ne b a with rfl | hne
    · rw [ObjHeap.nextOf_of (ObjHeap.set_self _), Function.update_self]
    · rw [Function.update_of_ne hne, ObjHeap.nextOf, ObjHeap.set_of_ne hne, ObjHeap.nextOf]
  have howned : ∀ b, Owned (h.set a (some obj')) p b ↔ Owned h p b := by
    intro b
    rcases eq_or_ne b a with rfl | hne
    · exact iff_of_true ⟨obj', ObjHeap.set_self _, hown'⟩ ⟨obj, hobj, hown⟩
    · unfold Owned
      rw [ObjHeap.set_of_ne hne]
  intro b hb
  obtain ⟨chain, hchain, howns⟩ := hc b ((howned b).mp hb)
  obtain ⟨chain', hchain', hmem'⟩ := hchain.exists_update hl hnot
  rw [hnext]
  refine ⟨chain', hchain', fun c hc => (howned c).mpr ?_⟩
  exact (hmem' c hc).elim (howns c) (hmem c)

/-- An object is changed, and not what it is linked to. -/
theorem Chained.set_same (hc : Chained h p) {obj' : PooledObj} (hobj : h.objs a = some obj)
    (hown : obj.pool = p) (hown' : obj'.pool = p) (hnext : obj'.next = obj.next) :
    Chained (h.set a (some obj')) p := by
  obtain ⟨chain, hl, hmem⟩ := hc a ⟨obj, hobj, hown⟩
  cases chain with
  | nil => cases hl
  | cons b rest =>
    have hnot : b ∉ rest := (List.nodup_cons.mp hl.nodup).1
    obtain ⟨hfirst, hrest⟩ := hl
    cases hfirst
    rw [ObjHeap.nextOf_of hobj, ← hnext] at hrest
    exact hc.set hobj hown hown' hrest (fun b hb => hmem b (List.mem_cons_of_mem a hb)) hnot

theorem PoolLists.owned_of_available (hl : PoolLists h p pool available all) (ha : a ∈ available) :
    Owned h p a :=
  (hl.mem_all a).mp ((hl.mem_available a).mp ha).1

/-- What holds of the objects of a pool while it grows. -/
structure Growing (p : PoolAddr) (h : ObjHeap) (pool : ObjPool) : Prop where
  given : Given h
  chained : Chained h p
  first : ∀ a, pool.availableObjects = some a → Owned h p a

theorem PoolLists.growing (hl : PoolLists h p pool available all) (hg : Given h)
    (hc : Chained h p) : Growing p h pool :=
  ⟨hg, hc, fun _ ha => hl.owned_of_available (List.mem_of_mem_head? (hl.linked.head?.trans ha))⟩

theorem Growing.added (hgrowing : Growing p h pool) :
    Growing p (addedHeap h p pool) (addedPool h pool) := by
  have hself : (addedHeap h p pool).objs h.fresh = some
      { next := pool.availableObjects, allNext := pool.allObjects, pool := p,
        allocated := false } := ObjHeap.set_self _
  have hother : ∀ {a}, a ≠ h.fresh → (addedHeap h p pool).objs a = h.objs a :=
    fun hne => ObjHeap.set_of_ne hne _
  have hne : ∀ {a}, Owned h p a → a ≠ h.fresh := by
    rintro a ⟨obj, hobj, -⟩ rfl
    rw [hgrowing.given h.fresh (Nat.le_refl _)] at hobj
    cases hobj
  have howned : ∀ {a}, Owned h p a → Owned (addedHeap h p pool) p a := by
    intro a ha
    have hsame := hother (hne ha)
    unfold Owned
    rw [hsame]
    exact ha
  have hkept : ∀ {next chain}, Linked h.nextOf next chain → (∀ b ∈ chain, Owned h p b) →
      Linked (addedHeap h p pool).nextOf next chain := by
    intro next chain hl hmem
    refine hl.congr fun b hb => ?_
    unfold ObjHeap.nextOf
    rw [hother (hne (hmem b hb))]
  have hfresh : Owned (addedHeap h p pool) p h.fresh := ⟨_, hself, rfl⟩
  refine ⟨hgrowing.given.added, fun a ha => ?_, fun a ha => ?_⟩
  · rcases eq_or_ne a h.fresh with rfl | hold
    · cases havailable : pool.availableObjects with
      | none =>
        refine ⟨[h.fresh], ⟨rfl, ?_⟩, List.forall_mem_singleton.mpr hfresh⟩
        exact (ObjHeap.nextOf_of hself).trans havailable
      | some b =>
        obtain ⟨chain, hl, hmem⟩ := hgrowing.chained b (hgrowing.first b havailable)
        refine ⟨h.fresh :: chain, ⟨rfl, ?_⟩,
          List.forall_mem_cons.mpr ⟨hfresh, fun c hc => howned (hmem c hc)⟩⟩
        rw [ObjHeap.nextOf_of hself, havailable]
        exact hkept hl hmem
    · unfold Owned at ha
      rw [hother hold] at ha
      obtain ⟨chain, hl, hmem⟩ := hgrowing.chained a ha
      exact ⟨chain, hkept hl hmem, fun c hc => howned (hmem c hc)⟩
  · cases ha
    exact hfresh

theorem increaseLoop_growing {n : Nat} (hgrowing : Growing p h pool) :
    Growing p (increaseLoop malloc p n h pool).2.1 (increaseLoop malloc p n h pool).2.2 := by
  induction n generalizing h pool with
  | zero => exact hgrowing
  | succ n ih =>
    rw [increaseLoop]
    by_cases hm : malloc n = true
    · rw [if_pos hm]
      exact ih hgrowing.added
    · rw [if_neg hm]
      exact hgrowing

theorem objPoolIncreaseSizeTo_growing (malloc : Nat → Bool) (newSize : Nat)
    (hgrowing : Growing p h pool) :
    Growing p (objPoolIncreaseSizeTo malloc p newSize h pool).2.1
      (objPoolIncreaseSizeTo malloc p newSize h pool).2.2 := by
  unfold objPoolIncreaseSizeTo
  split_ifs
  · exact hgrowing
  · exact hgrowing
  · exact increaseLoop_growing hgrowing
  · exact increaseLoop_growing hgrowing

/-- What holds after any calls: the invariant of the pools, and `next` leads to an end from each
object of a pool. -/
structure ChainedPools (w : PoolWorld) : Prop where
  inv : PoolsInv w
  chained : ∀ p pool, w.pools p = some pool → Chained w.heap p

/-- What holds of the objects of each pool, and is not changed by what happens to other objects,
holds after a call that changes the pool `p` if it does for `p`. -/
theorem forall_setPool {P : ObjHeap → PoolAddr → Prop}
    (hlocal : ∀ {q}, P w.heap q → OthersKept p w.heap h → q ≠ p → P h q) {v : Option ObjPool}
    (hc : ∀ q pool, w.pools q = some pool → P w.heap q) (hkept : OthersKept p w.heap h)
    (hnew : ∀ pool, v = some pool → P h p) :
    ∀ q pool, (w.setPool p h v).pools q = some pool → P h q := by
  intro q pool hpool
  rcases eq_or_ne q p with rfl | hne
  · exact hnew pool (setPool_pools_self.symm.trans hpool)
  · exact hlocal (hc q pool ((setPool_pools_of_ne hne).symm.trans hpool)) hkept hne

theorem offered_growing (malloc : Nat → Bool) (hl : PoolLists w.heap p pool available all)
    (hi : ChainedPools w) (hpool : w.pools p = some pool) :
    Growing p (offered malloc p w.heap pool).2.1 (offered malloc p w.heap pool).2.2 := by
  have hgrowing := hl.growing hi.inv.given (hi.chained p pool hpool)
  unfold offered
  split_ifs
  · exact objPoolIncreaseSizeTo_growing malloc _ hgrowing
  · exact hgrowing

theorem poolStep_chained {call : PoolCall} (hi : ChainedPools w)
    (hstep : poolStep w call = some w') : ChainedPools w' := by
  refine ⟨poolStep_inv hi.inv hstep, ?_⟩
  cases call with
  | init malloc minSize maxSize =>
    cases hstep
    obtain ⟨h, v, heq, -, hothers, -, hlists⟩ := objPoolInit_outcome malloc minSize maxSize hi.inv
    rw [heq]
    refine forall_setPool Chained.others hi.chained hothers fun pool hpool => ?_
    -- the pool that is to come has no objects, so their chains end
    have hnone : Chained w.heap w.freshPool := by
      rintro a ⟨obj, hobj, hown⟩
      exact absurd hown (Nat.ne_of_lt (hi.inv.owner a obj hobj))
    have hgrowing := objPoolIncreaseSizeTo_growing malloc minSize
      ((hi.inv.next_lists maxSize).growing hi.inv.given hnone)
    rw [(hlists pool hpool).1] at hgrowing
    exact hgrowing.chained
  | alloc malloc p =>
    obtain ⟨⟨ret, after⟩, halloc, rfl⟩ := Option.map_eq_some_iff.mp hstep
    obtain ⟨-, heq⟩ | ⟨pool, h, pool', hpool, hoffered, hgrown, houtcome⟩ :=
      objPoolAllocObject_outcome hi.inv malloc p
    · cases halloc.symm.trans heq
      exact hi.chained
    · obtain ⟨available, all, hl⟩ := hi.inv.lists p pool hpool
      have hgrowing := offered_growing malloc hl hi hpool
      rw [hoffered] at hgrowing
      rcases houtcome with heq | ⟨a, obj, havailable, hobj, heq⟩
      · cases halloc.symm.trans heq
        exact forall_setPool Chained.others hi.chained hgrown.others fun _ _ => hgrowing.chained
      · cases halloc.symm.trans heq
        obtain ⟨obj', hobj', hown⟩ := hgrowing.first a havailable
        cases hobj.symm.trans hobj'
        exact forall_setPool Chained.others hi.chained
          (hgrown.others.trans (.set_own hobj hown hown))
          fun _ _ => hgrowing.chained.set_same hobj hown hown rfl
  | put p object =>
    obtain rfl | ⟨pool, a, obj, hpool, rfl, hobj, hown, hallocated, rfl⟩ :=
      objPoolPutObject_cases hstep
    · exact hi.chained
    · obtain ⟨available, all, hl⟩ := hi.inv.lists p pool hpool
      have hnot : a ∉ available := by
        intro hmem
        have hfree := ((hl.mem_available a).mp hmem).2
        rw [ObjHeap.allocated_of hobj, hallocated] at hfree
        cases hfree
      exact forall_setPool Chained.others hi.chained (.set_own hobj hown hown) fun _ _ =>
        (hi.chained p pool hpool).set hobj hown hown hl.linked
          (fun b hb => hl.owned_of_available hb) hnot

theorem noPools_chained : ChainedPools noPools := ⟨noPools_inv, nofun⟩

/-! ### Calls in the order of a stack -/

/-- The objects of `p` are linked by `next` as they are by `all_next`. -/
def SameLinks (h : ObjHeap) (p : PoolAddr) : Prop :=
  ∀ a obj, h.objs a = some obj → obj.pool = p → obj.next = obj.allNext

theorem SameLinks.others (hs : SameLinks h q) (hkept : OthersKept p h h') (hne : q ≠ p) :
    SameLinks h' q := by
  rintro a obj hobj rfl
  exact hs a obj ((hkept a obj hne).mpr hobj) rfl

theorem SameLinks.set (hs : SameLinks h p) {obj' : PooledObj} (hsame : obj'.next = obj'.allNext) :
    SameLinks (h.set a (some obj')) p := by
  intro b obj hobj hown
  rcases eq_or_ne b a with rfl | hne
  · cases (ObjHeap.set_self _).symm.trans hobj
    exact hsame
  · rw [ObjHeap.set_of_ne hne] at hobj
    exact hs b obj hobj hown

/-- The first objects of a pool are linked in both ways in the same order. -/
theorem increaseLoop_sameLinks {n : Nat} (hs : SameLinks h p)
    (hfirst : pool.availableObjects = pool.allObjects) :
    SameLinks (increaseLoop malloc p n h pool).2.1 p := by
  induction n generalizing h pool with
  | zero => exact hs
  | succ n ih =>
    rw [increaseLoop]
    by_cases hm : malloc n = true
    · rw [if_pos hm]
      exact ih (hs.set hfirst) rfl
    · rw [if_neg hm]
      exact hs

theorem objPoolIncreaseSizeTo_sameLinks (malloc : Nat → Bool) (newSize : Nat)
    (hs : SameLinks h p) (hfirst : pool.availableObjects = pool.allObjects) :
    SameLinks (objPoolIncreaseSizeTo malloc p newSize h pool).2.1 p := by
  unfold objPoolIncreaseSizeTo
  split_ifs
  · exact hs
  · exact hs
  · exact increaseLoop_sameLinks hs hfirst
  · exact increaseLoop_sameLinks hs hfirst

/-- A pool that has an available object, or is full, does not grow. -/
theorem offered_of_stack
    (hroom : pool.availableObjects.isSome ∨ pool.maxSize ≠ 0 ∧ pool.maxSize ≤ pool.currSize) :
    (offered malloc p h pool).2 = (h, pool) := by
  unfold offered
  by_cases hnone : pool.availableObjects.isNone = true
  · obtain ⟨hmax, hfull⟩ := hroom.resolve_left fun hsome => by
      rw [Option.isNone_iff_eq_none.mp hnone] at hsome
      cases hsome
    rw [if_pos hnone]
    unfold objPoolIncreaseSizeTo
    by_cases hsmall : grownSize pool.currSize ≤ pool.currSize
    · rw [if_pos hsmall]
    · rw [if_neg hsmall, if_pos ⟨hmax, by omega⟩, if_pos hfull]
  · rw [if_neg hnone]

theorem poolStep_sameLinks {call : PoolCall}
    (hi : PoolsInv w ∧ ∀ p pool, w.pools p = some pool → SameLinks w.heap p)
    (hok : StackCall w call) (hstep : poolStep w call = some w') :
    PoolsInv w' ∧ ∀ p pool, w'.pools p = some pool → SameLinks w'.heap p := by
  obtain ⟨hinv, hsame⟩ := hi
  refine ⟨poolStep_inv hinv hstep, ?_⟩
  cases call with
  | init malloc minSize maxSize =>
    cases hstep
    obtain ⟨h, v, heq, -, hothers, -, hlists⟩ := objPoolInit_outcome malloc minSize maxSize hinv
    rw [heq]
    refine forall_setPool SameLinks.others hsame hothers fun pool hpool => ?_
    have hnone : SameLinks w.heap w.freshPool := by
      intro a obj hobj hown
      exact absurd hown (Nat.ne_of_lt (hinv.owner a obj hobj))
    have hnew : SameLinks (objPoolIncreaseSizeTo malloc w.freshPool minSize w.heap
        ⟨none, none, maxSize, 0, 0⟩).2.1 w.freshPool :=
      objPoolIncreaseSizeTo_sameLinks malloc minSize hnone rfl
    rw [(hlists pool hpool).1] at hnew
    exact hnew
  | alloc malloc p =>
    obtain ⟨⟨ret, after⟩, halloc, rfl⟩ := Option.map_eq_some_iff.mp hstep
    obtain ⟨-, heq⟩ | ⟨pool, h, pool', hpool, hoffered, hgrown, houtcome⟩ :=
      objPoolAllocObject_outcome hinv malloc p
    · cases halloc.symm.trans heq
      exact hsame
    · cases (offered_of_stack (hok pool hpool)).symm.trans hoffered
      rcases houtcome with heq | ⟨a, obj, havailable, hobj, heq⟩
      · cases halloc.symm.trans heq
        exact forall_setPool SameLinks.others hsame hgrown.others fun _ _ => hsame p pool hpool
      · cases halloc.symm.trans heq
        obtain ⟨available, all, hl⟩ := hinv.lists p pool hpool
        obtain ⟨obj', hobj', hown⟩ := hl.owned_of_available
          (List.mem_of_mem_head? (hl.linked.head?.trans havailable))
        cases hobj.symm.trans hobj'
        exact forall_setPool SameLinks.others hsame (.set_own hobj hown hown) fun _ _ =>
          (hsame p pool hpool).set (hsame p pool hpool a obj hobj hown)
  | put p object =>
    obtain rfl | ⟨pool, a, obj, hpool, rfl, hobj, hown, hallocated, rfl⟩ :=
      objPoolPutObject_cases hstep
    · exact hsame
    · have hnext := hok pool hpool a rfl obj hobj hown hallocated
      exact forall_setPool SameLinks.others hsame (.set_own hobj hown hown) fun _ _ =>
        (hsame p pool hpool).set (hnext.symm.trans (hsame p pool hpool a obj hobj hown))

theorem SameLinks.onNextChain (hs : SameLinks h p) (hl : PoolLists h p pool available all)
    (ha : Owned h p a) : OnNextChain h pool a := by
  refine ⟨all, hl.allLinked.congr fun b hb => ?_, (hl.mem_all a).mpr ha⟩
  obtain ⟨obj, hobj, hown⟩ := hl.exists_obj hb
  rw [ObjHeap.nextOf_of hobj, ObjHeap.allNextOf_of hobj, hs b obj hobj hown]

/-! ### The reports -/

/-- `next` leads to an end from the first of all objects on. -/
theorem Chained.exists_chain (hc : Chained h p) (hl : PoolLists h p pool available all) :
    ∃ chain, Linked h.nextOf pool.allObjects chain ∧ ∀ b ∈ chain, Owned h p b := by
  cases hfirst : pool.allObjects with
  | none => exact ⟨[], rfl, List.forall_mem_nil _⟩
  | some a =>
    refine hc a ((hl.mem_all a).mp ?_)
    exact List.mem_of_mem_head? (hl.allLinked.head?.trans hfirst)

theorem onNextChain_iff (hl : Linked h.nextOf pool.allObjects chain) :
    OnNextChain h pool a ↔ a ∈ chain := by
  constructor
  · rintro ⟨chain', hl', hmem⟩
    rwa [hl.unique hl']
  · exact fun hmem => ⟨chain, hl, hmem⟩

/-- As many objects have not been put back as the pool counts. -/
theorem PoolLists.exists_unreturned (hl : PoolLists h p pool available all) :
    ∃ objs : List ObjAddr, objs.Nodup ∧ (∀ a, a ∈ objs ↔ Unreturned h p a) ∧
      objs.length = pool.numTravelingObjects := by
  refine ⟨all.filter h.allocated, hl.allNodup.filter _, fun a => ?_, ?_⟩
  · rw [List.mem_filter, hl.mem_all]
    rfl
  · have hcount := length_add_countP hl.nodup hl.allNodup hl.mem_available
    have hsum := hl.traveling
    rw [← List.countP_eq_length_filter]
    omega

/-- Two lists of the objects that have not been put back are of one length. -/
theorem length_unreturned {objs objs' : List ObjAddr} (hnodup : objs.Nodup)
    (hmem : ∀ a, a ∈ objs ↔ Unreturned h p a) (hnodup' : objs'.Nodup)
    (hmem' : ∀ a, a ∈ objs' ↔ Unreturned h p a) : objs.length = objs'.length :=
  ((List.perm_ext_iff_of_nodup hnodup hnodup').mpr fun a => (hmem a).trans (hmem' a).symm).length_eq

theorem not_walkRight {n k : Nat} {objs : List ObjAddr} (ha : Unreturned w.heap p a)
    (hwalk : ∀ fuel ≥ n, objPoolWalk fuel w p true = some (k, objs)) (hnot : a ∉ objs) :
    ¬WalkRight w p := by
  rintro ⟨called, -, hcalled, enough, hright⟩
  have hsame := (hright _ (Nat.le_max_left enough n) true).symm.trans
    (hwalk _ (Nat.le_max_right enough n))
  obtain rfl : called = objs := (Prod.mk.inj (Option.some.inj hsame)).2
  exact hnot ((hcalled a).mpr ha)

theorem walkRight_iff (hi : ChainedPools w) (hpool : w.pools p = some pool) :
    WalkRight w p ↔ ∀ a, Unreturned w.heap p a → OnNextChain w.heap pool a := by
  obtain ⟨available, all, hl⟩ := hi.inv.lists p pool hpool
  obtain ⟨chain, hchain, howned⟩ := (hi.chained p pool hpool).exists_chain hl
  obtain ⟨objs, hnodup, hmem, hlength⟩ := hl.exists_unreturned
  rcases Nat.eq_zero_or_pos pool.numTravelingObjects with hzero | hpos
  · obtain rfl : objs = [] := List.length_eq_zero_iff.mp (hlength.trans hzero)
    refine iff_of_true ⟨[], List.nodup_nil, hmem, 0, fun fuel _ cb => ?_⟩ fun a ha => ?_
    · unfold objPoolWalk
      rw [hpool]
      simp only [hzero, gt_iff_lt, Nat.lt_irrefl, if_false, List.length_nil, ite_self]
    · exact absurd ((hmem a).mpr ha) List.not_mem_nil
  · have hwalk : ∀ fuel ≥ chain.length, ∀ cb, objPoolWalk fuel w p cb =
        some ((chain.filter w.heap.allocated).length,
          if cb then chain.filter w.heap.allocated else []) := by
      intro fuel hfuel cb
      unfold objPoolWalk
      rw [hpool]
      simp only [gt_iff_lt, if_pos hpos]
      rw [walkLoop_linked hchain (fun a ha => (howned a ha).imp fun _ hobj => hobj.1) hfuel,
        Nat.zero_add, List.nil_append]
    constructor
    · rintro ⟨called, -, hcalled, enough, hright⟩ a ha
      have hsame := (hwalk _ (Nat.le_max_right enough chain.length) true).symm.trans
        (hright _ (Nat.le_max_left enough chain.length) true)
      simp only [Option.some.injEq, Prod.mk.injEq, if_true] at hsame
      have hin := (hcalled a).mpr ha
      rw [← hsame.2] at hin
      exact (onNextChain_iff hchain).mpr (List.mem_filter.mp hin).1
    · intro hall
      refine ⟨chain.filter w.heap.allocated, hchain.nodup.filter _, fun a => ?_, chain.length,
        hwalk⟩
      rw [List.mem_filter]
      constructor
      · exact fun hin => ⟨howned a hin.1, hin.2⟩
      · exact fun ha => ⟨(onNextChain_iff hchain).mp (hall a ha), ha.2⟩

/-- What `obj_pool_destroy` does with the objects that are left. -/
theorem objPoolDestroy_linked (hi : ChainedPools w) (hpool : w.pools p = some pool)
    (hchain : Linked w.heap.nextOf pool.allObjects chain) (howned : ∀ b ∈ chain, Owned w.heap p b)
    (callback : Bool) :
    ∃ enough, ∀ fuel ≥ enough, ∃ w', objPoolDestroy fuel w p callback =
      if pool.numTravelingObjects ≠ 0 ∧ callback = true then
        if chain.all w.heap.allocated then some (pool.numTravelingObjects, chain, w') else none
      else some (pool.numTravelingObjects, [], w') := by
  obtain ⟨available, all, hl⟩ := hi.inv.lists p pool hpool
  refine ⟨max available.length chain.length, fun fuel hfuel => ?_⟩
  have hfree : available.length ≤ fuel := Nat.le_trans (Nat.le_max_left _ _) hfuel
  obtain ⟨hgone, hkept⟩ := destroyLoop_linked hl.linked hl.nodup hfree
  have hless : ∀ a, (destroyLoop fuel w.heap pool.availableObjects).objs a = none ∨
      (destroyLoop fuel w.heap pool.availableObjects).objs a = w.heap.objs a := by
    intro a
    by_cases ha : a ∈ available
    · exact .inl (hgone a ha)
    · exact .inr (hkept a ha)
  -- what is not freed are the allocated objects
  have hleft : ∀ a ∈ chain, ((destroyLoop fuel w.heap pool.availableObjects).objs a).isSome =
      w.heap.allocated a := by
    intro a ha
    obtain ⟨obj, hobj, hown⟩ := howned a ha
    have hall := (hl.mem_all a).mpr ⟨obj, hobj, hown⟩
    by_cases hmem : a ∈ available
    · rw [hgone a hmem, ((hl.mem_available a).mp hmem).2, Option.isSome_none]
    · have hallocated : w.heap.allocated a = true :=
        (Bool.not_eq_false _).mp fun hnot => hmem ((hl.mem_available a).mpr ⟨hall, hnot⟩)
      rw [hkept a hmem, hobj, hallocated, Option.isSome_some]
  have hcallback := callbackLoop_linked hchain
    (fun a ha => (howned a ha).imp fun _ hobj => hobj.1) (fun a _ => hless a)
    (Nat.le_trans (Nat.le_max_right _ _) hfuel)
  have hsame : (chain.all fun a =>
      ((destroyLoop fuel w.heap pool.availableObjects).objs a).isSome) =
        chain.all w.heap.allocated := by
    rw [Bool.eq_iff_iff, List.all_eq_true, List.all_eq_true]
    exact forall₂_congr fun a ha => by rw [hleft a ha]
  rw [hsame] at hcallback
  refine ⟨w.setPool p (destroyLoop fuel w.heap pool.availableObjects) none, ?_⟩
  unfold objPoolDestroy
  rw [hpool]
  simp only
  rw [freeLoop_linked hl.linked hl.nodup
    (fun a ha => (hl.owned_of_available ha).imp fun _ hobj => hobj.1) hfree, Option.bind_some,
    hcallback]
  split_ifs
  · rfl
  · rfl
  · rfl

theorem destroyRight_iff (hi : ChainedPools w) (hpool : w.pools p = some pool) (callback : Bool) :
    DestroyRight w p callback ↔ (callback = true → (∃ a, Unreturned w.heap p a) →
      ∀ a, Unreturned w.heap p a ↔ OnNextChain w.heap pool a) := by
  obtain ⟨available, all, hl⟩ := hi.inv.lists p pool hpool
  obtain ⟨chain, hchain, howned⟩ := (hi.chained p pool hpool).exists_chain hl
  obtain ⟨objs, hnodup, hmem, hlength⟩ := hl.exists_unreturned
  obtain ⟨enough, hdestroy⟩ := objPoolDestroy_linked hi hpool hchain howned callback
  by_cases hcalls : pool.numTravelingObjects ≠ 0 ∧ callback = true
  · simp only [if_pos hcalls] at hdestroy
    obtain ⟨hne, rfl⟩ := hcalls
    have hsome : ∃ a, Unreturned w.heap p a := by
      obtain ⟨a, ha⟩ := List.exists_mem_of_length_pos (hlength ▸ Nat.pos_of_ne_zero hne)
      exact ⟨a, (hmem a).mp ha⟩
    constructor
    · rintro ⟨called, -, hcalled, enough', hright⟩ - - a
      obtain ⟨w₁, hright⟩ := hright _ (Nat.le_max_left enough' enough)
      obtain ⟨w₂, heq⟩ := hdestroy _ (Nat.le_max_right enough' enough)
      rw [hright, if_pos rfl] at heq
      by_cases hall : chain.all w.heap.allocated = true
      · rw [if_pos hall] at heq
        obtain rfl : called = chain := (Prod.mk.inj (Prod.mk.inj (Option.some.inj heq)).2).1
        rw [onNextChain_iff hchain, hcalled]
      · rw [if_neg hall] at heq
        cases heq
    · intro hchained
      have hmem' : ∀ a, a ∈ chain ↔ Unreturned w.heap p a :=
        fun a => ((hchained rfl hsome a).trans (onNextChain_iff hchain)).symm
      have hall : chain.all w.heap.allocated = true :=
        List.all_eq_true.mpr fun a ha => ((hmem' a).mp ha).2
      refine ⟨chain, hchain.nodup, hmem', enough, fun fuel hfuel => ?_⟩
      obtain ⟨w', heq⟩ := hdestroy fuel hfuel
      refine ⟨w', heq.trans ?_⟩
      rw [if_pos hall, if_pos rfl, ← hlength, length_unreturned hnodup hmem hchain.nodup hmem']
  · simp only [if_neg hcalls] at hdestroy
    refine iff_of_true ⟨objs, hnodup, hmem, enough, fun fuel hfuel => ?_⟩ ?_
    · obtain ⟨w', heq⟩ := hdestroy fuel hfuel
      refine ⟨w', heq.trans ?_⟩
      rw [hlength]
      by_cases hcallback : callback = true
      · have hzero := not_not.mp fun hne => hcalls ⟨hne, hcallback⟩
        obtain rfl : objs = [] := List.length_eq_zero_iff.mp (hlength.trans hzero)
        rw [ite_self]
      · rw [if_neg hcallback]
    · rintro hcallback ⟨a, ha⟩
      have hpos := List.length_pos_of_mem ((hmem a).mpr ha)
      exact absurd ⟨by omega, hcallback⟩ hcalls

end

/-- After any calls the walk and the destruction of a pool report the objects that have not been put
back if and only if `next` leads from the first of all objects to each of these, and, where there is
one of them and a callback for `obj_pool_destroy`, to no other object. While no pool grows and
objects are put back in the order of a stack the walk is right. -/
theorem poolReports_iff {calls : List PoolCall} {w : PoolWorld} {p : PoolAddr} {pool : ObjPool}
    (callback : Bool) (hrun : exec poolStep noPools calls = some w)
    (hpool : w.pools p = some pool) :
    (WalkRight w p ∧ DestroyRight w p callback ↔
      (∀ a, Unreturned w.heap p a → OnNextChain w.heap pool a) ∧
        (callback = true → (∃ a, Unreturned w.heap p a) →
          ∀ a, OnNextChain w.heap pool a → Unreturned w.heap p a)) ∧
      (Along poolStep StackCall noPools calls → WalkRight w p) := by
  have hi : ChainedPools w := exec_inv poolStep_chained noPools_chained hrun
  rw [walkRight_iff hi hpool, destroyRight_iff hi hpool]
  refine ⟨and_congr_right fun hall => ?_, fun hstack => ?_⟩
  · refine forall₃_congr fun _ _ a => ?_
    exact ⟨fun hiff => hiff.mpr, fun hback => ⟨hall a, hback⟩⟩
  · obtain ⟨-, hsame⟩ := exec_along poolStep_sameLinks ⟨noPools_inv, nofun⟩ hstack hrun
    obtain ⟨available, all, hl⟩ := hi.inv.lists p pool hpool
    exact fun a ha => (hsame p pool hpool).onNextChain hl ha.1

/-- Two objects are allocated and put back in the order of a stack, one of them again. -/
theorem poolReports_stack : ∃ w pool, exec poolStep noPools
      [.init (fun _ => true) 2 0, .alloc (fun _ => true) 0, .alloc (fun _ => true) 0,
        .put 0 (some 0), .alloc (fun _ => true) 0] = some w ∧ w.pools 0 = some pool ∧
    WalkRight w 0 := by
  obtain ⟨pool, hsome⟩ := Option.isSome_iff_exists.mp (show ((exec poolStep noPools
      [.init (fun _ => true) 2 0, .alloc (fun _ => true) 0, .alloc (fun _ => true) 0,
        .put 0 (some 0), .alloc (fun _ => true) 0]).bind fun w => w.pools 0).isSome by decide)
  obtain ⟨w, hrun, hpool⟩ := Option.bind_eq_some_iff.mp hsome
  exact ⟨w, pool, hrun, hpool, (poolReports_iff false hrun hpool).2 (by decide)⟩

/-- Of two objects the one that was allocated first is put back. The walk does not find the other,
and the destruction goes on from the one that it has freed. -/
theorem poolReports_lost : ∃ w, exec poolStep noPools
      [.init (fun _ => true) 2 0, .alloc (fun _ => true) 0, .alloc (fun _ => true) 0,
        .put 0 (some 1)] = some w ∧
    Unreturned w.heap 0 0 ∧ ¬WalkRight w 0 ∧ ∀ fuel, objPoolDestroy fuel w 0 true = none := by
  refine ⟨_, rfl, ⟨⟨_, rfl, rfl⟩, rfl⟩, ?_, ?_⟩
  · refine not_walkRight (a := 0) (n := 1) (k := 0) ⟨⟨_, rfl, rfl⟩, rfl⟩ ?_ List.not_mem_nil
    rintro (_ | _ | fuel) hfuel
    · exact absurd hfuel (by decide)
    · rfl
    · rfl
  · rintro (_ | _ | fuel)
    · rfl
    · rfl
    · rfl

end Dwpal.Ipc
