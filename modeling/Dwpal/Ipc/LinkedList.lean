import Dwpal.Ipc.ObjPool

/-! The linked lists of `wv_ipc/linked_list.c`, whose nodes are objects of a pool, with the loops of
`linked_list.h` over them. -/

namespace Dwpal.Ipc

open Machine Chain

variable {α : Type*}

/-- `node`, which is the data of an object of the pool. -/
structure ListNode (α : Type*) where
  obj : α
  next : Option ObjAddr

/-- An `l_list`, with the pools and the nodes in memory. -/
structure ListWorld (α : Type*) where
  pools : PoolWorld
  nodes : ObjAddr → Option (ListNode α)
  nodePool : PoolAddr
  first : Option ObjAddr
  last : Option ObjAddr
  size : Nat

namespace ListWorld

def nextOf (l : ListWorld α) (a : ObjAddr) : Option ObjAddr := (l.nodes a).bind ListNode.next

def objOf (l : ListWorld α) (a : ObjAddr) : Option α := (l.nodes a).map ListNode.obj

def setNode (l : ListWorld α) (a : ObjAddr) (node : ListNode α) : ListWorld α :=
  { l with nodes := Function.update l.nodes a (some node) }

def setNext (l : ListWorld α) (a : ObjAddr) (next : Option ObjAddr) : ListWorld α :=
  { l with
    nodes := Function.update l.nodes a ((l.nodes a).map fun node => { node with next := next }) }

/-- The pointer to the node behind `prev`, or to the first node, is set. -/
def relink (l : ListWorld α) (prev next : Option ObjAddr) : ListWorld α :=
  match prev with
  | some prev => l.setNext prev next
  | none => { l with first := next }

/-- A node is asked for. -/
def allocNode (malloc : Nat → Bool) (l : ListWorld α) : Option (Option ObjAddr × ListWorld α) :=
  (objPoolAllocObject malloc l.pools l.nodePool).map fun (n, pools) =>
    (n, { l with pools := pools })

/-- A node is put back. -/
def putNode (l : ListWorld α) (a : ObjAddr) : Option (ListWorld α) :=
  (objPoolPutObject l.pools l.nodePool (some a)).map fun pools => { l with pools := pools }

end ListWorld

open ListWorld

/-- `list_init`, with a `malloc` for the list that succeeds. -/
def listInit (malloc : Nat → Bool) (pools : PoolWorld) : Option (ListWorld α) :=
  let pools' := objPoolInit malloc 4 0 pools
  if (pools'.pools pools.freshPool).isSome then
    some ⟨pools', fun _ => none, pools.freshPool, none, none, 0⟩
  else none

/-- `list_push_front`: whether it fails, and the list. There is no result where it uses memory that
is not there. -/
def listPushFront (malloc : Nat → Bool) (obj : Option α) (l : ListWorld α) :
    Option (Bool × ListWorld α) :=
  match obj with
  | none => some (true, l)
  | some obj =>
    (l.allocNode malloc).map fun
      | (none, l) => (true, l)
      | (some n, l) =>
        (false, { l.setNode n ⟨obj, l.first⟩ with
          first := some n
          last := if l.last = none then some n else l.last
          size := l.size + 1 })

/-- `list_push_back`. -/
def listPushBack (malloc : Nat → Bool) (obj : Option α) (l : ListWorld α) :
    Option (Bool × ListWorld α) :=
  match obj, l.last with
  | none, _ => some (true, l)
  | some obj, none => listPushFront malloc (some obj) l
  | some obj, some last =>
    (l.allocNode malloc).map fun
      | (none, l) => (true, l)
      | (some n, l) =>
        (false, { (l.setNode n ⟨obj, none⟩).setNext last (some n) with
          last := some n
          size := l.size + 1 })

/-- `list_pop_front`. -/
def listPopFront (l : ListWorld α) : Option (Option α × ListWorld α) :=
  match l.first with
  | none => some (none, l)
  | some n =>
    match l.nodes n with
    | none => none
    | some node =>
      let l := { l with first := node.next, size := l.size - 1 }
      let l := { l with last := if l.first = none then none else l.last }
      (l.putNode n).map fun l => (some node.obj, l)

/-- `list_foreach_remove_current_entry`, without the move of `__curr`. -/
def removeCurrent (l : ListWorld α) (prev : Option ObjAddr) (curr : ObjAddr) :
    Option (ListWorld α) :=
  let l := l.relink prev (l.nextOf curr)
  let l := { l with last := if l.last = some curr then prev else l.last }
  (l.putNode curr).map fun l => { l with size := l.size - 1 }

/-- `list_foreach_insert_before_current`: `__err`, and the list. -/
def insertBeforeCurrent (malloc : Nat → Bool) (obj : α) (l : ListWorld α) (prev : Option ObjAddr)
    (curr : ObjAddr) : Option (Bool × ListWorld α) :=
  (l.allocNode malloc).map fun
    | (none, l) => (true, l)
    | (some n, l) =>
      let l := (l.setNode n ⟨obj, some curr⟩).relink prev (some n)
      (false, { l with size := l.size + 1 })

/-- What the body of a loop does with the current element, and whether it leaves the loop. -/
inductive ForeachAction (α : Type*) where
  | keep
  | remove
  | removeLeave
  | insertLeave (malloc : Nat → Bool) (obj : α)
  | leave

/-- How a loop ended. -/
inductive LoopExit where
  | finished
  | removed
  | inserted (err : Bool)
  | left
deriving DecidableEq

/-- A loop between `list_foreach_start` and `list_foreach_end`: the elements that it visited, how it
ended, and the list. The body sees what was visited before. -/
def foreachLoop (body : List α → α → ForeachAction α) : (fuel : Nat) → (visited : List α) →
    (prev curr : Option ObjAddr) → ListWorld α → Option (List α × LoopExit × ListWorld α)
  | 0, _, _, _, _ => none
  | _, visited, _, none, l => some (visited, .finished, l)
  | fuel + 1, visited, prev, some curr, l =>
    match l.nodes curr with
    | none => none
    | some node =>
      match body visited node.obj with
      | .keep => foreachLoop body fuel (visited ++ [node.obj]) (some curr) node.next l
      | .remove =>
        (removeCurrent l prev curr).bind fun l =>
          foreachLoop body fuel (visited ++ [node.obj]) prev node.next l
      | .removeLeave =>
        (removeCurrent l prev curr).map fun l => (visited ++ [node.obj], .removed, l)
      | .insertLeave malloc obj =>
        (insertBeforeCurrent malloc obj l prev curr).map fun (err, l) =>
          (visited ++ [node.obj], .inserted err, l)
      | .leave => some (visited ++ [node.obj], .left, l)

/-- The body of the loop in `list_remove`. -/
def removeBody [DecidableEq α] (obj : α) (_ : List α) (iterObj : α) : ForeachAction α :=
  if iterObj = obj then .removeLeave else .keep

/-- `list_remove`. -/
def listRemove [DecidableEq α] (fuel : Nat) (obj : Option α) (l : ListWorld α) :
    Option (Bool × ListWorld α) :=
  match obj with
  | none => some (true, l)
  | some obj =>
    (foreachLoop (removeBody obj) fuel [] none l.first l).map fun (_, exit, l) =>
      (exit != .removed, l)

/-- A call, or a loop. -/
inductive ListCall (α : Type*) where
  | pushFront (malloc : Nat → Bool) (obj : Option α)
  | pushBack (malloc : Nat → Bool) (obj : Option α)
  | popFront
  | remove (obj : Option α)
  | foreach (body : List α → α → ForeachAction α)

/-- What a call returns. -/
inductive ListRet (α : Type*) where
  | code (failed : Bool)
  | obj (obj : Option α)
  | loop (visited : List α) (exit : LoopExit)

/-! The sequence that a list stands for. -/

/-- A sequence, and the number of nodes that the pool of its list has. -/
structure SeqList (α : Type*) where
  items : List α
  nodes : Nat

/-- No node can be taken: each of the `nodes` nodes is in use, and the growth that is needed
fails. -/
def NoNode (malloc : Nat → Bool) (used nodes : Nat) : Prop :=
  nodes ≤ used ∧ (grownSize nodes ≤ nodes ∨ ∃ n < grownSize nodes - nodes, malloc n = false)

/-- A node is asked for where `used` of `nodes` nodes are in use: whether there is one, and how many
nodes there are then. -/
def takeNode (malloc : Nat → Bool) (used nodes : Nat) : Bool × Nat :=
  if used < nodes then (true, nodes)
  else
    let missing := grownSize nodes - nodes
    let got := roundsBeforeFailure malloc missing
    (decide (0 < missing ∧ got = missing), nodes + got)

/-- An element is put at a place of the sequence: whether that fails, and the sequence. -/
def SeqList.push (place : List α → α → List α) (malloc : Nat → Bool) (obj : Option α)
    (s : SeqList α) : Bool × SeqList α :=
  match obj with
  | none => (true, s)
  | some x =>
    match takeNode malloc s.items.length s.nodes with
    | (false, nodes) => (true, ⟨s.items, nodes⟩)
    | (true, nodes) => (false, ⟨place s.items x, nodes⟩)

/-- A loop over a sequence, where `used` of `nodes` nodes are in use: the elements that it visits,
how it ends, the sequence after it, and the number of nodes. -/
def foreachSeq (body : List α → α → ForeachAction α) : (used nodes : Nat) → (visited : List α) →
    List α → List α × LoopExit × List α × Nat
  | _, nodes, visited, [] => (visited, .finished, [], nodes)
  | used, nodes, visited, x :: xs =>
    match body visited x with
    | .keep =>
      let (all, exit, xs, nodes) := foreachSeq body used nodes (visited ++ [x]) xs
      (all, exit, x :: xs, nodes)
    | .remove => foreachSeq body (used - 1) nodes (visited ++ [x]) xs
    | .removeLeave => (visited ++ [x], .removed, xs, nodes)
    | .insertLeave malloc y =>
      match takeNode malloc used nodes with
      | (false, nodes) => (visited ++ [x], .inserted true, x :: xs, nodes)
      | (true, nodes) => (visited ++ [x], .inserted false, y :: x :: xs, nodes)
    | .leave => (visited ++ [x], .left, x :: xs, nodes)

/-- The list stands for the sequence: from `first` on the nodes have its elements, `first` and
`last` are its ends, and `size` is its length. -/
structure Represents (l : ListWorld α) (xs : List α) : Prop where
  forward : ∃ cells, Linked l.nextOf l.first cells ∧ cells.map l.objOf = xs.map some
  first : l.first.bind l.objOf = xs.head?
  last : l.last.bind l.objOf = xs.getLast?
  size : l.size = xs.length

/-- `Represents` with the nodes, which are all different and are taken from the pool. -/
structure ListRep (l : ListWorld α) (cells : List ObjAddr) (xs : List α) : Prop where
  pools : PoolsInv l.pools
  linked : Linked l.nextOf l.first cells
  nodup : cells.Nodup
  values : cells.map l.objOf = xs.map some
  taken : ∀ c ∈ cells, l.pools.heap.Taken l.nodePool c
  last : l.last = cells.getLast?
  size : l.size = cells.length

/-- The pool has no limit, and `used` of its `nodes` objects are allocated. -/
def Counted (pools : PoolWorld) (p : PoolAddr) (used nodes : Nat) : Prop :=
  ∃ pool, pools.pools p = some pool ∧ pool.maxSize = 0 ∧ pool.currSize = nodes ∧
    pool.numTravelingObjects = used

/-- The list stands for the sequence, and the nodes that are in use are its own. -/
structure ListState (l : ListWorld α) (cells : List ObjAddr) (s : SeqList α) : Prop where
  rep : ListRep l cells s.items
  counted : Counted l.pools l.nodePool cells.length s.nodes

section Calls

variable [DecidableEq α]

def listStep (fuel : Nat) (l : ListWorld α) : ListCall α → Option (ListRet α × ListWorld α)
  | .pushFront malloc obj => (listPushFront malloc obj l).map fun (failed, l) => (.code failed, l)
  | .pushBack malloc obj => (listPushBack malloc obj l).map fun (failed, l) => (.code failed, l)
  | .popFront => (listPopFront l).map fun (obj, l) => (.obj obj, l)
  | .remove obj => (listRemove fuel obj l).map fun (failed, l) => (.code failed, l)
  | .foreach body => (foreachLoop body fuel [] none l.first l).map fun (visited, exit, l) =>
      (.loop visited exit, l)

/-- Calls one after the other: what they return, and the list. -/
def listExec (fuel : Nat) : ListWorld α → List (ListCall α) →
    Option (List (ListRet α) × ListWorld α)
  | l, [] => some ([], l)
  | l, call :: calls =>
    (listStep fuel l call).bind fun (ret, l) =>
      (listExec fuel l calls).map fun (rets, l) => (ret :: rets, l)

/-- A call that is applied to a sequence: what it returns, and the sequence. -/
def seqStep (s : SeqList α) : ListCall α → ListRet α × SeqList α
  | .pushFront malloc obj =>
    let (failed, s) := s.push (fun xs x => x :: xs) malloc obj
    (.code failed, s)
  | .pushBack malloc obj =>
    let (failed, s) := s.push (fun xs x => xs ++ [x]) malloc obj
    (.code failed, s)
  | .popFront => (.obj s.items.head?, ⟨s.items.tail, s.nodes⟩)
  | .remove none => (.code true, s)
  | .remove (some x) => (.code (decide (x ∉ s.items)), ⟨s.items.erase x, s.nodes⟩)
  | .foreach body =>
    let (visited, exit, items, nodes) := foreachSeq body s.items.length s.nodes [] s.items
    (.loop visited exit, ⟨items, nodes⟩)

/-- Calls that are applied one after the other. -/
def seqRun : SeqList α → List (ListCall α) → List (ListRet α) × SeqList α
  | s, [] => ([], s)
  | s, call :: calls =>
    let (ret, s) := seqStep s call
    let (rets, s) := seqRun s calls
    (ret :: rets, s)

end Calls

section Nodes

variable {l : ListWorld α} {a b : ObjAddr} {node : ListNode α} {next prev : Option ObjAddr}
  {cells before tail tail' : List ObjAddr} {xs : List α}

theorem nextOf_setNode :
    (l.setNode a node).nextOf = Function.update l.nextOf a node.next := by
  funext b
  rcases eq_or_ne b a with rfl | hne
  · simp only [nextOf, setNode, Function.update_self, Option.bind_some]
  · simp only [nextOf, setNode, Function.update_of_ne hne]

theorem objOf_setNode : (l.setNode a node).objOf = Function.update l.objOf a (some node.obj) := by
  funext b
  rcases eq_or_ne b a with rfl | hne
  · simp only [objOf, setNode, Function.update_self, Option.map_some]
  · simp only [objOf, setNode, Function.update_of_ne hne]

theorem nextOf_setNext (h : (l.nodes a).isSome = true) :
    (l.setNext a next).nextOf = Function.update l.nextOf a next := by
  obtain ⟨node, hnode⟩ := Option.isSome_iff_exists.mp h
  funext b
  rcases eq_or_ne b a with rfl | hne
  · simp only [nextOf, setNext, Function.update_self, hnode, Option.map_some, Option.bind_some]
  · simp only [nextOf, setNext, Function.update_of_ne hne]

@[simp] theorem objOf_setNext : (l.setNext a next).objOf = l.objOf := by
  funext b
  rcases eq_or_ne b a with rfl | hne
  · simp only [objOf, setNext, Function.update_self, Option.map_map]
    rfl
  · simp only [objOf, setNext, Function.update_of_ne hne]

@[simp] theorem relink_pools : (l.relink prev next).pools = l.pools := by
  cases prev <;> rfl

@[simp] theorem relink_nodePool : (l.relink prev next).nodePool = l.nodePool := by
  cases prev <;> rfl

@[simp] theorem relink_last : (l.relink prev next).last = l.last := by
  cases prev <;> rfl

@[simp] theorem relink_size : (l.relink prev next).size = l.size := by
  cases prev <;> rfl

@[simp] theorem objOf_relink : (l.relink prev next).objOf = l.objOf := by
  cases prev with
  | none => rfl
  | some a => exact objOf_setNext

/-- The nodes up to a place are linked to another end of the list. -/
theorem linked_relink (hlinked : Linked l.nextOf l.first (before ++ tail)) (hnodup : before.Nodup)
    (hnodes : ∀ c ∈ before, (l.nodes c).isSome = true) (hnot : ∀ c ∈ before, c ∉ tail')
    (htail : Linked l.nextOf next tail') :
    Linked (l.relink before.getLast? next).nextOf (l.relink before.getLast? next).first
      (before ++ tail') := by
  cases hlast : before.getLast? with
  | none =>
    obtain rfl := List.getLast?_eq_none_iff.mp hlast
    exact htail
  | some b =>
    have hmem := List.mem_of_getLast? hlast
    change Linked (l.setNext b next).nextOf l.first (before ++ tail')
    rw [nextOf_setNext (hnodes b hmem)]
    exact hlinked.splice hlast hnodup (hnot b hmem) htail

end Nodes

section Operations

variable {l l' : ListWorld α} {malloc : Nat → Bool} {cells before after : List ObjAddr}
  {s : SeqList α} {xs ys zs : List α} {x y : α} {c n : ObjAddr} {nodes : Nat}

/-- Nodes with values are in memory. -/
theorem isSome_of_values (h : cells.map l.objOf = xs.map some) :
    ∀ c ∈ cells, (l.nodes c).isSome = true := by
  intro c hc
  have hmem : l.objOf c ∈ xs.map some := h ▸ List.mem_map_of_mem hc
  obtain ⟨x, -, hx⟩ := List.mem_map.mp hmem
  rw [objOf] at hx
  cases hnode : l.nodes c with
  | some node => rfl
  | none =>
    rw [hnode] at hx
    cases hx

theorem ListRep.length (h : ListRep l cells xs) : cells.length = xs.length := by
  have hlength := congrArg List.length h.values
  rwa [List.length_map, List.length_map] at hlength

/-- The memory of the pools changes, but the nodes stay allocated. -/
theorem ListRep.setPools {pools : PoolWorld} (h : ListRep l cells xs) (hpools : PoolsInv pools)
    (htaken : ∀ c ∈ cells, pools.heap.Taken l.nodePool c) :
    ListRep { l with pools := pools } cells xs :=
  ⟨hpools, h.linked, h.nodup, h.values, htaken, h.last, h.size⟩

theorem takeNode_fails (malloc : Nat → Bool) (used nodes : Nat) :
    (takeNode malloc used nodes).1 = false ↔ NoNode malloc used nodes := by
  rw [NoNode, takeNode]
  by_cases hfree : used < nodes
  · rw [if_pos hfree]
    exact iff_of_false Bool.noConfusion fun hfail => absurd hfail.1 (Nat.not_le.mpr hfree)
  · rw [if_neg hfree, and_iff_right (Nat.not_lt.mp hfree)]
    simp only [decide_eq_false_iff_not, not_and_or, roundsBeforeFailure_eq, not_forall, Nat.not_lt,
      Nat.le_zero, Nat.sub_eq_zero_iff_le, Bool.not_eq_true, exists_prop]

/-- A node is asked for: it is none of the list, and it is there when a node can be taken. -/
theorem ListState.alloc (h : ListState l cells s) (malloc : Nat → Bool) :
    ∃ ret pools nodes, l.allocNode malloc = some (ret, { l with pools := pools }) ∧
      takeNode malloc s.items.length s.nodes = (ret.isSome, nodes) ∧
      ListRep { l with pools := pools } cells s.items ∧
      Counted pools l.nodePool (cells.length + ret.isSome.toNat) nodes ∧
      ∀ n ∈ ret, n ∉ cells ∧ pools.heap.Taken l.nodePool n := by
  obtain ⟨ret, pools, halloc, hinv, hret⟩ := objPoolAllocObject_cases h.rep.pools malloc l.nodePool
  obtain ⟨pool, hpool, hmax, hnodes, hused⟩ := h.counted
  obtain ⟨pool', hpool', hmax', htraveling, hsize⟩ := objPoolAllocObject_counts hpool halloc
  obtain ⟨available, all, hl⟩ := h.rep.pools.lists _ pool hpool
  have hnone : pool.availableObjects = none ↔ ¬ s.items.length < s.nodes := by
    have hsum := hl.traveling
    rw [← hl.linked.head?, List.head?_eq_none_iff, ← List.length_eq_zero_iff, ← h.rep.length]
    have hall := hl.currSize
    omega
  refine ⟨ret, pools, pool'.currSize, by
    rw [allocNode, halloc]; rfl, ?_, h.rep.setPools hinv fun c hc => ?_,
    ⟨pool', hpool', hmax'.trans hmax, rfl, by rw [htraveling, hused]⟩, fun n hn => ?_⟩
  · have hfails := objPoolAllocObject_none hpool halloc
    rw [hsize, offered_currSize, sizeAllowed, if_pos hmax, hnodes]
    rw [Exhausted, hnone, Nat.not_lt, sizeAllowed, if_pos hmax, hnodes, ← NoNode, ← takeNode_fails]
      at hfails
    refine Prod.ext ?_ ?_
    · rw [Bool.eq_iff_iff, Option.isSome_iff_ne_none, ne_eq, hfails, Bool.not_eq_false]
    · simp only [takeNode, hnone]
      split_ifs <;> rfl
  · exact objPoolAllocObject_kept h.rep.pools halloc (h.rep.taken c hc)
  · obtain ⟨hfree, htaken⟩ := hret n hn
    refine ⟨fun hmem => ?_, htaken⟩
    rw [(h.rep.taken n hmem).allocated] at hfree
    cases hfree

/-- A node that is put back is not missed by a list without it. -/
theorem ListRep.put (h : ListRep l cells xs) (hc : l.pools.heap.Taken l.nodePool c)
    (hnot : c ∉ cells) {used nodes : Nat} (hcounted : Counted l.pools l.nodePool used nodes) :
    ∃ pools, objPoolPutObject l.pools l.nodePool (some c) = some pools ∧
      ListRep { l with pools := pools } cells xs ∧ Counted pools l.nodePool (used - 1) nodes := by
  obtain ⟨obj, hobj, hown, hallocated⟩ := hc
  obtain ⟨pool, hpool, hmax, hnodes, hused⟩ := hcounted
  have hput := objPoolPutObject_eq hpool hobj hown hallocated
  refine ⟨_, hput, h.setPools (objPoolPutObject_inv h.pools hput) fun b hb => ?_,
    _, setPool_pools_self, hmax, hnodes, congrArg (· - 1) hused⟩
  obtain ⟨obj', hobj', htaken⟩ := h.taken b hb
  exact ⟨obj', (ObjHeap.set_of_ne (ne_of_mem_of_not_mem hb hnot) _).trans hobj', htaken⟩

/-- A node is written that is none of the list. -/
theorem ListRep.setNode (h : ListRep l cells xs) (hnot : c ∉ cells) (node : ListNode α) :
    ListRep (l.setNode c node) cells xs where
  pools := h.pools
  linked := nextOf_setNode ▸ h.linked.update hnot node.next
  nodup := h.nodup
  values := by
    rw [← h.values, objOf_setNode]
    exact List.map_congr_left fun b hb => Function.update_of_ne (ne_of_mem_of_not_mem hb hnot) _ _
  taken := h.taken
  last := h.last
  size := h.size

theorem values_split {f : ObjAddr → Option α} (hlen : before.length = xs.length)
    (h : (before ++ after).map f = (xs ++ ys).map some) :
    before.map f = xs.map some ∧ after.map f = ys.map some := by
  rw [List.map_append, List.map_append] at h
  exact List.append_inj h (by rw [List.length_map, List.length_map, hlen])

/-- A node is linked into the list at a place. -/
theorem ListRep.insert (h : ListRep l (before ++ after) (xs ++ ys))
    (hlen : before.length = xs.length)
    (hnot : n ∉ before ++ after) (hnext : l.nextOf n = after.head?) (hvalue : l.objOf n = some y)
    (htaken : l.pools.heap.Taken l.nodePool n) :
    ListRep { l.relink before.getLast? (some n) with
      last := if after = [] then some n else l.last
      size := l.size + 1 } (before ++ n :: after) (xs ++ y :: ys) := by
  obtain ⟨hbefore, hafter, hdisjoint⟩ := List.nodup_append.mp h.nodup
  obtain ⟨hnotBefore, hnotAfter⟩ := not_or.mp (mt List.mem_append.mpr hnot)
  have hnodes := isSome_of_values h.values
  obtain ⟨hvalues, hvalues'⟩ := values_split hlen h.values
  have hlinked := @linked_relink _ l (some n) before after (n :: after) h.linked hbefore
    (fun b hb => hnodes b (List.mem_append_left _ hb))
    (fun b hb hmem => (List.mem_cons.mp hmem).elim (fun heq => hnotBefore (heq ▸ hb))
      fun hmem => hdisjoint b hb b hmem rfl)
    ⟨rfl, hnext ▸ h.linked.tail⟩
  refine ⟨relink_pools.symm ▸ h.pools, hlinked, ?_, ?_, ?_, ?_, ?_⟩
  · refine List.nodup_append.mpr ⟨hbefore, List.nodup_cons.mpr ⟨hnotAfter, hafter⟩, ?_⟩
    rintro a ha b hb rfl
    rcases List.mem_cons.mp hb with rfl | hb
    · exact hnotBefore ha
    · exact hdisjoint a ha a hb rfl
  · change (before ++ n :: after).map (l.relink before.getLast? (some n)).objOf = _
    rw [objOf_relink, List.map_append, hvalues, List.map_cons, hvalue, hvalues', List.map_append]
    rfl
  · change ∀ b ∈ before ++ n :: after, (l.relink before.getLast? (some n)).pools.heap.Taken
      (l.relink before.getLast? (some n)).nodePool b
    rw [relink_pools, relink_nodePool]
    obtain ⟨hbefores, hafters⟩ := List.forall_mem_append.mp h.taken
    exact List.forall_mem_append.mpr ⟨hbefores, List.forall_mem_cons.mpr ⟨htaken, hafters⟩⟩
  · change (if after = [] then some n else l.last) = _
    rw [h.last]
    cases after with
    | nil => rw [List.getLast?_concat, if_pos rfl]
    | cons c after =>
      rw [if_neg (List.cons_ne_nil c after), List.getLast?_append, List.getLast?_append,
        List.getLast?_cons_cons]
  · change l.size + 1 = _
    rw [h.size]
    simp only [List.length_append, List.length_cons]
    omega

/-- A new node is written and linked into the list at a place. -/
theorem ListRep.insertNew (h : ListRep l (before ++ after) (xs ++ ys))
    (hlen : before.length = xs.length) (hnot : n ∉ before ++ after)
    (htaken : l.pools.heap.Taken l.nodePool n) :
    ListRep { (l.setNode n ⟨y, after.head?⟩).relink before.getLast? (some n) with
      last := if after = [] then some n else l.last
      size := l.size + 1 } (before ++ n :: after) (xs ++ y :: ys) := by
  refine (h.setNode hnot ⟨y, after.head?⟩).insert hlen hnot ?_ ?_ htaken
  · rw [nextOf_setNode, Function.update_self]
  · rw [objOf_setNode, Function.update_self]

theorem listPushFront_rep (h : ListState l cells s) (malloc : Nat → Bool) (obj : Option α) :
    ∃ l' cells', listPushFront malloc obj l =
        some ((s.push (fun xs x => x :: xs) malloc obj).1, l') ∧
      ListState l' cells' (s.push (fun xs x => x :: xs) malloc obj).2 := by
  cases obj with
  | none => exact ⟨l, cells, rfl, h⟩
  | some x =>
    obtain ⟨ret, pools, nodes, halloc, htake, hrep, hcounted, hret⟩ := h.alloc malloc
    rw [listPushFront, halloc, SeqList.push]
    simp only [htake]
    cases ret with
    | none => exact ⟨_, cells, rfl, hrep, hcounted⟩
    | some n =>
      obtain ⟨hnot, htaken⟩ := hret n rfl
      have hrep' := @ListRep.insertNew _ _ [] cells [] s.items x n hrep rfl hnot htaken
      have hempty : l.last = none ↔ cells = [] := by rw [h.rep.last, List.getLast?_eq_none_iff]
      refine ⟨_, n :: cells, rfl, ?_, hcounted⟩
      simp only [hempty, ← h.rep.linked.head?]
      exact hrep'

theorem listPushBack_rep (h : ListState l cells s) (malloc : Nat → Bool) (obj : Option α) :
    ∃ l' cells', listPushBack malloc obj l =
        some ((s.push (fun xs x => xs ++ [x]) malloc obj).1, l') ∧
      ListState l' cells' (s.push (fun xs x => xs ++ [x]) malloc obj).2 := by
  cases obj with
  | none => exact ⟨l, cells, rfl, h⟩
  | some x =>
    unfold listPushBack
    cases hlast : l.last with
    | none =>
      have hempty : cells = [] := List.getLast?_eq_none_iff.mp (h.rep.last.symm.trans hlast)
      have hnil : s.items = [] :=
        List.eq_nil_of_length_eq_zero (by rw [← h.rep.length, hempty]; rfl)
      have hsame : s.push (fun xs x => xs ++ [x]) malloc (some x) =
          s.push (fun xs x => x :: xs) malloc (some x) := by
        simp only [SeqList.push, hnil, List.nil_append]
      rw [hsame]
      exact listPushFront_rep h malloc (some x)
    | some last =>
      obtain ⟨ret, pools, nodes, halloc, htake, hrep, hcounted, hret⟩ := h.alloc malloc
      simp only [halloc, SeqList.push, htake]
      cases ret with
      | none => exact ⟨_, cells, rfl, hrep, hcounted⟩
      | some n =>
        obtain ⟨hnot, htaken⟩ := hret n rfl
        have hrep' := @ListRep.insertNew _ { l with pools := pools } cells [] s.items [] x n
          (by rwa [List.append_nil, List.append_nil]) h.rep.length (by rwa [List.append_nil]) htaken
        rw [← h.rep.last, hlast] at hrep'
        refine ⟨_, cells ++ [n], rfl, hrep', ?_⟩
        rw [List.length_append]
        exact hcounted

theorem listPopFront_rep (h : ListState l cells s) :
    ∃ l' cells', listPopFront l = some (s.items.head?, l') ∧
      ListState l' cells' ⟨s.items.tail, s.nodes⟩ := by
  obtain ⟨xs, nodes⟩ := s
  obtain ⟨h, hcounted⟩ := h
  dsimp only at h hcounted ⊢
  rw [listPopFront]
  cases cells with
  | nil =>
    obtain rfl : xs = [] := List.eq_nil_of_length_eq_zero h.length.symm
    rw [show l.first = none from h.linked]
    exact ⟨l, [], rfl, h, hcounted⟩
  | cons n cells =>
    obtain ⟨x, xs, rfl⟩ := List.exists_cons_of_length_eq_add_one h.length.symm
    obtain ⟨hfirst, hrest⟩ := h.linked
    obtain ⟨hnot, hnodup⟩ := List.nodup_cons.mp h.nodup
    obtain ⟨hvalue, hvalues⟩ := List.cons.inj h.values
    obtain ⟨htaken, hothers⟩ := List.forall_mem_cons.mp h.taken
    obtain ⟨node, hnode, hobj⟩ := Option.map_eq_some_iff.mp hvalue
    have hnext : l.nextOf n = node.next := by rw [nextOf, hnode, Option.bind_some]
    rw [hnext] at hrest
    rw [hfirst]
    dsimp only
    rw [hnode]
    have hrep : ListRep { l with
        first := node.next
        size := l.size - 1
        last := if node.next = none then none else l.last } cells xs := by
      refine ⟨h.pools, hrest, hnodup, hvalues, hothers, ?_, ?_⟩
      · change (if node.next = none then none else l.last) = _
        rw [h.last, ← hrest.head?]
        cases cells with
        | nil => rfl
        | cons c cells => rw [List.getLast?_cons_cons, if_neg (by simp)]
      · change l.size - 1 = cells.length
        rw [h.size]
        rfl
    obtain ⟨pools, hput, hrep', hcounted'⟩ := hrep.put htaken hnot hcounted
    refine ⟨_, cells, ?_, hrep', hcounted'⟩
    dsimp only at hput ⊢
    rw [putNode, hput, hobj]
    rfl

/-- The end of a list when a node is taken out of it. -/
theorem getLast?_remove (hnot : c ∉ after) :
    (if (before ++ c :: after).getLast? = some c then before.getLast?
      else (before ++ c :: after).getLast?) = (before ++ after).getLast? := by
  cases after with
  | nil => rw [List.getLast?_concat, if_pos rfl, List.append_nil]
  | cons a after =>
    have hsame : (before ++ c :: a :: after).getLast? = (a :: after).getLast? := by
      rw [List.getLast?_append, List.getLast?_cons_cons, Option.or_of_isSome (by simp)]
    rw [hsame, if_neg fun heq => hnot (List.mem_of_getLast? heq), List.getLast?_append,
      Option.or_of_isSome (by simp)]

/-- The current node is taken out. -/
theorem removeCurrent_rep (h : ListState l (before ++ c :: after) ⟨xs ++ x :: ys, nodes⟩)
    (hlen : before.length = xs.length) :
    ∃ l', removeCurrent l before.getLast? c = some l' ∧
      ListState l' (before ++ after) ⟨xs ++ ys, nodes⟩ := by
  obtain ⟨h, hcounted⟩ := h
  dsimp only at h hcounted
  have hnext := h.linked.next_eq
  obtain ⟨hbefore, hcafter, hdisjoint⟩ := List.nodup_append.mp h.nodup
  obtain ⟨hnot, hafter⟩ := List.nodup_cons.mp hcafter
  have hnotc : c ∉ before ++ after := fun hmem => by
    rcases List.mem_append.mp hmem with hmem | hmem
    · exact hdisjoint c hmem c List.mem_cons_self rfl
    · exact hnot hmem
  have hnodup : (before ++ after).Nodup := List.nodup_append.mpr
    ⟨hbefore, hafter, fun a ha b hb => hdisjoint a ha b (List.mem_cons_of_mem c hb)⟩
  have hnodes := isSome_of_values h.values
  obtain ⟨hbefores, hcafters⟩ := List.forall_mem_append.mp h.taken
  obtain ⟨htaken, hafters⟩ := List.forall_mem_cons.mp hcafters
  have hlinked := linked_relink h.linked hbefore (fun b hb => hnodes b (List.mem_append_left _ hb))
    (fun b hb hmem => hdisjoint b hb b (List.mem_cons_of_mem c hmem) rfl)
    (h.linked.tail.2 : Linked l.nextOf (l.nextOf c) after)
  obtain ⟨hvalues, hvalues'⟩ := values_split hlen h.values
  have hrep : ListRep { l.relink before.getLast? (l.nextOf c) with
      last := if l.last = some c then before.getLast? else l.last
      size := l.size - 1 } (before ++ after) (xs ++ ys) := by
    refine ⟨relink_pools.symm ▸ h.pools, hlinked, hnodup, ?_, ?_, ?_, ?_⟩
    · change (before ++ after).map (l.relink before.getLast? (l.nextOf c)).objOf = _
      rw [objOf_relink, List.map_append, List.map_append, hvalues, (List.cons.inj hvalues').2]
    · change ∀ b ∈ before ++ after, (l.relink before.getLast? (l.nextOf c)).pools.heap.Taken
        (l.relink before.getLast? (l.nextOf c)).nodePool b
      rw [relink_pools, relink_nodePool]
      exact List.forall_mem_append.mpr ⟨hbefores, hafters⟩
    · change (if l.last = some c then before.getLast? else l.last) = _
      rw [h.last]
      exact getLast?_remove hnot
    · change l.size - 1 = _
      rw [h.size, List.length_append, List.length_append, List.length_cons]
      omega
  obtain ⟨pools, hput, hrep', hcounted'⟩ :=
    hrep.put (by rwa [relink_pools, relink_nodePool]) hnotc (by rwa [relink_pools, relink_nodePool])
  refine ⟨_, ?_, hrep', ?_⟩
  · rw [removeCurrent, relink_last]
    dsimp only at hput ⊢
    rw [putNode, hput, relink_size]
    rfl
  · rwa [List.length_append, List.length_cons, ← Nat.add_assoc, Nat.add_sub_cancel,
      ← List.length_append] at hcounted'

/-- A node is put in front of the current one. -/
theorem insertBeforeCurrent_rep (h : ListState l (before ++ c :: after) ⟨xs ++ ys, nodes⟩)
    (hlen : before.length = xs.length) (malloc : Nat → Bool) (y : α) :
    ∃ l' cells', insertBeforeCurrent malloc y l before.getLast? c =
        some (!(takeNode malloc (xs ++ ys).length nodes).1, l') ∧
      ListState l' cells' ⟨xs ++ if (takeNode malloc (xs ++ ys).length nodes).1 then
        y :: ys else ys, (takeNode malloc (xs ++ ys).length nodes).2⟩ := by
  obtain ⟨ret, pools, nodes', halloc, htake, hrep, hcounted, hret⟩ := h.alloc malloc
  dsimp only at htake
  rw [insertBeforeCurrent, halloc, htake]
  cases ret with
  | none => exact ⟨_, before ++ c :: after, rfl, hrep, hcounted⟩
  | some n =>
    obtain ⟨hnot, htaken⟩ := hret n rfl
    have hrep' := @ListRep.insertNew _ _ before (c :: after) xs ys y n hrep hlen hnot htaken
    rw [if_neg (List.cons_ne_nil c after)] at hrep'
    have hlength : (before ++ n :: c :: after).length = (before ++ c :: after).length + 1 := by
      simp only [List.length_append, List.length_cons, Nat.add_assoc]
    refine ⟨_, before ++ n :: c :: after, rfl, ?_, ?_⟩
    · rw [Option.isSome_some, if_pos rfl]
      generalize before.getLast? = prev at hrep' ⊢
      cases prev with
      | none => exact hrep'
      | some b => exact hrep'
    · rw [hlength]
      dsimp only
      rw [relink_pools, relink_nodePool]
      exact hcounted

end Operations

section Foreach

variable {l : ListWorld α} {body : List α → α → ForeachAction α} {before cells : List ObjAddr}
  {xs ys visited all : List α} {exit : LoopExit} {used nodes nodes' : Nat}

/-- A loop does with the list what it does with the sequence, whatever rounds it may make behind. -/
theorem foreachLoop_rep (h : ListState l (before ++ cells) ⟨xs ++ ys, nodes⟩)
    (hlen : before.length = xs.length) (body : List α → α → ForeachAction α) (visited : List α) :
    ∃ all exit rest nodes' l' cells',
      foreachSeq body (xs ++ ys).length nodes visited ys = (all, exit, rest, nodes') ∧
      (∀ fuel, cells.length < fuel → foreachLoop body fuel visited before.getLast? cells.head? l =
        some (all, exit, l')) ∧ ListState l' cells' ⟨xs ++ rest, nodes'⟩ := by
  induction cells generalizing l before xs ys nodes visited with
  | nil =>
    obtain ⟨-, hvalues⟩ := values_split hlen h.rep.values
    obtain rfl : ys = [] := List.map_eq_nil_iff.mp hvalues.symm
    refine ⟨visited, .finished, [], nodes, l, before ++ [], rfl, fun fuel hfuel => ?_, h⟩
    obtain ⟨fuel, rfl⟩ := Nat.exists_eq_succ_of_ne_zero (Nat.ne_of_gt hfuel)
    rfl
  | cons c cells ih =>
    obtain ⟨-, hvalues⟩ := values_split hlen h.rep.values
    cases ys with
    | nil => cases hvalues
    | cons x ys =>
      obtain ⟨node, hnode, hobj⟩ := Option.map_eq_some_iff.mp (List.cons.inj hvalues).1
      have hnext : node.next = cells.head? := by
        rw [← h.rep.linked.next_eq, nextOf, hnode, Option.bind_some]
      have hstep : ∀ {fuel}, (c :: cells).length < fuel → ∃ k, fuel = k + 1 ∧ cells.length < k :=
        fun hfuel => by
          rw [List.length_cons] at hfuel
          exact ⟨_, (Nat.sub_add_cancel (Nat.one_le_of_lt hfuel)).symm, by omega⟩
      cases haction : body visited x with
      | keep =>
        have h' : ListState l (before ++ [c] ++ cells) ⟨xs ++ [x] ++ ys, nodes⟩ := by
          rwa [List.append_assoc, List.append_assoc]
        obtain ⟨all, exit, rest, nodes', l', cells', hseq, hloop, hrep⟩ :=
          ih h' (by rw [List.length_append, List.length_append, hlen]; rfl) (visited ++ [x])
        rw [List.append_assoc] at hseq hrep
        refine ⟨all, exit, x :: rest, nodes', l', cells', ?_, fun fuel hfuel => ?_, hrep⟩
        · rw [foreachSeq, haction]
          dsimp only
          rw [show xs ++ x :: ys = xs ++ ([x] ++ ys) from rfl, hseq]
        · obtain ⟨k, rfl, hk⟩ := hstep hfuel
          have hrest := hloop k hk
          rw [List.getLast?_concat] at hrest
          simp only [List.head?_cons, foreachLoop, hnode, hobj, haction, hnext, hrest]
      | remove =>
        obtain ⟨l₁, hremove, h₁⟩ := removeCurrent_rep h hlen
        obtain ⟨all, exit, rest, nodes', l', cells', hseq, hloop, hrep⟩ :=
          ih h₁ hlen (visited ++ [x])
        have hused : (xs ++ x :: ys).length - 1 = (xs ++ ys).length := by
          simp only [List.length_append, List.length_cons]
          omega
        refine ⟨all, exit, rest, nodes', l', cells', ?_, fun fuel hfuel => ?_, hrep⟩
        · rw [foreachSeq, haction]
          dsimp only
          rw [hused, hseq]
        · obtain ⟨k, rfl, hk⟩ := hstep hfuel
          simp only [List.head?_cons, foreachLoop, hnode, hobj, haction, hnext, hremove,
            Option.bind_some, hloop k hk]
      | removeLeave =>
        obtain ⟨l₁, hremove, h₁⟩ := removeCurrent_rep h hlen
        refine ⟨visited ++ [x], .removed, ys, nodes, l₁, before ++ cells, ?_,
          fun fuel hfuel => ?_, h₁⟩
        · rw [foreachSeq, haction]
        · obtain ⟨k, rfl, hk⟩ := hstep hfuel
          simp only [List.head?_cons, foreachLoop, hnode, hobj, haction, hremove, Option.map_some]
      | insertLeave malloc y =>
        obtain ⟨l₁, cells', hinsert, h₁⟩ := insertBeforeCurrent_rep h hlen malloc y
        refine ⟨visited ++ [x], .inserted (!(takeNode malloc (xs ++ x :: ys).length nodes).1),
          _, _, l₁, cells', ?_, fun fuel hfuel => ?_, h₁⟩
        · rw [foreachSeq, haction]
          dsimp only
          generalize takeNode malloc (xs ++ x :: ys).length nodes = take
          obtain ⟨ok, nodes'⟩ := take
          cases ok <;> rfl
        · obtain ⟨k, rfl, hk⟩ := hstep hfuel
          simp only [List.head?_cons, foreachLoop, hnode, hobj, haction, hinsert, Option.map_some]
      | leave =>
        refine ⟨visited ++ [x], .left, x :: ys, nodes, l, _, ?_, fun fuel hfuel => ?_, h⟩
        · rw [foreachSeq, haction]
        · obtain ⟨k, rfl, hk⟩ := hstep hfuel
          simp only [List.head?_cons, foreachLoop, hnode, hobj, haction]

/-- A loop that finishes has visited each element of the sequence once, in order. -/
theorem foreachSeq_finished (h : foreachSeq body used nodes visited xs = (all, exit, ys, nodes'))
    (hexit : exit = .finished) : all = visited ++ xs := by
  induction xs generalizing used nodes visited all ys with
  | nil =>
    cases h
    exact (List.append_nil _).symm
  | cons x xs ih =>
    rw [foreachSeq] at h
    cases haction : body visited x with
    | keep =>
      rw [haction] at h
      generalize hrest : foreachSeq body used nodes (visited ++ [x]) xs = rest at h
      obtain ⟨all', exit', ys', nodes''⟩ := rest
      cases h
      rw [ih hrest, List.append_assoc]
      rfl
    | remove =>
      rw [haction] at h
      rw [ih h, List.append_assoc]
      rfl
    | insertLeave malloc y =>
      rw [haction] at h
      dsimp only at h
      generalize takeNode malloc used nodes = take at h
      obtain ⟨ok, nodes''⟩ := take
      cases ok with
      | false | true =>
        cases h
        cases hexit
    | removeLeave | leave =>
      rw [haction] at h
      cases h
      cases hexit

/-- The loop of `list_remove` takes out the first occurrence. -/
theorem foreachSeq_remove [DecidableEq α] {x : α}
    (h : foreachSeq (removeBody x) used nodes visited xs = (all, exit, ys, nodes')) :
    nodes' = nodes ∧ (x ∉ xs ∧ exit = .finished ∧ ys = xs ∨
      x ∈ xs ∧ exit = .removed ∧ ys = xs.erase x) := by
  induction xs generalizing visited all ys with
  | nil =>
    cases h
    exact ⟨rfl, .inl ⟨List.not_mem_nil, rfl, rfl⟩⟩
  | cons y xs ih =>
    rw [foreachSeq] at h
    by_cases heq : y = x
    · have haction : removeBody x visited y = .removeLeave := if_pos heq
      rw [haction] at h
      cases h
      exact ⟨rfl, .inr ⟨heq ▸ List.mem_cons_self, rfl, by rw [heq, List.erase_cons_head]⟩⟩
    · have haction : removeBody x visited y = .keep := if_neg heq
      rw [haction] at h
      generalize hrest : foreachSeq (removeBody x) used nodes (visited ++ [y]) xs = rest at h
      obtain ⟨all', exit', ys', nodes''⟩ := rest
      cases h
      obtain ⟨hnodes, hrest⟩ := ih hrest
      refine ⟨hnodes, ?_⟩
      rcases hrest with ⟨hnot, hexit, rfl⟩ | ⟨hmem, hexit, rfl⟩
      · exact .inl ⟨by rw [List.mem_cons, not_or]; exact ⟨fun h => heq h.symm, hnot⟩, hexit, rfl⟩
      · refine .inr ⟨List.mem_cons_of_mem y hmem, hexit, ?_⟩
        rw [List.erase_cons_tail (by simpa using heq)]

end Foreach

section Run

variable {l w : ListWorld α} {cells : List ObjAddr} {xs : List α} {s : SeqList α}

theorem ListRep.represents (h : ListRep l cells xs) : Represents l xs := by
  have hend : ∀ (c : Option ObjAddr) (x : Option α), c.map l.objOf = x.map some →
      c.bind l.objOf = x := by
    rintro (_ | c) (_ | x) heq
    · rfl
    · cases heq
    · cases heq
    · exact Option.some.inj heq
  refine ⟨⟨cells, h.linked, h.values⟩, hend _ _ ?_, hend _ _ ?_, h.size.trans h.length⟩
  · rw [← h.linked.head?, ← List.head?_map, h.values, List.head?_map]
  · rw [h.last, ← List.getLast?_map, h.values, List.getLast?_map]

/-- The list that `list_init` gives is empty, with a pool of four nodes. -/
theorem listInit_rep {malloc : Nat → Bool} {pools : PoolWorld} (hi : PoolsInv pools)
    (h : listInit malloc pools = some l) : ListState l [] ⟨[], 4⟩ := by
  rw [listInit] at h
  split_ifs at h with hsome
  obtain rfl := Option.some.inj h
  refine ⟨⟨objPoolInit_inv 4 0 hi, rfl, List.nodup_nil, rfl, (fun c hc => by cases hc), rfl,
    rfl⟩, ?_⟩
  obtain ⟨pool, hpool⟩ := Option.isSome_iff_exists.mp hsome
  exact ⟨pool, hpool, objPoolInit_counts hpool⟩

variable [DecidableEq α]

/-- A call does with the list what it does with the sequence. -/
theorem listStep_rep (h : ListState l cells s) (call : ListCall α) :
    ∃ l' cells', (∀ fuel, s.items.length < fuel →
        listStep fuel l call = some ((seqStep s call).1, l')) ∧
      ListState l' cells' (seqStep s call).2 := by
  have hfirst : ∀ body : List α → α → ForeachAction α, ∃ all exit rest nodes' l' cells',
      foreachSeq body s.items.length s.nodes [] s.items = (all, exit, rest, nodes') ∧
      (∀ fuel, s.items.length < fuel →
        foreachLoop body fuel [] none l.first l = some (all, exit, l')) ∧
      ListState l' cells' ⟨rest, nodes'⟩ := fun body => by
    have hloop := @foreachLoop_rep _ l [] cells [] s.items s.nodes h rfl body []
    rwa [h.rep.linked.head?, h.rep.length] at hloop
  cases call with
  | pushFront malloc obj =>
    obtain ⟨l', cells', hpush, hstate⟩ := listPushFront_rep h malloc obj
    exact ⟨l', cells', fun fuel _ => by rw [listStep, hpush]; rfl, hstate⟩
  | pushBack malloc obj =>
    obtain ⟨l', cells', hpush, hstate⟩ := listPushBack_rep h malloc obj
    exact ⟨l', cells', fun fuel _ => by rw [listStep, hpush]; rfl, hstate⟩
  | popFront =>
    obtain ⟨l', cells', hpop, hstate⟩ := listPopFront_rep h
    exact ⟨l', cells', fun fuel _ => by rw [listStep, hpop]; rfl, hstate⟩
  | remove obj =>
    cases obj with
    | none => exact ⟨l, cells, fun fuel _ => rfl, h⟩
    | some x =>
      obtain ⟨all, exit, rest, nodes', l', cells', hseq, hloop, hstate⟩ := hfirst (removeBody x)
      obtain ⟨rfl, hremove⟩ := foreachSeq_remove hseq
      have hret : (exit != .removed) = decide (x ∉ s.items) ∧ rest = s.items.erase x := by
        rcases hremove with ⟨hnot, rfl, rfl⟩ | ⟨hmem, rfl, rfl⟩
        · exact ⟨(decide_eq_true hnot).symm, (List.erase_of_not_mem hnot).symm⟩
        · exact ⟨(decide_eq_false (not_not_intro hmem)).symm, rfl⟩
      refine ⟨l', cells', fun fuel hfuel => ?_, ?_⟩
      · rw [listStep, listRemove]
        simp only [hloop fuel hfuel, Option.map_some, hret.1]
        rfl
      · rw [hret.2] at hstate
        exact hstate
  | foreach body =>
    obtain ⟨all, exit, rest, nodes', l', cells', hseq, hloop, hstate⟩ := hfirst body
    refine ⟨l', cells', fun fuel hfuel => ?_, ?_⟩
    · rw [listStep, seqStep]
      simp only [hloop fuel hfuel, Option.map_some, hseq]
    · rw [seqStep, hseq]
      exact hstate

/-- Calls do with the list what they do with the sequence, in every order. -/
theorem listExec_rep (h : ListState l cells s) (calls : List (ListCall α)) :
    ∃ l' cells' n, (∀ fuel, n ≤ fuel → listExec fuel l calls = some ((seqRun s calls).1, l')) ∧
      ListState l' cells' (seqRun s calls).2 := by
  induction calls generalizing l cells s with
  | nil => exact ⟨l, cells, 0, fun fuel _ => rfl, h⟩
  | cons call calls ih =>
    obtain ⟨l₁, cells₁, hstep, h₁⟩ := listStep_rep h call
    obtain ⟨l', cells', n, hexec, hstate⟩ := ih h₁
    refine ⟨l', cells', max n (s.items.length + 1), fun fuel hfuel => ?_, hstate⟩
    rw [listExec, hstep fuel (by omega), Option.bind_some]
    simp only [hexec fuel (by omega), Option.map_some]
    rfl

omit [DecidableEq α] in
/-- A push fails without an object, and where no node can be taken. -/
theorem push_fails (place : List α → α → List α) (malloc : Nat → Bool) (obj : Option α)
    (s : SeqList α) : (s.push place malloc obj).1 = true ↔
      obj = none ∨ NoNode malloc s.items.length s.nodes := by
  cases obj with
  | none => exact iff_of_true rfl (.inl rfl)
  | some x =>
    rw [or_iff_right (Option.some_ne_none x), ← takeNode_fails, SeqList.push]
    generalize takeNode malloc s.items.length s.nodes = take
    obtain ⟨ok, nodes⟩ := take
    cases ok with
    | false => exact iff_of_true rfl rfl
    | true => exact iff_of_false Bool.false_ne_true Bool.noConfusion

/-- In whatever order lists are used, a list stands for the sequence that the calls are applied to,
and the loops end. A push then fails where there is no object, or no node, and a loop that finishes
visits each element once. -/
theorem linkedList_refines {poolCalls : List PoolCall} {pools : PoolWorld} {malloc : Nat → Bool}
    {l₀ : ListWorld α} (hpools : exec poolStep noPools poolCalls = some pools)
    (hinit : listInit malloc pools = some l₀) (calls : List (ListCall α)) :
    ∃ l, (∃ n, ∀ fuel, n ≤ fuel → listExec fuel l₀ calls = some ((seqRun ⟨[], 4⟩ calls).1, l)) ∧
      ∀ s, (seqRun ⟨[], 4⟩ calls).2 = s → Represents l s.items ∧
        (∀ malloc obj, ((listPushFront malloc obj l).map Prod.fst = some true ↔
            obj = none ∨ NoNode malloc s.items.length s.nodes) ∧
          ((listPushBack malloc obj l).map Prod.fst = some true ↔
            obj = none ∨ NoNode malloc s.items.length s.nodes)) ∧
        ∀ body, ∃ visited exit l', (∀ fuel, s.items.length < fuel →
            listStep fuel l (.foreach body) = some (.loop visited exit, l')) ∧
          (exit = .finished → visited = s.items) := by
  have hi : PoolsInv pools := exec_inv poolStep_inv noPools_inv hpools
  obtain ⟨l, cells, n, hexec, hstate⟩ := listExec_rep (listInit_rep hi hinit) calls
  refine ⟨l, ⟨n, hexec⟩, ?_⟩
  rintro s rfl
  refine ⟨hstate.rep.represents, fun malloc obj => ⟨?_, ?_⟩, fun body => ?_⟩
  · obtain ⟨l', cells', hpush, -⟩ := listPushFront_rep hstate malloc obj
    rw [hpush, Option.map_some, Option.some_inj, push_fails]
  · obtain ⟨l', cells', hpush, -⟩ := listPushBack_rep hstate malloc obj
    rw [hpush, Option.map_some, Option.some_inj, push_fails]
  · obtain ⟨l', cells', hstep, -⟩ := listStep_rep hstate (.foreach body)
    exact ⟨_, _, l', hstep, foreachSeq_finished rfl⟩

/-- Pushes until the pool has to grow, which fails in part the first time, then loops that take out
the elements that are even, and put 4 in front of 5. -/
private def evenCalls : List (ListCall Nat) :=
  [.pushBack (fun _ => false) (some 2), .pushBack (fun _ => false) (some 5),
    .pushFront (fun _ => false) (some 3), .pushBack (fun _ => true) none,
    .pushBack (fun _ => false) (some 6), .pushFront (fun n => n != 1) (some 8),
    .pushFront (fun _ => false) (some 8), .foreach fun _ x => if x % 2 = 0 then .remove else .keep,
    .foreach fun _ x => if x = 5 then .insertLeave (fun _ => true) 4 else .keep, .remove (some 3),
    .remove (some 3), .popFront]

theorem linkedList_refines_even : ∃ l₀ : ListWorld Nat, listInit (fun _ => true) noPools = some l₀ ∧
    seqRun ⟨[], 4⟩ evenCalls = ([.code false, .code false, .code false, .code true, .code false,
      .code true, .code false, .loop [8, 3, 2, 5, 6] .finished, .loop [3, 5] (.inserted false),
      .code false, .code true, .obj (some 4)], ⟨[5], 5⟩) ∧
    ∃ l, (∃ n, ∀ fuel, n ≤ fuel → listExec fuel l₀ evenCalls =
        some ((seqRun ⟨[], 4⟩ evenCalls).1, l)) ∧
      ∀ s, (seqRun ⟨[], 4⟩ evenCalls).2 = s → Represents l s.items ∧
        (∀ malloc obj, ((listPushFront malloc obj l).map Prod.fst = some true ↔
            obj = none ∨ NoNode malloc s.items.length s.nodes) ∧
          ((listPushBack malloc obj l).map Prod.fst = some true ↔
            obj = none ∨ NoNode malloc s.items.length s.nodes)) ∧
        ∀ body, ∃ visited exit l', (∀ fuel, s.items.length < fuel →
            listStep fuel l (.foreach body) = some (.loop visited exit, l')) ∧
          (exit = .finished → visited = s.items) :=
  have ⟨l₀, hinit⟩ := Option.isSome_iff_exists.mp
    (by decide : (@listInit Nat (fun _ => true) noPools).isSome = true)
  ⟨l₀, hinit, rfl, @linkedList_refines Nat _ [] _ _ _ rfl hinit evenCalls⟩

end Run

end Dwpal.Ipc
