import Dwpal.Ipc.ClientCmd

/-! A client where only the thread of the event loop reads messages. The calls on that thread are
nested: all but the innermost one are in `disconnect_clb`, and the event loop itself is in a
callback, or not started, while there are any. So what that thread does with messages is one
sequence. -/

namespace Dwpal.Ipc

open Machine

section Client

variable {μ : Type}

/-- Only calls on the thread of the event loop read messages themselves. -/
def OnlyLoopReads (s : IpcClient μ) : ClientAction μ → Prop
  | .call onLoop _ => onLoop = true ∨ s.listener = true
  | _ => True

instance (s : IpcClient μ) : ∀ a, Decidable (OnlyLoopReads s a)
  | .call _ _ => inferInstanceAs (Decidable (_ ∨ _))
  | .startWait _ _ _ | .connect _ _ | .sendCmd _ _ | .endWait _ | .select _ _ _ | .recv _ _
  | .handle _ _ | .clbReturns _ | .startLoop _ | .loopHead _ | .loopConnect _ _ | .loopSelect _ _
  | .loopRecv _ | .loopHandle _ _ | .loopClbReturns _ | .answer _ _ _ _ | .notify _ =>
    .isTrue trivial

/-- What a thread has in its hands between `select` and what it does with a message. -/
inductive Carried (μ : Type) where
  | nothing
  | receiving (m : ServerMsg μ)
  | holding (out : MsgObject μ)

namespace Carried

def out? : Carried μ → Option (MsgObject μ)
  | .holding out => some out
  | _ => none

def msg? : Carried μ → Option (ServerMsg μ)
  | .receiving m => some m
  | _ => none

end Carried

def SendPhase.carried : SendPhase μ → Carried μ
  | .recv _ m => .receiving m
  | .handle _ out => .holding out
  | _ => .nothing

def LoopPhase.carried : LoopPhase μ → Carried μ
  | .recv m => .receiving m
  | .handle out => .holding out
  | _ => .nothing

/-- What the thread of the event loop has in its hands. -/
def IpcClient.carried (s : IpcClient μ) : Carried μ :=
  match s.nested with
  | [] => s.loop.carried
  | id :: _ => (s.call id).carried

/-- The call reads from the socket itself. -/
def SendPhase.onSocket : SendPhase μ → Bool
  | .start | .send | .again _ | .recv _ _ | .handle _ _ | .disconnectClb => true
  | _ => false

/-- The event loop runs a callback, or does not run. -/
def LoopPhase.leaves : LoopPhase μ → Bool
  | .stopped | .connectionClb | .callback _ => true
  | _ => false

/-- The calls that read from the socket are those on the thread of the event loop, the outer ones of
which are in `disconnect_clb`; the loop does not go on meanwhile. -/
structure LoopThreadInv (s : IpcClient μ) : Prop where
  leaves : s.nested ≠ [] → s.loop.leaves = true
  onSocket : ∀ id, id ∈ s.nested ↔ (s.call id).onSocket = true
  outer : ∀ id ∈ s.nested.tail, s.call id = .disconnectClb
  distinct : s.nested.Nodup

/-- What a step does to the connection: nothing but that a command may be sent, a message begins to
be received, it has been received, a connection is made or lost with all that is on it, or the
server sends something. -/
inductive Flow (s s' : IpcClient μ) : Prop
  | still
    (hserver : s'.server = s.server ∨
      ∃ id, (s.call id = .send ∨ s.call id = .listenerSend) ∧ s'.server = s.server ++ [id])
    (hstream : s'.stream = s.stream) (hmsg : s'.carried.msg? = s.carried.msg?)
    (hreceived : s'.received = s.received) (hreading : s'.reading = s.reading)
  | starts {m : ServerMsg μ} (hserver : s'.server = s.server) (hstream : s.stream = m :: s'.stream)
    (hmsg : s.carried.msg? = none) (hmsg' : s'.carried.msg? = some m)
    (hreceived : s'.received = s.received) (hreading : s'.reading = s.reading + 1)
  | ends {m garbled : ServerMsg μ} (hserver : s'.server = s.server) (hstream : s'.stream = s.stream)
    (hmsg : s.carried.msg? = some m) (hmsg' : s'.carried.msg? = none)
    (hreceived : s'.received = s.received ++ [s.object m garbled])
    (hreading : s'.reading = s.reading - 1)
  | breaks (hserver : s'.server = []) (hstream : s'.stream = []) (hmsg' : s'.carried.msg? = none)
    (hreceived : s'.received = s.received)
    (hreading : s'.reading = s.reading - s.carried.msg?.toList.length)
  | answers {id : Nat} {failed : Bool} {hasMore : UInt8} {msg : μ} (hserver : id ∈ s.server)
    (hs' : s' = s.answer id failed hasMore msg)
  | notifies {m : ServerMsg μ} (hm : IpcClient.IsNotice m)
    (hs' : s' = { s with stream := s.stream ++ [m] })

namespace LoopThreadInv

variable {s s' : IpcClient μ} {id : Nat} {phase : SendPhase μ} {b : Below μ}

theorem init : LoopThreadInv (.init : IpcClient μ) where
  leaves h := absurd rfl h
  onSocket id := iff_of_false List.not_mem_nil Bool.false_ne_true
  outer id hid := by cases hid
  distinct := List.nodup_nil

/-- The calls, the thread and the loop stay as they are. -/
theorem keep (h : LoopThreadInv s) (hcall : s'.call = s.call) (hnested : s'.nested = s.nested)
    (hloop : s'.loop = s.loop) : LoopThreadInv s' where
  leaves := by
    rw [hnested, hloop]
    exact h.leaves
  onSocket := by
    rw [hnested, hcall]
    exact h.onSocket
  outer := by
    rw [hnested, hcall]
    exact h.outer
  distinct := by
    rw [hnested]
    exact h.distinct

/-- A call that reads from the socket is the innermost one on its thread if it goes on. -/
theorem innermost (h : LoopThreadInv s) (hruns : s.Runs id) (hon : (s.call id).onSocket = true) :
    ∃ rest, s.nested = id :: rest :=
  ⟨s.nested.tail, (List.cons_head?_tail (hruns ((h.onSocket id).mpr hon))).symm⟩

theorem not_nested (h : LoopThreadInv s) (hoff : (s.call id).onSocket = false) : id ∉ s.nested :=
  fun hmem => by
    rw [(h.onSocket id).mp hmem] at hoff
    cases hoff

/-- A call that goes on is not an outer one. -/
theorem not_outer (h : LoopThreadInv s) (hruns : s.Runs id) : id ∉ s.nested.tail := fun hmem => by
  have hcons := List.cons_head?_tail (hruns (List.mem_of_mem_tail hmem))
  have hdistinct := h.distinct
  rw [← hcons] at hdistinct
  exact (List.nodup_cons.mp hdistinct).1 hmem

theorem setCall (h : LoopThreadInv s) (hruns : s.Runs id)
    (hsocket : phase.onSocket = (s.call id).onSocket) : LoopThreadInv (s.setCall id phase) where
  leaves := h.leaves
  onSocket i := by
    show i ∈ s.nested ↔ (Function.update s.call id phase i).onSocket = true
    by_cases heq : i = id
    · rw [heq, Function.update_self, hsocket]
      exact h.onSocket id
    · rw [Function.update_of_ne heq]
      exact h.onSocket i
  outer i hi := by
    have hne : i ≠ id := fun heq => h.not_outer hruns (heq ▸ hi)
    show Function.update s.call id phase i = _
    rw [Function.update_of_ne hne]
    exact h.outer i hi
  distinct := h.distinct

/-- A call on the thread of the loop takes itself off when it returns. -/
theorem erase_eq (hruns : s.Runs id) :
    id ∉ s.nested ∧ s.nested.erase id = s.nested ∨
      s.nested = id :: s.nested.tail ∧ s.nested.erase id = s.nested.tail := by
  by_cases hmem : id ∈ s.nested
  · have hcons := List.cons_head?_tail (hruns hmem)
    refine .inr ⟨hcons.symm, ?_⟩
    nth_rewrite 1 [← hcons]
    rw [List.erase_cons_head]
  · exact .inl ⟨hmem, List.erase_of_not_mem hmem⟩

theorem finish (h : LoopThreadInv s) (hruns : s.Runs id) (ret : WvIpcRet)
    (reply : List (MsgObject μ)) : LoopThreadInv (s.finish id ret reply) := by
  have hgone : id ∉ s.nested.erase id := h.distinct.not_mem_erase
  have hsub : ∀ i ∈ (s.nested.erase id).tail, i ∈ s.nested.tail := by
    intro i hi
    rcases erase_eq hruns with ⟨-, herase⟩ | ⟨-, herase⟩
    · rwa [herase] at hi
    · rw [herase] at hi
      exact List.mem_of_mem_tail hi
  refine ⟨fun hne => h.leaves fun hnil => ?_, fun i => ?_, fun i hi => ?_, h.distinct.erase id⟩
  · apply hne
    show s.nested.erase id = []
    rw [hnil]
    rfl
  · show i ∈ s.nested.erase id ↔ (Function.update s.call id .ended i).onSocket = true
    by_cases heq : i = id
    · rw [heq, Function.update_self]
      exact iff_of_false hgone Bool.false_ne_true
    · rw [Function.update_of_ne heq, List.mem_erase_of_ne heq]
      exact h.onSocket i
  · have hne : i ≠ id := fun heq => h.not_outer hruns (heq ▸ hsub i hi)
    show Function.update s.call id .ended i = _
    rw [Function.update_of_ne hne]
    exact h.outer i (hsub i hi)

theorem setLoop (h : LoopThreadInv s) (hnested : s.nested = []) (phase : LoopPhase μ) :
    LoopThreadInv (s.setLoop phase) :=
  { h with leaves := fun hne => absurd hnested hne }

/-- Where a call can be made on the thread of the event loop, everything else on it runs a
callback. -/
theorem outer_of_free (h : LoopThreadInv s) (hfree : s.LoopThreadFree) :
    (∀ i ∈ s.nested, s.call i = .disconnectClb) ∧ s.loop.leaves = true ∧ s.carried = .nothing := by
  rw [IpcClient.LoopThreadFree] at hfree
  cases hnested : s.nested with
  | nil =>
    simp only [hnested] at hfree
    rw [IpcClient.carried, hnested]
    refine ⟨fun i hi => absurd hi List.not_mem_nil, ?_⟩
    cases hloop : s.loop with
    | stopped | connectionClb | callback => exact ⟨rfl, rfl⟩
    | head | wait | recv | handle =>
      rw [hloop] at hfree
      cases hfree
  | cons i rest =>
    simp only [hnested] at hfree
    have hfirst : s.call i = .disconnectClb := by
      cases hcall : s.call i with
      | disconnectClb => rfl
      | _ =>
        rw [hcall] at hfree
        cases hfree
    refine ⟨fun j hj => ?_, h.leaves (by rw [hnested]; exact List.cons_ne_nil i rest), ?_⟩
    · rcases List.mem_cons.mp hj with rfl | hj
      · exact hfirst
      · exact h.outer j (by rw [hnested]; exact hj)
    · rw [IpcClient.carried, hnested]
      show (s.call i).carried = .nothing
      rw [hfirst]
      rfl

theorem startCall (h : LoopThreadInv s) (hcalls : CallsInv s) {onLoop : Bool} (pushed : Bool)
    (hfree : onLoop = true → s.LoopThreadFree) (hok : onLoop = true ∨ s.listener = true) :
    LoopThreadInv (s.startCall onLoop pushed) := by
  have hended : s.call s.numCalls = .ended := hcalls.calls s.numCalls (Nat.le_refl _)
  have hoff : (s.call s.numCalls).onSocket = false := by rw [hended]; rfl
  have hnot : s.numCalls ∉ s.nested := h.not_nested hoff
  have hruns : s.Runs s.numCalls := fun hmem => absurd hmem hnot
  cases pushed with
  | false =>
    cases onLoop with
    | false => exact (h.finish hruns .error []).keep rfl rfl rfl
    | true =>
      refine (h.finish hruns .error []).keep rfl ?_ rfl
      show (s.numCalls :: s.nested).erase s.numCalls = s.nested.erase s.numCalls
      rw [List.erase_cons_head, List.erase_of_not_mem hnot]
  | true =>
    cases onLoop with
    | false =>
      have hlistener : s.listener = true := hok.resolve_left Bool.false_ne_true
      have hwaits : LoopThreadInv (s.setCall s.numCalls .listenerStart) :=
        h.setCall hruns (by rw [hoff]; rfl)
      refine hwaits.keep ?_ rfl rfl
      simp [IpcClient.startCall, IpcClient.setCall, hlistener]
    | true =>
      obtain ⟨houter, hleaves, -⟩ := h.outer_of_free (hfree rfl)
      have hcall : (s.startCall true true).call = Function.update s.call s.numCalls .start := by
        simp [IpcClient.startCall, IpcClient.setCall]
      refine ⟨fun _ => hleaves, fun i => ?_, fun i hi => ?_, List.nodup_cons.mpr ⟨hnot, h.distinct⟩⟩
      · show i ∈ s.numCalls :: s.nested ↔ _
        rw [hcall, List.mem_cons]
        by_cases heq : i = s.numCalls
        · rw [heq, Function.update_self]
          exact iff_of_true (.inl rfl) rfl
        · rw [Function.update_of_ne heq, ← h.onSocket i]
          exact or_iff_right heq
      · have hmem : i ∈ s.nested := hi
        have hne : i ≠ s.numCalls := fun heq => hnot (heq ▸ hmem)
        rw [hcall, Function.update_of_ne hne]
        exact houter i hmem

/-! ### The steps -/

theorem sendCmd (h : LoopThreadInv s) (hruns : s.Runs id)
    (hsocket : phase.onSocket = (s.call id).onSocket) (ret : WvIpcRet) :
    LoopThreadInv (s.sendCmd id ret phase) := by
  have htaken : LoopThreadInv (s.takeEntry id) := h.keep rfl rfl rfl
  rw [IpcClient.sendCmd]
  split_ifs
  · exact (h.setCall hruns hsocket).keep rfl rfl rfl
  · exact htaken.finish hruns _ _
  · exact htaken.finish hruns _ _

theorem disconnectCall (h : LoopThreadInv s) (hruns : s.Runs id)
    (hon : (s.call id).onSocket = true) (b : Below μ) : LoopThreadInv (s.disconnectCall id b) := by
  have hgone : LoopThreadInv (s.disconnected b.socketInit) := h.keep rfl rfl rfl
  rw [IpcClient.disconnectCall]
  split_ifs
  · exact hgone.setCall hruns hon.symm
  · exact hgone.finish hruns _ _

theorem selectCall (h : LoopThreadInv s) (hruns : s.Runs id) (hon : (s.call id).onSocket = true)
    (multiOut : List (MsgObject μ)) (b : Below μ) (res : SelectResult) :
    LoopThreadInv (s.selectCall id multiOut b res) := by
  cases res with
  | again => exact h
  | failed => exact h.disconnectCall hruns hon b
  | timeout => exact h.finish hruns _ _
  | ready =>
    rw [IpcClient.selectCall]
    split
    · next m rest hstream =>
      split_ifs
      · exact (h.keep rfl rfl rfl : LoopThreadInv (s.startRecv rest)).setCall hruns hon.symm
      · exact h.disconnectCall hruns hon b
    · exact h.disconnectCall hruns hon b

theorem recvCall (h : LoopThreadInv s) (hruns : s.Runs id) (hon : (s.call id).onSocket = true)
    (multiOut : List (MsgObject μ)) (m : ServerMsg μ) (b : Below μ) :
    LoopThreadInv (s.recvCall id multiOut m b) := by
  rw [IpcClient.recvCall]
  split_ifs
  · exact (h.keep rfl rfl rfl : LoopThreadInv (s.endRecv _)).setCall hruns hon.symm
  · exact (h.keep rfl rfl rfl : LoopThreadInv s.stopRecv).disconnectCall hruns hon b

theorem handleCall (h : LoopThreadInv s) (hruns : s.Runs id) (hon : (s.call id).onSocket = true)
    (multiOut : List (MsgObject μ)) (out : MsgObject μ) (b : Below μ) :
    LoopThreadInv (s.handleCall id multiOut out b) := by
  have hagain : ∀ parts, LoopThreadInv (s.setCall id (.again parts)) := fun parts =>
    h.setCall hruns hon.symm
  rw [IpcClient.handleCall]
  cases out.hdr with
  | none => exact (h.keep rfl rfl rfl : LoopThreadInv (s.putBack [out])).disconnectCall hruns hon b
  | some hdr =>
    dsimp only
    split_ifs
    · exact (h.keep rfl rfl rfl : LoopThreadInv (s.putBack multiOut)).finish hruns _ _
    · exact h.finish hruns _ _
    · exact hagain _
    · exact (hagain multiOut).keep rfl rfl rfl
    · exact (hagain multiOut).keep rfl rfl rfl
    · exact (hagain multiOut).keep rfl rfl rfl
    · exact (hagain multiOut).keep rfl rfl rfl
    · exact (hagain multiOut).keep rfl rfl rfl

theorem loopSelect (h : LoopThreadInv s) (hnested : s.nested = []) (b : Below μ)
    (res : SelectResult) : LoopThreadInv (s.loopSelect b res) := by
  cases res with
  | again => exact h
  | timeout => exact h
  | failed => exact h.setLoop hnested _
  | ready =>
    rw [IpcClient.loopSelect]
    split
    · split_ifs
      · exact (h.setLoop hnested _).keep rfl rfl rfl
      · exact (h.setLoop hnested _).keep rfl rfl rfl
    · exact (h.setLoop hnested _).keep rfl rfl rfl

theorem loopHandle (h : LoopThreadInv s) (hnested : s.nested = []) (out : MsgObject μ)
    (eventsThread : Bool) (b : Below μ) : LoopThreadInv (s.loopHandle out eventsThread b) := by
  have hmoves : ∀ phase, LoopThreadInv (s.setLoop phase) := h.setLoop hnested
  rw [IpcClient.loopHandle]
  cases out.hdr with
  | none => exact (hmoves .head).keep rfl rfl rfl
  | some hdr =>
    dsimp only
    split_ifs
    · exact (hmoves .head).keep rfl rfl rfl
    · exact (hmoves .head).keep rfl rfl rfl
    · exact (hmoves (.callback out)).keep rfl rfl rfl
    · exact (hmoves .head).keep rfl rfl rfl
    · exact (hmoves (.callback out)).keep rfl rfl rfl
    · exact (hmoves .head).keep rfl rfl rfl

theorem step (h : LoopThreadInv s) (hcalls : CallsInv s) {a : ClientAction μ}
    (hok : OnlyLoopReads s a) (hstep : s.step a = some s') : LoopThreadInv s' := by
  cases IpcClient.Stepped.of_step hstep with
  | call hfree => exact h.startCall hcalls _ hfree hok
  | startWait hruns hcall =>
    have hwaits : LoopThreadInv (s.setCall _ .listenerSend) := h.setCall hruns (by rw [hcall]; rfl)
    rw [IpcClient.startWait]
    split_ifs
    · exact hwaits.keep rfl rfl rfl
    · exact hwaits.keep rfl rfl rfl
    · exact h.finish hruns _ _
    · exact h.finish hruns _ _
  | connect hruns hcall =>
    have hsends : LoopThreadInv (s.setCall _ .send) := h.setCall hruns (by rw [hcall]; rfl)
    rw [IpcClient.connect]
    split_ifs
    · exact hsends
    · exact hsends.keep rfl rfl rfl
    · exact h.finish hruns _ _
    · exact h.finish hruns _ _
  | listenerSend hruns hcall => exact h.sendCmd hruns (by rw [hcall]; rfl) _
  | send hruns hcall => exact h.sendCmd hruns (by rw [hcall]; rfl) _
  | @endWait id hruns =>
    have htaken : LoopThreadInv (s.takeEntry id) := h.keep rfl rfl rfl
    rw [IpcClient.endWait]
    split
    · exact h.finish hruns _ _
    · exact htaken.finish hruns _ _
  | select hruns hcall => exact h.selectCall hruns (by rw [hcall]; rfl) _ _ _
  | recv hruns hcall => exact h.recvCall hruns (by rw [hcall]; rfl) _ _ _
  | handle hruns hcall => exact h.handleCall hruns (by rw [hcall]; rfl) _ _ _
  | clbReturns hruns => exact h.finish hruns _ _
  | startLoop hnested => exact (h.setLoop hnested .head).keep rfl rfl rfl
  | loopHead hnested =>
    rw [IpcClient.loopHead]
    split_ifs
    · exact h.setLoop hnested _
    · split
      · exact (h.setLoop hnested _).keep rfl rfl rfl
      · exact h.setLoop hnested _
  | loopConnect hnested =>
    rw [IpcClient.loopConnect]
    split_ifs
    · exact (h.setLoop hnested _).keep rfl rfl rfl
    · exact (h.setLoop hnested _).keep rfl rfl rfl
    · exact h
    · exact h.setLoop hnested _
  | loopSelect hnested => exact h.loopSelect hnested _ _
  | loopRecv hnested =>
    rw [IpcClient.loopRecv]
    split_ifs
    · exact (h.setLoop hnested _).keep rfl rfl rfl
    · exact (h.setLoop hnested _).keep rfl rfl rfl
  | loopHandle hnested => exact h.loopHandle hnested _ _ _
  | loopCallback hnested =>
    rw [IpcClient.callbackReturns]
    split_ifs
    · exact (h.setLoop hnested _).keep rfl rfl rfl
    · exact (h.setLoop hnested _).keep rfl rfl rfl
  | connectionClb hnested => exact h.setLoop hnested _
  | answer => exact h.keep rfl rfl rfl
  | notify => exact h.keep rfl rfl rfl

/-! ### What is in the hands of the thread -/

theorem carried_call (h : LoopThreadInv s) (hruns : s.Runs id) (hon : (s.call id).onSocket = true) :
    s.carried = (s.call id).carried := by
  obtain ⟨rest, hnested⟩ := h.innermost hruns hon
  rw [IpcClient.carried, hnested]

theorem carried_idle (hnested : s.nested = []) : s.carried = s.loop.carried := by
  rw [IpcClient.carried, hnested]

theorem carried_setLoop (hnested : s.nested = []) (phase : LoopPhase μ) :
    (s.setLoop phase).carried = phase.carried :=
  carried_idle (s := s.setLoop phase) hnested

theorem carried_setCall (h : LoopThreadInv s) (hruns : s.Runs id)
    (hon : (s.call id).onSocket = true) (phase : SendPhase μ) :
    (s.setCall id phase).carried = phase.carried := by
  obtain ⟨rest, hnested⟩ := h.innermost hruns hon
  have hcall : (s.setCall id phase).call id = phase := Function.update_self ..
  rw [IpcClient.carried, show (s.setCall id phase).nested = id :: rest from hnested]
  exact congrArg SendPhase.carried hcall

/-- Another call on the thread is in a callback, and so is the loop. -/
theorem carried_finish (h : LoopThreadInv s) (hruns : s.Runs id)
    (hon : (s.call id).onSocket = true) (ret : WvIpcRet) (reply : List (MsgObject μ)) :
    (s.finish id ret reply).carried = .nothing := by
  obtain ⟨rest, hnested⟩ := h.innermost hruns hon
  have hleft : (s.finish id ret reply).nested = rest := by
    show s.nested.erase id = rest
    rw [hnested, List.erase_cons_head]
  rw [IpcClient.carried, hleft]
  cases hrest : rest with
  | nil =>
    have hleaves := h.leaves (by rw [hnested]; exact List.cons_ne_nil id rest)
    show s.loop.carried = .nothing
    cases hloop : s.loop with
    | recv | handle =>
      rw [hloop] at hleaves
      cases hleaves
    | _ => rfl
  | cons i _ =>
    have hi : i ∈ s.nested.tail := by
      rw [hnested, hrest]
      exact List.mem_cons_self
    have hne : i ≠ id := fun heq => h.not_outer hruns (heq ▸ hi)
    show (Function.update s.call id .ended i).carried = .nothing
    rw [Function.update_of_ne hne, h.outer i hi]
    rfl

/-- A call that waits for the listener has nothing to do with it. -/
theorem carried_setCall_off (h : LoopThreadInv s) (hoff : (s.call id).onSocket = false)
    (phase : SendPhase μ) : (s.setCall id phase).carried = s.carried := by
  have hnot := h.not_nested hoff
  rw [IpcClient.carried, IpcClient.carried, show (s.setCall id phase).nested = s.nested from rfl]
  cases hnested : s.nested with
  | nil => rfl
  | cons i rest =>
    have hne : i ≠ id := fun heq => hnot (by rw [hnested, heq]; exact List.mem_cons_self)
    show (Function.update s.call id phase i).carried = (s.call i).carried
    rw [Function.update_of_ne hne]

theorem carried_finish_off (h : LoopThreadInv s) (hoff : (s.call id).onSocket = false)
    (ret : WvIpcRet) (reply : List (MsgObject μ)) :
    (s.finish id ret reply).carried = s.carried := by
  have hnested : (s.finish id ret reply).nested = s.nested :=
    List.erase_of_not_mem (h.not_nested hoff)
  rw [← h.carried_setCall_off hoff .ended, IpcClient.carried, IpcClient.carried, hnested]
  rfl

theorem msg_finish (h : LoopThreadInv s) (hruns : s.Runs id)
    (hnone : (s.call id).carried.msg? = none) (ret : WvIpcRet) (reply : List (MsgObject μ)) :
    (s.finish id ret reply).carried.msg? = s.carried.msg? := by
  by_cases hon : (s.call id).onSocket = true
  · rw [h.carried_finish hruns hon, h.carried_call hruns hon, hnone]
    rfl
  · rw [h.carried_finish_off ((Bool.not_eq_true _).mp hon)]

theorem msg_setCall (h : LoopThreadInv s) (hruns : s.Runs id)
    (hnone : (s.call id).carried.msg? = none) (hnone' : phase.carried.msg? = none) :
    (s.setCall id phase).carried.msg? = s.carried.msg? := by
  by_cases hon : (s.call id).onSocket = true
  · rw [h.carried_setCall hruns hon, h.carried_call hruns hon, hnone, hnone']
  · rw [h.carried_setCall_off ((Bool.not_eq_true _).mp hon)]

theorem msg_setLoop (hnested : s.nested = []) (hnone : s.loop.carried.msg? = none)
    (phase : LoopPhase μ) (hnone' : phase.carried.msg? = none) :
    (s.setLoop phase).carried.msg? = s.carried.msg? := by
  rw [carried_setLoop hnested, carried_idle hnested, hnone, hnone']

/-! ### What a step does to the connection -/

theorem flow_sendCmd (h : LoopThreadInv s) (hruns : s.Runs id)
    (hcall : s.call id = .send ∨ s.call id = .listenerSend) (hnone' : phase.carried.msg? = none)
    (ret : WvIpcRet) : Flow s (s.sendCmd id ret phase) := by
  have hnone : (s.call id).carried.msg? = none := by
    rcases hcall with hcall | hcall <;> rw [hcall] <;> rfl
  rw [IpcClient.sendCmd]
  split_ifs
  · exact .still (.inr ⟨id, hcall, rfl⟩) rfl (h.msg_setCall hruns hnone hnone') rfl rfl
  · exact .still (.inl rfl) rfl (h.msg_finish hruns hnone .error []) rfl rfl
  · exact .still (.inl rfl) rfl (h.msg_finish hruns hnone ret []) rfl rfl

theorem flow_disconnectCall (h : LoopThreadInv s') (hruns : s'.Runs id)
    (hon : (s'.call id).onSocket = true) (hreceived : s'.received = s.received)
    (hreading : s'.reading = s.reading - s.carried.msg?.toList.length) (b : Below μ) :
    Flow s (s'.disconnectCall id b) := by
  have hgone : LoopThreadInv (s'.disconnected b.socketInit) := h.keep rfl rfl rfl
  rw [IpcClient.disconnectCall]
  split_ifs
  · exact .breaks rfl rfl (congrArg Carried.msg? (hgone.carried_setCall hruns hon _)) hreceived
      hreading
  · exact .breaks rfl rfl (congrArg Carried.msg? (hgone.carried_finish hruns hon _ _)) hreceived
      hreading

theorem flow_selectCall {multiOut : List (MsgObject μ)} (h : LoopThreadInv s) (hruns : s.Runs id)
    (hcall : s.call id = .again multiOut) (b : Below μ) (res : SelectResult) :
    Flow s (s.selectCall id multiOut b res) := by
  have hon : (s.call id).onSocket = true := by rw [hcall]; rfl
  have hnone : (s.call id).carried.msg? = none := by rw [hcall]; rfl
  have hidle : s.carried.msg? = none := by rw [h.carried_call hruns hon, hnone]
  have hbreaks : Flow s (s.disconnectCall id b) := by
    refine h.flow_disconnectCall hruns hon rfl ?_ b
    rw [hidle]
    rfl
  cases res with
  | again => exact .still (.inl rfl) rfl rfl rfl rfl
  | failed => exact hbreaks
  | timeout => exact .still (.inl rfl) rfl (h.msg_finish hruns hnone _ _) rfl rfl
  | ready =>
    rw [IpcClient.selectCall]
    split
    · next m rest hstream =>
      split_ifs
      · have hreads : LoopThreadInv (s.startRecv rest) := h.keep rfl rfl rfl
        exact .starts rfl hstream hidle
          (congrArg Carried.msg? (hreads.carried_setCall hruns hon (.recv multiOut m))) rfl rfl
      · exact hbreaks
    · exact hbreaks

theorem flow_recvCall {multiOut : List (MsgObject μ)} {m : ServerMsg μ} (h : LoopThreadInv s)
    (hruns : s.Runs id) (hcall : s.call id = .recv multiOut m) (b : Below μ) :
    Flow s (s.recvCall id multiOut m b) := by
  have hon : (s.call id).onSocket = true := by rw [hcall]; rfl
  have hmsg : s.carried.msg? = some m := by rw [h.carried_call hruns hon, hcall]; rfl
  have hstop : LoopThreadInv s.stopRecv := h.keep rfl rfl rfl
  rw [IpcClient.recvCall]
  split_ifs
  · have hends : LoopThreadInv (s.endRecv (s.object m b.garbled)) := h.keep rfl rfl rfl
    exact .ends rfl rfl hmsg (congrArg Carried.msg? (hends.carried_setCall hruns hon _)) rfl rfl
  · refine hstop.flow_disconnectCall hruns hon (show _ = s.received from rfl) ?_ b
    rw [hmsg]
    rfl

theorem flow_handleCall {multiOut : List (MsgObject μ)} {out : MsgObject μ} (h : LoopThreadInv s)
    (hruns : s.Runs id) (hcall : s.call id = .handle multiOut out) (b : Below μ) :
    Flow s (s.handleCall id multiOut out b) := by
  have hon : (s.call id).onSocket = true := by rw [hcall]; rfl
  have hnone : (s.call id).carried.msg? = none := by rw [hcall]; rfl
  have hidle : s.carried.msg? = none := by rw [h.carried_call hruns hon, hnone]
  have hagain : ∀ parts, (s.setCall id (.again parts)).carried.msg? = s.carried.msg? := fun parts =>
    h.msg_setCall hruns hnone rfl
  have hput : LoopThreadInv (s.putBack [out]) := h.keep rfl rfl rfl
  rw [IpcClient.handleCall]
  cases out.hdr with
  | none =>
    refine hput.flow_disconnectCall hruns hon (show _ = s.received from rfl) ?_ b
    rw [hidle]
    rfl
  | some hdr =>
    dsimp only
    split_ifs
    · exact .still (.inl rfl) rfl (h.msg_finish hruns hnone .cmdFailed [out]) rfl rfl
    · exact .still (.inl rfl) rfl (h.msg_finish hruns hnone .success _) rfl rfl
    · exact .still (.inl rfl) rfl (hagain _) rfl rfl
    · exact .still (.inl rfl) rfl (hagain multiOut) rfl rfl
    · exact .still (.inl rfl) rfl (hagain multiOut) rfl rfl
    · exact .still (.inl rfl) rfl (hagain multiOut) rfl rfl
    · exact .still (.inl rfl) rfl (hagain multiOut) rfl rfl
    · exact .still (.inl rfl) rfl (hagain multiOut) rfl rfl

theorem flow_loopDisconnect (hnested : s'.nested = []) (hreceived : s'.received = s.received)
    (hreading : s'.reading = s.reading - s.carried.msg?.toList.length) (b : Below μ) :
    Flow s (s'.loopDisconnect b) := by
  have hgone : (s'.disconnected b.socketInit).nested = [] := hnested
  refine .breaks rfl rfl ?_ hreceived hreading
  rw [IpcClient.loopDisconnect, carried_setLoop hgone]
  split_ifs
  · rfl
  · rfl
  · rfl

theorem flow_loopSelect (hnested : s.nested = []) (hloop : s.loop = .wait) (b : Below μ)
    (res : SelectResult) : Flow s (s.loopSelect b res) := by
  have hnone : s.loop.carried.msg? = none := by rw [hloop]; rfl
  have hidle : s.carried.msg? = none := by rw [carried_idle hnested, hnone]
  have hbreaks : Flow s (s.loopDisconnect b) := by
    refine flow_loopDisconnect hnested rfl ?_ b
    rw [hidle]
    rfl
  cases res with
  | again => exact .still (.inl rfl) rfl rfl rfl rfl
  | timeout => exact .still (.inl rfl) rfl rfl rfl rfl
  | failed => exact .still (.inl rfl) rfl (msg_setLoop hnested hnone _ rfl) rfl rfl
  | ready =>
    rw [IpcClient.loopSelect]
    split
    · next m rest hstream =>
      split_ifs
      · have hmsg' : ((s.startRecv rest).setLoop (.recv m)).carried.msg? = some m :=
          congrArg Carried.msg? (carried_setLoop (s := s.startRecv rest) hnested (.recv m))
        exact .starts rfl hstream hidle hmsg' rfl rfl
      · exact hbreaks
    · exact hbreaks

theorem flow_loopRecv {m : ServerMsg μ} (hnested : s.nested = []) (hloop : s.loop = .recv m)
    (b : Below μ) : Flow s (s.loopRecv m b) := by
  have hmsg : s.carried.msg? = some m := by rw [carried_idle hnested, hloop]; rfl
  rw [IpcClient.loopRecv]
  split_ifs
  · exact .ends rfl rfl hmsg (congrArg Carried.msg?
      (carried_setLoop (s := s.endRecv (s.object m b.garbled)) hnested (.handle _))) rfl rfl
  · have hstop : s.stopRecv.nested = [] := hnested
    refine flow_loopDisconnect hstop (show _ = s.received from rfl) ?_ b
    rw [hmsg]
    rfl

theorem flow_loopHandle {out : MsgObject μ} (hnested : s.nested = []) (hloop : s.loop = .handle out)
    (eventsThread : Bool) (b : Below μ) : Flow s (s.loopHandle out eventsThread b) := by
  have hnone : s.loop.carried.msg? = none := by rw [hloop]; rfl
  have hhead : (s.setLoop .head).carried.msg? = s.carried.msg? := msg_setLoop hnested hnone _ rfl
  have hclb : (s.setLoop (.callback out)).carried.msg? = s.carried.msg? :=
    msg_setLoop hnested hnone _ rfl
  rw [IpcClient.loopHandle]
  cases out.hdr with
  | none => exact .still (.inl rfl) rfl hhead rfl rfl
  | some hdr =>
    dsimp only
    split_ifs
    · exact .still (.inl rfl) rfl hhead rfl rfl
    · exact .still (.inl rfl) rfl hhead rfl rfl
    · exact .still (.inl rfl) rfl hclb rfl rfl
    · exact .still (.inl rfl) rfl hhead rfl rfl
    · exact .still (.inl rfl) rfl hclb rfl rfl
    · exact .still (.inl rfl) rfl hhead rfl rfl

theorem carried_startCall (h : LoopThreadInv s) (hcalls : CallsInv s) {onLoop : Bool}
    (pushed : Bool)
    (hfree : onLoop = true → s.LoopThreadFree) (hok : onLoop = true ∨ s.listener = true) :
    (s.startCall onLoop pushed).carried = s.carried := by
  have hended : s.call s.numCalls = .ended := hcalls.calls s.numCalls (Nat.le_refl _)
  have hoff : (s.call s.numCalls).onSocket = false := by rw [hended]; rfl
  have hnot : s.numCalls ∉ s.nested := h.not_nested hoff
  cases onLoop with
  | false =>
    have hlistener : s.listener = true := hok.resolve_left Bool.false_ne_true
    cases pushed with
    | true =>
      rw [← h.carried_setCall_off hoff .listenerStart]
      simp [IpcClient.startCall, hlistener, IpcClient.setCall, IpcClient.carried]
    | false => exact h.carried_finish_off hoff .error []
  | true =>
    cases pushed with
    | true =>
      rw [(h.outer_of_free (hfree rfl)).2.2]
      simp [IpcClient.startCall, IpcClient.carried, IpcClient.setCall, SendPhase.carried]
    | false =>
      rw [← h.carried_finish_off hoff .error []]
      simp [IpcClient.startCall, IpcClient.finish, IpcClient.carried, IpcClient.setCall,
        List.erase_of_not_mem hnot]

theorem flow (h : LoopThreadInv s) (hcalls : CallsInv s) {a : ClientAction μ}
    (hok : OnlyLoopReads s a) (hstep : s.step a = some s') : Flow s s' := by
  cases IpcClient.Stepped.of_step hstep with
  | @call onLoop pushed hfree =>
    have hcarried := h.carried_startCall hcalls pushed hfree hok
    have hsame : (s.startCall onLoop pushed).server = s.server ∧
        (s.startCall onLoop pushed).stream = s.stream ∧
          (s.startCall onLoop pushed).received = s.received ∧
            (s.startCall onLoop pushed).reading = s.reading := by
      cases pushed <;> exact ⟨rfl, rfl, rfl, rfl⟩
    obtain ⟨hserver, hstream, hreceived, hreading⟩ := hsame
    exact .still (.inl hserver) hstream (congrArg Carried.msg? hcarried) hreceived hreading
  | startWait hruns hcall =>
    have hnone : (s.call _).carried.msg? = none := congrArg (fun phase => phase.carried.msg?) hcall
    rw [IpcClient.startWait]
    split_ifs
    · exact .still (.inl rfl) rfl (h.msg_setCall hruns hnone rfl) rfl rfl
    · exact .still (.inl rfl) rfl (h.msg_setCall hruns hnone rfl) rfl rfl
    · exact .still (.inl rfl) rfl (h.msg_finish hruns hnone _ _) rfl rfl
    · exact .still (.inl rfl) rfl (h.msg_finish hruns hnone _ _) rfl rfl
  | connect hruns hcall =>
    have hon : (s.call _).onSocket = true := congrArg SendPhase.onSocket hcall
    have hnone : (s.call _).carried.msg? = none := congrArg (fun phase => phase.carried.msg?) hcall
    have hidle : s.carried.msg? = none := by rw [h.carried_call hruns hon, hnone]
    have hconnected : LoopThreadInv s.connected := h.keep rfl rfl rfl
    rw [IpcClient.connect]
    split_ifs
    · exact .still (.inl rfl) rfl (h.msg_setCall hruns hnone rfl) rfl rfl
    · refine .breaks rfl rfl
        (congrArg Carried.msg? (hconnected.carried_setCall hruns hon .send)) rfl ?_
      rw [hidle]
      rfl
    · exact .still (.inl rfl) rfl (h.msg_finish hruns hnone _ _) rfl rfl
    · exact .still (.inl rfl) rfl (h.msg_finish hruns hnone _ _) rfl rfl
  | listenerSend hruns hcall => exact h.flow_sendCmd hruns (.inr hcall) rfl _
  | send hruns hcall => exact h.flow_sendCmd hruns (.inl hcall) rfl _
  | endWait hruns hcall =>
    have hnone : (s.call _).carried.msg? = none := congrArg (fun phase => phase.carried.msg?) hcall
    rw [IpcClient.endWait]
    split
    · exact .still (.inl rfl) rfl (h.msg_finish hruns hnone _ _) rfl rfl
    · next cs _ =>
      exact .still (.inl rfl) rfl (h.msg_finish hruns hnone cs.result.1 cs.result.2) rfl rfl
  | select hruns hcall => exact h.flow_selectCall hruns hcall _ _
  | recv hruns hcall => exact h.flow_recvCall hruns hcall _
  | handle hruns hcall => exact h.flow_handleCall hruns hcall _
  | clbReturns hruns hcall =>
    have hnone : (s.call _).carried.msg? = none := congrArg (fun phase => phase.carried.msg?) hcall
    exact .still (.inl rfl) rfl (h.msg_finish hruns hnone _ _) rfl rfl
  | startLoop hnested hloop =>
    exact .still (.inl rfl) rfl (msg_setLoop hnested (by rw [hloop]; rfl) .head rfl) rfl rfl
  | loopHead hnested hloop =>
    have hnone : s.loop.carried.msg? = none := by rw [hloop]; rfl
    rw [IpcClient.loopHead]
    split_ifs
    · exact .still (.inl rfl) rfl (msg_setLoop hnested hnone _ rfl) rfl rfl
    · split
      · next out rest _ =>
        exact .still (.inl rfl) rfl (msg_setLoop hnested hnone (.handle out) rfl) rfl rfl
      · exact .still (.inl rfl) rfl (msg_setLoop hnested hnone _ rfl) rfl rfl
  | loopConnect hnested hloop =>
    have hnone : s.loop.carried.msg? = none := by rw [hloop]; rfl
    have hidle : s.carried.msg? = none := by rw [carried_idle hnested, hnone]
    have hreading : s.reading = s.reading - s.carried.msg?.toList.length := by rw [hidle]; rfl
    have hconnected : s.connected.nested = [] := hnested
    rw [IpcClient.loopConnect]
    split_ifs
    · exact .breaks rfl rfl (congrArg Carried.msg? (carried_setLoop hconnected _)) rfl hreading
    · exact .breaks rfl rfl (congrArg Carried.msg? (carried_setLoop hconnected _)) rfl hreading
    · exact .still (.inl rfl) rfl rfl rfl rfl
    · exact .still (.inl rfl) rfl (msg_setLoop hnested hnone _ rfl) rfl rfl
  | loopSelect hnested hloop => exact flow_loopSelect hnested hloop _ _
  | loopRecv hnested hloop => exact flow_loopRecv hnested hloop _
  | loopHandle hnested hloop => exact flow_loopHandle hnested hloop _ _
  | loopCallback hnested hloop =>
    have hhead : (s.setLoop .head).carried.msg? = s.carried.msg? :=
      msg_setLoop hnested (by rw [hloop]; rfl) _ rfl
    rw [IpcClient.callbackReturns]
    split_ifs
    · exact .still (.inl rfl) rfl hhead rfl rfl
    · exact .still (.inl rfl) rfl hhead rfl rfl
  | connectionClb hnested hloop =>
    exact .still (.inl rfl) rfl (msg_setLoop hnested (by rw [hloop]; rfl) _ rfl) rfl rfl
  | answer hserver => exact .answers hserver rfl
  | notify _ hm => exact .notifies hm rfl

end LoopThreadInv

end Client

end Dwpal.Ipc
