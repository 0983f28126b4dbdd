import Dwpal.Ipc.LoopThread

/-! The events and the commands of the server that a call of `wave_ipcc_send_cmd_no_listener` reads
while it waits for its reply: they are kept in `queued_msgs` for the event loop. -/

namespace Dwpal.Ipc

open Machine

section Client

variable {μ : Type}

/-- The message is an event or a command, which the event loop hands to a callback. -/
def forCallback (out : MsgObject μ) : Bool :=
  out.hdr.any fun hdr => hdr.header0 = waveIpcMsgEvent ∨ hdr.header0 = waveIpcMsgCmd

/-- The events and commands that were read and not handed over yet. The event loop has taken its
message from the front of `queued_msgs`, or has read it while the list was empty; a call has read
its message last. -/
def IpcClient.kept (s : IpcClient μ) : List (MsgObject μ) :=
  (if s.nested = [] then s.carried.out?.toList ++ s.queuedMsgs
    else s.queuedMsgs ++ s.carried.out?.toList).filter forCallback

/-- The events and commands that were read have been handed over in their order, each once, or are
kept in their order; and where the event loop reads a message, all that were read before have been
handed over. -/
structure EventsInOrder (s : IpcClient μ) : Prop where
  order : s.received.filter forCallback = s.handed ++ s.kept
  reads : ∀ m, s.loop = .recv m → s.handed = s.received.filter forCallback

/-- `ipcc_wait_for_message` reads nothing while a message is kept, there are nodes for those that
are kept, and no callback is missing for those that are handed over. -/
def EventsKept (s : IpcClient μ) : ClientAction μ → Prop
  | .handle id b => ∀ out ∈ (s.call id).out?, forCallback out = true → b.ok = true
  | .loopSelect res _ => res = .ready → s.queuedMsgs = []
  | .loopHandle eventsThread b => ∀ out ∈ s.loop.out?, ∀ hdr ∈ out.hdr,
      (hdr.header0 = waveIpcMsgEvent → s.listener = true ∧ eventsThread = true → b.ok = true) ∧
        (hdr.header0 = waveIpcMsgCmd → b.clb = true)
  | _ => True

instance (s : IpcClient μ) : ∀ a, Decidable (EventsKept s a)
  | .handle id _ => inferInstanceAs (Decidable (∀ out ∈ (s.call id).out?, _ → _))
  | .loopSelect _ _ => inferInstanceAs (Decidable (_ → s.queuedMsgs = []))
  | .loopHandle _ _ =>
    inferInstanceAs (Decidable (∀ out ∈ s.loop.out?, ∀ hdr ∈ out.hdr, (_ → _ → _) ∧ (_ → _)))
  | .call _ _ | .startWait _ _ _ | .connect _ _ | .sendCmd _ _ | .endWait _ | .select _ _ _
  | .recv _ _ | .clbReturns _ | .startLoop _ | .loopHead _ | .loopConnect _ _ | .loopRecv _
  | .loopClbReturns _ | .answer _ _ _ _ | .notify _ => .isTrue trivial

structure EventsInv (s : IpcClient μ) : Prop where
  order : s.received.filter forCallback = s.handed ++ s.kept
  queued : ∀ out ∈ s.queuedMsgs, forCallback out = true
  reads : s.nested = [] → s.carried.msg? ≠ none → s.queuedMsgs = []

namespace EventsInv

variable {s s' : IpcClient μ} {id : Nat} {phase : SendPhase μ} {b : Below μ}
  {out : MsgObject μ} {m : ServerMsg μ} {multiOut : List (MsgObject μ)}

theorem init : EventsInv (.init : IpcClient μ) where
  order := rfl
  queued out hout := by cases hout
  reads _ _ := rfl

/-- A reply is not for a callback. -/
theorem forCallback_reply {hdr : IpcHeader} (hhdr : out.hdr = some hdr)
    (hresp : hdr.header0 = waveIpcMsgResp ∨ hdr.header0 = waveIpcMsgReqFail) :
    forCallback out = false := by
  rw [forCallback, hhdr, Option.any_some, decide_eq_false_iff_not]
  rcases hresp with hresp | hresp <;> rw [hresp] <;> decide

theorem forCallback_some {hdr : IpcHeader} (hhdr : out.hdr = some hdr) : forCallback out = true ↔
    hdr.header0 = waveIpcMsgEvent ∨ hdr.header0 = waveIpcMsgCmd := by
  rw [forCallback, hhdr, Option.any_some, decide_eq_true_eq]

/-! ### What is kept -/

/-- The thread of the loop has nothing in its hands that is for a callback. -/
theorem kept_none (hout : s.carried.out?.toList.filter forCallback = []) :
    s.kept = s.queuedMsgs.filter forCallback := by
  rw [IpcClient.kept]
  split_ifs
  · rw [List.filter_append, hout, List.nil_append]
  · rw [List.filter_append, hout, List.append_nil]

theorem kept_nested {carried : Carried μ} (hcarried : s.carried = carried)
    (hnested : s.nested ≠ []) :
    s.kept = (s.queuedMsgs ++ carried.out?.toList).filter forCallback := by
  rw [IpcClient.kept, if_neg hnested, hcarried]

theorem kept_idle {carried : Carried μ} (hcarried : s.carried = carried) (hnested : s.nested = []) :
    s.kept = (carried.out?.toList ++ s.queuedMsgs).filter forCallback := by
  rw [IpcClient.kept, if_pos hnested, hcarried]

theorem inOrder (h : EventsInv s) (ht : LoopThreadInv s) : EventsInOrder s := by
  refine ⟨h.order, fun m hloop => ?_⟩
  have hnested : s.nested = [] := by
    by_contra hne
    have hleaves := ht.leaves hne
    rw [hloop] at hleaves
    cases hleaves
  have hcarried : s.carried = .receiving m := by
    rw [LoopThreadInv.carried_idle hnested, hloop]
    rfl
  have hqueued : s.queuedMsgs = [] :=
    h.reads hnested (by rw [hcarried]; exact Option.some_ne_none m)
  rw [h.order, kept_none (by rw [hcarried]; rfl), hqueued]
  exact (List.append_nil _).symm

/-! ### What the steps are made of -/

/-- The thread of the loop has nothing in its hands afterwards, and had nothing for a callback in
them before. -/
theorem idles (h : EventsInv s) (hout : s.carried.out?.toList.filter forCallback = [])
    (hcarried : s'.carried = .nothing) (hreceived : s'.received = s.received)
    (hhanded : s'.handed = s.handed) (hqueued : s'.queuedMsgs = s.queuedMsgs) : EventsInv s' where
  order := by
    rw [hreceived, hhanded, h.order, kept_none hout, kept_none (by rw [hcarried]; rfl), hqueued]
  queued := by
    rw [hqueued]
    exact h.queued
  reads _ hmsg := absurd (by rw [hcarried]; rfl) hmsg

/-- The thread of the loop has to do with nothing of it. -/
theorem other (h : EventsInv s) (hcarried : s'.carried = s.carried) (hnested : s'.nested = s.nested)
    (hreceived : s'.received = s.received) (hhanded : s'.handed = s.handed)
    (hqueued : s'.queuedMsgs = s.queuedMsgs) : EventsInv s' where
  order := by
    rw [hreceived, hhanded, h.order, IpcClient.kept, IpcClient.kept, hcarried, hnested, hqueued]
  queued := by
    rw [hqueued]
    exact h.queued
  reads := by
    rw [hcarried, hnested, hqueued]
    exact h.reads

/-- A message begins to be received. -/
theorem starts (h : EventsInv s) (hout : s.carried.out? = none)
    (hcarried : s'.carried = .receiving m)
    (hreceived : s'.received = s.received) (hhanded : s'.handed = s.handed)
    (hqueued : s'.queuedMsgs = s.queuedMsgs) (hreads : s'.nested = [] → s.queuedMsgs = []) :
    EventsInv s' where
  order := by
    rw [hreceived, hhanded, h.order, kept_none (by rw [hout]; rfl),
      kept_none (by rw [hcarried]; rfl), hqueued]
  queued := by
    rw [hqueued]
    exact h.queued
  reads hnested _ := by
    rw [hqueued]
    exact hreads hnested

/-- A call that is on the socket and goes on has nothing for a callback in its hands. -/
theorem goesOn (h : EventsInv s) (ht : LoopThreadInv s) (hruns : s.Runs id)
    (hon : (s.call id).onSocket = true)
    (hout : (s.call id).carried.out?.toList.filter forCallback = [])
    (hnone : phase.carried = .nothing) : EventsInv (s.setCall id phase) :=
  h.idles (by rw [ht.carried_call hruns hon]; exact hout)
    ((ht.carried_setCall hruns hon phase).trans hnone) rfl rfl rfl

theorem ends (h : EventsInv s) (ht : LoopThreadInv s) (hruns : s.Runs id)
    (hon : (s.call id).onSocket = true)
    (hout : (s.call id).carried.out?.toList.filter forCallback = []) (ret : WvIpcRet)
    (reply : List (MsgObject μ)) : EventsInv (s.finish id ret reply) :=
  h.idles (by rw [ht.carried_call hruns hon]; exact hout)
    (ht.carried_finish hruns hon ret reply) rfl
    rfl rfl

theorem otherGoesOn (h : EventsInv s) (ht : LoopThreadInv s) (hoff : (s.call id).onSocket = false) :
    EventsInv (s.setCall id phase) :=
  h.other (ht.carried_setCall_off hoff phase) rfl rfl rfl rfl

theorem otherEnds (h : EventsInv s) (ht : LoopThreadInv s) (hoff : (s.call id).onSocket = false)
    (ret : WvIpcRet) (reply : List (MsgObject μ)) : EventsInv (s.finish id ret reply) :=
  h.other (ht.carried_finish_off hoff ret reply)
    (List.erase_of_not_mem (ht.not_nested hoff)) rfl rfl
    rfl

/-- The messages, the calls, the thread and the loop stay as they are. -/
theorem keep (h : EventsInv s) (hcall : s'.call = s.call) (hnested : s'.nested = s.nested)
    (hloop : s'.loop = s.loop) (hreceived : s'.received = s.received)
    (hhanded : s'.handed = s.handed) (hqueued : s'.queuedMsgs = s.queuedMsgs) : EventsInv s' := by
  refine h.other ?_ hnested hreceived hhanded hqueued
  rw [IpcClient.carried, IpcClient.carried, hcall, hnested, hloop]

/-- The loop goes on with nothing in its hands, and had nothing for a callback in them. -/
theorem loopMoves (h : EventsInv s) (hnested : s.nested = [])
    (hout : s.loop.carried.out?.toList.filter forCallback = []) {next : LoopPhase μ}
    (hnone : next.carried = .nothing) : EventsInv (s.setLoop next) :=
  h.idles (by rw [LoopThreadInv.carried_idle hnested]; exact hout)
    ((LoopThreadInv.carried_setLoop hnested next).trans hnone) rfl rfl rfl

/-! ### The steps of a call -/

theorem startCall (h : EventsInv s) (ht : LoopThreadInv s) (hcalls : CallsInv s) {onLoop : Bool}
    (pushed : Bool) (hfree : onLoop = true → s.LoopThreadFree)
    (hok : onLoop = true ∨ s.listener = true) : EventsInv (s.startCall onLoop pushed) := by
  have hcarried := ht.carried_startCall hcalls pushed hfree hok
  have hnot : s.numCalls ∉ s.nested :=
    ht.not_nested (by rw [hcalls.calls s.numCalls (Nat.le_refl _)]; rfl)
  cases onLoop with
  | true =>
    have hidle := (ht.outer_of_free (hfree rfl)).2.2
    cases pushed <;> exact h.idles (by rw [hidle]; rfl) (hcarried.trans hidle) rfl rfl rfl
  | false =>
    cases pushed with
    | true => exact h.other hcarried rfl rfl rfl rfl
    | false => exact h.other hcarried (List.erase_of_not_mem hnot) rfl rfl rfl

theorem startWait (h : EventsInv s) (ht : LoopThreadInv s) (hcall : s.call id = .listenerStart)
    (obj node : Bool) : EventsInv (s.startWait id obj node) := by
  have hoff : (s.call id).onSocket = false := by rw [hcall]; rfl
  have hwaits : EventsInv (s.setCall id .listenerSend) := h.otherGoesOn ht hoff
  rw [IpcClient.startWait]
  split_ifs
  · exact hwaits.keep rfl rfl rfl rfl rfl rfl
  · exact hwaits.keep rfl rfl rfl rfl rfl rfl
  · exact h.otherEnds ht hoff .error []
  · exact h.otherEnds ht hoff .disconnected []

theorem connect (h : EventsInv s) (ht : LoopThreadInv s) (hruns : s.Runs id)
    (hcall : s.call id = .start) (ok : Bool) : EventsInv (s.connect id ok) := by
  have hon : (s.call id).onSocket = true := by rw [hcall]; rfl
  have hout : (s.call id).carried.out?.toList.filter forCallback = [] := by rw [hcall]; rfl
  have hsends : EventsInv (s.setCall id .send) := h.goesOn ht hruns hon hout rfl
  rw [IpcClient.connect]
  split_ifs
  · exact hsends
  · exact hsends.keep rfl rfl rfl rfl rfl rfl
  · exact h.ends ht hruns hon hout .disconnected []
  · exact h.ends ht hruns hon hout .error []

theorem listenerSend (h : EventsInv s) (ht : LoopThreadInv s) (hcall : s.call id = .listenerSend)
    (ret : WvIpcRet) : EventsInv (s.sendCmd id ret .listenerWait) := by
  have hoff : (s.call id).onSocket = false := by rw [hcall]; rfl
  have hwaits : EventsInv (s.setCall id .listenerWait) := h.otherGoesOn ht hoff
  rw [IpcClient.sendCmd]
  split_ifs
  · exact hwaits.keep rfl rfl rfl rfl rfl rfl
  · exact (h.otherEnds ht hoff .error []).keep rfl rfl rfl rfl rfl rfl
  · exact (h.otherEnds ht hoff ret []).keep rfl rfl rfl rfl rfl rfl

theorem send (h : EventsInv s) (ht : LoopThreadInv s) (hruns : s.Runs id)
    (hcall : s.call id = .send) (ret : WvIpcRet) : EventsInv (s.sendCmd id ret (.again [])) := by
  have hon : (s.call id).onSocket = true := by rw [hcall]; rfl
  have hout : (s.call id).carried.out?.toList.filter forCallback = [] := by rw [hcall]; rfl
  have hgoes : EventsInv (s.setCall id (.again [])) := h.goesOn ht hruns hon hout rfl
  rw [IpcClient.sendCmd]
  split_ifs
  · exact hgoes.keep rfl rfl rfl rfl rfl rfl
  · exact (h.ends ht hruns hon hout .error []).keep rfl rfl rfl rfl rfl rfl
  · exact (h.ends ht hruns hon hout ret []).keep rfl rfl rfl rfl rfl rfl

theorem endWait (h : EventsInv s) (ht : LoopThreadInv s) (hcall : s.call id = .listenerWait) :
    EventsInv (s.endWait id) := by
  have hoff : (s.call id).onSocket = false := by rw [hcall]; rfl
  rw [IpcClient.endWait]
  split
  · exact h.otherEnds ht hoff .error []
  · next cs _ =>
    exact (h.otherEnds ht hoff cs.result.1 cs.result.2).keep rfl rfl rfl rfl rfl rfl

theorem disconnectCall (h : EventsInv s) (ht : LoopThreadInv s) (hruns : s.Runs id)
    (hon : (s.call id).onSocket = true)
    (hout : (s.call id).carried.out?.toList.filter forCallback = []) (b : Below μ) :
    EventsInv (s.disconnectCall id b) := by
  have hgoes : EventsInv (s.setCall id .disconnectClb) := h.goesOn ht hruns hon hout rfl
  rw [IpcClient.disconnectCall]
  split_ifs
  · exact hgoes.keep rfl rfl rfl rfl rfl rfl
  · exact (h.ends ht hruns hon hout .disconnected []).keep rfl rfl rfl rfl rfl rfl

theorem selectCall (h : EventsInv s) (ht : LoopThreadInv s) (hruns : s.Runs id)
    (hcall : s.call id = .again multiOut) (b : Below μ) (res : SelectResult) :
    EventsInv (s.selectCall id multiOut b res) := by
  have hon : (s.call id).onSocket = true := by rw [hcall]; rfl
  have hout : (s.call id).carried.out?.toList.filter forCallback = [] := by rw [hcall]; rfl
  cases res with
  | again => exact h
  | failed => exact h.disconnectCall ht hruns hon hout b
  | timeout => exact h.ends ht hruns hon hout .error []
  | ready =>
    rw [IpcClient.selectCall]
    split
    · next m rest hstream =>
      split_ifs
      · have hreads : LoopThreadInv (s.startRecv rest) := ht.keep rfl rfl rfl
        have hidle : s.carried.out? = none := by rw [ht.carried_call hruns hon, hcall]; rfl
        obtain ⟨_, hnested⟩ := ht.innermost hruns hon
        refine h.starts hidle (hreads.carried_setCall hruns hon (.recv multiOut m)) rfl rfl rfl
          fun hnil => ?_
        cases hnested.symm.trans hnil
      · exact h.disconnectCall ht hruns hon hout b
    · exact h.disconnectCall ht hruns hon hout b

theorem recvCall (h : EventsInv s) (ht : LoopThreadInv s) (hruns : s.Runs id)
    (hcall : s.call id = .recv multiOut m) (b : Below μ) :
    EventsInv (s.recvCall id multiOut m b) := by
  have hon : (s.call id).onSocket = true := by rw [hcall]; rfl
  have hstop : EventsInv s.stopRecv := h.keep rfl rfl rfl rfl rfl rfl
  have htstop : LoopThreadInv s.stopRecv := ht.keep rfl rfl rfl
  rw [IpcClient.recvCall]
  split_ifs
  · have hends : LoopThreadInv (s.endRecv (s.object m b.garbled)) := ht.keep rfl rfl rfl
    have hcarried := hends.carried_setCall hruns hon (.handle multiOut (s.object m b.garbled))
    have hidle : s.carried.out?.toList.filter forCallback = [] := by
      rw [ht.carried_call hruns hon, hcall]
      rfl
    obtain ⟨rest, hnested⟩ := ht.innermost hruns hon
    have hne : s.nested ≠ [] := by rw [hnested]; exact List.cons_ne_nil id rest
    refine ⟨?_, h.queued, fun hnil => absurd hnil hne⟩
    rw [kept_nested hcarried hne]
    show (s.received ++ [s.object m b.garbled]).filter forCallback =
      s.handed ++ (s.queuedMsgs ++ [s.object m b.garbled]).filter forCallback
    rw [List.filter_append, h.order, kept_none hidle, List.filter_append, List.append_assoc]
  · exact hstop.disconnectCall htstop hruns hon (by
      show (s.call id).carried.out?.toList.filter forCallback = []
      rw [hcall]
      rfl) b

theorem handleCall (h : EventsInv s) (ht : LoopThreadInv s) (hruns : s.Runs id)
    (hcall : s.call id = .handle multiOut out) (hnode : forCallback out = true → b.ok = true) :
    EventsInv (s.handleCall id multiOut out b) := by
  have hon : (s.call id).onSocket = true := by rw [hcall]; rfl
  have hcarried : s.carried = .holding out := by rw [ht.carried_call hruns hon, hcall]; rfl
  have hnone : forCallback out = false → (s.call id).carried.out?.toList.filter forCallback =
      [] := by
    intro hother
    rw [hcall]
    exact List.filter_cons_of_neg (by rw [hother]; exact Bool.false_ne_true)
  have hput : EventsInv (s.putBack [out]) := h.keep rfl rfl rfl rfl rfl rfl
  have htput : LoopThreadInv (s.putBack [out]) := ht.keep rfl rfl rfl
  have hagain : forCallback out = false → ∀ parts, EventsInv (s.setCall id (.again parts)) :=
    fun hother parts => h.goesOn ht hruns hon (hnone hother) rfl
  rw [IpcClient.handleCall]
  cases hhdr : out.hdr with
  | none =>
    have hother : forCallback out = false := by rw [forCallback, hhdr]; rfl
    exact hput.disconnectCall htput hruns hon (hnone hother) b
  | some hdr =>
    dsimp only
    split_ifs with hresp hseq hfail hlast hlistener hevent hok
    · have hends : EventsInv (s.finish id .cmdFailed [out]) :=
        h.ends ht hruns hon (hnone (forCallback_reply hhdr hresp)) .cmdFailed [out]
      exact hends.keep rfl rfl rfl rfl rfl rfl
    · exact h.ends ht hruns hon (hnone (forCallback_reply hhdr hresp)) _ _
    · exact hagain (forCallback_reply hhdr hresp) _
    · exact (hagain (forCallback_reply hhdr hresp) multiOut).keep rfl rfl rfl rfl rfl rfl
    · exact (hagain (forCallback_reply hhdr hresp) multiOut).keep rfl rfl rfl rfl rfl rfl
    · -- the message is kept for the event loop
      have hfor : forCallback out = true := (forCallback_some hhdr).mpr hevent
      obtain ⟨rest, hnested⟩ := ht.innermost hruns hon
      have hne : s.nested ≠ [] := by rw [hnested]; exact List.cons_ne_nil id rest
      have hcarried' := ht.carried_setCall hruns hon (.again multiOut)
      refine ⟨?_, fun x hx => ?_, fun hnil => absurd hnil hne⟩
      · have hkept := kept_nested (s := { s.setCall id (.again multiOut) with
            queuedMsgs := s.queuedMsgs ++ [out] }) hcarried' hne
        have horder := h.order
        rw [kept_nested hcarried hne] at horder
        refine horder.trans (congrArg (s.handed ++ ·) (Eq.trans ?_ hkept.symm))
        exact congrArg (List.filter forCallback) (List.append_nil _).symm
      · rcases List.mem_append.mp hx with hx | hx
        · exact h.queued x hx
        · rwa [List.mem_singleton.mp hx]
    · exact absurd (hnode ((forCallback_some hhdr).mpr hevent)) hok
    · have hother : forCallback out = false :=
        (Bool.not_eq_true _).mp fun hfor => hevent ((forCallback_some hhdr).mp hfor)
      exact (hagain hother multiOut).keep rfl rfl rfl rfl rfl rfl

/-! ### The steps of the event loop -/

theorem loopHead (h : EventsInv s) (hnested : s.nested = []) (hloop : s.loop = .head)
    (stop : Bool) : EventsInv (s.loopHead stop) := by
  have hout : s.loop.carried.out?.toList.filter forCallback = [] := by rw [hloop]; rfl
  have hidle : s.carried = .nothing := by rw [LoopThreadInv.carried_idle hnested, hloop]; rfl
  rw [IpcClient.loopHead]
  split_ifs
  · exact h.loopMoves hnested hout rfl
  · split
    · next first rest hqueued =>
      have hcarried : (s.setLoop (.handle first)).carried = .holding first :=
        LoopThreadInv.carried_setLoop hnested _
      refine ⟨?_, fun x hx => h.queued x (hqueued ▸ List.mem_cons_of_mem first hx),
        fun _ hmsg => absurd (congrArg Carried.msg? hcarried) hmsg⟩
      have hkept := kept_idle (s := { s.setLoop (.handle first) with queuedMsgs := rest }) hcarried
        hnested
      have horder := h.order
      rw [kept_none (by rw [hidle]; rfl), hqueued] at horder
      exact horder.trans (congrArg (s.handed ++ ·) hkept.symm)
    · exact h.loopMoves hnested hout rfl

theorem loopConnect (h : EventsInv s) (hnested : s.nested = []) (hloop : s.loop = .wait)
    (ret : WvIpcRet) (clb : Bool) : EventsInv (s.loopConnect ret clb) := by
  have hout : s.loop.carried.out?.toList.filter forCallback = [] := by rw [hloop]; rfl
  have hconnected : EventsInv s.connected := h.keep rfl rfl rfl rfl rfl rfl
  rw [IpcClient.loopConnect]
  split_ifs
  · exact hconnected.loopMoves hnested hout rfl
  · exact hconnected.loopMoves hnested hout rfl
  · exact h
  · exact h.loopMoves hnested hout rfl

theorem loopDisconnect (h : EventsInv s) (hnested : s.nested = [])
    (hout : s.loop.carried.out?.toList.filter forCallback = []) (b : Below μ) :
    EventsInv (s.loopDisconnect b) := by
  have hgone : EventsInv (s.disconnected b.socketInit) := h.keep rfl rfl rfl rfl rfl rfl
  rw [IpcClient.loopDisconnect]
  split_ifs
  · exact hgone.loopMoves hnested hout rfl
  · exact hgone.loopMoves hnested hout rfl
  · exact hgone.loopMoves hnested hout rfl

theorem loopSelect (h : EventsInv s) (hnested : s.nested = []) (hloop : s.loop = .wait)
    (b : Below μ) {res : SelectResult} (hok : res = .ready → s.queuedMsgs = []) :
    EventsInv (s.loopSelect b res) := by
  have hout : s.loop.carried.out?.toList.filter forCallback = [] := by rw [hloop]; rfl
  cases res with
  | again => exact h
  | timeout => exact h
  | failed => exact h.loopMoves hnested hout rfl
  | ready =>
    rw [IpcClient.loopSelect]
    split
    · next m rest hstream =>
      split_ifs
      · have hidle : s.carried.out? = none := by
          rw [LoopThreadInv.carried_idle hnested, hloop]
          rfl
        have hcarried : ((s.startRecv rest).setLoop (.recv m)).carried = .receiving m :=
          LoopThreadInv.carried_setLoop (s := s.startRecv rest) hnested _
        exact h.starts hidle hcarried rfl rfl rfl fun _ => hok rfl
      · exact h.loopDisconnect hnested hout b
    · exact h.loopDisconnect hnested hout b

theorem loopRecv (h : EventsInv s) (hnested : s.nested = []) (hloop : s.loop = .recv m)
    (b : Below μ) : EventsInv (s.loopRecv m b) := by
  have hout : s.loop.carried.out?.toList.filter forCallback = [] := by rw [hloop]; rfl
  have hstop : EventsInv s.stopRecv := h.keep rfl rfl rfl rfl rfl rfl
  rw [IpcClient.loopRecv]
  split_ifs
  · have hreceiving : s.carried = .receiving m := by
      rw [LoopThreadInv.carried_idle hnested, hloop]
      rfl
    have hqueued : s.queuedMsgs = [] :=
      h.reads hnested (by rw [hreceiving]; exact Option.some_ne_none m)
    have hcarried := LoopThreadInv.carried_setLoop (s := s.endRecv (s.object m b.garbled)) hnested
      (.handle (s.object m b.garbled))
    refine ⟨?_, h.queued, fun _ hmsg => absurd (congrArg Carried.msg? hcarried) hmsg⟩
    rw [kept_idle hcarried hnested]
    show (s.received ++ [s.object m b.garbled]).filter forCallback =
      s.handed ++ ([s.object m b.garbled] ++ s.queuedMsgs).filter forCallback
    rw [List.filter_append, h.order, kept_none (by rw [hreceiving]; rfl), hqueued, List.filter_nil,
      List.append_nil, List.append_nil]
  · exact hstop.loopDisconnect hnested hout b

/-- The loop has handed a message over. -/
theorem loopHands (h : EventsInv s) (hnested : s.nested = []) (hloop : s.loop = .handle out)
    (hfor : forCallback out = true) {next : LoopPhase μ} (hnone : next.carried = .nothing) :
    EventsInv { s.setLoop next with handed := s.handed ++ [out] } := by
  have hholding : s.carried = .holding out := by
    rw [LoopThreadInv.carried_idle hnested, hloop]
    rfl
  have hcarried : (s.setLoop next).carried = .nothing :=
    (LoopThreadInv.carried_setLoop hnested next).trans hnone
  refine ⟨?_, h.queued, fun _ hmsg => absurd (congrArg Carried.msg? hcarried) hmsg⟩
  have hkept := kept_idle (s := { s.setLoop next with handed := s.handed ++ [out] })
    hcarried hnested
  have horder := h.order
  rw [kept_idle hholding hnested] at horder
  calc s.received.filter forCallback
      = s.handed ++ ([out] ++ s.queuedMsgs).filter forCallback := horder
    _ = s.handed ++ ([out] ++ s.queuedMsgs.filter forCallback) :=
        congrArg (s.handed ++ ·) (List.filter_cons_of_pos hfor)
    _ = s.handed ++ [out] ++ s.queuedMsgs.filter forCallback := (List.append_assoc _ _ _).symm
    _ = _ := congrArg (s.handed ++ [out] ++ ·) hkept.symm

theorem loopHandle (h : EventsInv s) (hnested : s.nested = []) (hloop : s.loop = .handle out)
    {eventsThread : Bool}
    (hok : ∀ hdr ∈ out.hdr,
      (hdr.header0 = waveIpcMsgEvent → s.listener = true ∧ eventsThread = true → b.ok = true) ∧
        (hdr.header0 = waveIpcMsgCmd → b.clb = true)) :
    EventsInv (s.loopHandle out eventsThread b) := by
  have hdrops : forCallback out = false → EventsInv (s.setLoop .head) := fun hother => by
    refine h.loopMoves hnested ?_ rfl
    rw [hloop]
    exact List.filter_cons_of_neg (by rw [hother]; exact Bool.false_ne_true)
  have hput : forCallback out = false → EventsInv ((s.putBack [out]).setLoop .head) := fun hother =>
    (hdrops hother).keep rfl rfl rfl rfl rfl rfl
  rw [IpcClient.loopHandle]
  cases hhdr : out.hdr with
  | none => exact hput (by rw [forCallback, hhdr]; rfl)
  | some hdr =>
    obtain ⟨hpushed, hclb⟩ := hok hdr hhdr
    have hfor := forCallback_some hhdr
    dsimp only
    split_ifs with hevent hthread hdone hresp hcmd
    · have hhands : EventsInv { s.setLoop .head with handed := s.handed ++ [out] } :=
        h.loopHands hnested hloop (hfor.mpr (.inl hevent)) rfl
      exact hhands.keep rfl rfl rfl rfl rfl rfl
    · exact absurd (hpushed hevent hthread) hdone
    · exact h.loopHands hnested hloop (hfor.mpr (.inl hevent)) rfl
    · exact (hdrops (forCallback_reply hhdr hresp.2)).keep rfl rfl rfl rfl rfl rfl
    · exact h.loopHands hnested hloop (hfor.mpr (.inr hcmd.1)) rfl
    · refine hput ((Bool.not_eq_true _).mp fun htrue => ?_)
      rcases hfor.mp htrue with hev | hcommand
      · exact hevent hev
      · exact hcmd ⟨hcommand, hclb hcommand⟩

theorem callbackReturns (h : EventsInv s) (hnested : s.nested = []) (hloop : s.loop = .callback out)
    (takesOwnership : Bool) : EventsInv (s.callbackReturns out takesOwnership) := by
  have hhead : EventsInv (s.setLoop .head) := h.loopMoves hnested (by rw [hloop]; rfl) rfl
  rw [IpcClient.callbackReturns]
  split_ifs
  · exact hhead.keep rfl rfl rfl rfl rfl rfl
  · exact hhead.keep rfl rfl rfl rfl rfl rfl

theorem step (h : EventsInv s) (ht : LoopThreadInv s) (hcalls : CallsInv s) {a : ClientAction μ}
    (hok : OnlyLoopReads s a ∧ EventsKept s a) (hstep : s.step a = some s') : EventsInv s' := by
  obtain ⟨hreads, hkept⟩ := hok
  cases IpcClient.Stepped.of_step hstep with
  | call hfree => exact h.startCall ht hcalls _ hfree hreads
  | startWait _ hcall => exact h.startWait ht hcall _ _
  | connect hruns hcall => exact h.connect ht hruns hcall _
  | listenerSend _ hcall => exact h.listenerSend ht hcall _
  | send hruns hcall => exact h.send ht hruns hcall _
  | endWait _ hcall => exact h.endWait ht hcall
  | select hruns hcall => exact h.selectCall ht hruns hcall _ _
  | recv hruns hcall => exact h.recvCall ht hruns hcall _
  | handle hruns hcall =>
    rw [EventsKept, hcall] at hkept
    exact h.handleCall ht hruns hcall (hkept _ rfl)
  | clbReturns hruns hcall =>
    exact h.ends ht hruns (by rw [hcall]; rfl) (by rw [hcall]; rfl) .disconnected []
  | startLoop hnested hloop =>
    have hhead : EventsInv (s.setLoop .head) := h.loopMoves hnested (by rw [hloop]; rfl) rfl
    exact hhead.keep rfl rfl rfl rfl rfl rfl
  | loopHead hnested hloop => exact h.loopHead hnested hloop _
  | loopConnect hnested hloop => exact h.loopConnect hnested hloop _ _
  | loopSelect hnested hloop => exact h.loopSelect hnested hloop _ hkept
  | loopRecv hnested hloop => exact h.loopRecv hnested hloop _
  | loopHandle hnested hloop =>
    rw [EventsKept, hloop] at hkept
    exact h.loopHandle hnested hloop (hkept _ rfl)
  | loopCallback hnested hloop => exact h.callbackReturns hnested hloop _
  | connectionClb hnested hloop => exact h.loopMoves hnested (by rw [hloop]; rfl) rfl
  | answer => exact h.keep rfl rfl rfl rfl rfl rfl
  | notify => exact h.keep rfl rfl rfl rfl rfl rfl

end EventsInv

variable {s s' : IpcClient μ}

/-- What holds in a run where only the thread of the event loop reads. -/
structure ParkedInv (s : IpcClient μ) : Prop where
  calls : CallsInv s
  thread : LoopThreadInv s
  events : EventsInv s

theorem ParkedInv.init : ParkedInv (.init : IpcClient μ) :=
  ⟨CallsInv.init, LoopThreadInv.init, EventsInv.init⟩

theorem ParkedInv.step (h : ParkedInv s) {a : ClientAction μ}
    (hok : OnlyLoopReads s a ∧ EventsKept s a) (hstep : s.step a = some s') : ParkedInv s' :=
  ⟨h.calls.step hstep, h.thread.step h.calls hok.1 hstep, h.events.step h.thread h.calls hok hstep⟩

/-- Where nothing is kept when `ipcc_wait_for_message` reads, every event and every command of the
server that is read while calls wait for replies is handed over once, in order, and before any
message read later. -/
theorem events_inOrder {as : List (ClientAction μ)}
    (hok : Along IpcClient.step (fun s a => OnlyLoopReads s a ∧ EventsKept s a) .init as)
    (hrun : exec IpcClient.step .init as = some s) : EventsInOrder s := by
  have hinv := exec_along (fun h hok hstep => ParkedInv.step h hok hstep) ParkedInv.init hok hrun
  exact hinv.events.inOrder hinv.thread

/-- The callback for an event sends a command, and another event comes before its reply. -/
def parkedEvent : List (ClientAction Nat) :=
  let below : Below Nat := ⟨true, true, true, ⟨none, 0, none⟩⟩
  let event (msg : Nat) : ServerMsg Nat := ⟨some ⟨waveIpcMsgEvent, 0, 0, 0⟩, msg, none⟩
  [.startLoop false, .loopHead false, .loopConnect .success false, .notify (event 7),
    .loopSelect .ready below, .loopRecv below, .loopHandle false below, .call true true,
    .connect 0 true, .sendCmd 0 .success, .notify (event 8), .answer 0 false 0 9,
    .select 0 .ready below, .recv 0 below, .handle 0 below, .select 0 .ready below, .recv 0 below,
    .handle 0 below, .loopClbReturns false, .loopHead false, .loopHandle false below]

theorem events_inOrder_parked :
    ∃ s, exec IpcClient.step .init parkedEvent = some s ∧ EventsInOrder s :=
  ⟨_, rfl, @events_inOrder _ _ parkedEvent (by decide) rfl⟩

end Client

end Dwpal.Ipc
