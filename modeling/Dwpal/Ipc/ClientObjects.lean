import Dwpal.Ipc.ClientCmd
import Dwpal.Lib.Tally

/-! Who owns the message objects that a client receives: a call or the event loop that has one in
its hands, the entry of a call that waits, the list of messages kept for the event loop, the caller
of `wave_ipcc_send_cmd_ex`, the callback that took it over, or the pool. -/

namespace Dwpal.Ipc

open Machine Tally

section Client

variable {μ : Type}

/-- How often an object is among messages. -/
def countObj (obj : Nat) (objs : List (MsgObject μ)) : Nat := (objs.map MsgObject.obj).count obj

/-- The objects that a call has in its hands. -/
def SendPhase.objects : SendPhase μ → List (MsgObject μ)
  | .again multiOut | .recv multiOut _ => multiOut
  | .handle multiOut out => multiOut ++ [out]
  | _ => []

def LoopPhase.objects : LoopPhase μ → List (MsgObject μ)
  | .handle out | .callback out => [out]
  | _ => []

/-- The parts of replies that wait for the last one. -/
def pendingParts (respList : List (ClientResponse μ)) : List (MsgObject μ) :=
  respList.flatMap ClientResponse.response

/-- In how many places an object is. -/
def IpcClient.places (s : IpcClient μ) (obj : Nat) : Nat :=
  tally (fun phase : SendPhase μ => countObj obj phase.objects) s.call s.numCalls +
    countObj obj s.loop.objects + countObj obj (pendingParts s.respList) +
      countObj obj s.queuedMsgs + countObj obj (s.returned.flatMap CallReturn.reply) +
        countObj obj s.taken + countObj obj s.put

/-- Every object that was received is in one place, and it was handed over or put back at most
once. -/
def ObjectsConserved (s : IpcClient μ) : Prop :=
  ∀ obj, s.places obj = (List.range s.received.length).count obj

/-- The parts of its reply that a call has. -/
def SendPhase.parts : SendPhase μ → List (MsgObject μ)
  | .again multiOut | .recv multiOut _ | .handle multiOut _ => multiOut
  | _ => []

/-- A call that waits for a message ends without one. -/
def GivesUp (s : IpcClient μ) (res : SelectResult) (b : Below μ) : Prop :=
  res = .failed ∨ res = .timeout ∨ res = .ready ∧ (b.ok = false ∨ s.stream = [])

instance (s : IpcClient μ) (res : SelectResult) (b : Below μ) : Decidable (GivesUp s res b) :=
  inferInstanceAs (Decidable (_ ∨ _ ∨ _ ∧ (_ ∨ _)))

/-- A call gives up only where no part of its reply has arrived, and there is a node for each
message that is kept for the event loop. -/
def PartsKept (s : IpcClient μ) : ClientAction μ → Prop
  | .sendCmd id ret => ret ≠ .success ∨ s.isConnected = false →
      ∀ cs ∈ s.respList, cs.call = id → cs.response = []
  | .endWait id => ∀ cs ∈ s.respList, cs.call = id → cs.status = .respNone → cs.response = []
  | .select id res b => GivesUp s res b → (s.call id).parts = []
  | .recv id b => b.ok = false → (s.call id).parts = []
  | .handle id b => ∀ out ∈ (s.call id).out?, (out.hdr = none → (s.call id).parts = []) ∧
      ∀ hdr ∈ out.hdr, hdr.header0 = waveIpcMsgEvent ∨ hdr.header0 = waveIpcMsgCmd → b.ok = true
  | _ => True

instance (s : IpcClient μ) : ∀ a, Decidable (PartsKept s a)
  | .sendCmd _ _ => inferInstanceAs (Decidable (_ ∨ _ → ∀ cs ∈ s.respList, _ → _))
  | .endWait _ => inferInstanceAs (Decidable (∀ cs ∈ s.respList, _ → _ → _))
  | .select _ _ _ => inferInstanceAs (Decidable (_ → _))
  | .recv _ _ => inferInstanceAs (Decidable (_ → _))
  | .handle id _ =>
    inferInstanceAs (Decidable (∀ out ∈ (s.call id).out?, _ ∧ ∀ hdr ∈ out.hdr, _ → _))
  | .call _ _ | .startWait _ _ _ | .connect _ _ | .clbReturns _ | .startLoop _ | .loopHead _
  | .loopConnect _ _ | .loopSelect _ _ | .loopRecv _ | .loopHandle _ _ | .loopClbReturns _
  | .answer _ _ _ _ | .notify _ => .isTrue trivial

variable {s s' : IpcClient μ} {id obj : Nat} {objs multiOut : List (MsgObject μ)}
  {out : MsgObject μ} {m : ServerMsg μ} {b : Below μ} {respList : List (ClientResponse μ)}

@[simp] theorem countObj_nil (obj : Nat) : countObj obj ([] : List (MsgObject μ)) = 0 := rfl

@[simp] theorem countObj_append (obj : Nat) (xs ys : List (MsgObject μ)) :
    countObj obj (xs ++ ys) = countObj obj xs + countObj obj ys := by
  rw [countObj, List.map_append, List.count_append]
  rfl

theorem pendingParts_cons (cs : ClientResponse μ) (respList : List (ClientResponse μ)) :
    pendingParts (cs :: respList) = cs.response ++ pendingParts respList := rfl

/-! ### The list of the calls that wait -/

/-- The message goes into an entry, and what it replaces goes back. -/
theorem countObj_answered (cs : ClientResponse μ) (hdr : IpcHeader) (resp : MsgObject μ) :
    countObj obj (cs.answered hdr resp).1.response + countObj obj (cs.answered hdr resp).2 =
      countObj obj cs.response + countObj obj [resp] := by
  rw [ClientResponse.answered]
  split_ifs
  · rw [countObj_append, countObj_nil, Nat.add_zero]
  · rw [countObj_append, countObj_nil, Nat.add_zero]
  · exact Nat.add_comm _ _

theorem countObj_handleResponse (hdr : IpcHeader) (resp : MsgObject μ) :
    countObj obj (pendingParts (ipccHandleResponse hdr resp respList).1) +
        countObj obj (ipccHandleResponse hdr resp respList).2 =
      countObj obj (pendingParts respList) + countObj obj [resp] := by
  induction respList with
  | nil => exact (Nat.zero_add _).trans (Nat.zero_add _).symm
  | cons cs rest ih =>
    rw [ipccHandleResponse]
    split_ifs
    · have hanswered := @countObj_answered _ obj cs hdr resp
      simp only [pendingParts_cons, countObj_append]
      omega
    · simp only [pendingParts_cons, countObj_append]
      omega

/-- The entry of a call leaves the list with its parts. -/
theorem countObj_takeEntry (hdistinct : (respList.map ClientResponse.call).Nodup)
    {cs : ClientResponse μ} (hcs : cs ∈ respList) :
    countObj obj (pendingParts (respList.filter fun x => x.call != cs.call)) +
      countObj obj cs.response = countObj obj (pendingParts respList) := by
  induction respList with
  | nil => cases hcs
  | cons first rest ih =>
    obtain ⟨hnew, hrest⟩ := List.nodup_cons.mp hdistinct
    rcases List.mem_cons.mp hcs with rfl | hcs
    · have hothers : rest.filter (fun x => x.call != cs.call) = rest :=
        List.filter_eq_self.mpr fun x hx => bne_iff_ne.mpr fun heq =>
          hnew (heq ▸ List.mem_map_of_mem hx)
      rw [List.filter_cons_of_neg (by simp), hothers, pendingParts_cons, countObj_append,
        Nat.add_comm]
    · have hne : first.call ≠ cs.call := fun heq => hnew (heq ▸ List.mem_map_of_mem hcs)
      rw [List.filter_cons_of_pos (by simpa using hne), pendingParts_cons, pendingParts_cons,
        countObj_append, countObj_append, Nat.add_assoc, ih hrest hcs]

theorem filter_of_not_listed (h : ∀ cs ∈ respList, cs.call ≠ id) :
    (respList.filter fun cs => cs.call != id) = respList :=
  List.filter_eq_self.mpr fun cs hcs => bne_iff_ne.mpr (h cs hcs)

/-! ### Where the objects are after the parts of a step -/

theorem places_setCall (hid : id < s.numCalls) (phase : SendPhase μ) :
    (s.setCall id phase).places obj + countObj obj (s.call id).objects =
      s.places obj + countObj obj phase.objects := by
  have hupdate := tally_update (fun phase : SendPhase μ => countObj obj phase.objects) s.call
    hid phase
  simp only [IpcClient.places, IpcClient.setCall]
  omega

theorem places_setLoop (phase : LoopPhase μ) :
    (s.setLoop phase).places obj + countObj obj s.loop.objects =
      s.places obj + countObj obj phase.objects := by
  simp only [IpcClient.places, IpcClient.setLoop]
  omega

theorem places_putBack (objs : List (MsgObject μ)) :
    (s.putBack objs).places obj = s.places obj + countObj obj objs := by
  simp only [IpcClient.places, IpcClient.putBack, countObj_append]
  omega

theorem places_finish (hid : id < s.numCalls) (ret : WvIpcRet) (reply : List (MsgObject μ)) :
    (s.finish id ret reply).places obj + countObj obj (s.call id).objects =
      s.places obj + countObj obj reply := by
  have hset := @places_setCall _ s id obj hid .ended
  have hended : countObj obj (SendPhase.ended : SendPhase μ).objects = 0 := rfl
  simp only [IpcClient.places, IpcClient.finish, IpcClient.setCall, List.flatMap_append,
    List.flatMap_singleton, countObj_append] at hset ⊢
  omega

theorem places_handleResponse (hdr : IpcHeader) (resp : MsgObject μ) :
    (s.handleResponse hdr resp).places obj = s.places obj + countObj obj [resp] := by
  have hlist := @countObj_handleResponse _ obj s.respList hdr resp
  simp only [IpcClient.places, IpcClient.handleResponse, IpcClient.putBack, countObj_append]
  omega

/-- Nothing is received, and what a step moves from one place is in another behind it. -/
def SameObjects (s s' : IpcClient μ) : Prop :=
  s'.received = s.received ∧ ∀ obj, s'.places obj = s.places obj

theorem SameObjects.refl (s : IpcClient μ) : SameObjects s s := ⟨rfl, fun _ => rfl⟩

theorem SameObjects.conserved (h : SameObjects s s') (hs : ObjectsConserved s) :
    ObjectsConserved s' := fun obj => by rw [h.1, h.2, hs]

/-- The call has nothing in its hands. -/
theorem same_finish (hid : id < s.numCalls) (hnone : (s.call id).objects = []) (ret : WvIpcRet) :
    SameObjects s (s.finish id ret []) := by
  refine ⟨rfl, fun obj => ?_⟩
  have hfinish := @places_finish _ s id obj hid ret []
  rw [hnone] at hfinish
  exact hfinish

theorem same_setCall (hid : id < s.numCalls) {phase : SendPhase μ}
    (hsame : ∀ obj, countObj obj phase.objects = countObj obj (s.call id).objects) :
    SameObjects s (s.setCall id phase) := by
  refine ⟨rfl, fun obj => ?_⟩
  have hset := @places_setCall _ s id obj hid phase
  have hcount := hsame obj
  omega

theorem same_setLoop {phase : LoopPhase μ}
    (hsame : ∀ obj, countObj obj phase.objects = countObj obj s.loop.objects) :
    SameObjects s (s.setLoop phase) := by
  refine ⟨rfl, fun obj => ?_⟩
  have hset := @places_setLoop _ s obj phase
  have hcount := hsame obj
  omega

theorem received_disconnectCall (s : IpcClient μ) (id : Nat) (b : Below μ) :
    (s.disconnectCall id b).received = s.received := by
  rw [IpcClient.disconnectCall]
  split_ifs
  · rfl
  · rfl

/-- What the call has in its hands is lost. -/
theorem places_disconnectCall (hid : id < s.numCalls) (b : Below μ) :
    (s.disconnectCall id b).places obj + countObj obj (s.call id).objects = s.places obj := by
  rw [IpcClient.disconnectCall]
  split_ifs
  · exact places_setCall (s := s.disconnected b.socketInit) hid .disconnectClb
  · exact places_finish (s := s.disconnected b.socketInit) hid .disconnected []

theorem same_disconnectCall (hid : id < s.numCalls) (hnone : (s.call id).objects = [])
    (b : Below μ) : SameObjects s (s.disconnectCall id b) := by
  refine ⟨received_disconnectCall s id b, fun obj => ?_⟩
  have hplaces := @places_disconnectCall _ s id obj hid b
  rw [hnone] at hplaces
  exact hplaces

/-! ### The steps of a call -/

theorem same_startCall (h : CallsInv s) (onLoop pushed : Bool) :
    SameObjects s (s.startCall onLoop pushed) := by
  have hended : s.call s.numCalls = .ended := h.calls s.numCalls (Nat.le_refl _)
  generalize hnew : ({ s with
      cmdSeqNum := s.cmdSeqNum + 1
      numCalls := s.numCalls + 1
      seqNum := Function.update s.seqNum s.numCalls (s.cmdSeqNum + 1)
      nested := if onLoop then s.numCalls :: s.nested else s.nested } : IpcClient μ) = mid
  have hmid : SameObjects s mid := by
    subst hnew
    refine ⟨rfl, fun obj => ?_⟩
    simp only [IpcClient.places, tally_succ, hended]
    rfl
  have hid : s.numCalls < mid.numCalls := hnew ▸ Nat.lt_succ_self _
  have hcall : mid.call s.numCalls = .ended := hnew ▸ hended
  have hstart : SameObjects mid (if pushed then
      mid.setCall s.numCalls (if s.listener && !onLoop then .listenerStart else .start)
    else mid.finish s.numCalls .error []) := by
    split_ifs
    · exact same_setCall hid fun obj => by rw [hcall]; rfl
    · exact same_setCall hid fun obj => by rw [hcall]; rfl
    · exact same_finish hid (by rw [hcall]; rfl) .error
  rw [IpcClient.startCall, hnew]
  exact ⟨hstart.1.trans hmid.1, fun obj => (hstart.2 obj).trans (hmid.2 obj)⟩

theorem same_startWait (h : CallsInv s) (hcall : s.call id = .listenerStart) (obj node : Bool) :
    SameObjects s (s.startWait id obj node) := by
  have hid : id < s.numCalls := h.lt (by rw [hcall]; nofun)
  have hnone : (s.call id).objects = [] := by rw [hcall]; rfl
  obtain ⟨hreceived, hplaces⟩ : SameObjects s (s.setCall id .listenerSend) :=
    same_setCall hid fun obj => by rw [hnone]; rfl
  rw [IpcClient.startWait]
  split_ifs
  · exact ⟨hreceived, hplaces⟩
  · exact ⟨hreceived, hplaces⟩
  · exact same_finish hid hnone .error
  · exact same_finish hid hnone .disconnected

theorem same_connect (hid : id < s.numCalls) (hcall : s.call id = .start) (ok : Bool) :
    SameObjects s (s.connect id ok) := by
  have hnone : (s.call id).objects = [] := by rw [hcall]; rfl
  rw [IpcClient.connect]
  split_ifs
  · exact same_setCall hid fun obj => by rw [hnone]; rfl
  · exact same_setCall (s := s.connected) hid fun obj => by
      show 0 = countObj obj (s.call id).objects
      rw [hnone]
      rfl
  · exact same_finish hid hnone .disconnected
  · exact same_finish hid hnone .error

/-- The entry of a call that ends without a reply has no parts. -/
theorem places_takeEntry (h : CallsInv s)
    (hempty : ∀ cs ∈ s.respList, cs.call = id → cs.response = []) :
    (s.takeEntry id).places obj = s.places obj := by
  have hlist : countObj obj (pendingParts (s.respList.filter fun cs => cs.call != id)) =
      countObj obj (pendingParts s.respList) := by
    by_cases hlisted : ∃ cs ∈ s.respList, cs.call = id
    · obtain ⟨cs, hcs, rfl⟩ := hlisted
      have htake := @countObj_takeEntry _ obj s.respList h.distinct cs hcs
      rw [hempty cs hcs rfl] at htake
      exact htake
    · rw [filter_of_not_listed fun cs hcs hcall => hlisted ⟨cs, hcs, hcall⟩]
  simp only [IpcClient.places, IpcClient.takeEntry, hlist]

theorem same_sendCmd (h : CallsInv s) (hid : id < s.numCalls) (hnone : (s.call id).objects = [])
    {phase : SendPhase μ} (hphase : phase.objects = []) {ret : WvIpcRet}
    (hempty : ret ≠ .success ∨ s.isConnected = false →
      ∀ cs ∈ s.respList, cs.call = id → cs.response = []) :
    SameObjects s (s.sendCmd id ret phase) := by
  rw [IpcClient.sendCmd]
  by_cases hsent : ret = .success ∧ s.isConnected = true
  · obtain ⟨hreceived, hplaces⟩ : SameObjects s (s.setCall id phase) :=
      same_setCall hid fun obj => by rw [hnone, hphase]
    rw [if_pos hsent]
    exact ⟨hreceived, hplaces⟩
  · have hfails : ret ≠ .success ∨ s.isConnected = false :=
      (not_and_or.mp hsent).imp_right (Bool.not_eq_true _).mp
    obtain ⟨hreceived, hplaces⟩ := same_finish (s := s.takeEntry id) hid hnone
      (if ret = .success then .error else ret)
    rw [if_neg hsent]
    exact ⟨hreceived, fun obj => (hplaces obj).trans (places_takeEntry h (hempty hfails))⟩

/-- What the entry of a call has goes to the caller. -/
theorem same_endWait (h : CallsInv s) (hcall : s.call id = .listenerWait)
    (hempty : ∀ cs ∈ s.respList, cs.call = id → cs.status = .respNone → cs.response = []) :
    SameObjects s (s.endWait id) := by
  have hid : id < s.numCalls := h.lt (by rw [hcall]; nofun)
  have hnone : (s.call id).objects = [] := by rw [hcall]; rfl
  rw [IpcClient.endWait]
  cases hfind : s.respList.find? fun cs => cs.call = id with
  | none => exact same_finish hid hnone .error
  | some cs =>
    have hcs := List.mem_of_find?_eq_some hfind
    obtain rfl : cs.call = id := of_decide_eq_true (List.find?_some hfind :)
    have hresult : cs.result.2 = cs.response := by
      rw [ClientResponse.result]
      cases hstatus : cs.status with
      | respNone => exact (hempty cs hcs rfl hstatus).symm
      | respFailure => rfl
      | respSuccess => rfl
    refine ⟨rfl, fun obj => ?_⟩
    have hfinish := @places_finish _ (s.takeEntry cs.call) cs.call obj hid cs.result.1 cs.result.2
    have htake := @countObj_takeEntry _ obj s.respList h.distinct cs hcs
    rw [show ((s.takeEntry cs.call).call cs.call).objects = [] from hnone, hresult] at hfinish
    simp only [IpcClient.places, IpcClient.takeEntry, countObj_nil] at hfinish htake ⊢
    rw [hresult]
    omega

theorem same_selectCall (hid : id < s.numCalls) (hcall : s.call id = .again multiOut)
    {res : SelectResult} (hempty : GivesUp s res b → (s.call id).objects = []) :
    SameObjects s (s.selectCall id multiOut b res) := by
  cases res with
  | again => exact .refl s
  | failed => exact same_disconnectCall hid (hempty (.inl rfl)) b
  | timeout => exact same_finish hid (hempty (.inr (.inl rfl))) .error
  | ready =>
    rw [IpcClient.selectCall]
    split
    · next m rest hstream =>
      split_ifs with hok
      · exact same_setCall (s := s.startRecv rest) hid fun obj => by
          show countObj obj multiOut = countObj obj (s.call id).objects
          rw [hcall]
          rfl
      · exact same_disconnectCall hid
          (hempty (.inr (.inr ⟨rfl, .inl ((Bool.not_eq_true _).mp hok)⟩))) b
    · next hstream =>
      exact same_disconnectCall hid (hempty (.inr (.inr ⟨rfl, .inr hstream⟩))) b

/-- One more object is in one place. -/
theorem ObjectsConserved.receive (h : ObjectsConserved s)
    (hreceived : s'.received = s.received ++ [out]) (hobj : out.obj = s.received.length)
    (hplaces : ∀ obj, s'.places obj = s.places obj + countObj obj [out]) : ObjectsConserved s' := by
  intro obj
  rw [hplaces, h, hreceived, List.length_append, List.length_singleton, List.range_succ,
    List.count_append, countObj, List.map_singleton, hobj]

theorem conserved_recvCall (h : ObjectsConserved s) (hid : id < s.numCalls)
    (hcall : s.call id = .recv multiOut m) (hempty : b.ok = false → (s.call id).objects = []) :
    ObjectsConserved (s.recvCall id multiOut m b) := by
  rw [IpcClient.recvCall]
  split_ifs with hok
  · refine h.receive rfl rfl fun obj => ?_
    have hset := @places_setCall _ (s.endRecv (s.object m b.garbled)) id obj hid
      (.handle multiOut (s.object m b.garbled))
    rw [show (s.endRecv (s.object m b.garbled)).call id = _ from hcall] at hset
    simp only [SendPhase.objects, countObj_append] at hset
    have hsame : (s.endRecv (s.object m b.garbled)).places obj = s.places obj := rfl
    omega
  · exact (same_disconnectCall (s := s.stopRecv) hid
      (hempty ((Bool.not_eq_true _).mp hok)) b).conserved h

theorem same_handleCall (hid : id < s.numCalls) (hcall : s.call id = .handle multiOut out)
    (hnoHdr : out.hdr = none → multiOut = [])
    (hnode : ∀ hdr, out.hdr = some hdr →
      hdr.header0 = waveIpcMsgEvent ∨ hdr.header0 = waveIpcMsgCmd → b.ok = true) :
    SameObjects s (s.handleCall id multiOut out b) := by
  have hhas : ∀ obj,
      countObj obj (s.call id).objects = countObj obj multiOut + countObj obj [out] := fun obj => by
    rw [hcall, SendPhase.objects, countObj_append]
  have hagain : ∀ obj, (s.setCall id (.again multiOut)).places obj + countObj obj [out] =
      s.places obj := fun obj => by
    have hset := @places_setCall _ s id obj hid (.again multiOut)
    rw [hhas, SendPhase.objects] at hset
    omega
  -- the message goes back to the pool, and the call goes on
  have hput : SameObjects s ((s.putBack [out]).setCall id (.again multiOut)) := by
    refine ⟨rfl, fun obj => ?_⟩
    have hset := @places_putBack _ (s.setCall id (.again multiOut)) obj [out]
    have hsame := hagain obj
    exact hset.trans hsame
  rw [IpcClient.handleCall]
  cases hhdr : out.hdr with
  | none =>
    obtain rfl := hnoHdr hhdr
    refine ⟨received_disconnectCall (s.putBack [out]) id b, fun obj => ?_⟩
    have hplaces : _ + countObj obj (s.call id).objects = _ :=
      places_disconnectCall (s := s.putBack [out]) hid b
    rw [places_putBack, hhas, countObj_nil, Nat.zero_add] at hplaces
    exact Nat.add_right_cancel hplaces
  | some hdr =>
    dsimp only
    split_ifs with hresp hseq hfail hlast hlistener hevent hok
    · refine ⟨rfl, fun obj => ?_⟩
      have hput := @places_putBack _ s obj multiOut
      have hfinish := @places_finish _ (s.putBack multiOut) id obj hid .cmdFailed [out]
      have hobjs := hhas obj
      change _ + countObj obj (s.call id).objects = _ at hfinish
      omega
    · refine ⟨rfl, fun obj => ?_⟩
      have hfinish := @places_finish _ s id obj hid .success (multiOut ++ [out])
      have hobjs := hhas obj
      rw [countObj_append] at hfinish
      omega
    · exact same_setCall hid fun obj => by rw [hcall]; rfl
    · refine ⟨rfl, fun obj => ?_⟩
      have hlist := @places_handleResponse _ (s.setCall id (.again multiOut)) obj hdr out
      exact hlist.trans (hagain obj)
    · exact hput
    · refine ⟨rfl, fun obj => ?_⟩
      have hset := hagain obj
      simp only [IpcClient.places, IpcClient.setCall, countObj_append] at hset ⊢
      omega
    · exact absurd (hnode hdr hhdr hevent) hok
    · exact hput

/-! ### The steps of the event loop -/

theorem same_loopHead (hloop : s.loop = .head) (stop : Bool) : SameObjects s (s.loopHead stop) := by
  rw [IpcClient.loopHead]
  split_ifs
  · exact same_setLoop fun obj => by rw [hloop]; rfl
  · split
    · next first rest hqueued =>
      refine ⟨rfl, fun obj => ?_⟩
      have hset := @places_setLoop _ s obj (.handle first)
      have hqueue : countObj obj s.queuedMsgs = countObj obj [first] + countObj obj rest := by
        rw [hqueued, ← List.singleton_append, countObj_append]
      have hnone : countObj obj s.loop.objects = 0 := by rw [hloop]; rfl
      have hfirst : countObj obj (LoopPhase.handle first).objects = countObj obj [first] := rfl
      simp only [IpcClient.places, IpcClient.setLoop] at hset ⊢
      omega
    · exact same_setLoop fun obj => by rw [hloop]; rfl

theorem same_loopDisconnect (hnone : s.loop.objects = []) (b : Below μ) :
    SameObjects s (s.loopDisconnect b) := by
  refine same_setLoop (s := s.disconnected b.socketInit) fun obj => ?_
  show _ = countObj obj s.loop.objects
  rw [hnone]
  split_ifs
  · rfl
  · rfl
  · rfl

theorem same_loopConnect (hloop : s.loop = .wait) (ret : WvIpcRet) (clb : Bool) :
    SameObjects s (s.loopConnect ret clb) := by
  have hnone : s.loop.objects = [] := by rw [hloop]; rfl
  rw [IpcClient.loopConnect]
  split_ifs
  · exact same_setLoop (s := s.connected) fun obj => by
      show 0 = countObj obj s.loop.objects
      rw [hnone]
      rfl
  · exact same_setLoop (s := s.connected) fun obj => by
      show 0 = countObj obj s.loop.objects
      rw [hnone]
      rfl
  · exact .refl s
  · exact same_setLoop fun obj => by rw [hnone]; rfl

theorem same_loopSelect (hloop : s.loop = .wait) (b : Below μ) (res : SelectResult) :
    SameObjects s (s.loopSelect b res) := by
  have hnone : s.loop.objects = [] := by rw [hloop]; rfl
  cases res with
  | again => exact .refl s
  | timeout => exact .refl s
  | failed => exact same_setLoop fun obj => by rw [hnone]; rfl
  | ready =>
    rw [IpcClient.loopSelect]
    split
    · next m rest hstream =>
      split_ifs
      · exact same_setLoop (s := s.startRecv rest) fun obj => by
          show 0 = countObj obj s.loop.objects
          rw [hnone]
          rfl
      · exact same_loopDisconnect hnone b
    · exact same_loopDisconnect hnone b

theorem conserved_loopRecv (h : ObjectsConserved s) (hloop : s.loop = .recv m) (b : Below μ) :
    ObjectsConserved (s.loopRecv m b) := by
  have hnone : s.loop.objects = [] := by rw [hloop]; rfl
  rw [IpcClient.loopRecv]
  split_ifs with hok
  · refine h.receive rfl rfl fun obj => ?_
    have hset := @places_setLoop _ (s.endRecv (s.object m b.garbled)) obj
      (.handle (s.object m b.garbled))
    change _ + countObj obj s.loop.objects = s.places obj + _ at hset
    rw [hnone] at hset
    exact hset
  · exact (same_loopDisconnect (s := s.stopRecv) hnone b).conserved h

/-- The loop has handed the message on, or put it back. -/
theorem same_loopMoved (hhas : s.loop.objects = [out]) (phase : LoopPhase μ)
    (hphase : phase.objects = []) (hreceived : s'.received = s.received)
    (hplaces : ∀ obj, s'.places obj = (s.setLoop phase).places obj + countObj obj [out]) :
    SameObjects s s' := by
  refine ⟨hreceived, fun obj => ?_⟩
  have hset := @places_setLoop _ s obj phase
  rw [hhas, hphase] at hset
  rw [hplaces]
  exact hset

theorem same_loopHandle (hloop : s.loop = .handle out) (eventsThread : Bool) (b : Below μ) :
    SameObjects s (s.loopHandle out eventsThread b) := by
  have hhas : s.loop.objects = [out] := by rw [hloop]; rfl
  have hput : SameObjects s ((s.putBack [out]).setLoop .head) :=
    same_loopMoved hhas .head rfl rfl fun obj =>
      places_putBack (s := s.setLoop .head) [out]
  have hcallback : SameObjects s (s.setLoop (.callback out)) :=
    same_setLoop fun obj => by rw [hloop]; rfl
  rw [IpcClient.loopHandle]
  cases out.hdr with
  | none => exact hput
  | some hdr =>
    dsimp only
    split_ifs
    · refine same_loopMoved hhas .head rfl rfl fun obj => ?_
      simp only [IpcClient.places, IpcClient.setLoop, countObj_append]
      omega
    · exact hput
    · exact ⟨hcallback.1, hcallback.2⟩
    · exact same_loopMoved hhas .head rfl rfl fun obj =>
        places_handleResponse (s := s.setLoop .head) hdr out
    · exact ⟨hcallback.1, hcallback.2⟩
    · exact hput

theorem same_callbackReturns (hloop : s.loop = .callback out) (takesOwnership : Bool) :
    SameObjects s (s.callbackReturns out takesOwnership) := by
  have hhas : s.loop.objects = [out] := by rw [hloop]; rfl
  rw [IpcClient.callbackReturns]
  split_ifs
  · refine same_loopMoved hhas .head rfl rfl fun obj => ?_
    simp only [IpcClient.places, IpcClient.setLoop, countObj_append]
    omega
  · exact same_loopMoved hhas .head rfl rfl fun obj =>
      places_putBack (s := s.setLoop .head) [out]

/-! ### The runs -/

theorem conserved_step (h : ObjectsConserved s) (hcalls : CallsInv s) {a : ClientAction μ}
    (hok : PartsKept s a) (hstep : s.step a = some s') : ObjectsConserved s' := by
  cases IpcClient.Stepped.of_step hstep with
  | call => exact (same_startCall hcalls _ _).conserved h
  | startWait _ hcall => exact (same_startWait hcalls hcall _ _).conserved h
  | connect _ hcall =>
    exact (same_connect (hcalls.lt (by rw [hcall]; nofun)) hcall _).conserved h
  | listenerSend _ hcall =>
    exact (same_sendCmd hcalls (hcalls.lt (by rw [hcall]; nofun)) (by rw [hcall]; rfl) rfl
      hok).conserved h
  | send _ hcall =>
    exact (same_sendCmd hcalls (hcalls.lt (by rw [hcall]; nofun)) (by rw [hcall]; rfl) rfl
      hok).conserved h
  | endWait _ hcall => exact (same_endWait hcalls hcall hok).conserved h
  | select _ hcall =>
    refine (same_selectCall (hcalls.lt (by rw [hcall]; nofun)) hcall fun hgives => ?_).conserved h
    rw [PartsKept, hcall] at hok
    rw [hcall]
    exact hok hgives
  | recv _ hcall =>
    refine conserved_recvCall h (hcalls.lt (by rw [hcall]; nofun)) hcall fun hfails => ?_
    rw [PartsKept, hcall] at hok
    rw [hcall]
    exact hok hfails
  | handle _ hcall =>
    rw [PartsKept, hcall] at hok
    obtain ⟨hnoHdr, hnode⟩ := hok _ rfl
    exact (same_handleCall (hcalls.lt (by rw [hcall]; nofun)) hcall hnoHdr hnode).conserved h
  | clbReturns _ hcall =>
    exact (same_finish (hcalls.lt (by rw [hcall]; nofun)) (by rw [hcall]; rfl) _).conserved h
  | startLoop _ hloop =>
    obtain ⟨hreceived, hplaces⟩ : SameObjects s (s.setLoop .head) :=
      same_setLoop fun obj => by rw [hloop]; rfl
    exact SameObjects.conserved ⟨hreceived, hplaces⟩ h
  | loopHead _ hloop => exact (same_loopHead hloop _).conserved h
  | loopConnect _ hloop => exact (same_loopConnect hloop _ _).conserved h
  | loopSelect _ hloop => exact (same_loopSelect hloop _ _).conserved h
  | loopRecv _ hloop => exact conserved_loopRecv h hloop _
  | loopHandle _ hloop => exact (same_loopHandle hloop _ _).conserved h
  | loopCallback _ hloop => exact (same_callbackReturns hloop _).conserved h
  | connectionClb _ hloop =>
    exact (same_setLoop (s := s)
      fun obj => by rw [hloop]; rfl : SameObjects s (s.setLoop .wait)).conserved h
  | answer => exact h
  | notify => exact h

structure OneOwnerInv (s : IpcClient μ) : Prop where
  conserved : ObjectsConserved s
  calls : CallsInv s

theorem OneOwnerInv.init : OneOwnerInv (.init : IpcClient μ) := ⟨fun _ => rfl, CallsInv.init⟩

theorem OneOwnerInv.step (h : OneOwnerInv s) {a : ClientAction μ} (hok : PartsKept s a)
    (hstep : s.step a = some s') : OneOwnerInv s' :=
  ⟨conserved_step h.conserved h.calls hok hstep, h.calls.step hstep⟩

/-- In a run where no call gives up with parts of its reply, every object that the client has
received is in one place, so that it is handed over or put back at most once, and none is lost. -/
theorem objects_conserved {as : List (ClientAction μ)}
    (hok : Along IpcClient.step PartsKept .init as)
    (hrun : exec IpcClient.step .init as = some s) : ObjectsConserved s :=
  (exec_along (fun h hok hstep => h.step hok hstep) OneOwnerInv.init hok hrun).conserved

theorem objects_conserved_twoPart :
    ∃ s, exec IpcClient.step .init twoPartReply = some s ∧ ObjectsConserved s :=
  ⟨_, rfl, @objects_conserved _ _ twoPartReply (by decide) rfl⟩

end Client

end Dwpal.Ipc
