import Dwpal.Ipc.LoopThread
import Dwpal.Ipc.ReplyAttribution

/-! The messages for a command, from the server to the client: it is sent once, and a last message
ends what the server sends for it. The connection can be lost and made again meanwhile, with all
that is on it. -/

namespace Dwpal.Ipc

open Machine

section Client

variable {μ : Type}

/-- The message answers the command of the call. -/
def ServerMsg.isFor (id : Nat) (m : ServerMsg μ) : Bool := m.answers = some id

def ServerMsg.isFailure (m : ServerMsg μ) : Bool :=
  m.hdr.any fun hdr => hdr.header0 = waveIpcMsgReqFail

/-- A failure, or the part with which a reply ends. -/
def ServerMsg.isLast (m : ServerMsg μ) : Bool :=
  m.isFailure || m.hdr.any fun hdr => hdr.header2 = 0

/-- All that was received and all that is still on the connection, in order. -/
def IpcClient.messages (s : IpcClient μ) : List (ServerMsg μ) :=
  s.received.map MsgObject.toServerMsg ++ (s.carried.msg?.toList ++ s.stream)

/-- A message for a command has the header of a reply with the number of the call. -/
def IsAnswer (m : ServerMsg μ) : Prop :=
  ∀ id, m.answers = some id → ∃ hdr, m.hdr = some hdr ∧
    (hdr.header0 = waveIpcMsgResp ∨ hdr.header0 = waveIpcMsgReqFail) ∧
      hdr.header1 = UInt8.ofNat (id + 1)

def SendPhase.unsent : SendPhase μ → Bool
  | .listenerStart | .listenerSend | .start | .send => true
  | _ => false

/-- The command of the call has not been sent. -/
def IpcClient.Unsent (s : IpcClient μ) (id : Nat) : Prop :=
  s.numCalls ≤ id ∨ (s.call id).unsent = true

/-- The server answers no command that it was not sent, and nothing follows the last message for a
command. -/
structure SentInv (s : IpcClient μ) : Prop where
  reading : s.reading = s.carried.msg?.toList.length
  distinct : s.server.Nodup
  numbered : ∀ m ∈ s.messages, IsAnswer m
  lasts : ∀ id, (s.messages.filter (ServerMsg.isFor id)).Pairwise fun m _ => m.isLast = false
  answering : ∀ id ∈ s.server, ∀ m ∈ s.messages.filter (ServerMsg.isFor id), m.isLast = false
  unsent : ∀ id, s.Unsent id → id ∉ s.server ∧ s.messages.filter (ServerMsg.isFor id) = []

namespace SentInv

variable {s s' : IpcClient μ} {id : Nat} {m : ServerMsg μ} {out : MsgObject μ}

theorem init : SentInv (.init : IpcClient μ) where
  reading := rfl
  distinct := List.nodup_nil
  numbered m hm := by cases hm
  lasts _ := List.Pairwise.nil
  answering id hid := by cases hid
  unsent _ _ := ⟨List.not_mem_nil, rfl⟩

end SentInv

/-! ### Commands that have not been sent -/

/-- A command that has not been sent was not sent before, and the server does not have it now if it
did not then. -/
structure SendsOwn (s s' : IpcClient μ) : Prop where
  unsent : ∀ id, s'.Unsent id → s.Unsent id
  server : ∀ id, s'.Unsent id → id ∈ s'.server → id ∈ s.server

namespace SendsOwn

variable {s s' : IpcClient μ} {id : Nat}

/-- A call goes on, and no command is sent. -/
theorem call {phase : SendPhase μ} (hcall : s'.call = Function.update s.call id phase)
    (hnum : s'.numCalls = s.numCalls) (hserver : s'.server ⊆ s.server)
    (hphase : phase.unsent = true → (s.call id).unsent = true) : SendsOwn s s' := by
  refine ⟨fun i h => ?_, fun _ _ hi => hserver hi⟩
  rcases h with h | h
  · exact .inl (hnum ▸ h)
  · rw [hcall] at h
    by_cases heq : i = id
    · rw [heq, Function.update_self] at h
      rw [heq]
      exact .inr (hphase h)
    · rw [Function.update_of_ne heq] at h
      exact .inr h

/-- No command is sent, and the call is not before that. -/
theorem goesOn {phase : SendPhase μ} (hcall : s'.call = Function.update s.call id phase)
    (hnum : s'.numCalls = s.numCalls) (hserver : s'.server ⊆ s.server)
    (hphase : phase.unsent = false) : SendsOwn s s' :=
  call hcall hnum hserver fun htrue => by
    rw [hphase] at htrue
    cases htrue

theorem keep (hcall : s'.call = s.call) (hnum : s'.numCalls = s.numCalls)
    (hserver : s'.server ⊆ s.server) : SendsOwn s s' := by
  refine ⟨fun i h => ?_, fun _ _ hi => hserver hi⟩
  rwa [IpcClient.Unsent, hcall, hnum] at h

theorem startCall (onLoop pushed : Bool) : SendsOwn s (s.startCall onLoop pushed) := by
  have hcall : ∃ phase, (s.startCall onLoop pushed).call =
      Function.update s.call s.numCalls phase := by
    cases pushed <;> exact ⟨_, rfl⟩
  have hnum : (s.startCall onLoop pushed).numCalls = s.numCalls + 1 := by cases pushed <;> rfl
  have hserver : (s.startCall onLoop pushed).server = s.server := by cases pushed <;> rfl
  obtain ⟨phase, hcall⟩ := hcall
  refine ⟨fun i h => ?_, fun _ _ hi => hserver ▸ hi⟩
  rw [IpcClient.Unsent, hcall, hnum] at h
  by_cases heq : i = s.numCalls
  · exact .inl (Nat.le_of_eq heq.symm)
  · rw [Function.update_of_ne heq] at h
    exact h.imp_left Nat.le_of_succ_le

theorem sendCmd {phase : SendPhase μ} (hid : id < s.numCalls) (hphase : phase.unsent = false)
    (ret : WvIpcRet) : SendsOwn s (s.sendCmd id ret phase) := by
  rw [IpcClient.sendCmd]
  split_ifs
  · have hgoes : SendsOwn s (s.setCall id phase) := goesOn rfl rfl (List.Subset.refl _) hphase
    refine ⟨hgoes.unsent, fun i h hi => ?_⟩
    rcases List.mem_append.mp hi with hi | hi
    · exact hi
    · -- the command of this call has been sent now
      rw [List.mem_singleton.mp hi] at h
      rcases h with h | h
      · exact absurd hid (Nat.not_lt_of_le h)
      · change (Function.update s.call id phase id).unsent = true at h
        rw [Function.update_self, hphase] at h
        cases h
  · exact goesOn rfl rfl (List.Subset.refl _) rfl
  · exact goesOn rfl rfl (List.Subset.refl _) rfl

theorem disconnectCall {t : IpcClient μ} (hcall : t.call = s.call) (hnum : t.numCalls = s.numCalls)
    (b : Below μ) : SendsOwn s (t.disconnectCall id b) := by
  have hupdate : ∀ phase, Function.update t.call id phase = Function.update s.call id phase :=
    fun phase => by rw [hcall]
  rw [IpcClient.disconnectCall]
  split_ifs
  · exact goesOn (hupdate .disconnectClb) hnum (List.nil_subset _) rfl
  · exact goesOn (hupdate .ended) hnum (List.nil_subset _) rfl

theorem step (hcalls : CallsInv s) {a : ClientAction μ} (hstep : s.step a = some s') :
    SendsOwn s s' := by
  have hsame : s.server ⊆ s.server := List.Subset.refl _
  cases IpcClient.Stepped.of_step hstep with
  | call => exact startCall _ _
  | startWait _ hcall =>
    have hunsent : (s.call _).unsent = true := congrArg SendPhase.unsent hcall
    rw [IpcClient.startWait]
    split_ifs
    · exact call rfl rfl hsame fun _ => hunsent
    · exact call rfl rfl hsame fun _ => hunsent
    · exact goesOn rfl rfl hsame rfl
    · exact goesOn rfl rfl hsame rfl
  | connect _ hcall =>
    have hunsent : (s.call _).unsent = true := congrArg SendPhase.unsent hcall
    rw [IpcClient.connect]
    split_ifs
    · exact call rfl rfl hsame fun _ => hunsent
    · exact call rfl rfl (List.nil_subset _) fun _ => hunsent
    · exact goesOn rfl rfl hsame rfl
    · exact goesOn rfl rfl hsame rfl
  | listenerSend _ hcall => exact sendCmd (hcalls.lt (by rw [hcall]; rintro ⟨⟩)) rfl _
  | send _ hcall => exact sendCmd (hcalls.lt (by rw [hcall]; rintro ⟨⟩)) rfl _
  | endWait =>
    rw [IpcClient.endWait]
    split
    · exact goesOn rfl rfl hsame rfl
    · exact goesOn rfl rfl hsame rfl
  | @select id res b multiOut _ hcall =>
    cases res with
    | again => exact keep rfl rfl hsame
    | failed => exact disconnectCall rfl rfl b
    | timeout => exact goesOn rfl rfl hsame rfl
    | ready =>
      rw [IpcClient.selectCall]
      split
      · next m rest hstream =>
        split_ifs
        · exact goesOn rfl rfl hsame rfl
        · exact disconnectCall rfl rfl b
      · exact disconnectCall rfl rfl b
  | recv =>
    rw [IpcClient.recvCall]
    split_ifs
    · exact goesOn rfl rfl hsame rfl
    · exact disconnectCall (s := s) (t := s.stopRecv) rfl rfl _
  | @handle id b multiOut out _ _ =>
    rw [IpcClient.handleCall]
    cases out.hdr with
    | none => exact disconnectCall (s := s) (t := s.putBack [out]) rfl rfl b
    | some hdr =>
      dsimp only
      split_ifs
      all_goals
        exact goesOn rfl rfl hsame rfl
  | clbReturns => exact goesOn rfl rfl hsame rfl
  | loopHead =>
    rw [IpcClient.loopHead]
    split_ifs
    · exact keep rfl rfl hsame
    · split
      · exact keep rfl rfl hsame
      · exact keep rfl rfl hsame
  | loopConnect =>
    rw [IpcClient.loopConnect]
    split_ifs
    · exact keep rfl rfl (List.nil_subset _)
    · exact keep rfl rfl (List.nil_subset _)
    · exact keep rfl rfl hsame
    · exact keep rfl rfl hsame
  | @loopSelect res b =>
    cases res with
    | again => exact keep rfl rfl hsame
    | failed => exact keep rfl rfl hsame
    | timeout => exact keep rfl rfl hsame
    | ready =>
      rw [IpcClient.loopSelect]
      split
      · split_ifs
        · exact keep rfl rfl hsame
        · exact keep rfl rfl (List.nil_subset _)
      · exact keep rfl rfl (List.nil_subset _)
  | loopRecv =>
    rw [IpcClient.loopRecv]
    split_ifs
    · exact keep rfl rfl hsame
    · exact keep rfl rfl (List.nil_subset _)
  | @loopHandle eventsThread b out =>
    rw [IpcClient.loopHandle]
    cases out.hdr with
    | none => exact keep rfl rfl hsame
    | some hdr =>
      dsimp only
      split_ifs
      · exact keep rfl rfl hsame
      · exact keep rfl rfl hsame
      · exact keep rfl rfl hsame
      · exact keep rfl rfl hsame
      · exact keep rfl rfl hsame
      · exact keep rfl rfl hsame
  | loopCallback =>
    rw [IpcClient.callbackReturns]
    split_ifs
    · exact keep rfl rfl hsame
    · exact keep rfl rfl hsame
  | startLoop => exact keep rfl rfl hsame
  | connectionClb => exact keep rfl rfl hsame
  | @answer id failed hasMore msg =>
    refine keep rfl rfl fun i hi => ?_
    simp only [IpcClient.answer] at hi
    split_ifs at hi
    · exact List.mem_of_mem_erase hi
    · exact hi
  | notify => exact keep rfl rfl hsame

end SendsOwn

namespace SentInv

variable {s s' : IpcClient μ} {id : Nat} {m : ServerMsg μ}

/-- Messages get lost, or nothing happens to them. -/
theorem shrinks (h : SentInv s) (hsends : SendsOwn s s')
    (hreading : s'.reading = s'.carried.msg?.toList.length)
    (hmsgs : s'.messages.Sublist s.messages) (hserver : s'.server.Sublist s.server) :
    SentInv s' where
  reading := hreading
  distinct := h.distinct.sublist hserver
  numbered m hm := h.numbered m (hmsgs.subset hm)
  lasts i := (h.lasts i).sublist (hmsgs.filter _)
  answering i hi m hm := h.answering i (hserver.subset hi) m ((hmsgs.filter _).subset hm)
  unsent i hi := by
    obtain ⟨hnot, hnone⟩ := h.unsent i (hsends.unsent i hi)
    refine ⟨fun hmem => hnot (hserver.subset hmem), List.eq_nil_of_subset_nil ?_⟩
    rw [← hnone]
    exact (hmsgs.filter _).subset

/-- A command is sent. -/
theorem sends (h : SentInv s) (hsends : SendsOwn s s')
    (hreading : s'.reading = s'.carried.msg?.toList.length) (hmsgs : s'.messages = s.messages)
    (hunsent : s.Unsent id) (hserver : s'.server = s.server ++ [id]) : SentInv s' := by
  obtain ⟨hnot, hnone⟩ := h.unsent id hunsent
  refine ⟨hreading, ?_, ?_, ?_, ?_, fun i hi => ?_⟩
  · rw [hserver]
    refine List.nodup_append.mpr ⟨h.distinct, List.pairwise_singleton _ id, fun i hi j hj heq => ?_⟩
    refine hnot ?_
    exact List.mem_singleton.mp hj ▸ heq ▸ hi
  · rw [hmsgs]
    exact h.numbered
  · rw [hmsgs]
    exact h.lasts
  · rw [hmsgs, hserver]
    intro i hi m hm
    rcases List.mem_append.mp hi with hi | hi
    · exact h.answering i hi m hm
    · rw [List.mem_singleton.mp hi, hnone] at hm
      cases hm
  · obtain ⟨hnot', hnone'⟩ := h.unsent i (hsends.unsent i hi)
    rw [hmsgs]
    exact ⟨fun hmem => hnot' (hsends.server i hi hmem), hnone'⟩

/-- The server sends a message that answers no command. -/
theorem notify (h : SentInv s) (hm : IpcClient.IsNotice m) :
    SentInv { s with stream := s.stream ++ [m] } := by
  have hmsgs : ({ s with stream := s.stream ++ [m] } : IpcClient μ).messages =
      s.messages ++ [m] := by
    rw [IpcClient.messages, IpcClient.messages, List.append_assoc, List.append_assoc]
    rfl
  have hsame : ∀ i, (s.messages ++ [m]).filter (ServerMsg.isFor i) =
      s.messages.filter (ServerMsg.isFor i) := by
    intro i
    have hnot : m.isFor i = false := by rw [ServerMsg.isFor, hm.1]; rfl
    rw [List.filter_append, List.filter_cons_of_neg (by rw [hnot]; exact Bool.false_ne_true)]
    exact List.append_nil _
  refine ⟨h.reading, h.distinct, ?_, ?_, ?_, ?_⟩
  · rw [hmsgs]
    intro x hx
    rcases List.mem_append.mp hx with hx | hx
    · exact h.numbered x hx
    · intro i hi
      rw [List.mem_singleton.mp hx, hm.1] at hi
      cases hi
  · intro i
    rw [hmsgs, hsame]
    exact h.lasts i
  · intro i hi
    rw [hmsgs, hsame]
    exact h.answering i hi
  · intro i hi
    rw [hmsgs, hsame]
    exact h.unsent i hi

/-- The server answers a command. -/
theorem answer (h : SentInv s) (hreplies : ReplyInv s) (hserver : id ∈ s.server) {failed : Bool}
    {hasMore : UInt8} {msg : μ} (hsends : SendsOwn s (s.answer id failed hasMore msg)) :
    SentInv (s.answer id failed hasMore msg) := by
  obtain ⟨x, hx⟩ : ∃ x : ServerMsg μ,
    x = ⟨some ⟨if failed then waveIpcMsgReqFail else waveIpcMsgResp,
    s.seqNum id, hasMore, 0⟩, msg, some id⟩ := ⟨_, rfl⟩
  have hmsgs : (s.answer id failed hasMore msg).messages = s.messages ++ [x] := by
    rw [hx, IpcClient.messages, IpcClient.messages, List.append_assoc, List.append_assoc]
    rfl
  have hserver' : (s.answer id failed hasMore msg).server =
      if failed ∨ hasMore = 0 then s.server.erase id else s.server := rfl
  have hfor : ∀ i, x.isFor i = true ↔ i = id := by
    intro i
    rw [ServerMsg.isFor, hx, decide_eq_true_eq, Option.some_inj, eq_comm]
  have hother : ∀ i, i ≠ id → (s.messages ++ [x]).filter (ServerMsg.isFor i) =
      s.messages.filter (ServerMsg.isFor i) := by
    intro i hne
    rw [List.filter_append, List.filter_cons_of_neg (fun hi => hne ((hfor i).mp hi))]
    exact List.append_nil _
  have hown : (s.messages ++ [x]).filter (ServerMsg.isFor id) =
      s.messages.filter (ServerMsg.isFor id) ++ [x] := by
    rw [List.filter_append, List.filter_cons_of_pos ((hfor id).mpr rfl)]
    rfl
  refine ⟨h.reading, ?_, ?_, ?_, ?_, ?_⟩
  · rw [hserver']
    split_ifs
    · exact h.distinct.erase id
    · exact h.distinct
  · rw [hmsgs]
    intro m hm
    rcases List.mem_append.mp hm with hm | hm
    · exact h.numbered m hm
    · intro i hi
      rw [List.mem_singleton.mp hm, hx] at hi ⊢
      obtain rfl : id = i := Option.some_inj.mp hi
      refine ⟨_, rfl, ?_, hreplies.numbers id (hreplies.server id hserver)⟩
      cases failed
      · exact .inl rfl
      · exact .inr rfl
  · intro i
    rw [hmsgs]
    by_cases heq : i = id
    · rw [heq, hown]
      refine List.pairwise_append.mpr ⟨h.lasts id, List.pairwise_singleton .., fun m hm y _ => ?_⟩
      exact h.answering id hserver m hm
    · rw [hother i heq]
      exact h.lasts i
  · intro i hi m hm
    rw [hmsgs] at hm
    by_cases heq : i = id
    · subst heq
      rw [hserver'] at hi
      split_ifs at hi with hlast
      · exact absurd hi h.distinct.not_mem_erase
      · obtain ⟨hfailed, hmore⟩ := not_or.mp hlast
        rw [hown] at hm
        rcases List.mem_append.mp hm with hm | hm
        · exact h.answering i hserver m hm
        · rw [List.mem_singleton.mp hm, hx, ServerMsg.isLast, ServerMsg.isFailure]
          simp [hfailed, hmore, waveIpcMsgResp, waveIpcMsgReqFail]
    · rw [hother i heq] at hm
      refine h.answering i ?_ m hm
      rw [hserver'] at hi
      split_ifs at hi
      · exact List.mem_of_mem_erase hi
      · exact hi
  · intro i hi
    obtain ⟨hnot, hnone⟩ := h.unsent i (hsends.unsent i hi)
    have hne : i ≠ id := fun heq => hnot (heq ▸ hserver)
    rw [hmsgs, hother i hne]
    exact ⟨fun hmem => hnot (hsends.server i hi hmem), hnone⟩

theorem step (h : SentInv s) (hreplies : ReplyInv s) (hsends : SendsOwn s s') (hflow : Flow s s') :
    SentInv s' := by
  have hreading := h.reading
  cases hflow with
  | still hserver hstream hmsg hreceived hreading' =>
    have hmsgs : s'.messages = s.messages := by
      rw [IpcClient.messages, IpcClient.messages, hstream, hmsg, hreceived]
    rw [← hmsg, ← hreading'] at hreading
    rcases hserver with hserver | ⟨id, hcall, hserver⟩
    · exact h.shrinks hsends hreading (by rw [hmsgs]) (by rw [hserver])
    · have hunsent : s.Unsent id := by
        rcases hcall with hcall | hcall <;> exact .inr (by rw [hcall]; rfl)
      exact h.sends hsends hreading hmsgs hunsent hserver
  | @starts m hserver hstream hmsg hmsg' hreceived hreading' =>
    have hmsgs : s'.messages = s.messages := by
      rw [IpcClient.messages, IpcClient.messages, hstream, hmsg, hmsg', hreceived]
      rfl
    rw [hmsg] at hreading
    refine h.shrinks hsends ?_ (by rw [hmsgs]) (by rw [hserver])
    rw [hreading', hreading, hmsg']
    rfl
  | @ends m garbled hserver hstream hmsg hmsg' hreceived hreading' =>
    have hobject : (s.object m garbled).toServerMsg = m := by
      rw [IpcClient.object, hreplies.torn]
      rfl
    have hmsgs : s'.messages = s.messages := by
      rw [IpcClient.messages, IpcClient.messages, hstream, hmsg, hmsg', hreceived, List.map_append,
        List.append_assoc, List.map_singleton, hobject]
      rfl
    rw [hmsg] at hreading
    refine h.shrinks hsends ?_ (by rw [hmsgs]) (by rw [hserver])
    rw [hreading', hreading, hmsg']
    rfl
  | breaks hserver hstream hmsg' hreceived hreading' =>
    refine h.shrinks hsends ?_ ?_ ?_
    · rw [hreading', hreading, Nat.sub_self, hmsg']
      rfl
    · rw [IpcClient.messages, IpcClient.messages, hstream, hmsg', hreceived]
      exact (List.nil_sublist _).append_left _
    · rw [hserver]
      exact List.nil_sublist _
  | answers hserver hs' =>
    subst hs'
    exact h.answer hreplies hserver hsends
  | notifies hm hs' =>
    subst hs'
    exact h.notify hm

end SentInv

end Client

end Dwpal.Ipc
