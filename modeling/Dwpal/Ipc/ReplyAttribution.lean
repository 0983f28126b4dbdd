import Dwpal.Ipc.ClientCmd

/-! Whose replies a call of `wave_ipcc_send_cmd_ex` returns. The sequence numbers of the commands
have 8 bits, and nothing keeps two threads without a listener from reading at the same time. -/

namespace Dwpal.Ipc

open Machine

section Client

variable {μ : Type}

/-- The calls have returned nothing but what the server produced for their own commands. -/
def RepliesAttributed (s : IpcClient μ) : Prop :=
  ∀ r ∈ s.returned, ∀ out ∈ r.reply, out.answers = some r.call

/-- The call is one of the last 256. -/
def Recent (s : IpcClient μ) (id : Nat) : Prop := id < s.numCalls ∧ s.numCalls ≤ id + 256

instance (s : IpcClient μ) (id : Nat) : Decidable (Recent s id) :=
  inferInstanceAs (Decidable (_ ∧ _))

/-- Where a reply is handed out, the command that it answers and those that wait are among the last
256. -/
def HandedInTime (s : IpcClient μ) : ClientAction μ → Prop
  | .handle id _ => ∀ out ∈ (s.call id).out?, ∀ answered ∈ out.answers,
      Recent s answered ∧ Recent s id ∧ ∀ cs ∈ s.respList, Recent s cs.call
  | .loopHandle _ _ => ∀ out ∈ s.loop.out?, ∀ answered ∈ out.answers,
      Recent s answered ∧ ∀ cs ∈ s.respList, Recent s cs.call
  | _ => True

instance (s : IpcClient μ) : ∀ a, Decidable (HandedInTime s a)
  | .handle id _ => inferInstanceAs (Decidable (∀ out ∈ (s.call id).out?, ∀ _ ∈ out.answers, _ ∧ _))
  | .loopHandle _ _ => inferInstanceAs (Decidable (∀ out ∈ s.loop.out?, ∀ _ ∈ out.answers, _ ∧ _))
  | .call _ _ | .startWait _ _ _ | .connect _ _ | .sendCmd _ _ | .endWait _ | .select _ _ _
  | .recv _ _ | .clbReturns _ | .startLoop _ | .loopHead _ | .loopConnect _ _ | .loopSelect _ _
  | .loopRecv _ | .loopClbReturns _ | .answer _ _ _ _ | .notify _ => .isTrue trivial

/-- The action begins to receive, or makes or gives up a connection. -/
def usesSocket (s : IpcClient μ) : ClientAction μ → Bool
  | .connect _ _ => !s.isConnected
  | .select _ res _ | .loopSelect res _ => res = .ready ∨ res = .failed
  | .handle id _ => (s.call id).out?.any fun out => out.hdr.isNone
  | .loopConnect _ _ => true
  | _ => false

/-- While a thread receives a message, no other one uses the socket for that. -/
def OneReader (s : IpcClient μ) (a : ClientAction μ) : Prop := usesSocket s a = true → s.reading = 0

instance (s : IpcClient μ) (a : ClientAction μ) : Decidable (OneReader s a) :=
  inferInstanceAs (Decidable (_ → _))

/-- A message with the header of a reply answers a command, and has its number. -/
def IsReply (m : ServerMsg μ) : Prop :=
  ∀ hdr, m.hdr = some hdr → hdr.header0 = waveIpcMsgResp ∨ hdr.header0 = waveIpcMsgReqFail →
    ∃ id, m.answers = some id ∧ hdr.header1 = UInt8.ofNat (id + 1)

/-- Messages for the command of a call. -/
def AllAnswer (id : Nat) (objs : List (MsgObject μ)) : Prop := ∀ out ∈ objs, out.answers = some id

/-- What a call has is for its command. -/
def SendPhase.Answers (id : Nat) : SendPhase μ → Prop
  | .again multiOut => AllAnswer id multiOut
  | .recv multiOut m => AllAnswer id multiOut ∧ IsReply m
  | .handle multiOut out => AllAnswer id multiOut ∧ IsReply out.toServerMsg
  | _ => True

def LoopPhase.Replies : LoopPhase μ → Prop
  | .recv m => IsReply m
  | .handle out => IsReply out.toServerMsg
  | _ => True

/-- The commands are numbered one after another, every reply says whose it is, and whoever has one
is the one. -/
structure ReplyInv (s : IpcClient μ) : Prop where
  count : s.cmdSeqNum = UInt8.ofNat s.numCalls
  numbers : ∀ id < s.numCalls, s.seqNum id = UInt8.ofNat (id + 1)
  server : ∀ id ∈ s.server, id < s.numCalls
  torn : s.torn = false
  reading : s.reading ≤ 1
  stream : ∀ m ∈ s.stream, IsReply m
  calls : ∀ id, (s.call id).Answers id
  loop : s.loop.Replies
  queued : ∀ out ∈ s.queuedMsgs, IsReply out.toServerMsg
  listed : ∀ cs ∈ s.respList, cs.seqNum = UInt8.ofNat (cs.call + 1)
  entries : ∀ cs ∈ s.respList, AllAnswer cs.call cs.response
  returned : RepliesAttributed s

/-- Two of the last 256 calls have different numbers. -/
theorem Recent.eq {s : IpcClient μ} {id id' : Nat} (hid : Recent s id) (hid' : Recent s id')
    (hnum : UInt8.ofNat (id + 1) = UInt8.ofNat (id' + 1)) : id = id' := by
  have hmod : (id + 1) % 256 = (id' + 1) % 256 := congrArg UInt8.toNat hnum
  obtain ⟨hlt, hle⟩ := hid
  obtain ⟨hlt', hle'⟩ := hid'
  omega

theorem allAnswer_append {id : Nat} {objs : List (MsgObject μ)} {out : MsgObject μ}
    (h : AllAnswer id objs) (hout : out.answers = some id) : AllAnswer id (objs ++ [out]) := by
  intro x hx
  rcases List.mem_append.mp hx with hx | hx
  · exact h x hx
  · rwa [List.mem_singleton.mp hx]

theorem allAnswer_nil (id : Nat) : AllAnswer id ([] : List (MsgObject μ)) := fun _ h => by cases h

/-- A reply for the command of an entry. -/
theorem answered_answers {cs : ClientResponse μ} (hdr : IpcHeader) {resp : MsgObject μ}
    (h : AllAnswer cs.call cs.response) (hresp : resp.answers = some cs.call) :
    (cs.answered hdr resp).1.call = cs.call ∧
      AllAnswer cs.call (cs.answered hdr resp).1.response := by
  rw [ClientResponse.answered]
  split_ifs
  · exact ⟨rfl, allAnswer_append h hresp⟩
  · exact ⟨rfl, allAnswer_append h hresp⟩
  · exact ⟨rfl, allAnswer_append (allAnswer_nil _) hresp⟩

/-- A reply that goes to entries of its own command only. -/
theorem handleResponse_answers {hdr : IpcHeader} {resp : MsgObject μ}
    {respList : List (ClientResponse μ)} (h : ∀ cs ∈ respList, AllAnswer cs.call cs.response)
    (hresp : ∀ cs ∈ respList, cs.seqNum = hdr.header1 → resp.answers = some cs.call) :
    ∀ cs ∈ (ipccHandleResponse hdr resp respList).1, AllAnswer cs.call cs.response := by
  induction respList with
  | nil => exact fun _ hcs => by cases hcs
  | cons cs rest ih =>
    rw [ipccHandleResponse]
    split_ifs with hseq
    · obtain ⟨hcall, hanswers⟩ := answered_answers hdr (h cs List.mem_cons_self)
        (hresp cs List.mem_cons_self hseq)
      intro x hx
      rcases List.mem_cons.mp hx with rfl | hx
      · rwa [hcall]
      · exact h x (List.mem_cons_of_mem cs hx)
    · intro x hx
      rcases List.mem_cons.mp hx with rfl | hx
      · exact h x List.mem_cons_self
      · exact ih (fun y hy => h y (List.mem_cons_of_mem cs hy))
          (fun y hy => hresp y (List.mem_cons_of_mem cs hy)) x hx

/-- The calls and the numbers of the entries stay. -/
theorem handleResponse_numbers (hdr : IpcHeader) (resp : MsgObject μ)
    {respList : List (ClientResponse μ)}
    (h : ∀ cs ∈ respList, cs.seqNum = UInt8.ofNat (cs.call + 1)) :
    ∀ cs ∈ (ipccHandleResponse hdr resp respList).1, cs.seqNum = UInt8.ofNat (cs.call + 1) := by
  induction respList with
  | nil => exact h
  | cons cs rest ih =>
    obtain ⟨hcs, hrest⟩ := List.forall_mem_cons.mp h
    rw [ipccHandleResponse]
    split_ifs
    · refine List.forall_mem_cons.mpr ⟨?_, hrest⟩
      rw [ClientResponse.answered]
      split_ifs
      · exact hcs
      · exact hcs
      · exact hcs
    · exact List.forall_mem_cons.mpr ⟨hcs, ih hrest⟩

theorem result_answers {cs : ClientResponse μ} (h : AllAnswer cs.call cs.response) :
    AllAnswer cs.call cs.result.2 := by
  rw [ClientResponse.result]
  cases cs.status with
  | respNone => exact allAnswer_nil _
  | respFailure => exact h
  | respSuccess => exact h

namespace ReplyInv

variable {s s' : IpcClient μ} {id : Nat} {b : Below μ} {out : MsgObject μ} {m : ServerMsg μ}
  {multiOut : List (MsgObject μ)}

theorem init : ReplyInv (.init : IpcClient μ) where
  count := rfl
  numbers id hid := absurd hid (Nat.not_lt_zero id)
  server id hid := by cases hid
  torn := rfl
  reading := Nat.zero_le 1
  stream m hm := by cases hm
  calls _ := trivial
  loop := trivial
  queued out hout := by cases hout
  listed cs hcs := by cases hcs
  entries cs hcs := by cases hcs
  returned r hr := by cases hr

theorem holds {phase : SendPhase μ} (hcall : s.call id = phase) (h : ReplyInv s) :
    phase.Answers id :=
  hcall ▸ h.calls id

theorem loopHolds {phase : LoopPhase μ} (hloop : s.loop = phase) (h : ReplyInv s) : phase.Replies :=
  hloop ▸ h.loop

/-! ### What the steps are made of -/

theorem setCall (h : ReplyInv s) {phase : SendPhase μ} (hphase : phase.Answers id) :
    ReplyInv (s.setCall id phase) :=
  { h with
    calls := fun i => by
      show (Function.update s.call id phase i).Answers i
      rw [Function.update_apply]
      split_ifs with hi
      · exact hi ▸ hphase
      · exact h.calls i }

theorem setLoop (h : ReplyInv s) {phase : LoopPhase μ} (hphase : phase.Replies) :
    ReplyInv (s.setLoop phase) :=
  { h with loop := hphase }

theorem putBack (h : ReplyInv s) (objs : List (MsgObject μ)) : ReplyInv (s.putBack objs) :=
  { h with }

theorem finish (h : ReplyInv s) {reply : List (MsgObject μ)} (hreply : AllAnswer id reply)
    (ret : WvIpcRet) : ReplyInv (s.finish id ret reply) :=
  { @setCall _ _ id h .ended trivial with
    returned := fun r hr => by
      rcases List.mem_append.mp hr with hr | hr
      · exact h.returned r hr
      · rw [List.mem_singleton.mp hr]
        exact hreply }

theorem connected (h : ReplyInv s) (hreading : s.reading = 0) : ReplyInv s.connected :=
  { h with
    server := fun i hi => by cases hi
    torn := by simp [IpcClient.connected, hreading]
    stream := fun m hm => by cases hm }

theorem disconnected (h : ReplyInv s) (hreading : s.reading = 0) (socketInit : Bool) :
    ReplyInv (s.disconnected socketInit) :=
  { h with
    server := fun i hi => by cases hi
    torn := by simp [IpcClient.disconnected, hreading]
    stream := fun m hm => by cases hm }

theorem startRecv (h : ReplyInv s) (hreading : s.reading = 0) {rest : List (ServerMsg μ)}
    (hstream : s.stream = m :: rest) : ReplyInv (s.startRecv rest) :=
  { h with
    torn := by simp [IpcClient.startRecv, h.torn, hreading]
    reading := Nat.le_of_eq (congrArg (· + 1) hreading)
    stream := fun x hx => h.stream x (hstream ▸ List.mem_cons_of_mem m hx) }

theorem stopRecv (h : ReplyInv s) : ReplyInv s.stopRecv ∧ s.stopRecv.reading = 0 := by
  have hreading : s.reading - 1 = 0 := Nat.sub_eq_zero_of_le h.reading
  exact ⟨{ h with reading := Nat.le_trans (Nat.sub_le ..) h.reading }, hreading⟩

theorem object (h : ReplyInv s) (hm : IsReply m) (garbled : ServerMsg μ) :
    IsReply (s.object m garbled).toServerMsg := by
  rw [IpcClient.object, h.torn]
  exact hm

theorem endRecv (h : ReplyInv s) (out : MsgObject μ) : ReplyInv (s.endRecv out) :=
  { h.stopRecv.1 with }

theorem handleResponse (h : ReplyInv s) {hdr : IpcHeader}
    (hresp : ∀ cs ∈ s.respList, cs.seqNum = hdr.header1 → out.answers = some cs.call) :
    ReplyInv (s.handleResponse hdr out) :=
  { h with
    listed := handleResponse_numbers hdr out h.listed
    entries := handleResponse_answers h.entries hresp }

theorem takeEntry (h : ReplyInv s) (id : Nat) : ReplyInv (s.takeEntry id) :=
  { h with
    listed := fun cs hcs => h.listed cs (List.mem_of_mem_filter hcs)
    entries := fun cs hcs => h.entries cs (List.mem_of_mem_filter hcs) }

/-- A reply that is handed to the list. -/
theorem toListed (h : ReplyInv s) (hout : IsReply out.toServerMsg)
    (hrecent : ∀ answered ∈ out.answers, Recent s answered ∧ ∀ cs ∈ s.respList, Recent s cs.call)
    {hdr : IpcHeader} (hhdr : out.hdr = some hdr)
    (hresp : hdr.header0 = waveIpcMsgResp ∨ hdr.header0 = waveIpcMsgReqFail) :
    ∀ cs ∈ s.respList, cs.seqNum = hdr.header1 → out.answers = some cs.call := by
  obtain ⟨answered, hanswered, hnum⟩ := hout hdr hhdr hresp
  obtain ⟨hfirst, hwaits⟩ := hrecent answered hanswered
  intro cs hcs hseq
  rw [h.listed cs hcs, hnum] at hseq
  rw [hanswered, hfirst.eq (hwaits cs hcs) hseq.symm]

/-- A reply that a call takes for its own. -/
theorem toCall (h : ReplyInv s) (hout : IsReply out.toServerMsg)
    (hrecent : ∀ answered ∈ out.answers, Recent s answered ∧ Recent s id) {hdr : IpcHeader}
    (hhdr : out.hdr = some hdr)
    (hresp : hdr.header0 = waveIpcMsgResp ∨ hdr.header0 = waveIpcMsgReqFail)
    (hseq : hdr.header1 = s.seqNum id) : out.answers = some id := by
  obtain ⟨answered, hanswered, hnum⟩ := hout hdr hhdr hresp
  obtain ⟨hfirst, hid⟩ := hrecent answered hanswered
  rw [h.numbers id hid.1, hnum] at hseq
  rw [hanswered, hfirst.eq hid hseq]

/-! ### The steps -/

theorem startCall (h : ReplyInv s) (onLoop pushed : Bool) :
    ReplyInv (s.startCall onLoop pushed) := by
  have hnew : ReplyInv { s with
      cmdSeqNum := s.cmdSeqNum + 1
      numCalls := s.numCalls + 1
      seqNum := Function.update s.seqNum s.numCalls (s.cmdSeqNum + 1)
      nested := if onLoop then s.numCalls :: s.nested else s.nested } :=
    { h with
      count := by
        show s.cmdSeqNum + 1 = UInt8.ofNat (s.numCalls + 1)
        rw [h.count, UInt8.ofNat_add]
        rfl
      numbers := fun i hi => by
        show Function.update s.seqNum s.numCalls (s.cmdSeqNum + 1) i = UInt8.ofNat (i + 1)
        rw [Function.update_apply]
        split_ifs with heq
        · rw [heq, h.count, UInt8.ofNat_add]
          rfl
        · exact h.numbers i (Nat.lt_of_le_of_ne (Nat.le_of_lt_succ hi) heq)
      server := fun i hi => Nat.lt_succ_of_lt (h.server i hi) }
  cases pushed with
  | true =>
    refine @setCall _ _ s.numCalls hnew _ ?_
    split_ifs
    · trivial
    · trivial
  | false => exact hnew.finish (allAnswer_nil _) .error

theorem startWait (h : ReplyInv s) (hid : id < s.numCalls) (obj node : Bool) :
    ReplyInv (s.startWait id obj node) := by
  rw [IpcClient.startWait]
  split_ifs
  · exact { @setCall _ _ id h .listenerSend trivial with
      listed := List.forall_mem_cons.mpr ⟨h.numbers id hid, h.listed⟩
      entries := List.forall_mem_cons.mpr ⟨allAnswer_nil _, h.entries⟩ }
  · exact { @setCall _ _ id h .listenerSend trivial with }
  · exact h.finish (allAnswer_nil _) .error
  · exact h.finish (allAnswer_nil _) .disconnected

theorem connect (h : ReplyInv s) (hreading : s.isConnected = false → s.reading = 0) (id : Nat)
    (ok : Bool) : ReplyInv (s.connect id ok) := by
  rw [IpcClient.connect]
  split_ifs with _ hconnected _
  · exact h.setCall trivial
  · exact (h.connected (hreading (Bool.not_eq_true _ ▸ hconnected))).setCall trivial
  · exact h.finish (allAnswer_nil _) .disconnected
  · exact h.finish (allAnswer_nil _) .error

theorem sendCmd (h : ReplyInv s) (hid : id < s.numCalls) {next : SendPhase μ}
    (hnext : next.Answers id) (ret : WvIpcRet) : ReplyInv (s.sendCmd id ret next) := by
  rw [IpcClient.sendCmd]
  split_ifs
  · refine { h.setCall hnext with server := fun i hi => ?_ }
    rcases List.mem_append.mp hi with hi | hi
    · exact h.server i hi
    · exact List.mem_singleton.mp hi ▸ hid
  · exact (h.takeEntry id).finish (allAnswer_nil _) .error
  · exact (h.takeEntry id).finish (allAnswer_nil _) ret

theorem endWait (h : ReplyInv s) (id : Nat) : ReplyInv (s.endWait id) := by
  rw [IpcClient.endWait]
  cases hfind : s.respList.find? fun cs => cs.call = id with
  | none => exact h.finish (allAnswer_nil _) .error
  | some cs =>
    obtain rfl : cs.call = id := of_decide_eq_true (List.find?_some hfind :)
    exact (h.takeEntry _).finish (result_answers (h.entries cs (List.mem_of_find?_eq_some hfind))) _

theorem disconnectCall (h : ReplyInv s) (hreading : s.reading = 0) (id : Nat) (b : Below μ) :
    ReplyInv (s.disconnectCall id b) := by
  rw [IpcClient.disconnectCall]
  split_ifs
  · exact (h.disconnected hreading _).setCall trivial
  · exact (h.disconnected hreading _).finish (allAnswer_nil _) .disconnected

theorem selectCall (h : ReplyInv s) (hmultiOut : AllAnswer id multiOut) {res : SelectResult}
    (hreading : res = .ready ∨ res = .failed → s.reading = 0) (b : Below μ) :
    ReplyInv (s.selectCall id multiOut b res) := by
  cases res with
  | again => exact h
  | failed => exact h.disconnectCall (hreading (.inr rfl)) id b
  | timeout => exact h.finish (allAnswer_nil _) .error
  | ready =>
    have hnone := hreading (.inl rfl)
    rw [IpcClient.selectCall]
    split
    · next m rest hstream =>
      split_ifs
      · exact (h.startRecv hnone hstream).setCall
          ⟨hmultiOut, h.stream m (hstream ▸ List.mem_cons_self)⟩
      · exact h.disconnectCall hnone id b
    · exact h.disconnectCall hnone id b

theorem recvCall (h : ReplyInv s) (hmultiOut : AllAnswer id multiOut) (hm : IsReply m)
    (b : Below μ) : ReplyInv (s.recvCall id multiOut m b) := by
  rw [IpcClient.recvCall]
  split_ifs
  · exact (h.endRecv _).setCall ⟨hmultiOut, h.object hm b.garbled⟩
  · exact h.stopRecv.1.disconnectCall h.stopRecv.2 id b

theorem handleCall (h : ReplyInv s) (hmultiOut : AllAnswer id multiOut)
    (hout : IsReply out.toServerMsg)
    (hrecent : ∀ answered ∈ out.answers,
      Recent s answered ∧ Recent s id ∧ ∀ cs ∈ s.respList, Recent s cs.call)
    (hreading : out.hdr = none → s.reading = 0) (b : Below μ) :
    ReplyInv (s.handleCall id multiOut out b) := by
  rw [IpcClient.handleCall]
  cases hhdr : out.hdr with
  | none => exact (h.putBack [out]).disconnectCall (hreading hhdr) id b
  | some hdr =>
    have hanswered := h.toCall hout (fun i hi => ⟨(hrecent i hi).1, (hrecent i hi).2.1⟩) hhdr
    have hlisted := h.toListed hout (fun i hi => ⟨(hrecent i hi).1, (hrecent i hi).2.2⟩) hhdr
    dsimp only
    split_ifs with hresp hseq
    · exact (h.putBack multiOut).finish
        (allAnswer_append (allAnswer_nil id) (hanswered hresp hseq)) .cmdFailed
    · exact h.finish (allAnswer_append hmultiOut (hanswered hresp hseq)) .success
    · exact h.setCall (allAnswer_append hmultiOut (hanswered hresp hseq))
    · exact (h.handleResponse (hlisted hresp)).setCall hmultiOut
    · exact (h.putBack [out]).setCall hmultiOut
    · refine { @setCall _ _ id h (.again multiOut) hmultiOut with queued := fun x hx => ?_ }
      rcases List.mem_append.mp hx with hx | hx
      · exact h.queued x hx
      · rwa [List.mem_singleton.mp hx]
    · exact { @setCall _ _ id h (.again multiOut) hmultiOut with }
    · exact (h.putBack [out]).setCall hmultiOut

theorem loopHead (h : ReplyInv s) (stop : Bool) : ReplyInv (s.loopHead stop) := by
  rw [IpcClient.loopHead]
  split_ifs
  · exact h.setLoop trivial
  · split
    · next out rest hqueued =>
      have hout : IsReply out.toServerMsg := h.queued out (hqueued ▸ List.mem_cons_self)
      exact { @setLoop _ _ h (.handle out) hout with
        queued := fun x hx => h.queued x (hqueued ▸ List.mem_cons_of_mem out hx) }
    · exact h.setLoop trivial

theorem loopConnect (h : ReplyInv s) (hreading : s.reading = 0) (ret : WvIpcRet) (clb : Bool) :
    ReplyInv (s.loopConnect ret clb) := by
  rw [IpcClient.loopConnect]
  split_ifs
  · exact (h.connected hreading).setLoop trivial
  · exact (h.connected hreading).setLoop trivial
  · exact h
  · exact h.setLoop trivial

theorem loopDisconnect (h : ReplyInv s) (hreading : s.reading = 0) (b : Below μ) :
    ReplyInv (s.loopDisconnect b) := by
  refine (h.disconnected hreading b.socketInit).setLoop ?_
  split_ifs
  · trivial
  · trivial
  · trivial

theorem loopSelect (h : ReplyInv s) {res : SelectResult}
    (hreading : res = .ready ∨ res = .failed → s.reading = 0) (b : Below μ) :
    ReplyInv (s.loopSelect b res) := by
  cases res with
  | again => exact h
  | timeout => exact h
  | failed => exact h.setLoop trivial
  | ready =>
    have hnone := hreading (.inl rfl)
    rw [IpcClient.loopSelect]
    split
    · next m rest hstream =>
      split_ifs
      · exact (h.startRecv hnone hstream).setLoop (h.stream m (hstream ▸ List.mem_cons_self) :)
      · exact h.loopDisconnect hnone b
    · exact h.loopDisconnect hnone b

theorem loopRecv (h : ReplyInv s) (hm : IsReply m) (b : Below μ) : ReplyInv (s.loopRecv m b) := by
  rw [IpcClient.loopRecv]
  split_ifs
  · exact (h.endRecv _).setLoop (h.object hm b.garbled :)
  · exact h.stopRecv.1.loopDisconnect h.stopRecv.2 b

theorem loopHandle (h : ReplyInv s) (hout : IsReply out.toServerMsg)
    (hrecent : ∀ answered ∈ out.answers, Recent s answered ∧ ∀ cs ∈ s.respList, Recent s cs.call)
    (eventsThread : Bool) (b : Below μ) : ReplyInv (s.loopHandle out eventsThread b) := by
  have hhead : ReplyInv (s.setLoop .head) := h.setLoop trivial
  have hcallback : ReplyInv (s.setLoop (.callback out)) := h.setLoop trivial
  rw [IpcClient.loopHandle]
  cases hhdr : out.hdr with
  | none => exact (h.putBack [out]).setLoop trivial
  | some hdr =>
    dsimp only
    split_ifs with _ _ _ hresp
    · exact { hhead with }
    · exact (h.putBack [out]).setLoop trivial
    · exact { hcallback with }
    · exact (h.handleResponse (h.toListed hout hrecent hhdr hresp.2)).setLoop trivial
    · exact { hcallback with }
    · exact (h.putBack [out]).setLoop trivial

theorem callbackReturns (h : ReplyInv s) (out : MsgObject μ) (takesOwnership : Bool) :
    ReplyInv (s.callbackReturns out takesOwnership) := by
  rw [IpcClient.callbackReturns]
  split_ifs
  · exact { @setLoop _ _ h .head trivial with }
  · exact (h.putBack [out]).setLoop trivial

theorem answer (h : ReplyInv s) (hserver : id ∈ s.server) (failed : Bool) (hasMore : UInt8)
    (msg : μ) : ReplyInv (s.answer id failed hasMore msg) :=
  { h with
    server := fun i hi => by
      simp only [IpcClient.answer] at hi
      split_ifs at hi
      · exact h.server i (List.mem_of_mem_erase hi)
      · exact h.server i hi
    stream := fun x hx => by
      rcases List.mem_append.mp hx with hx | hx
      · exact h.stream x hx
      · rw [List.mem_singleton.mp hx]
        rintro hdr hhdr -
        cases hhdr
        exact ⟨id, rfl, h.numbers id (h.server id hserver)⟩ }

theorem notify (h : ReplyInv s) (hm : IpcClient.IsNotice m) :
    ReplyInv { s with stream := s.stream ++ [m] } :=
  { h with
    stream := fun x hx => by
      rcases List.mem_append.mp hx with hx | hx
      · exact h.stream x hx
      · rw [List.mem_singleton.mp hx]
        intro hdr hhdr hresp
        exact absurd hresp (not_or.mpr (hm.2 hdr hhdr)) }

theorem step (h : ReplyInv s) (hcalls : CallsInv s) {a : ClientAction μ}
    (hok : HandedInTime s a ∧ OneReader s a) (hstep : s.step a = some s') : ReplyInv s' := by
  obtain ⟨hrecent, hreader⟩ := hok
  cases IpcClient.Stepped.of_step hstep with
  | call => exact h.startCall _ _
  | startWait _ hcall => exact h.startWait (hcalls.lt (by rw [hcall]; nofun)) _ _
  | connect =>
    refine h.connect (fun hconnected => hreader ?_) _ _
    rw [usesSocket, hconnected, Bool.not_false]
  | @listenerSend _ ret _ hcall =>
    exact @sendCmd _ _ _ h (hcalls.lt (by rw [hcall]; nofun)) .listenerWait trivial ret
  | @send id ret _ hcall =>
    exact @sendCmd _ _ _ h (hcalls.lt (by rw [hcall]; nofun)) (.again []) (allAnswer_nil id) ret
  | endWait => exact h.endWait _
  | select _ hcall =>
    exact h.selectCall (holds hcall h) (fun hres => hreader (decide_eq_true hres)) _
  | recv _ hcall => exact h.recvCall (holds hcall h).1 (holds hcall h).2 _
  | handle _ hcall =>
    simp only [HandedInTime, OneReader, usesSocket, hcall] at hrecent hreader
    exact h.handleCall (holds hcall h).1 (holds hcall h).2 (hrecent _ rfl)
      (fun hnone => hreader (Option.isNone_iff_eq_none.mpr hnone)) _
  | clbReturns => exact h.finish (allAnswer_nil _) .disconnected
  | startLoop => exact { @setLoop _ _ h .head trivial with }
  | loopHead => exact h.loopHead _
  | loopConnect => exact h.loopConnect (hreader rfl) _ _
  | loopSelect => exact h.loopSelect (fun hres => hreader (decide_eq_true hres)) _
  | loopRecv _ hloop => exact h.loopRecv (loopHolds hloop h) _
  | loopHandle _ hloop =>
    rw [HandedInTime, hloop] at hrecent
    exact h.loopHandle (loopHolds hloop h) (hrecent _ rfl) _ _
  | loopCallback => exact h.callbackReturns _ _
  | connectionClb => exact h.setLoop trivial
  | answer hserver => exact h.answer hserver _ _ _
  | notify _ hm => exact h.notify hm

theorem step_numbered (h : ReplyInv s ∧ CallsInv s) {a : ClientAction μ}
    (hok : HandedInTime s a ∧ OneReader s a) (hstep : s.step a = some s') :
    ReplyInv s' ∧ CallsInv s' :=
  ⟨h.1.step h.2 hok hstep, h.2.step hstep⟩

end ReplyInv

/-- Where the threads read one after another and a reply comes before 256 more calls are made, in a
run of any length, no call returns a reply to another command. -/
theorem replies_attributed {s : IpcClient μ} {as : List (ClientAction μ)}
    (hok : Along IpcClient.step (fun s a => HandedInTime s a ∧ OneReader s a) .init as)
    (hrun : exec IpcClient.step .init as = some s) : RepliesAttributed s :=
  (exec_along (fun h hok hstep => ReplyInv.step_numbered h hok hstep) ⟨ReplyInv.init, CallsInv.init⟩
    hok hrun).1.returned

theorem replies_attributed_twoPart :
    ∃ s, exec IpcClient.step .init twoPartReply = some s ∧ RepliesAttributed s :=
  ⟨_, rfl, @replies_attributed _ _ twoPartReply (by decide) rfl⟩

end Client

end Dwpal.Ipc
