import Dwpal.Ipc.SentReplies

/-! Whether a reply of several parts is whole. The parts for a call come one by one, to the call
itself or to its `cmd_response`, with the parts for other calls between them. -/

namespace Dwpal.Ipc

open Machine

section Client

variable {μ : Type}

/-- Everything received for the command of a call. -/
def IpcClient.got (s : IpcClient μ) (id : Nat) : List (MsgObject μ) :=
  s.received.filter fun out => out.isFor id

/-- The reply has come to its end with `out`, and not before. -/
def Complete (got : List (MsgObject μ)) (out : MsgObject μ) : Prop :=
  ∃ parts, got = parts ++ [out] ∧ out.isLast = true ∧ ∀ part ∈ parts, part.isLast = false

/-- What a call may return of the messages `got` for its command: with success, all of them, where
no more will come; the failure that has ended them; or nothing. -/
inductive Whole (got : List (MsgObject μ)) : WvIpcRet → List (MsgObject μ) → Prop
  | success {out : MsgObject μ} (hgot : Complete got out) (hfail : out.isFailure = false) :
    Whole got .success got
  | failed {out : MsgObject μ} (hgot : Complete got out) (hfail : out.isFailure = true) :
    Whole got .cmdFailed [out]
  | nothing {ret : WvIpcRet} (hret : ret ≠ .success) : Whole got ret []

/-- What each call has returned is whole. -/
def RepliesWhole (s : IpcClient μ) : Prop :=
  ∀ r ∈ s.returned, Whole (s.got r.call) r.ret r.reply

/-! ### The parts that were received -/

def SendPhase.parts? : SendPhase μ → Option (List (MsgObject μ))
  | .again multiOut | .recv multiOut _ | .handle multiOut _ => some multiOut
  | _ => none

/-- The call is in `wave_ipcc_send_cmd_listener`. -/
def SendPhase.waits : SendPhase μ → Bool
  | .listenerStart | .listenerSend | .listenerWait => true
  | _ => false

/-- What the thread of the event loop has in its hands for the command of a call. -/
def IpcClient.hand (s : IpcClient μ) (id : Nat) : List (MsgObject μ) :=
  s.carried.out?.toList.filter fun out => out.isFor id

/-- The entry has all the messages `got` for its command but for those in the hands of the thread,
up to the last one. -/
inductive Gathers (cs : ClientResponse μ) (got hand : List (MsgObject μ)) : Prop
  | waits (hstatus : cs.status = .respNone) (hgot : got = cs.response ++ hand)
    (hparts : ∀ part ∈ cs.response, part.isLast = false)
  | done {out : MsgObject μ} (hstatus : cs.status = .respSuccess) (hresp : cs.response = got)
    (hgot : Complete got out) (hfail : out.isFailure = false) (hhand : hand = [])
  | failed {out : MsgObject μ} (hstatus : cs.status = .respFailure) (hresp : cs.response = [out])
    (hgot : Complete got out) (hfail : out.isFailure = true) (hhand : hand = [])

/-- Every part received for a call is with it, with its entry, or in the hands of the thread of the
event loop. -/
structure PartsInv (s : IpcClient μ) : Prop where
  calls : ∀ id multiOut, (s.call id).parts? = some multiOut →
    s.got id = multiOut ++ s.hand id ∧ ∀ part ∈ multiOut, part.isLast = false
  entries : ∀ cs ∈ s.respList, Gathers cs (s.got cs.call) (s.hand cs.call)
  listener : ∀ id, (s.call id).waits = true → s.listener = true
  queued : ∀ out ∈ s.queuedMsgs, out.answers = none
  held : ∀ out ∈ s.carried.out?, out.answers ≠ none → out ∈ s.received
  returned : RepliesWhole s

theorem Gathers.result {cs : ClientResponse μ} {got hand : List (MsgObject μ)}
    (h : Gathers cs got hand) : Whole got cs.result.1 cs.result.2 := by
  rw [ClientResponse.result]
  cases h with
  | waits hstatus =>
    rw [hstatus]
    exact .nothing WvIpcRet.noConfusion
  | done hstatus hresp hgot hfail =>
    rw [hstatus, hresp]
    exact .success hgot hfail
  | failed hstatus hresp hgot hfail =>
    rw [hstatus, hresp]
    exact .failed hgot hfail

theorem isFailure_some {m : ServerMsg μ} {hdr : IpcHeader} (hhdr : m.hdr = some hdr) :
    m.isFailure = true ↔ hdr.header0 = waveIpcMsgReqFail := by
  rw [ServerMsg.isFailure, hhdr, Option.any_some, decide_eq_true_eq]

theorem isLast_some {m : ServerMsg μ} {hdr : IpcHeader} (hhdr : m.hdr = some hdr) :
    m.isLast = true ↔ hdr.header0 = waveIpcMsgReqFail ∨ hdr.header2 = 0 := by
  rw [ServerMsg.isLast, Bool.or_eq_true, isFailure_some hhdr, hhdr, Option.any_some,
    decide_eq_true_eq]

/-- The message that the entry waits for comes out of the hands of the thread. -/
theorem Gathers.answered {cs : ClientResponse μ} {got : List (MsgObject μ)} {hdr : IpcHeader}
    {resp : MsgObject μ} (h : Gathers cs got [resp]) (hhdr : resp.hdr = some hdr)
    (hresp : hdr.header0 = waveIpcMsgResp ∨ hdr.header0 = waveIpcMsgReqFail) :
    Gathers (cs.answered hdr resp).1 got [] := by
  have hfail := isFailure_some hhdr
  have hlast := isLast_some hhdr
  cases h with
  | done _ _ _ _ hhand => cases hhand
  | failed _ _ _ _ hhand => cases hhand
  | waits hstatus hgot hparts =>
    rw [ClientResponse.answered]
    split_ifs with hok hend
    · have hcomplete : Complete got resp := ⟨cs.response, hgot, hlast.mpr (.inr hend), hparts⟩
      refine .done rfl hgot.symm hcomplete ((Bool.not_eq_true _).mp fun htrue => ?_) rfl
      rw [hok] at hfail
      exact absurd (hfail.mp htrue) (by decide)
    · refine .waits hstatus (hgot.trans (List.append_nil _).symm) fun part hpart => ?_
      rcases List.mem_append.mp hpart with hpart | hpart
      · exact hparts part hpart
      · rw [List.mem_singleton.mp hpart, ← Bool.not_eq_true, hlast, hok]
        exact not_or.mpr ⟨by decide, hend⟩
    · have hfailure : hdr.header0 = waveIpcMsgReqFail := hresp.resolve_left hok
      have hcomplete : Complete got resp := ⟨cs.response, hgot, hlast.mpr (.inl hfailure), hparts⟩
      exact .failed rfl rfl hcomplete (hfail.mpr hfailure) rfl

/-- A reply goes to the entry of the call that it is for, if it has one. -/
theorem handleResponse_gathers {hdr : IpcHeader} {resp : MsgObject μ}
    {respList : List (ClientResponse μ)} {got : Nat → List (MsgObject μ)}
    (hhdr : resp.hdr = some hdr)
    (hresp : hdr.header0 = waveIpcMsgResp ∨ hdr.header0 = waveIpcMsgReqFail)
    (hdistinct : (respList.map ClientResponse.call).Nodup)
    (hseq : ∀ cs ∈ respList, cs.seqNum = hdr.header1 ↔ resp.answers = some cs.call)
    (h : ∀ cs ∈ respList, Gathers cs (got cs.call) ([resp].filter fun out => out.isFor cs.call)) :
    ∀ cs ∈ (ipccHandleResponse hdr resp respList).1, Gathers cs (got cs.call) [] := by
  have hown : ∀ cs : ClientResponse μ, resp.answers = some cs.call →
      ([resp].filter fun out => out.isFor cs.call) = [resp] := by
    intro cs hcs
    refine List.filter_eq_self.mpr fun x hx => ?_
    rw [List.mem_singleton.mp hx]
    exact decide_eq_true hcs
  have hother : ∀ cs : ClientResponse μ, resp.answers ≠ some cs.call →
      ([resp].filter fun out => out.isFor cs.call) = [] := by
    intro cs hcs
    refine List.filter_eq_nil_iff.mpr fun x hx => ?_
    rw [List.mem_singleton.mp hx]
    exact fun htrue => hcs (of_decide_eq_true htrue)
  induction respList with
  | nil => exact fun cs hcs => by cases hcs
  | cons cs rest ih =>
    obtain ⟨hcs, hrest⟩ := List.forall_mem_cons.mp h
    obtain ⟨hfirst, hseqs⟩ := List.forall_mem_cons.mp hseq
    obtain ⟨hnew, hnodup⟩ := List.nodup_cons.mp hdistinct
    rw [ipccHandleResponse]
    split_ifs with heq
    · have hanswers := hfirst.mp heq
      rw [hown cs hanswers] at hcs
      refine List.forall_mem_cons.mpr ⟨?_, fun x hx => ?_⟩
      · rw [answered_sameCall]
        exact hcs.answered hhdr hresp
      · have hne : resp.answers ≠ some x.call := by
          rw [hanswers]
          exact fun hsame => hnew (Option.some_inj.mp hsame ▸ List.mem_map_of_mem hx)
        rw [← hother x hne]
        exact hrest x hx
    · rw [hother cs fun hanswers => heq (hfirst.mpr hanswers)] at hcs
      exact List.forall_mem_cons.mpr ⟨hcs, ih hnodup hseqs hrest⟩

namespace LoopThreadInv

variable {s s' : IpcClient μ} {id : Nat}

theorem mem_nested (h : LoopThreadInv s) {multiOut : List (MsgObject μ)}
    (hparts : (s.call id).parts? = some multiOut) : id ∈ s.nested := by
  refine (h.onSocket id).mpr ?_
  cases hcall : s.call id with
  | again | recv | handle => rfl
  | _ =>
    rw [hcall] at hparts
    cases hparts

/-- Only the innermost call on the thread of the loop gathers parts itself. -/
theorem parts_eq (h : LoopThreadInv s) (hruns : s.Runs id) (hon : (s.call id).onSocket = true)
    {i : Nat} {multiOut : List (MsgObject μ)} (hparts : (s.call i).parts? = some multiOut) :
    i = id := by
  obtain ⟨rest, hnested⟩ := h.innermost hruns hon
  have hmem := h.mem_nested hparts
  rw [hnested] at hmem
  rcases List.mem_cons.mp hmem with heq | hrest
  · exact heq
  · have houter := h.outer i (by rw [hnested]; exact hrest)
    rw [houter] at hparts
    cases hparts

/-- The thread of the loop receives one message at a time. -/
theorem oneReader (h : LoopThreadInv s) (hreading : s.reading = s.carried.msg?.toList.length)
    {a : ClientAction μ} (hstep : s.step a = some s') : OneReader s a := by
  have hquiet : s.carried.msg? = none → s.reading = 0 := fun hnone => by rw [hreading, hnone]; rfl
  intro huses
  cases IpcClient.Stepped.of_step hstep with
  | connect hruns hcall | select hruns hcall | handle hruns hcall =>
    refine hquiet ?_
    rw [h.carried_call hruns (by rw [hcall]; rfl), hcall]
    rfl
  | loopConnect hnested hloop | loopSelect hnested hloop =>
    refine hquiet ?_
    rw [carried_idle hnested, hloop]
    rfl
  | _ => cases huses

end LoopThreadInv

namespace PartsInv

variable {s s' : IpcClient μ} {id : Nat} {phase : SendPhase μ} {m : ServerMsg μ} {out : MsgObject μ}
  {multiOut : List (MsgObject μ)}

theorem init : PartsInv (.init : IpcClient μ) where
  calls id multiOut hparts := by cases hparts
  entries cs hcs := by cases hcs
  listener id hwaits := by cases hwaits
  queued out hout := by cases hout
  held out hout := by cases hout
  returned r hr := by cases hr

/-! ### What is in the hands of the thread -/

theorem hand_none (hout : s.carried.out? = none) (id : Nat) : s.hand id = [] := by
  rw [IpcClient.hand, hout]
  rfl

theorem hand_some (hout : s.carried.out? = some out) (id : Nat) :
    s.hand id = [out].filter fun out => out.isFor id := by
  rw [IpcClient.hand, hout]
  rfl

theorem isFor_iff : m.isFor id = true ↔ m.answers = some id := decide_eq_true_iff

theorem hand_own (hout : s.carried.out? = some out) (hanswers : out.answers = some id) :
    s.hand id = [out] := by
  rw [hand_some hout]
  refine List.filter_eq_self.mpr fun x hx => ?_
  rw [List.mem_singleton.mp hx]
  exact isFor_iff.mpr hanswers

theorem hand_other (hout : s.carried.out? = some out) (hanswers : out.answers ≠ some id) :
    s.hand id = [] := by
  rw [hand_some hout]
  refine List.filter_eq_nil_iff.mpr fun x hx => ?_
  rw [List.mem_singleton.mp hx]
  exact fun htrue => hanswers (isFor_iff.mp htrue)

/-! ### What the steps are made of -/

/-- The thread has nothing for a call in its hands afterwards. -/
theorem idles (h : PartsInv s) (hhand : ∀ id, s'.hand id = [])
    (hreceived : s'.received = s.received)
    (hcalls : ∀ id multiOut, (s'.call id).parts? = some multiOut →
      s.got id = multiOut ∧ ∀ part ∈ multiOut, part.isLast = false)
    (hentries : ∀ cs ∈ s'.respList, Gathers cs (s.got cs.call) [])
    (hwaits : ∀ id, (s'.call id).waits = true → s'.listener = true)
    (hqueued : ∀ out ∈ s'.queuedMsgs, out.answers = none)
    (hreturned : ∀ r ∈ s'.returned, r ∈ s.returned ∨ Whole (s.got r.call) r.ret r.reply) :
    PartsInv s' := by
  have hgot : ∀ i, s'.got i = s.got i := fun i => by rw [IpcClient.got, IpcClient.got, hreceived]
  refine ⟨fun i parts hparts => ?_, fun cs hcs => ?_, hwaits, hqueued, fun x hx hanswers => ?_,
    fun r hr => ?_⟩
  · rw [hgot, hhand, List.append_nil]
    exact hcalls i parts hparts
  · rw [hgot, hhand]
    exact hentries cs hcs
  · obtain ⟨i, hi⟩ := Option.ne_none_iff_exists'.mp hanswers
    have hown := hand_own hx hi
    rw [hhand] at hown
    cases hown
  · rw [hgot]
    exact (hreturned r hr).elim (h.returned r) fun hwhole => hwhole

/-- No other call gathers parts itself. -/
theorem update_parts (ht : LoopThreadInv s) (hruns : s.Runs id) (hon : (s.call id).onSocket = true)
    (hphase : ∀ multiOut, phase.parts? = some multiOut →
      s.got id = multiOut ∧ ∀ part ∈ multiOut, part.isLast = false)
    (i : Nat) (parts : List (MsgObject μ))
    (hparts : (Function.update s.call id phase i).parts? = some parts) :
    s.got i = parts ∧ ∀ part ∈ parts, part.isLast = false := by
  by_cases heq : i = id
  · rw [heq, Function.update_self] at hparts
    rw [heq]
    exact hphase parts hparts
  · rw [Function.update_of_ne heq] at hparts
    exact absurd (ht.parts_eq hruns hon hparts) heq

theorem update_waits (h : PartsInv s) (hwaits : phase.waits = true → s.listener = true) (i : Nat)
    (hi : (Function.update s.call id phase i).waits = true) : s.listener = true := by
  by_cases heq : i = id
  · rw [heq, Function.update_self] at hi
    exact hwaits hi
  · rw [Function.update_of_ne heq] at hi
    exact h.listener i hi

/-- A call that reads from the socket goes on. -/
theorem goesOn (h : PartsInv s) (ht : LoopThreadInv s) (hruns : s.Runs id)
    (hon : (s.call id).onSocket = true) (hnone : phase.carried.out? = none)
    (hwaits : phase.waits = false)
    (hphase : ∀ multiOut, phase.parts? = some multiOut →
      s.got id = multiOut ∧ ∀ part ∈ multiOut, part.isLast = false)
    {respList : List (ClientResponse μ)}
    (hentries : ∀ cs ∈ respList, Gathers cs (s.got cs.call) []) :
    PartsInv { s.setCall id phase with respList := respList } := by
  have hcarried : (s.setCall id phase).carried.out? = none :=
    (congrArg Carried.out? (ht.carried_setCall hruns hon phase)).trans hnone
  refine h.idles (hand_none hcarried) rfl (update_parts ht hruns hon hphase) hentries
    (h.update_waits fun htrue => ?_) h.queued fun r hr => .inl hr
  rw [hwaits] at htrue
  cases htrue

theorem ends (h : PartsInv s) (ht : LoopThreadInv s) (hruns : s.Runs id)
    (hon : (s.call id).onSocket = true) {ret : WvIpcRet} {reply : List (MsgObject μ)}
    (hwhole : Whole (s.got id) ret reply)
    (hentries : ∀ cs ∈ s.respList, Gathers cs (s.got cs.call) []) :
    PartsInv (s.finish id ret reply) := by
  have hcarried : (s.finish id ret reply).carried.out? = none :=
    congrArg Carried.out? (ht.carried_finish hruns hon ret reply)
  refine h.idles (hand_none hcarried) rfl (update_parts ht hruns hon fun parts hparts =>
    ?_) hentries (h.update_waits fun htrue => ?_) h.queued fun r hr => ?_
  · cases hparts
  · cases htrue
  · rcases List.mem_append.mp hr with hr | hr
    · exact .inl hr
    · rw [List.mem_singleton.mp hr]
      exact .inr hwhole

/-- The loop goes on with nothing in its hands, after it has handed a reply to the list. -/
theorem loopHands (h : PartsInv s) (ht : LoopThreadInv s) (hnested : s.nested = [])
    {next : LoopPhase μ} (hnone : next.carried.out? = none) {respList : List (ClientResponse μ)}
    (hentries : ∀ cs ∈ respList, Gathers cs (s.got cs.call) []) :
    PartsInv { s.setLoop next with respList := respList } := by
  have hcarried : (s.setLoop next).carried.out? = none :=
    (congrArg Carried.out? (LoopThreadInv.carried_setLoop hnested next)).trans hnone
  refine h.idles (hand_none hcarried) rfl (fun i parts hparts => ?_) hentries h.listener h.queued
    fun r hr => .inl hr
  have hmem := ht.mem_nested hparts
  rw [hnested] at hmem
  cases hmem

theorem loopMoves (h : PartsInv s) (ht : LoopThreadInv s) (hnested : s.nested = [])
    (hentries : ∀ cs ∈ s.respList, Gathers cs (s.got cs.call) []) {next : LoopPhase μ}
    (hnone : next.carried.out? = none) : PartsInv (s.setLoop next) :=
  h.loopHands ht hnested hnone hentries

/-- The thread of the loop, its calls and the messages stay as they are. -/
theorem keep (h : PartsInv s) (hcall : s'.call = s.call) (hcarried : s'.carried = s.carried)
    (hlist : s'.respList = s.respList) (hlistener : s'.listener = s.listener)
    (hqueued : s'.queuedMsgs = s.queuedMsgs) (hreceived : s'.received = s.received)
    (hreturned : s'.returned = s.returned) : PartsInv s' := by
  have hgot : ∀ i, s'.got i = s.got i := fun i => by rw [IpcClient.got, IpcClient.got, hreceived]
  have hhand : ∀ i, s'.hand i = s.hand i :=
    fun i => by rw [IpcClient.hand, IpcClient.hand, hcarried]
  refine ⟨fun i parts hparts => ?_, fun cs hcs => ?_, fun i hi => ?_, ?_, ?_, fun r hr => ?_⟩
  · rw [hgot, hhand]
    exact h.calls i parts (hcall ▸ hparts)
  · rw [hgot, hhand]
    exact h.entries cs (hlist ▸ hcs)
  · rw [hlistener]
    exact h.listener i (hcall ▸ hi)
  · rw [hqueued]
    exact h.queued
  · rw [hcarried, hreceived]
    exact h.held
  · rw [hgot]
    exact h.returned r (hreturned ▸ hr)

/-- A call goes on or returns, and the thread of the loop has nothing to do with it. -/
theorem other (h : PartsInv s) (hcall : s'.call = Function.update s.call id phase)
    (hparts : phase.parts? = none) (hwaits : phase.waits = true → s.listener = true)
    (hcarried : s'.carried = s.carried) (hreceived : s'.received = s.received)
    (hlistener : s'.listener = s.listener) (hqueued : s'.queuedMsgs = s.queuedMsgs)
    (hentries : ∀ cs ∈ s'.respList, Gathers cs (s.got cs.call) (s.hand cs.call))
    (hreturned : ∀ r ∈ s'.returned, r ∈ s.returned ∨ Whole (s.got r.call) r.ret r.reply) :
    PartsInv s' := by
  have hgot : ∀ i, s'.got i = s.got i := fun i => by rw [IpcClient.got, IpcClient.got, hreceived]
  have hhand : ∀ i, s'.hand i = s.hand i :=
    fun i => by rw [IpcClient.hand, IpcClient.hand, hcarried]
  refine ⟨fun i parts hi => ?_, fun cs hcs => ?_, fun i hi => ?_, ?_, ?_, fun r hr => ?_⟩
  · rw [hcall] at hi
    rw [hgot, hhand]
    by_cases heq : i = id
    · rw [heq, Function.update_self, hparts] at hi
      cases hi
    · rw [Function.update_of_ne heq] at hi
      exact h.calls i parts hi
  · rw [hgot, hhand]
    exact hentries cs hcs
  · rw [hlistener]
    exact h.update_waits hwaits i (hcall ▸ hi)
  · rw [hqueued]
    exact h.queued
  · rw [hcarried, hreceived]
    exact h.held
  · rw [hgot]
    exact (hreturned r hr).elim (h.returned r) fun hwhole => hwhole

/-- Nothing follows the message that a reply has ended with. -/
theorem no_more {last : MsgObject μ} (hsent : SentInv s')
    (hreceived : s'.received = s.received ++ [out]) (hgot : Complete (s.got id) last) :
    out.answers ≠ some id := by
  intro hanswers
  obtain ⟨parts, hparts, hlast, -⟩ := hgot
  have hown : [out.toServerMsg].filter (ServerMsg.isFor id) = [out.toServerMsg] := by
    refine List.filter_eq_self.mpr fun x hx => ?_
    rw [List.mem_singleton.mp hx]
    exact isFor_iff.mpr hanswers
  have hbefore : (s.received.map MsgObject.toServerMsg).filter (ServerMsg.isFor id) =
      (parts ++ [last]).map MsgObject.toServerMsg := by
    rw [List.filter_map, ← hparts]
    rfl
  have hpairwise := hsent.lasts id
  rw [IpcClient.messages, hreceived, List.map_append, List.append_assoc, List.filter_append,
    List.filter_append, List.map_singleton, hown, hbefore] at hpairwise
  have hrel := (List.pairwise_append.mp hpairwise).2.2 last.toServerMsg
    (List.mem_map_of_mem (List.mem_append_right parts List.mem_cons_self)) out.toServerMsg
    (List.mem_append_left _ List.mem_cons_self)
  rw [hlast] at hrel
  cases hrel

/-- A message has been received. -/
theorem receives (h : PartsInv s) (hsent : SentInv s') (hout : s.carried.out? = none)
    (hout' : s'.carried.out? = some out) (hreceived : s'.received = s.received ++ [out])
    (hparts : ∀ i, (s'.call i).parts? = (s.call i).parts?)
    (hwaits : ∀ i, (s'.call i).waits = true → (s.call i).waits = true)
    (hlist : s'.respList = s.respList) (hlistener : s'.listener = s.listener)
    (hqueued : s'.queuedMsgs = s.queuedMsgs) (hreturned : s'.returned = s.returned) :
    PartsInv s' := by
  have hgot : ∀ i, s'.got i = s.got i ++ s'.hand i := fun i => by
    rw [IpcClient.got, hreceived, List.filter_append, hand_some hout']
    rfl
  have hsame : ∀ {i : Nat} {last : MsgObject μ}, Complete (s.got i) last → s'.hand i = [] :=
    fun hlast => hand_other hout' (no_more hsent hreceived hlast)
  refine ⟨fun i parts hi => ?_, fun cs hcs => ?_, fun i hi => ?_, ?_, fun x hx _ => ?_,
    fun r hr => ?_⟩
  · obtain ⟨hbefore, hnot⟩ := h.calls i parts (hparts i ▸ hi)
    rw [hand_none hout, List.append_nil] at hbefore
    rw [hgot, hbefore]
    exact ⟨rfl, hnot⟩
  · rw [hlist] at hcs
    cases h.entries cs hcs with
    | waits hstatus hbefore hnot =>
      rw [hand_none hout, List.append_nil] at hbefore
      rw [hgot, hbefore]
      exact .waits hstatus rfl hnot
    | done hstatus hresp hlast hfail =>
      rw [hgot, hsame hlast, List.append_nil]
      exact .done hstatus hresp hlast hfail rfl
    | failed hstatus hresp hlast hfail =>
      rw [hgot, hsame hlast, List.append_nil]
      exact .failed hstatus hresp hlast hfail rfl
  · rw [hlistener]
    exact h.listener i (hwaits i hi)
  · rw [hqueued]
    exact h.queued
  · rw [hout'] at hx
    cases hx
    rw [hreceived]
    exact List.mem_append_right _ List.mem_cons_self
  · rw [hgot]
    have hwhole := h.returned r (hreturned ▸ hr)
    generalize r.ret = ret, r.reply = reply at hwhole ⊢
    cases hwhole with
    | success hlast hfail =>
      rw [hsame hlast, List.append_nil]
      exact .success hlast hfail
    | failed hlast hfail =>
      rw [hsame hlast, List.append_nil]
      exact .failed hlast hfail
    | nothing hret => exact .nothing hret

/-! ### The steps of a call -/

/-- The thread has nothing in its hands that an entry waits for. -/
theorem entries_free (h : PartsInv s) (hfree : ∀ cs ∈ s.respList, s.hand cs.call = []) :
    ∀ cs ∈ s.respList, Gathers cs (s.got cs.call) [] := fun cs hcs => by
  rw [← hfree cs hcs]
  exact h.entries cs hcs

theorem entries_idle (h : PartsInv s) (hout : s.carried.out? = none) :
    ∀ cs ∈ s.respList, Gathers cs (s.got cs.call) [] :=
  h.entries_free fun cs _ => hand_none hout cs.call

/-- Nothing has been received for a command that has not been sent. -/
theorem unsent_none (h : PartsInv s) (hsent : SentInv s) (hunsent : s.Unsent id) :
    s.got id = [] ∧ s.hand id = [] := by
  have hnone := (hsent.unsent id hunsent).2
  rw [IpcClient.messages, List.filter_append, List.append_eq_nil_iff, List.filter_map,
    List.map_eq_nil_iff] at hnone
  have hgot : s.got id = [] := hnone.1
  refine ⟨hgot, List.filter_eq_nil_iff.mpr fun x hx hfor => ?_⟩
  have hanswers : x.answers = some id := isFor_iff.mp hfor
  have hmem : x ∈ s.got id := List.mem_filter.mpr
    ⟨h.held x (Option.mem_toList.mp hx) (by rw [hanswers]; exact Option.some_ne_none id), hfor⟩
  rw [hgot] at hmem
  cases hmem

theorem nothing_returned {ret : WvIpcRet} (hret : ret ≠ .success) :
    ∀ r ∈ s.returned ++ [⟨id, ret, []⟩], r ∈ s.returned ∨ Whole (s.got r.call) r.ret r.reply := by
  intro r hr
  rcases List.mem_append.mp hr with hr | hr
  · exact .inl hr
  · rw [List.mem_singleton.mp hr]
    exact .inr (.nothing hret)

theorem startCall (h : PartsInv s) (ht : LoopThreadInv s) (hcalls : CallsInv s) {onLoop : Bool}
    (pushed : Bool) (hfree : onLoop = true → s.LoopThreadFree)
    (hok : onLoop = true ∨ s.listener = true) : PartsInv (s.startCall onLoop pushed) := by
  have hcarried := ht.carried_startCall hcalls pushed hfree hok
  cases pushed with
  | true =>
    refine h.other rfl ?_ ?_ hcarried rfl rfl rfl h.entries fun r hr => .inl hr
    · split_ifs
      · rfl
      · rfl
    · split_ifs with hlistener
      · exact fun _ => (Bool.and_eq_true_iff.mp hlistener).1
      · exact fun htrue => by cases htrue
  | false =>
    exact h.other rfl rfl (fun htrue => by cases htrue) hcarried rfl
      rfl rfl h.entries (nothing_returned WvIpcRet.noConfusion)

/-- A call that waits for the listener returns nothing. -/
theorem otherEnds (h : PartsInv s) (ht : LoopThreadInv s) (hoff : (s.call id).onSocket = false)
    {ret : WvIpcRet} (hret : ret ≠ .success) {respList : List (ClientResponse μ)}
    (hlist : respList ⊆ s.respList) : PartsInv { s.finish id ret [] with respList := respList } :=
  h.other rfl rfl (fun htrue => by cases htrue)
    (ht.carried_finish_off hoff ret []) rfl rfl rfl (fun cs hcs => h.entries cs (hlist hcs))
    (nothing_returned hret)

theorem startWait (h : PartsInv s) (ht : LoopThreadInv s) (hsent : SentInv s)
    (hcall : s.call id = .listenerStart) (obj node : Bool) :
    PartsInv (s.startWait id obj node) := by
  have hoff : (s.call id).onSocket = false := by rw [hcall]; rfl
  have hlistener : s.listener = true := h.listener id (by rw [hcall]; rfl)
  have hcarried := ht.carried_setCall_off hoff .listenerSend
  obtain ⟨hgot, hhand⟩ := h.unsent_none hsent (.inr (by rw [hcall]; rfl) : s.Unsent id)
  rw [IpcClient.startWait]
  split_ifs
  · refine h.other rfl rfl (fun _ => hlistener) hcarried rfl rfl rfl
      (List.forall_mem_cons.mpr ⟨?_, h.entries⟩) fun r hr => .inl hr
    refine .waits rfl ?_ fun part hpart => by cases hpart
    rw [hgot, hhand]
    rfl
  · exact h.other rfl rfl (fun _ => hlistener) hcarried rfl rfl rfl
      h.entries fun r hr => .inl hr
  · exact h.otherEnds ht hoff WvIpcRet.noConfusion (List.Subset.refl _)
  · exact h.otherEnds ht hoff WvIpcRet.noConfusion (List.Subset.refl _)

theorem listenerSend (h : PartsInv s) (ht : LoopThreadInv s) (hcall : s.call id = .listenerSend)
    (ret : WvIpcRet) : PartsInv (s.sendCmd id ret .listenerWait) := by
  have hoff : (s.call id).onSocket = false := by rw [hcall]; rfl
  have hlistener : s.listener = true := h.listener id (by rw [hcall]; rfl)
  rw [IpcClient.sendCmd]
  split_ifs with hsends hret
  · exact h.other rfl rfl (fun _ => hlistener)
      (ht.carried_setCall_off hoff .listenerWait) rfl rfl rfl h.entries fun r hr => .inl hr
  · exact h.otherEnds ht hoff WvIpcRet.noConfusion List.filter_sublist.subset
  · exact h.otherEnds ht hoff hret List.filter_sublist.subset

theorem endWait (h : PartsInv s) (ht : LoopThreadInv s) (hcall : s.call id = .listenerWait) :
    PartsInv (s.endWait id) := by
  have hoff : (s.call id).onSocket = false := by rw [hcall]; rfl
  rw [IpcClient.endWait]
  cases hfind : s.respList.find? fun cs => cs.call = id with
  | none => exact h.otherEnds ht hoff WvIpcRet.noConfusion (List.Subset.refl _)
  | some cs =>
    obtain rfl : cs.call = id := of_decide_eq_true (List.find?_some hfind :)
    refine h.other rfl rfl (fun htrue => by cases htrue)
      (ht.carried_finish_off hoff cs.result.1 cs.result.2) rfl rfl rfl
      (fun x hx => h.entries x (List.mem_of_mem_filter hx)) fun r hr => ?_
    rcases List.mem_append.mp hr with hr | hr
    · exact .inl hr
    · rw [List.mem_singleton.mp hr]
      exact .inr (h.entries cs (List.mem_of_find?_eq_some hfind)).result

theorem connect (h : PartsInv s) (ht : LoopThreadInv s) (hruns : s.Runs id)
    (hcall : s.call id = .start) (ok : Bool) : PartsInv (s.connect id ok) := by
  have hon : (s.call id).onSocket = true := by rw [hcall]; rfl
  have hidle : s.carried.out? = none := by rw [ht.carried_call hruns hon, hcall]; rfl
  have hentries := h.entries_idle hidle
  have hsends : PartsInv (s.setCall id .send) :=
    h.goesOn ht hruns hon rfl rfl (fun parts hparts => by cases hparts) hentries
  rw [IpcClient.connect]
  split_ifs
  · exact hsends
  · exact hsends.keep rfl rfl rfl rfl rfl rfl rfl
  · exact h.ends ht hruns hon (.nothing WvIpcRet.noConfusion) hentries
  · exact h.ends ht hruns hon (.nothing WvIpcRet.noConfusion) hentries

theorem send (h : PartsInv s) (ht : LoopThreadInv s) (hcalls : CallsInv s) (hsent : SentInv s)
    (hruns : s.Runs id) (hcall : s.call id = .send) (ret : WvIpcRet) :
    PartsInv (s.sendCmd id ret (.again [])) := by
  have hon : (s.call id).onSocket = true := by rw [hcall]; rfl
  have hidle : s.carried.out? = none := by rw [ht.carried_call hruns hon, hcall]; rfl
  have hentries := h.entries_idle hidle
  have hgot : s.got id = [] := (h.unsent_none hsent (.inr (by rw [hcall]; rfl))).1
  have htaken : (s.takeEntry id).respList = s.respList := by
    refine List.filter_eq_self.mpr fun cs hcs => bne_iff_ne.mpr fun heq => ?_
    refine @CallsInv.not_listed _ s id hcalls ?_ ?_ (heq ▸ List.mem_map_of_mem hcs)
    · rw [hcall]
      rintro ⟨⟩
    · rw [hcall]
      rintro ⟨⟩
  have hends : ∀ {ret : WvIpcRet}, ret ≠ .success →
      PartsInv ((s.takeEntry id).finish id ret []) := by
    intro ret hret
    have hended : PartsInv (s.finish id ret []) := h.ends ht hruns hon (.nothing hret) hentries
    exact hended.keep rfl rfl htaken rfl rfl rfl rfl
  rw [IpcClient.sendCmd]
  split_ifs with hsends hret
  · have hagain : PartsInv (s.setCall id (.again [])) := by
      refine h.goesOn ht hruns hon rfl rfl (fun parts hparts => ?_) hentries
      cases hparts
      exact ⟨hgot, fun part hpart => by cases hpart⟩
    exact hagain.keep rfl rfl rfl rfl rfl rfl rfl
  · exact hends WvIpcRet.noConfusion
  · exact hends hret

theorem disconnectCall (h : PartsInv s) (ht : LoopThreadInv s) (hruns : s.Runs id)
    (hon : (s.call id).onSocket = true)
    (hentries : ∀ cs ∈ s.respList, Gathers cs (s.got cs.call) []) (b : Below μ) :
    PartsInv (s.disconnectCall id b) := by
  have hgone : PartsInv (s.disconnected b.socketInit) := h.keep rfl rfl rfl rfl rfl rfl rfl
  have htgone : LoopThreadInv (s.disconnected b.socketInit) := ht.keep rfl rfl rfl
  rw [IpcClient.disconnectCall]
  split_ifs
  · exact hgone.goesOn htgone hruns hon rfl rfl (fun parts hparts => by cases hparts) hentries
  · exact hgone.ends htgone hruns hon (.nothing WvIpcRet.noConfusion) hentries

theorem selectCall (h : PartsInv s) (ht : LoopThreadInv s) (hruns : s.Runs id)
    (hcall : s.call id = .again multiOut) (b : Below μ) (res : SelectResult) :
    PartsInv (s.selectCall id multiOut b res) := by
  have hon : (s.call id).onSocket = true := by rw [hcall]; rfl
  have hidle : s.carried.out? = none := by rw [ht.carried_call hruns hon, hcall]; rfl
  have hentries := h.entries_idle hidle
  cases res with
  | again => exact h
  | failed => exact h.disconnectCall ht hruns hon hentries b
  | timeout => exact h.ends ht hruns hon (.nothing WvIpcRet.noConfusion) hentries
  | ready =>
    rw [IpcClient.selectCall]
    split
    · next m rest hstream =>
      split_ifs
      · have hreads : PartsInv (s.setCall id (.recv multiOut m)) := by
          refine h.goesOn ht hruns hon rfl rfl (fun parts hparts => ?_) hentries
          cases hparts
          obtain ⟨hgot, hnot⟩ := h.calls id multiOut (by rw [hcall]; rfl)
          rw [hand_none hidle, List.append_nil] at hgot
          exact ⟨hgot, hnot⟩
        exact hreads.keep rfl rfl rfl rfl rfl rfl rfl
      · exact h.disconnectCall ht hruns hon hentries b
    · exact h.disconnectCall ht hruns hon hentries b

theorem recvCall (h : PartsInv s) (ht : LoopThreadInv s) (hruns : s.Runs id)
    (hcall : s.call id = .recv multiOut m) (b : Below μ)
    (hsent : SentInv (s.recvCall id multiOut m b)) : PartsInv (s.recvCall id multiOut m b) := by
  have hon : (s.call id).onSocket = true := by rw [hcall]; rfl
  have hidle : s.carried.out? = none := by rw [ht.carried_call hruns hon, hcall]; rfl
  have hstop : PartsInv s.stopRecv := h.keep rfl rfl rfl rfl rfl rfl rfl
  have htstop : LoopThreadInv s.stopRecv := ht.keep rfl rfl rfl
  have hends : LoopThreadInv (s.endRecv (s.object m b.garbled)) := ht.keep rfl rfl rfl
  have hout' := congrArg Carried.out?
    (hends.carried_setCall hruns hon (.handle multiOut (s.object m b.garbled)))
  rw [IpcClient.recvCall] at hsent ⊢
  split_ifs at hsent ⊢
  · refine h.receives hsent hidle hout' rfl (fun i => ?_) (fun i hi => ?_) rfl rfl rfl rfl
    · show (Function.update s.call id _ i).parts? = (s.call i).parts?
      by_cases heq : i = id
      · rw [heq, Function.update_self, hcall]
        rfl
      · rw [Function.update_of_ne heq]
    · change (Function.update s.call id _ i).waits = true at hi
      by_cases heq : i = id
      · rw [heq, Function.update_self] at hi
        cases hi
      · rwa [Function.update_of_ne heq] at hi
  · exact hstop.disconnectCall htstop hruns hon (h.entries_idle hidle) b

/-- What the thread has in its hands has come from the server. -/
theorem numbered_out (h : PartsInv s) (hsent : SentInv s) (hout : s.carried.out? = some out) :
    IsAnswer out.toServerMsg := fun i hi => by
  have hmem : out ∈ s.received := h.held out hout (by rw [hi]; exact Option.some_ne_none i)
  exact hsent.numbered _ (List.mem_append_left _ (List.mem_map_of_mem hmem)) i hi

theorem answers_none {hdr : IpcHeader} (hanswer : IsAnswer m) (hhdr : m.hdr = some hdr)
    (hresp : ¬ (hdr.header0 = waveIpcMsgResp ∨ hdr.header0 = waveIpcMsgReqFail)) :
    m.answers = none := by
  cases hanswers : m.answers with
  | none => rfl
  | some i =>
    obtain ⟨hdr', hhdr', hresp', -⟩ := hanswer i hanswers
    cases hhdr.symm.trans hhdr'
    exact absurd hresp' hresp

theorem not_for (hnone : m.answers = none) (i : Nat) : m.answers ≠ some i := by
  rw [hnone]
  rintro ⟨⟩

/-- Without a listener there are no entries. -/
theorem list_nil (h : PartsInv s) (hcalls : CallsInv s) (hlistener : ¬ s.listener = true) :
    s.respList = [] := by
  refine List.eq_nil_iff_forall_not_mem.mpr fun cs hcs => hlistener (h.listener cs.call ?_)
  rcases hcalls.entries cs.call (List.mem_map_of_mem hcs) with hcall | hcall
  · rw [hcall]
    rfl
  · rw [hcall]
    rfl

/-- A reply in the hands of the thread is handed to the list. -/
theorem listed (h : PartsInv s) (hcalls : CallsInv s) (hreplies : ReplyInv s) (hsent : SentInv s)
    (hout : s.carried.out? = some out) (hreply : IsReply out.toServerMsg)
    (hrecent : ∀ answered ∈ out.answers, Recent s answered ∧ ∀ cs ∈ s.respList, Recent s cs.call)
    {hdr : IpcHeader} (hhdr : out.hdr = some hdr)
    (hresp : hdr.header0 = waveIpcMsgResp ∨ hdr.header0 = waveIpcMsgReqFail) :
    ∀ cs ∈ (s.handleResponse hdr out).respList, Gathers cs (s.got cs.call) [] := by
  refine handleResponse_gathers hhdr hresp hcalls.distinct
    (fun cs hcs => ⟨?_, fun hanswers => ?_⟩) ?_
  · exact hreplies.toListed hreply hrecent hhdr hresp cs hcs
  · obtain ⟨hdr', hhdr', -, hnum⟩ := h.numbered_out hsent hout cs.call hanswers
    cases hhdr.symm.trans hhdr'
    rw [hreplies.listed cs hcs, hnum]
  · intro cs hcs
    rw [← hand_some hout]
    exact h.entries cs hcs

theorem handleCall (h : PartsInv s) (ht : LoopThreadInv s) (hcalls : CallsInv s)
    (hreplies : ReplyInv s) (hsent : SentInv s) (hruns : s.Runs id)
    (hcall : s.call id = .handle multiOut out)
    (hrecent : ∀ answered ∈ out.answers,
      Recent s answered ∧ Recent s id ∧ ∀ cs ∈ s.respList, Recent s cs.call) (b : Below μ) :
    PartsInv (s.handleCall id multiOut out b) := by
  have hon : (s.call id).onSocket = true := by rw [hcall]; rfl
  have hout : s.carried.out? = some out := by rw [ht.carried_call hruns hon, hcall]; rfl
  have hid : id < s.numCalls := hcalls.lt (by rw [hcall]; rintro ⟨⟩)
  have hreply : IsReply out.toServerMsg := (ReplyInv.holds hcall hreplies).2
  have hanswer := h.numbered_out hsent hout
  obtain ⟨hgot, hnot⟩ := h.calls id multiOut (by rw [hcall]; rfl)
  have hlisted : ∀ cs ∈ s.respList, cs.call ≠ id := fun cs hcs heq => by
    refine @CallsInv.not_listed _ s id hcalls ?_ ?_ (heq ▸ List.mem_map_of_mem hcs)
    · rw [hcall]
      rintro ⟨⟩
    · rw [hcall]
      rintro ⟨⟩
  have hagain : out.answers ≠ some id → ∀ {respList : List (ClientResponse μ)},
      (∀ cs ∈ respList, Gathers cs (s.got cs.call) []) →
        PartsInv { s.setCall id (.again multiOut) with respList := respList } := by
    intro hanswers respList hentries
    refine h.goesOn ht hruns hon rfl rfl (fun parts hparts => ?_) hentries
    cases hparts
    rw [hand_other hout hanswers, List.append_nil] at hgot
    exact ⟨hgot, hnot⟩
  -- a message that answers no command
  have hnone : out.answers = none → ∀ cs ∈ s.respList, Gathers cs (s.got cs.call) [] :=
    fun hanswers =>
    h.entries_free fun cs _ => hand_other hout (not_for hanswers cs.call)
  rw [IpcClient.handleCall]
  cases hhdr : out.hdr with
  | none =>
    have hanswers : out.answers = none := by
      cases hanswers : out.answers with
      | none => rfl
      | some i =>
        obtain ⟨hdr, hhdr', -⟩ := hanswer i hanswers
        cases hhdr.symm.trans hhdr'
    have hput : PartsInv (s.putBack [out]) := h.keep rfl rfl rfl rfl rfl rfl rfl
    have htput : LoopThreadInv (s.putBack [out]) := ht.keep rfl rfl rfl
    exact hput.disconnectCall htput hruns hon (hnone hanswers) b
  | some hdr =>
    have hfail := isFailure_some hhdr
    have hlast := isLast_some hhdr
    -- a part for this call, or for another one
    have hmine : (hdr.header0 = waveIpcMsgResp ∨ hdr.header0 = waveIpcMsgReqFail) →
        hdr.header1 = s.seqNum id →
          s.got id = multiOut ++ [out] ∧ ∀ cs ∈ s.respList, Gathers cs (s.got cs.call) [] := by
      intro hresp hseq
      have hanswers := hreplies.toCall hreply (fun i hi => ⟨(hrecent i hi).1, (hrecent i hi).2.1⟩)
        hhdr hresp hseq
      rw [hand_own hout hanswers] at hgot
      refine ⟨hgot, h.entries_free fun cs hcs => hand_other hout ?_⟩
      rw [hanswers]
      exact fun heq => hlisted cs hcs (Option.some_inj.mp heq).symm
    have hother : hdr.header1 ≠ s.seqNum id → out.answers ≠ some id := by
      intro hseq hanswers
      obtain ⟨hdr', hhdr', -, hnum⟩ := hanswer id hanswers
      cases hhdr.symm.trans hhdr'
      exact hseq (hnum.trans (hreplies.numbers id hid).symm)
    dsimp only
    split_ifs with hresp hseq hfailure hend hlistener hevent
    · -- the failure
      obtain ⟨hgot, hown⟩ := hmine hresp hseq
      have hwhole : Whole (s.got id) .cmdFailed [out] :=
        .failed ⟨multiOut, hgot, hlast.mpr (.inl hfailure), hnot⟩ (hfail.mpr hfailure)
      have hended : PartsInv (s.finish id .cmdFailed [out]) := h.ends ht hruns hon hwhole hown
      exact hended.keep rfl rfl rfl rfl rfl rfl rfl
    · -- the last part
      obtain ⟨hgot, hown⟩ := hmine hresp hseq
      have hwhole : Whole (s.got id) .success (s.got id) :=
        .success ⟨multiOut, hgot, hlast.mpr (.inr hend), hnot⟩
          ((Bool.not_eq_true _).mp fun htrue => hfailure (hfail.mp htrue))
      rw [← hgot]
      exact h.ends ht hruns hon hwhole hown
    · -- a part with more to follow
      obtain ⟨hgot, hown⟩ := hmine hresp hseq
      refine h.goesOn ht hruns hon rfl rfl (fun parts hparts => ?_) hown
      cases hparts
      refine ⟨hgot, fun part hpart => ?_⟩
      rcases List.mem_append.mp hpart with hpart | hpart
      · exact hnot part hpart
      · rw [List.mem_singleton.mp hpart, ← Bool.not_eq_true, hlast]
        exact not_or.mpr ⟨hfailure, hend⟩
    · have hentries := h.listed hcalls hreplies hsent hout hreply
        (fun i hi => ⟨(hrecent i hi).1, (hrecent i hi).2.2⟩) hhdr hresp
      exact (hagain (hother hseq) hentries).keep rfl rfl rfl rfl rfl rfl rfl
    · have hnil := h.list_nil hcalls hlistener
      have hentries : ∀ cs ∈ s.respList, Gathers cs (s.got cs.call) [] := fun cs hcs => by
        rw [hnil] at hcs
        cases hcs
      exact (hagain (hother hseq) hentries).keep rfl rfl rfl rfl rfl rfl rfl
    · have hanswers := answers_none hanswer hhdr hresp
      have hmoves := hagain (not_for hanswers id) (hnone hanswers)
      refine ⟨hmoves.calls, hmoves.entries, hmoves.listener, fun x hx => ?_, hmoves.held,
        hmoves.returned⟩
      rcases List.mem_append.mp hx with hx | hx
      · exact h.queued x hx
      · rwa [List.mem_singleton.mp hx]
    · have hanswers := answers_none hanswer hhdr hresp
      exact hagain (not_for hanswers id) (hnone hanswers)
    · have hanswers := answers_none hanswer hhdr hresp
      have hmoves := hagain (not_for hanswers id) (hnone hanswers)
      exact hmoves.keep rfl rfl rfl rfl rfl rfl rfl

/-! ### The steps of the event loop -/

/-- A message that is kept for the loop is for no call. -/
theorem loopHead (h : PartsInv s) (ht : LoopThreadInv s) (hnested : s.nested = [])
    (hloop : s.loop = .head) (stop : Bool) : PartsInv (s.loopHead stop) := by
  have hidle : s.carried.out? = none := by rw [LoopThreadInv.carried_idle hnested, hloop]; rfl
  have hentries := h.entries_idle hidle
  rw [IpcClient.loopHead]
  split_ifs
  · exact h.loopMoves ht hnested hentries rfl
  · split
    · next first rest hqueued =>
      have hcarried : (s.setLoop (.handle first)).carried.out? = some first :=
        congrArg Carried.out? (LoopThreadInv.carried_setLoop hnested (.handle first))
      have hfirst : first.answers = none := h.queued first (hqueued ▸ List.mem_cons_self)
      refine h.idles (fun i => hand_other hcarried (not_for hfirst i)) rfl
        (fun i parts hparts => ?_)
        hentries h.listener (fun x hx => h.queued x (hqueued ▸ List.mem_cons_of_mem first hx))
        fun r hr => .inl hr
      have hmem := ht.mem_nested hparts
      rw [hnested] at hmem
      cases hmem
    · exact h.loopMoves ht hnested hentries rfl

theorem loopConnect (h : PartsInv s) (ht : LoopThreadInv s) (hnested : s.nested = [])
    (hloop : s.loop = .wait) (ret : WvIpcRet) (clb : Bool) : PartsInv (s.loopConnect ret clb) := by
  have hidle : s.carried.out? = none := by rw [LoopThreadInv.carried_idle hnested, hloop]; rfl
  have hentries := h.entries_idle hidle
  have hconnected : PartsInv s.connected := h.keep rfl rfl rfl rfl rfl rfl rfl
  have htconnected : LoopThreadInv s.connected := ht.keep rfl rfl rfl
  rw [IpcClient.loopConnect]
  split_ifs
  · exact hconnected.loopMoves htconnected hnested hentries rfl
  · exact hconnected.loopMoves htconnected hnested hentries rfl
  · exact h
  · exact h.loopMoves ht hnested hentries rfl

theorem loopDisconnect (h : PartsInv s) (ht : LoopThreadInv s) (hnested : s.nested = [])
    (hentries : ∀ cs ∈ s.respList, Gathers cs (s.got cs.call) []) (b : Below μ) :
    PartsInv (s.loopDisconnect b) := by
  have hgone : PartsInv (s.disconnected b.socketInit) := h.keep rfl rfl rfl rfl rfl rfl rfl
  have htgone : LoopThreadInv (s.disconnected b.socketInit) := ht.keep rfl rfl rfl
  rw [IpcClient.loopDisconnect]
  split_ifs
  · exact hgone.loopMoves htgone hnested hentries rfl
  · exact hgone.loopMoves htgone hnested hentries rfl
  · exact hgone.loopMoves htgone hnested hentries rfl

theorem loopSelect (h : PartsInv s) (ht : LoopThreadInv s) (hnested : s.nested = [])
    (hloop : s.loop = .wait) (b : Below μ) (res : SelectResult) :
    PartsInv (s.loopSelect b res) := by
  have hidle : s.carried.out? = none := by rw [LoopThreadInv.carried_idle hnested, hloop]; rfl
  have hentries := h.entries_idle hidle
  cases res with
  | again => exact h
  | timeout => exact h
  | failed => exact h.loopMoves ht hnested hentries rfl
  | ready =>
    rw [IpcClient.loopSelect]
    split
    · next m rest hstream =>
      have hreads : PartsInv (s.setLoop (.recv m)) := h.loopMoves ht hnested hentries rfl
      split_ifs
      · refine hreads.keep rfl ?_ rfl rfl rfl rfl rfl
        exact (LoopThreadInv.carried_setLoop (s := s.startRecv rest) hnested _).trans
          (LoopThreadInv.carried_setLoop hnested _).symm
      · exact h.loopDisconnect ht hnested hentries b
    · exact h.loopDisconnect ht hnested hentries b

theorem loopRecv (h : PartsInv s) (ht : LoopThreadInv s) (hnested : s.nested = [])
    (hloop : s.loop = .recv m) (b : Below μ) (hsent : SentInv (s.loopRecv m b)) :
    PartsInv (s.loopRecv m b) := by
  have hidle : s.carried.out? = none := by rw [LoopThreadInv.carried_idle hnested, hloop]; rfl
  have hstop : PartsInv s.stopRecv := h.keep rfl rfl rfl rfl rfl rfl rfl
  have htstop : LoopThreadInv s.stopRecv := ht.keep rfl rfl rfl
  have hout' := congrArg Carried.out? (LoopThreadInv.carried_setLoop
    (s := s.endRecv (s.object m b.garbled)) hnested (.handle (s.object m b.garbled)))
  rw [IpcClient.loopRecv] at hsent ⊢
  split_ifs at hsent ⊢
  · exact h.receives hsent hidle hout' rfl (fun _ => rfl) (fun _ hi => hi) rfl rfl rfl rfl
  · exact hstop.loopDisconnect htstop hnested (h.entries_idle hidle) b

theorem loopHandle (h : PartsInv s) (ht : LoopThreadInv s) (hcalls : CallsInv s)
    (hreplies : ReplyInv s) (hsent : SentInv s) (hnested : s.nested = [])
    (hloop : s.loop = .handle out)
    (hrecent : ∀ answered ∈ out.answers, Recent s answered ∧ ∀ cs ∈ s.respList, Recent s cs.call)
    (eventsThread : Bool) (b : Below μ) : PartsInv (s.loopHandle out eventsThread b) := by
  have hout : s.carried.out? = some out := by rw [LoopThreadInv.carried_idle hnested, hloop]; rfl
  have hanswer := h.numbered_out hsent hout
  have hmoves : out.answers = none → ∀ next : LoopPhase μ, next.carried.out? = none →
      PartsInv (s.setLoop next) := fun hanswers next hnext =>
    h.loopMoves ht hnested (h.entries_free fun cs _ =>
      hand_other hout (not_for hanswers cs.call)) hnext
  rw [IpcClient.loopHandle]
  cases hhdr : out.hdr with
  | none =>
    have hanswers : out.answers = none := by
      cases hanswers : out.answers with
      | none => rfl
      | some i =>
        obtain ⟨hdr, hhdr', -⟩ := hanswer i hanswers
        cases hhdr.symm.trans hhdr'
    exact (hmoves hanswers .head rfl).keep rfl rfl rfl rfl rfl rfl rfl
  | some hdr =>
    have hnone := answers_none hanswer hhdr
    dsimp only
    split_ifs with hevent hthread hdone hresp hcmd
    · have hanswers := hnone (by rw [hevent]; decide)
      exact (hmoves hanswers .head rfl).keep rfl rfl rfl rfl rfl rfl rfl
    · have hanswers := hnone (by rw [hevent]; decide)
      exact (hmoves hanswers .head rfl).keep rfl rfl rfl rfl rfl rfl rfl
    · have hanswers := hnone (by rw [hevent]; decide)
      exact (hmoves hanswers (.callback out) rfl).keep rfl rfl rfl rfl rfl rfl rfl
    · have hreply : IsReply out.toServerMsg := ReplyInv.loopHolds hloop hreplies
      have hentries := h.listed hcalls hreplies hsent hout hreply hrecent hhdr hresp.2
      have hgoes : PartsInv { s.setLoop .head with
          respList := (s.handleResponse hdr out).respList } := h.loopHands ht hnested rfl hentries
      exact hgoes.keep rfl rfl rfl rfl rfl rfl rfl
    · have hanswers := hnone (by rw [hcmd.1]; decide)
      exact (hmoves hanswers (.callback out) rfl).keep rfl rfl rfl rfl rfl rfl rfl
    · by_cases hlistener : s.listener = true
      · have hanswers := hnone fun hreply => hresp ⟨hlistener, hreply⟩
        exact (hmoves hanswers .head rfl).keep rfl rfl rfl rfl rfl rfl rfl
      · have hnil := h.list_nil hcalls hlistener
        have hentries : ∀ cs ∈ s.respList, Gathers cs (s.got cs.call) [] := fun cs hcs => by
          rw [hnil] at hcs
          cases hcs
        have hhead : PartsInv (s.setLoop .head) := h.loopMoves ht hnested hentries rfl
        exact hhead.keep rfl rfl rfl rfl rfl rfl rfl

theorem step (h : PartsInv s) (ht : LoopThreadInv s) (hcalls : CallsInv s) (hreplies : ReplyInv s)
    (hsent : SentInv s) (hsent' : SentInv s') {a : ClientAction μ}
    (hok : OnlyLoopReads s a ∧ HandedInTime s a) (hstep : s.step a = some s') : PartsInv s' := by
  obtain ⟨hreads, hrecent⟩ := hok
  cases IpcClient.Stepped.of_step hstep with
  | call hfree => exact h.startCall ht hcalls _ hfree hreads
  | startWait _ hcall => exact h.startWait ht hsent hcall _ _
  | connect hruns hcall => exact h.connect ht hruns hcall _
  | listenerSend _ hcall => exact h.listenerSend ht hcall _
  | send hruns hcall => exact h.send ht hcalls hsent hruns hcall _
  | endWait _ hcall => exact h.endWait ht hcall
  | select hruns hcall => exact h.selectCall ht hruns hcall _ _
  | recv hruns hcall => exact h.recvCall ht hruns hcall _ hsent'
  | handle hruns hcall =>
    rw [HandedInTime, hcall] at hrecent
    exact h.handleCall ht hcalls hreplies hsent hruns hcall (hrecent _ rfl) _
  | clbReturns hruns hcall =>
    have hon : (s.call _).onSocket = true := congrArg SendPhase.onSocket hcall
    have hidle : s.carried.out? = none := by rw [ht.carried_call hruns hon, hcall]; rfl
    exact h.ends ht hruns hon (.nothing WvIpcRet.noConfusion) (h.entries_idle hidle)
  | startLoop hnested hloop hlistener =>
    have hidle : s.carried.out? = none := by rw [LoopThreadInv.carried_idle hnested, hloop]; rfl
    have hhead : PartsInv (s.setLoop .head) := h.loopMoves ht hnested (h.entries_idle hidle) rfl
    refine ⟨hhead.calls, hhead.entries, fun i hi => ?_, hhead.queued, hhead.held, hhead.returned⟩
    -- nobody waits for a listener yet
    exact absurd (h.listener i hi) (by rw [hlistener]; exact Bool.false_ne_true)
  | loopHead hnested hloop => exact h.loopHead ht hnested hloop _
  | loopConnect hnested hloop => exact h.loopConnect ht hnested hloop _ _
  | loopSelect hnested hloop => exact h.loopSelect ht hnested hloop _ _
  | loopRecv hnested hloop => exact h.loopRecv ht hnested hloop _ hsent'
  | loopHandle hnested hloop =>
    rw [HandedInTime, hloop] at hrecent
    exact h.loopHandle ht hcalls hreplies hsent hnested hloop (hrecent _ rfl) _ _
  | loopCallback hnested hloop =>
    have hidle : s.carried.out? = none := by rw [LoopThreadInv.carried_idle hnested, hloop]; rfl
    have hhead : PartsInv (s.setLoop .head) := h.loopMoves ht hnested (h.entries_idle hidle) rfl
    rw [IpcClient.callbackReturns]
    split_ifs
    · exact hhead.keep rfl rfl rfl rfl rfl rfl rfl
    · exact hhead.keep rfl rfl rfl rfl rfl rfl rfl
  | connectionClb hnested hloop =>
    have hidle : s.carried.out? = none := by rw [LoopThreadInv.carried_idle hnested, hloop]; rfl
    exact h.loopMoves ht hnested (h.entries_idle hidle) rfl
  | answer => exact h.keep rfl rfl rfl rfl rfl rfl rfl
  | notify => exact h.keep rfl rfl rfl rfl rfl rfl rfl

end PartsInv

variable {s s' : IpcClient μ}

/-- What holds in a run where only the thread of the event loop reads and replies come in time. -/
structure WholeInv (s : IpcClient μ) : Prop where
  calls : CallsInv s
  thread : LoopThreadInv s
  replies : ReplyInv s
  sent : SentInv s
  parts : PartsInv s

theorem WholeInv.init : WholeInv (.init : IpcClient μ) :=
  ⟨CallsInv.init, LoopThreadInv.init, ReplyInv.init, SentInv.init, PartsInv.init⟩

theorem WholeInv.step (h : WholeInv s) {a : ClientAction μ}
    (hok : OnlyLoopReads s a ∧ HandedInTime s a) (hstep : s.step a = some s') : WholeInv s' := by
  have hone := h.thread.oneReader h.sent.reading hstep
  have hsent' : SentInv s' := h.sent.step h.replies (SendsOwn.step h.calls hstep)
    (h.thread.flow h.calls hok.1 hstep)
  exact ⟨h.calls.step hstep, h.thread.step h.calls hok.1 hstep,
    h.replies.step h.calls ⟨hok.2, hone⟩ hstep, hsent',
    h.parts.step h.thread h.calls h.replies h.sent hsent' hok hstep⟩

/-- Where only the thread of the event loop reads and a reply comes before 256 more calls are made,
a call that succeeds has returned everything that the server ever sends for its command, in
order. -/
theorem replies_whole {as : List (ClientAction μ)}
    (hok : Along IpcClient.step (fun s a => OnlyLoopReads s a ∧ HandedInTime s a) .init as)
    (hrun : exec IpcClient.step .init as = some s) : RepliesWhole s :=
  (exec_along (fun h hok hstep => WholeInv.step h hok hstep) WholeInv.init hok hrun).parts.returned

theorem replies_whole_twoPart :
    ∃ s, exec IpcClient.step .init twoPartReply = some s ∧ RepliesWhole s :=
  ⟨_, rfl, @replies_whole _ _ twoPartReply (by decide) rfl⟩

end Client

end Dwpal.Ipc
