import Dwpal.Ext.NlGet

/-! Which answer of the driver a `get` command of `dwpal_ext.c` returns: never one that was given
before the call had emptied the socket, and its own one where no call ends while the driver works on
a request. -/

namespace Dwpal.Ext

open Daemon (DwpalRet)
open Machine

/-- The data that the callback stores. -/
def NlMessage.saved : NlMessage → Option (List UInt8)
  | .vendor data =>
    if data.length = 0 ∨ data.length > driverNlToDwpalMsgLength then none else some data
  | _ => none

/-- What a call has of messages: the last data that are stored. -/
def NlBatch.saved (batch : NlBatch) : Option (List UInt8) :=
  (batch.messages.filterMap NlMessage.saved).getLast?

/-- The output of a call that has stored data. -/
def GetOutput.of (data : List UInt8) : GetOutput := ⟨some data.length, some data⟩

namespace GetPhase

/-- The thread has the mutex. -/
def locked : GetPhase → Bool
  | .cleanIfNeeded _ | .cmdSend | .receiveResponse _ | .sync => true
  | .idle | .lock | .syncLock => false

/-- The thread is in `dwpal_ext_driver_nl_get`. -/
def inGet : GetPhase → Bool
  | .lock | .cleanIfNeeded _ | .cmdSend | .receiveResponse _ => true
  | .idle | .syncLock | .sync => false

/-- The call has emptied the socket. -/
def cleaned : GetPhase → Bool
  | .cmdSend | .receiveResponse _ => true
  | _ => false

end GetPhase

variable {T : Type} [DecidableEq T]

namespace NlGet

/-- The variables of the callback are not set to store. -/
theorem receive_off {s : NlGet T} (h : s.nlResponseSaveData = false) (message : NlMessage) :
    s.receive message = s := by
  cases message with
  | vendor data =>
    rw [receive, nlCmdGetCallback]
    by_cases hempty : data.length = 0
    · rw [if_pos hempty]
    · rw [if_neg hempty, if_neg (by rw [h]; exact Bool.false_ne_true)]
  | error | other => rfl

theorem foldl_receive_off {s : NlGet T} (h : s.nlResponseSaveData = false)
    (messages : List NlMessage) : messages.foldl receive s = s := by
  induction messages with
  | nil => rfl
  | cons message messages ih => rw [List.foldl_cons, receive_off h, ih]

/-- The callback stores data in the buffers of the call. -/
def stored (s : NlGet T) (t : T) : Option (List UInt8) → NlGet T
  | none => s
  | some data =>
    { s with output := Function.update s.output t (.of data), nlResponseReceived := true }

theorem receive_on {s : NlGet T} {t : T} (hsave : s.nlResponseSaveData = true)
    (hresponse : s.nlResponse = some t) (message : NlMessage) :
    s.receive message = s.stored t message.saved := by
  cases message with
  | vendor data =>
    rw [receive, nlCmdGetCallback, NlMessage.saved, if_pos hsave]
    by_cases hempty : data.length = 0
    · rw [if_pos hempty, if_pos (.inl hempty)]
      rfl
    · rw [if_neg hempty]
      split
      · next hnone => cases hresponse.symm.trans hnone
      · next u hsome =>
        cases hresponse.symm.trans hsome
        by_cases hlong : data.length > driverNlToDwpalMsgLength
        · rw [if_pos hlong, if_pos (.inr hlong)]
          rfl
        · rw [if_neg hlong, if_neg (not_or.mpr ⟨hempty, hlong⟩)]
          rfl
  | error | other => rfl

/-- Of several messages the last data stay. -/
theorem foldl_receive_on {s : NlGet T} {t : T} (hsave : s.nlResponseSaveData = true)
    (hresponse : s.nlResponse = some t) (messages : List NlMessage) :
    messages.foldl receive s = s.stored t (messages.filterMap NlMessage.saved).getLast? := by
  induction messages generalizing s with
  | nil => rfl
  | cons message messages ih =>
    rw [List.foldl_cons, receive_on hsave hresponse]
    cases hsaved : message.saved with
    | none =>
      rw [List.filterMap_cons_none hsaved]
      exact ih hsave hresponse
    | some data =>
      rw [List.filterMap_cons_some hsaved, ih (s := s.stored t (some data)) hsave hresponse,
        List.getLast?_cons]
      cases (messages.filterMap NlMessage.saved).getLast? with
      | none => rfl
      | some last =>
        rw [Option.getD_some, stored, stored, stored, Function.update_idem]

/-- `dwpal_driver_nl_msg_get` while nothing is to be stored. -/
theorem msgGet_off {s s' : NlGet T} {o : GetOutcome} {ret : DwpalRet}
    (h : s.nlResponseSaveData = false) (hget : s.msgGet o = (ret, s')) :
    ∃ queue, queue <:+ s.queue ∧ s' = { s with queue := queue } := by
  rw [msgGet] at hget
  split at hget
  · next hqueue =>
    cases hget
    exact ⟨s.queue, List.suffix_refl _, rfl⟩
  · next batch queue hqueue =>
    have hfold := foldl_receive_off (s := { s with queue := queue }) h batch.messages
    split_ifs at hget
    all_goals cases hget
    · exact ⟨queue, hqueue ▸ List.suffix_cons .., hfold⟩
    · exact ⟨queue, hqueue ▸ List.suffix_cons .., hfold⟩
    · exact ⟨s.queue, List.suffix_refl _, rfl⟩

/-- `dwpal_driver_nl_msg_get` for a call that waits for its answer: where it fails some of the
output may be written, else it is that of the first messages on the socket. -/
theorem msgGet_on {s s' : NlGet T} {t : T} {o : GetOutcome} {ret : DwpalRet}
    (hsave : s.nlResponseSaveData = true) (hresponse : s.nlResponse = some t)
    (hget : s.msgGet o = (ret, s')) :
    (∃ queue data, queue <:+ s.queue ∧ s' = { s with queue := queue }.stored t data) ∧
      (ret ≠ .failure → ∃ batch queue, s.queue = batch :: queue ∧
        s' = { s with queue := queue }.stored t batch.saved) := by
  rw [msgGet] at hget
  split at hget
  · cases hget
    exact ⟨⟨s.queue, none, List.suffix_refl _, rfl⟩, fun h => absurd rfl h⟩
  · next batch queue hqueue =>
    have hfold := foldl_receive_on (s := { s with queue := queue }) hsave hresponse batch.messages
    have hsuffix : queue <:+ s.queue := hqueue ▸ List.suffix_cons ..
    split_ifs at hget
    all_goals cases hget
    · exact ⟨⟨queue, batch.saved, hsuffix, hfold⟩, fun h => absurd rfl h⟩
    · exact ⟨⟨queue, batch.saved, hsuffix, hfold⟩, fun _ => ⟨batch, queue, hqueue, hfold⟩⟩
    · exact ⟨⟨s.queue, none, List.suffix_refl _, rfl⟩, fun h => absurd rfl h⟩

/-- No call ends while the driver works on a request. -/
def Settled (s : NlGet T) : GetAction T → Prop
  | .go t o =>
    ((∃ request, s.phase t = .receiveResponse request) → o.select ≠ .failed → s.pending = []) ∧
      (s.phase t = .cmdSend → o.sent = true → o.fds = true)
  | .syncReturn _ => s.pending = []
  | _ => True

/-- While no call ends too early, the driver works on the request of the call that has the mutex,
and the socket has the answers to it. -/
def Tidy (s : NlGet T) : GetPhase → Prop
  | .cleanIfNeeded _ => s.pending = []
  | .cmdSend => s.pending = [] ∧ s.queue = []
  | .receiveResponse request => (∀ r ∈ s.pending, r = request) ∧ ∀ batch ∈ s.queue,
    batch.request = request
  | _ => True

/-- A call that succeeded wrote nothing, as the answer did not come in time, or has an answer that
was given after it had emptied the socket; if `ok`, to its own request. -/
def Answered (s : NlGet T) (ok : Prop) (x : Returned) : Prop :=
  x.output = ⟨none, none⟩ ∨ ∃ n batch data, x.mark ≤ n ∧ s.answers[n]? = some batch ∧
    batch.saved = some data ∧ x.output = .of data ∧ (ok → x.request = some batch.request)

end NlGet

/-- One thread has the mutex, the socket has the last answers, a call that emptied the socket finds
only later ones on it and has written nothing, and what was returned is as it should be. If `ok`, no
call ends too early. -/
structure GetInv (ok : Prop) (s : NlGet T) : Prop where
  owner : ∀ t, s.mutex = some t ↔ (s.phase t).locked = true
  suffix : s.queue <:+ s.answers
  mark : ∀ t, (s.phase t).cleaned = true → s.mark t + s.queue.length ≤ s.answers.length
  untouched : ∀ t, (s.phase t).inGet = true → s.output t = ⟨none, none⟩
  returned : ∀ x ∈ s.returned, x.ret = .success → s.Answered ok x
  free : ok → s.mutex = none → s.pending = []
  tidy : ok → ∀ t, s.Tidy (s.phase t)

namespace GetInv

open NlGet

variable {s s' : NlGet T} {t : T} {ok : Prop} {o : GetOutcome} {phase : GetPhase}

omit [DecidableEq T] in
theorem init : GetInv ok (.initial : NlGet T) where
  owner t := ⟨fun h => (Option.some_ne_none t h.symm).elim, fun h => (Bool.false_ne_true h).elim⟩
  suffix := List.suffix_refl _
  mark t h := by cases h
  untouched t h := by cases h
  returned x h := by cases h
  free _ _ := rfl
  tidy _ _ := trivial

omit [DecidableEq T] in
theorem not_tidy {s : NlGet T} {phase : GetPhase} (h : ¬ phase.locked = true) : s.Tidy phase := by
  cases phase with
  | cleanIfNeeded | cmdSend | receiveResponse => exact absurd rfl h
  | _ => trivial

/-- A step of a thread from one place in its code to another. -/
theorem turn (h : GetInv ok s) (hphase : s'.phase = Function.update s.phase t phase)
    (hmutex : ∀ u, s'.mutex = some u ↔ if u = t then phase.locked = true else s.mutex = some u)
    (hanswers : s'.answers = s.answers) (hqueue : s'.queue <:+ s.queue)
    (hmarks : ∀ u, u ≠ t → s'.mark u = s.mark u)
    (hmark : phase.cleaned = true → s'.mark t + s'.queue.length ≤ s.answers.length)
    (houtputs : ∀ u, u ≠ t → s'.output u = s.output u)
    (houtput : phase.inGet = true → s'.output t = ⟨none, none⟩)
    (hreturned : ∀ x ∈ s'.returned, x ∈ s.returned ∨ (x.ret = .success → s.Answered ok x))
    (hpending : s'.pending = s.pending ∧ s'.queue = s.queue ∨ (s.phase t).locked = true ∨
      phase.locked = true)
    (hfree : ok → s'.mutex = none → s'.pending = []) (htidy : ok → s'.Tidy phase) :
      GetInv ok s' := by
  have hat : ∀ u, s'.phase u = if u = t then phase else s.phase u := fun u => by
    rw [hphase]
    exact Function.update_apply ..
  refine ⟨fun u => ?_, ?_, fun u hu => ?_, fun u hu => ?_, fun x hx hret => ?_, hfree,
    fun hok u => ?_⟩
  · rw [hmutex u, hat u]
    split_ifs
    · rfl
    · exact h.owner u
  · rw [hanswers]
    exact hqueue.trans h.suffix
  · rw [hat u] at hu
    rw [hanswers]
    split_ifs at hu with heq
    · rw [heq]
      exact hmark hu
    · rw [hmarks u heq]
      exact Nat.le_trans (Nat.add_le_add_left hqueue.length_le _) (h.mark u hu)
  · rw [hat u] at hu
    split_ifs at hu with heq
    · rw [heq]
      exact houtput hu
    · rw [houtputs u heq]
      exact h.untouched u hu
  · have hbefore : s.Answered ok x :=
      (hreturned x hx).elim (fun hx => h.returned x hx hret) fun hnew => hnew hret
    rwa [Answered, hanswers]
  · rw [hat u]
    split_ifs with heq
    · exact htidy hok
    · by_cases hlocked : (s.phase u).locked = true
      · rcases hpending with ⟨hpending, hqueue⟩ | howner | howner
        · have hbefore := h.tidy hok u
          cases hu : s.phase u with
          | idle | lock | syncLock | sync => trivial
          | cleanIfNeeded | cmdSend | receiveResponse =>
            rw [hu] at hbefore
            simpa only [Tidy, hpending, hqueue] using hbefore
        · have hu := (h.owner u).mpr hlocked
          exact absurd (Option.some_inj.mp (hu.symm.trans ((h.owner t).mpr howner))) heq
        · have hu := (hmutex u).mpr (by rw [if_neg heq]; exact (h.owner u).mpr hlocked)
          have ht := (hmutex t).mpr (by rw [if_pos rfl]; exact howner)
          exact absurd (Option.some_inj.mp (hu.symm.trans ht)) heq
      · exact not_tidy hlocked

omit [DecidableEq T] in
theorem mine (h : GetInv ok s) (hlocked : (s.phase t).locked = true) : s.mutex = some t :=
  (h.owner t).mpr hlocked

/-- A call ends and gives the mutex back. -/
theorem ends (h : GetInv ok s) (hphase : s'.phase = Function.update s.phase t .idle)
    (hmutex : s'.mutex = none) (hmine : ∀ u, s.mutex = some u → u = t)
    (hanswers : s'.answers = s.answers) (hqueue : s'.queue <:+ s.queue) (hmarks : s'.mark = s.mark)
    (houtputs : ∀ u, u ≠ t → s'.output u = s.output u)
    (hreturned : ∀ x ∈ s'.returned, x ∈ s.returned ∨ (x.ret = .success → s.Answered ok x))
    (hpending : s'.pending = s.pending ∧ s'.queue = s.queue ∨ (s.phase t).locked = true)
    (hfree : ok → s'.pending = []) : GetInv ok s' := by
  refine h.turn hphase (fun u => ?_) hanswers hqueue (fun u _ => congrFun hmarks u)
    (fun hcleaned => by cases hcleaned) houtputs (fun hget => by cases hget) hreturned
    (hpending.imp_right .inl) (fun hok _ => hfree hok) fun _ => trivial
  rw [hmutex]
  refine ⟨fun hu => (Option.some_ne_none u hu.symm).elim, fun hu => ?_⟩
  split_ifs at hu with heq
  · cases hu
  · exact absurd (hmine u hu) heq

omit [DecidableEq T] in
/-- A call that fails. -/
theorem returned_failure {x : Returned} (hret : x.ret = .failure) {y : Returned}
    (hy : y ∈ x :: s.returned) : y ∈ s.returned ∨ (y.ret = .success → s.Answered ok y) := by
  rcases List.mem_cons.mp hy with rfl | hy
  · refine .inr fun hsuccess => ?_
    rw [hret] at hsuccess
    cases hsuccess
  · exact .inl hy

/-- A step of the thread that has the mutex and keeps it. -/
theorem keeps (h : GetInv ok s) (hlocked : (s.phase t).locked = true)
    (hphase : s'.phase = Function.update s.phase t phase) (hnext : phase.locked = true)
    (hmutex : s'.mutex = s.mutex) (hanswers : s'.answers = s.answers)
    (hqueue : s'.queue <:+ s.queue)
    (hmarks : ∀ u, u ≠ t → s'.mark u = s.mark u)
    (hmark : phase.cleaned = true → s'.mark t + s'.queue.length ≤ s.answers.length)
    (houtputs : s'.output = s.output) (hget : phase.inGet = true → (s.phase t).inGet = true)
    (hreturned : s'.returned = s.returned) (htidy : ok → s'.Tidy phase) : GetInv ok s' := by
  have howner := h.mine hlocked
  refine h.turn hphase (fun u => ?_) hanswers hqueue hmarks hmark (fun u _ => congrFun houtputs u)
    (fun hphase => ?_) (fun x hx => .inl (hreturned ▸ hx)) (.inr (.inl hlocked))
    (fun _ hnone => ?_) htidy
  · rw [hmutex]
    split_ifs with heq
    · rw [heq]
      exact ⟨fun _ => hnext, fun _ => howner⟩
    · exact Iff.rfl
  · rw [houtputs]
    exact h.untouched t (hget hphase)
  · rw [hmutex, howner] at hnone
    cases hnone

/-- A thread takes the mutex. -/
theorem takes (h : GetInv ok s) (hmutex : ¬ s.mutex.isSome = true) (hnext : phase.locked = true)
    (hcleaned : phase.cleaned = false) (hget : phase.inGet = true → (s.phase t).inGet = true)
    (htidy : ok → s.pending = [] → s.Tidy phase) :
    GetInv ok { s.setPhase t phase with mutex := some t } := by
  have hnone : s.mutex = none := Option.not_isSome_iff_eq_none.mp hmutex
  refine h.turn rfl (fun u => ?_) rfl (List.suffix_refl _) (fun _ _ => rfl)
    (fun h => by rw [hcleaned] at h; cases h) (fun _ _ => rfl)
    (fun hphase => h.untouched t (hget hphase))
    (fun x hx => .inl hx) (.inl ⟨rfl, rfl⟩) (fun _ hfree => by cases hfree) fun hok => ?_
  · rw [hnone]
    split_ifs with heq
    · rw [heq]
      exact ⟨fun _ => hnext, fun _ => rfl⟩
    · exact ⟨fun hu => absurd (Option.some_inj.mp hu).symm heq, fun hu => by cases hu⟩
  · have htidy := htidy hok (h.free hok hnone)
    cases phase with
    | cleanIfNeeded | cmdSend | receiveResponse => exact htidy
    | _ => trivial

/-- A thread that has no mutex goes on and takes none. -/
theorem enters (h : GetInv ok s) (hidle : (s.phase t).locked = false)
    (hphase : s'.phase = Function.update s.phase t phase) (hnext : phase.locked = false)
    (hmutex : s'.mutex = s.mutex) (hanswers : s'.answers = s.answers) (hqueue : s'.queue = s.queue)
    (hmarks : s'.mark = s.mark) (houtputs : ∀ u, u ≠ t → s'.output u = s.output u)
    (houtput : phase.inGet = true → s'.output t = ⟨none, none⟩)
    (hreturned : ∀ x ∈ s'.returned, x ∈ s.returned ∨ (x.ret = .success → s.Answered ok x))
    (hpending : s'.pending = s.pending) : GetInv ok s' := by
  have hnot : s.mutex ≠ some t := fun heq => by
    rw [(h.owner t).mp heq] at hidle
    cases hidle
  refine h.turn hphase (fun u => ?_) hanswers (hqueue ▸ List.suffix_refl _)
    (fun u _ => congrFun hmarks u)
    (fun hcleaned => ?_) houtputs houtput hreturned (.inl ⟨hpending, hqueue⟩) (fun hok hnone => ?_)
    fun _ => not_tidy (by rw [hnext]; exact Bool.false_ne_true)
  · rw [hmutex]
    split_ifs with heq
    · rw [heq, hnext]
      exact ⟨fun hu => absurd hu hnot, fun hu => (Bool.false_ne_true hu).elim⟩
    · exact Iff.rfl
  · cases phase with
    | cmdSend | receiveResponse => cases hnext
    | _ => cases hcleaned
  · rw [hpending]
    exact h.free hok (hmutex ▸ hnone)

/-! ### The steps of a call -/

theorem lock (h : GetInv ok s) (hphase : s.phase t = .lock) (hstep : s.lock t o = some s') :
    GetInv ok s' := by
  rw [NlGet.lock] at hstep
  split_ifs at hstep with hmutex hfds
  · cases hstep
    exact h.takes hmutex rfl rfl (fun _ => by rw [hphase]; rfl) fun _ hpending => hpending
  · cases hstep
    have hnone : s.mutex = none := Option.not_isSome_iff_eq_none.mp hmutex
    exact h.ends rfl rfl (fun u hu => by rw [hnone] at hu; cases hu) rfl (List.suffix_refl _) rfl
      (fun u hu => Function.update_of_ne hu ..) (fun _ => returned_failure rfl) (.inl ⟨rfl, rfl⟩)
      fun hok => h.free hok hnone

omit [DecidableEq T] in
theorem only (h : GetInv ok s) (hlocked : (s.phase t).locked = true) (u : T)
    (hu : s.mutex = some u) : u = t := Option.some_inj.mp (hu.symm.trans (h.mine hlocked))

theorem cleanIfNeeded (h : GetInv ok s) {n : Nat} (hphase : s.phase t = .cleanIfNeeded n)
    (hstep : s.cleanIfNeeded t o n = some s') : GetInv ok s' := by
  have hlocked : (s.phase t).locked = true := by rw [hphase]; rfl
  have hget : (s.phase t).inGet = true := by rw [hphase]; rfl
  have hpending : ok → s.pending = [] := fun hok => by
    have htidy := h.tidy hok t
    rwa [hphase] at htidy
  rw [NlGet.cleanIfNeeded] at hstep
  split at hstep
  · split_ifs at hstep
    · cases hstep
      exact h.ends rfl rfl (h.only hlocked) rfl (List.suffix_refl _) rfl
        (fun u hu => Function.update_of_ne hu ..) (fun _ => returned_failure rfl)
        (.inl ⟨rfl, rfl⟩) hpending
    · cases hstep
      exact h.keeps hlocked rfl rfl rfl rfl (List.suffix_refl _) (fun _ _ => rfl)
        (fun hcleaned => by cases hcleaned) rfl (fun _ => hget) rfl hpending
  · split_ifs at hstep
    split at hstep
    · next received hmsg =>
      obtain ⟨queue, hqueue, rfl⟩ := msgGet_off rfl hmsg
      cases hstep
      exact h.ends rfl rfl (h.only hlocked) rfl hqueue rfl (fun u hu => Function.update_of_ne hu ..)
        (fun _ => returned_failure rfl) (.inr hlocked) hpending
    · next received hmsg =>
      obtain ⟨queue, hqueue, rfl⟩ := msgGet_off rfl hmsg
      cases hstep
      have hsame : s.phase = Function.update s.phase t (.cleanIfNeeded n) := by
        rw [← hphase, Function.update_eq_self]
      exact h.keeps hlocked hsame rfl rfl rfl hqueue (fun _ _ => rfl)
        (fun hcleaned => by cases hcleaned) rfl (fun _ => hget) rfl hpending
  · split_ifs at hstep with hempty
    cases hstep
    refine h.keeps hlocked rfl rfl rfl rfl (List.suffix_refl _)
      (fun u hu => Function.update_of_ne hu ..)
      (fun _ => ?_) rfl (fun _ => hget) rfl fun hok => ⟨hpending hok, hempty⟩
    show Function.update s.mark t s.answers.length t + s.queue.length ≤ _
    rw [Function.update_self, hempty]
    exact Nat.le_refl _

theorem cmdSend (h : GetInv ok s) (hphase : s.phase t = .cmdSend)
    (hsettled : ok → o.sent = true → o.fds = true) : GetInv ok (s.cmdSend t o) := by
  have hlocked : (s.phase t).locked = true := by rw [hphase]; rfl
  have hget : (s.phase t).inGet = true := by rw [hphase]; rfl
  have htidy : ok → s.pending = [] ∧ s.queue = [] := fun hok => by
    have htidy := h.tidy hok t
    rwa [hphase] at htidy
  rw [NlGet.cmdSend]
  split_ifs with hsent hfds
  · refine h.keeps hlocked rfl rfl rfl rfl (List.suffix_refl _) (fun _ _ => rfl)
      (fun _ => h.mark t (by rw [hphase]; rfl)) rfl (fun _ => hget) rfl fun hok => ?_
    obtain ⟨hpending, hempty⟩ := htidy hok
    refine ⟨?_, ?_⟩
    · show ∀ r ∈ s.requests :: s.pending, r = s.requests
      rw [hpending]
      exact List.forall_mem_singleton.mpr rfl
    · show ∀ batch ∈ s.queue, _
      rw [hempty]
      exact List.forall_mem_nil _
  · exact h.ends rfl rfl (h.only hlocked) rfl (List.suffix_refl _) rfl
      (fun u hu => Function.update_of_ne hu ..) (fun _ => returned_failure rfl) (.inr hlocked)
      fun hok => absurd (hsettled hok hsent) hfds
  · exact h.ends rfl rfl (h.only hlocked) rfl (List.suffix_refl _) rfl
      (fun u hu => Function.update_of_ne hu ..) (fun _ => returned_failure rfl) (.inl ⟨rfl, rfl⟩)
      fun hok => (htidy hok).1

/-- What is stored for a thread is in its own output. -/
theorem stored_output {data : Option (List UInt8)} {u : T} (hu : u ≠ t) :
    (s.stored t data).output u = s.output u := by
  cases data with
  | none => rfl
  | some data => exact Function.update_of_ne hu ..

omit [DecidableEq T] in
/-- The first messages that a call finds after it has emptied the socket are an answer that was
given since then. -/
theorem first_answer (h : GetInv ok s) (hcleaned : (s.phase t).cleaned = true) {batch : NlBatch}
    {queue : List NlBatch} (hqueue : s.queue = batch :: queue) :
    ∃ n, s.mark t ≤ n ∧ s.answers[n]? = some batch := by
  obtain ⟨before, hanswers⟩ := h.suffix
  have hmark := h.mark t hcleaned
  rw [hqueue] at hanswers hmark
  refine ⟨before.length, ?_, ?_⟩
  · rw [← hanswers, List.length_append] at hmark
    omega
  · rw [← hanswers, List.getElem?_append_right (Nat.le_refl _), Nat.sub_self]
    rfl

theorem receiveResponse (h : GetInv ok s) {request : Nat}
    (hphase : s.phase t = .receiveResponse request)
    (hsettled : ok → o.select ≠ .failed → s.pending = [])
    (hstep : s.receiveResponse t o request = some s') : GetInv ok s' := by
  have hlocked : (s.phase t).locked = true := by rw [hphase]; rfl
  have hcleaned : (s.phase t).cleaned = true := by rw [hphase]; rfl
  have hnothing : s.output t = ⟨none, none⟩ := h.untouched t (by rw [hphase]; rfl)
  rw [NlGet.receiveResponse] at hstep
  split at hstep
  · cases hstep
    exact h
  · next hselect =>
    split_ifs at hstep
    cases hstep
    refine h.ends rfl rfl (h.only hlocked) rfl (List.suffix_refl _) rfl (fun _ _ => rfl)
      (fun x hx => ?_) (.inl ⟨rfl, rfl⟩) fun hok =>
        hsettled hok (by rw [hselect]; exact SelectRet.noConfusion)
    rcases List.mem_cons.mp hx with rfl | hx
    · exact .inr fun _ => .inl hnothing
    · exact .inl hx
  · next hselect =>
    have hpending : ok → s.pending = [] := fun hok =>
      hsettled hok (by rw [hselect]; exact SelectRet.noConfusion)
    split_ifs at hstep
    split at hstep
    · next received hmsg =>
      obtain ⟨⟨queue, data, hqueue, rfl⟩, -⟩ := msgGet_on rfl rfl hmsg
      cases hstep
      cases data with
      | none | some =>
        exact h.ends rfl rfl (h.only hlocked) rfl hqueue rfl
          (fun u hu => (Function.update_of_ne hu ..).trans (stored_output hu))
          (fun _ => returned_failure rfl) (.inr hlocked) hpending
    · next received hne hmsg =>
      obtain ⟨batch, queue, hqueue, rfl⟩ := (msgGet_on rfl rfl hmsg).2 hne
      have hsuffix : queue <:+ s.queue := hqueue ▸ List.suffix_cons ..
      cases hsaved : batch.saved with
      | none =>
        rw [hsaved, NlGet.stored, if_neg Bool.false_ne_true] at hstep
        cases hstep
        exact h.ends rfl rfl (h.only hlocked) rfl hsuffix rfl
          (fun u hu => Function.update_of_ne hu ..)
          (fun _ => returned_failure rfl) (.inr hlocked) hpending
      | some data =>
        rw [hsaved, NlGet.stored, if_pos rfl] at hstep
        cases hstep
        refine h.ends rfl rfl (h.only hlocked) rfl hsuffix rfl
          (fun u hu => Function.update_of_ne hu ..) (fun x hx => ?_) (.inr hlocked) hpending
        rcases List.mem_cons.mp hx with rfl | hx
        · obtain ⟨n, hn, hanswer⟩ := h.first_answer hcleaned hqueue
          refine .inr fun _ => .inr ⟨n, batch, data, hn, hanswer, hsaved, Function.update_self ..,
            fun hok => ?_⟩
          have htidy := h.tidy hok t
          rw [hphase] at htidy
          exact congrArg some (htidy.2 batch (hqueue ▸ List.mem_cons_self)).symm
        · exact .inl hx

/-! ### The run -/

theorem goOn (h : GetInv ok s) (hsettled : ok → s.Settled (.go t o)) {phase : GetPhase}
    (hphase : s.phase t = phase) (hstep : s.goOn t o phase = some s') : GetInv ok s' := by
  cases phase with
  | lock => exact h.lock hphase hstep
  | cleanIfNeeded => exact h.cleanIfNeeded hphase hstep
  | cmdSend =>
    cases hstep
    exact h.cmdSend hphase fun hok => (hsettled hok).2 hphase
  | receiveResponse request =>
    exact h.receiveResponse hphase (fun hok => (hsettled hok).1 ⟨request, hphase⟩) hstep
  | syncLock =>
    simp only [NlGet.goOn, Option.ite_none_left_eq_some] at hstep
    obtain ⟨hmutex, hstep⟩ := hstep
    cases hstep
    exact h.takes hmutex rfl rfl (fun hget => by cases hget) fun _ _ => trivial
  | idle | sync => cases hstep

theorem call (h : GetInv ok s) (hidle : s.phase t = .idle) (o : GetOutcome) :
    GetInv ok (s.call t o) := by
  have hlocked : (s.phase t).locked = false := by rw [hidle]; rfl
  rw [NlGet.call]
  split_ifs
  · exact h.enters hlocked rfl rfl rfl rfl rfl rfl (fun u hu => Function.update_of_ne hu ..)
      (fun _ => Function.update_self ..) (fun _ => .inl) rfl
  · refine h.enters hlocked rfl rfl rfl rfl rfl rfl (fun u hu => Function.update_of_ne hu ..)
      (fun hget => by cases hget) (fun x hx => ?_) rfl
    rcases List.mem_cons.mp hx with rfl | hx
    · exact .inr fun hret => by cases hret
    · exact .inl hx

omit [DecidableEq T] in
/-- The driver gives one more answer, to a request that it works on. -/
theorem answer (h : GetInv ok s) {request : Nat} (hrequest : request ∈ s.pending)
    (messages : List NlMessage) (res : Int) {pending : List Nat}
    (hpending : ∀ r ∈ pending, r ∈ s.pending) :
    GetInv ok { s with
      pending := pending
      queue := s.queue ++ [⟨request, messages, res⟩]
      answers := s.answers ++ [⟨request, messages, res⟩] } := by
  refine ⟨h.owner, ?_, fun t ht => ?_, h.untouched, fun x hx hret => ?_, fun hok hnone => ?_,
    fun hok t => ?_⟩
  · obtain ⟨before, hanswers⟩ := h.suffix
    exact ⟨before, by rw [← List.append_assoc, hanswers]⟩
  · have hmark := h.mark t ht
    simp only [List.length_append, List.length_singleton]
    omega
  · refine (h.returned x hx hret).imp_right ?_
    rintro ⟨n, batch, data, hmark, hbatch, hsaved, houtput, hown⟩
    exact ⟨n, batch, data, hmark, by
      rw [List.getElem?_append_left (List.getElem?_eq_some_iff.mp hbatch).1, hbatch], hsaved,
        houtput, hown⟩
  · rw [h.free hok hnone] at hrequest
    cases hrequest
  · have htidy := h.tidy hok t
    show Tidy _ (s.phase t)
    cases hphase : s.phase t with
    | idle | lock | syncLock | sync => trivial
    | cleanIfNeeded =>
      rw [hphase] at htidy
      rw [show s.pending = [] from htidy] at hrequest
      cases hrequest
    | cmdSend =>
      rw [hphase] at htidy
      rw [htidy.1] at hrequest
      cases hrequest
    | receiveResponse own =>
      rw [hphase] at htidy
      refine ⟨fun r hr => htidy.1 r (hpending r hr), fun batch hbatch => ?_⟩
      rcases List.mem_append.mp hbatch with hbatch | hbatch
      · exact htidy.2 batch hbatch
      · rw [List.mem_singleton.mp hbatch]
        exact htidy.1 request hrequest

theorem step (h : GetInv ok s) {a : GetAction T} (hsettled : ok → s.Settled a)
    (hstep : s.step a = some s') : GetInv ok s' := by
  cases a with
  | call t o =>
    simp only [NlGet.step, Option.ite_none_right_eq_some] at hstep
    cases hstep.2
    exact h.call hstep.1 o
  | syncCall t =>
    simp only [NlGet.step, Option.ite_none_right_eq_some] at hstep
    obtain ⟨hidle, hstep⟩ := hstep
    cases hstep
    exact h.enters (by rw [hidle]; rfl) rfl rfl rfl rfl rfl rfl (fun _ _ => rfl)
      (fun hget => by cases hget) (fun _ => .inl) rfl
  | go t o => exact h.goOn hsettled rfl hstep
  | syncSend t =>
    simp only [NlGet.step, Option.ite_none_right_eq_some] at hstep
    obtain ⟨hsync, hstep⟩ := hstep
    cases hstep
    have hsame : s.phase = Function.update s.phase t .sync := by
      rw [← hsync, Function.update_eq_self]
    exact h.keeps (by rw [hsync]; rfl) hsame rfl rfl rfl (List.suffix_refl _) (fun _ _ => rfl)
      (fun hcleaned => by cases hcleaned) rfl (fun hget => by cases hget) rfl fun _ => trivial
  | syncTake t =>
    simp only [NlGet.step, Option.ite_none_right_eq_some] at hstep
    obtain ⟨⟨hsync, -⟩, hstep⟩ := hstep
    cases hstep
    have hsame : s.phase = Function.update s.phase t .sync := by
      rw [← hsync, Function.update_eq_self]
    exact h.keeps (by rw [hsync]; rfl) hsame rfl rfl rfl (List.tail_suffix _) (fun _ _ => rfl)
      (fun hcleaned => by cases hcleaned) rfl (fun hget => by cases hget) rfl fun _ => trivial
  | syncReturn t =>
    simp only [NlGet.step, Option.ite_none_right_eq_some] at hstep
    obtain ⟨hsync, hstep⟩ := hstep
    cases hstep
    have hlocked : (s.phase t).locked = true := by rw [hsync]; rfl
    exact h.ends rfl rfl (h.only hlocked) rfl (List.suffix_refl _) rfl (fun _ _ => rfl)
      (fun _ => .inl) (.inl ⟨rfl, rfl⟩) hsettled
  | answer request messages res last =>
    simp only [NlGet.step, Option.ite_none_right_eq_some] at hstep
    obtain ⟨hrequest, hstep⟩ := hstep
    cases hstep
    refine h.answer hrequest messages res fun r hr => ?_
    split_ifs at hr
    · exact List.mem_of_mem_erase hr
    · exact hr

end GetInv

open NlGet in
/-- In every run of several threads over the one socket, with answers that may come late, a call
that succeeds has written nothing or has the last data of an answer that the driver gave after the
call had emptied the socket; and its own answer where no call ends while the driver works on a
request. -/
theorem get_answers {s : NlGet T} {as : List (GetAction T)}
    (hrun : exec NlGet.step .initial as = some s) :
    ∀ x ∈ s.returned, x.ret = .success → x.output = ⟨none, none⟩ ∨
      ∃ n batch data, x.mark ≤ n ∧ s.answers[n]? = some batch ∧ batch.saved = some data ∧
        x.output = .of data ∧
        (Along NlGet.step NlGet.Settled .initial as → x.request = some batch.request) := by
  have hok : Along NlGet.step (fun s a => Along NlGet.step NlGet.Settled .initial as →
      NlGet.Settled s a) .initial as := by
    by_cases hsettled : Along NlGet.step NlGet.Settled (.initial : NlGet T) as
    · exact hsettled.mono fun _ _ h _ => h
    · exact along_of_forall (fun _ _ h => absurd h hsettled) _ _
  exact (exec_along (fun h hok hstep => GetInv.step h hok hstep) GetInv.init hok hrun).returned

/-- A step below which all goes well. -/
private def fine (select : SelectRet) : GetOutcome :=
  { found := true, fds := true, select := select, cb := true, sent := true }

/-- A call waits in vain for the answer to its request, and the answer comes while the call of
another thread waits for its own. -/
private def lateAnswer : List (GetAction Bool) :=
  [.call true (fine .ready), .go true (fine .ready), .go true (fine .timeout),
    .go true (fine .ready),
    .go true (fine .timeout), .call false (fine .ready), .go false (fine .ready),
    .go false (fine .timeout),
    .go false (fine .ready), .answer 0 [.vendor [7]] 0 true, .go false (fine .ready)]

/-- The second call succeeds with the answer to the request of the first. -/
theorem get_answers_late : ∃ s, exec NlGet.step .initial lateAnswer = some s ∧
    s.returned.map (fun x => (x.request, x.output)) =
      [(some 1, .of [7]), (some 0, ⟨none, none⟩)] ∧
    ∀ x ∈ s.returned, x.ret = .success → x.output = ⟨none, none⟩ ∨
      ∃ n batch data, x.mark ≤ n ∧ s.answers[n]? = some batch ∧ batch.saved = some data ∧
        x.output = .of data ∧
        (Along NlGet.step NlGet.Settled .initial lateAnswer → x.request = some batch.request) :=
  ⟨_, rfl, by decide, get_answers rfl⟩

end Dwpal.Ext
