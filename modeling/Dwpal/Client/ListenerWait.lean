import Dwpal.Lib.Machine
import Dwpal.Serializer.Model

/-! The listener and the events thread of a client: the listener submits the events that it receives
to the serializer that the events thread works off, and hands the replies to the calls of
`wave_ipcc_send_cmd` that wait for them, those of the events thread's own callbacks among them. -/

namespace Dwpal.Client

open Machine Serializer

/-- An event as a work of the events serializer: whether a caller waits for it
(`WORK_WAITING_FOR_FINISH`), and whether the callbacks that it is for send commands. -/
structure EventItem where
  sync : Bool
  sends : Bool
deriving DecidableEq

/-- A message on the way to the client: an event, or the reply to the command with that number. -/
inductive Incoming where
  | event (item : EventItem)
  | reply (seqNum : UInt8)

/-- Where `ipcc_listener` is: it waits for a message, or it is in `_serializer_exec_work` with an
event, where `retrying` says that a try has found the list full. -/
inductive ListenerPhase where
  | listening
  | submitting (item : EventItem) (retrying : Bool)
deriving DecidableEq

/-- Where the events thread is: at its list, in the callbacks of an event, or in
`wave_ipcc_send_cmd_listener` in one of them, with the status `RESP_NONE` or with another. -/
inductive EventsPhase where
  | idle
  | running (item : EventItem)
  | waiting (item : EventItem) (seqNum : UInt8)
  | answered (item : EventItem)
deriving DecidableEq

structure EventsClient where
  stream : List Incoming
  listener : ListenerPhase
  workList : List EventItem
  events : EventsPhase

/-- What happens: a message arrives, `dwpald_disconnected` or `dwpald_reconnected` emulates an event
on the listener thread, the listener takes a message or tries to submit, a thread of the user
submits an event and waits for it or gives up waiting, the events thread takes a work, its callback
sends a command, which is answered or times out, and the callbacks of the event end. -/
inductive ListenerAction where
  | arrive (msg : Incoming)
  | emulate (item : EventItem)
  | takeMsg
  | trySubmit
  | submitSync (sends : Bool)
  | giveUp (i : Nat)
  | takeWork
  | sendCmd (seqNum : UInt8)
  | cmdTimeout
  | cmdReturns
  | callbacksEnd

/-- A synchronous work goes before the first work that nobody waits for. -/
def insertSync (item : EventItem) : List EventItem → List EventItem
  | [] => [item]
  | entry :: rest => if entry.sync then entry :: insertSync item rest else item :: entry :: rest

namespace EventsClient

def init : EventsClient := ⟨[], .listening, [], .idle⟩

def step (s : EventsClient) : ListenerAction → Option EventsClient
  | .arrive msg => some { s with stream := s.stream ++ [msg] }
  | .emulate item =>
    if s.listener = .listening then
      some { s with listener := .submitting { item with sync := false } false }
    else none
  | .takeMsg =>
    match s.listener, s.stream with
    | .listening, .event item :: rest =>
      some { s with
        stream := rest
        listener := .submitting { item with sync := false } false }
    | .listening, .reply seqNum :: rest =>
      -- a reply that nobody waits for is thrown
      match s.events with
      | .waiting item waited => some { s with
          stream := rest
          events := if waited = seqNum then .answered item else .waiting item waited }
      | _ => some { s with stream := rest }
    | _, _ => none
  | .trySubmit =>
    match s.listener with
    | .submitting item _ =>
      if s.workList.length ≥ asyncWorkListMaxSize then
        some { s with listener := .submitting item true }
      else some { s with workList := s.workList ++ [item], listener := .listening }
    | .listening => none
  | .submitSync sends => some { s with workList := insertSync ⟨true, sends⟩ s.workList }
  | .giveUp i =>
    if s.workList[i]?.any EventItem.sync then some { s with workList := s.workList.eraseIdx i }
    else none
  | .takeWork =>
    match s.events, s.workList with
    | .idle, item :: rest => some { s with workList := rest, events := .running item }
    | _, _ => none
  | .sendCmd seqNum =>
    match s.events with
    | .running item => if item.sends then some { s with events := .waiting item seqNum } else none
    | _ => none
  | .cmdTimeout =>
    match s.events with
    | .waiting item _ => some { s with events := .running item }
    | _ => none
  | .cmdReturns =>
    match s.events with
    | .answered item => some { s with events := .running item }
    | _ => none
  | .callbacksEnd =>
    match s.events with
    | .running _ => some { s with events := .idle }
    | _ => none

end EventsClient

/-- The listener is in the loop that waits for room in the list. -/
def Retries (s : EventsClient) : Prop := ∃ item, s.listener = .submitting item true

/-- The events thread, in a callback, waits for a reply, which only the listener hands over. -/
def AwaitsReply (s : EventsClient) : Prop := ∃ item seqNum, s.events = .waiting item seqNum

/-- The event whose callbacks run. -/
def EventsPhase.item? : EventsPhase → Option EventItem
  | .idle => none
  | .running item | .waiting item _ | .answered item => some item

/-- When a try of the listener finds the list full, no callback sends commands that runs or is due
for an event in the list; nor does one for an event submitted while the listener tries again. -/
def NoCommandBehindFullList (s : EventsClient) : ListenerAction → Prop
  | .trySubmit => s.workList.length ≥ asyncWorkListMaxSize →
      (∀ item ∈ s.events.item?, item.sends = false) ∧ ∀ item ∈ s.workList, item.sends = false
  | .submitSync sends => Retries s → sends = false
  | _ => True

/-- Nothing is under execution or in the list that may send commands while the listener tries
again, and only callbacks that send commands wait for replies. -/
structure ListenerInv (s : EventsClient) : Prop where
  quiet : Retries s → (∀ item ∈ s.events.item?, item.sends = false) ∧
    ∀ item ∈ s.workList, item.sends = false
  sender : ∀ item seqNum, s.events = .waiting item seqNum → item.sends = true

theorem mem_insertSync {item x : EventItem} {workList : List EventItem} :
    x ∈ insertSync item workList ↔ x = item ∨ x ∈ workList := by
  induction workList with
  | nil => simp [insertSync]
  | cons entry rest ih =>
    rw [insertSync]
    split
    · rw [List.mem_cons, ih, List.mem_cons]
      tauto
    · rw [List.mem_cons]

namespace ListenerInv

variable {s s' : EventsClient}

theorem init : ListenerInv .init where
  quiet h := by
    obtain ⟨item, h⟩ := h
    cases h
  sender _ _ h := by cases h

/-- The list only loses works, and what runs has been in it. -/
theorem shrink (h : ListenerInv s) {workList : List EventItem} {events : EventsPhase}
    (hlist : ∀ item ∈ workList, item ∈ s.workList)
    (hitem : ∀ item ∈ events.item?, item ∈ s.events.item? ∨ item ∈ s.workList)
    (hsender : ∀ item seqNum, events = .waiting item seqNum → item.sends = true) :
    ListenerInv { s with workList := workList, events := events } where
  quiet hretries := by
    obtain ⟨hruns, hlisted⟩ := h.quiet hretries
    exact ⟨fun item hmem => (hitem item hmem).elim (hruns item) (hlisted item),
      fun item hmem => hlisted item (hlist item hmem)⟩
  sender := hsender

/-- The listener is not in its loop. -/
theorem listens (h : ListenerInv s) {listener : ListenerPhase} {stream : List Incoming}
    (hlistener : ∀ item, listener ≠ .submitting item true) :
    ListenerInv { s with stream := stream, listener := listener } where
  quiet hretries := by
    obtain ⟨item, hretries⟩ := hretries
    exact absurd hretries (hlistener item)
  sender := h.sender

theorem step {a : ListenerAction} (h : ListenerInv s) (hok : NoCommandBehindFullList s a)
    (hstep : s.step a = some s') : ListenerInv s' := by
  cases a with
  | arrive msg =>
    cases hstep
    exact ⟨h.quiet, h.sender⟩
  | emulate item =>
    simp only [EventsClient.step, Option.ite_none_right_eq_some] at hstep
    obtain ⟨-, hstep⟩ := hstep
    cases hstep
    exact h.listens fun _ heq => by cases heq
  | takeMsg =>
    simp only [EventsClient.step] at hstep
    split at hstep
    · cases hstep
      exact h.listens fun _ heq => by cases heq
    · next seqNum rest hlistener hstream =>
      have hnot : ∀ item, s.listener ≠ .submitting item true := fun item heq => by
        rw [hlistener] at heq
        cases heq
      split at hstep
      · next item waited hwaiting =>
        cases hstep
        refine ⟨fun ⟨x, hx⟩ => absurd hx (hnot x), fun x seq hx => ?_⟩
        have hx' : (if waited = seqNum then EventsPhase.answered item
          else .waiting item waited) = .waiting x seq := hx
        split at hx'
        · cases hx'
        · cases hx'
          exact h.sender item waited hwaiting
      · cases hstep
        exact ⟨fun ⟨x, hx⟩ => absurd hx (hnot x), h.sender⟩
    · cases hstep
  | trySubmit =>
    simp only [EventsClient.step] at hstep
    split at hstep
    · next item retrying hlistener =>
      by_cases hfull : s.workList.length ≥ asyncWorkListMaxSize
      · rw [if_pos hfull] at hstep
        cases hstep
        exact ⟨fun _ => hok hfull, h.sender⟩
      · rw [if_neg hfull] at hstep
        cases hstep
        exact ⟨fun ⟨_, hx⟩ => (by cases hx), h.sender⟩
    · cases hstep
  | submitSync sends =>
    cases hstep
    refine ⟨fun hretries => ?_, h.sender⟩
    obtain ⟨hruns, hlisted⟩ := h.quiet hretries
    refine ⟨hruns, fun item hmem => ?_⟩
    rcases mem_insertSync.mp hmem with rfl | hmem
    · exact hok hretries
    · exact hlisted item hmem
  | giveUp i =>
    simp only [EventsClient.step, Option.ite_none_right_eq_some] at hstep
    obtain ⟨-, hstep⟩ := hstep
    cases hstep
    exact h.shrink (fun item hmem => List.mem_of_mem_eraseIdx hmem) (fun _ hmem => .inl hmem)
      h.sender
  | takeWork =>
    simp only [EventsClient.step] at hstep
    split at hstep
    · next item rest hidle hlist =>
      cases hstep
      refine h.shrink (fun x hx => ?_) (fun x hx => ?_) (fun _ _ heq => by cases heq)
      · rw [hlist]
        exact List.mem_cons_of_mem item hx
      · obtain rfl : item = x := by simpa [EventsPhase.item?] using hx
        rw [hlist]
        exact .inr List.mem_cons_self
    · cases hstep
  | sendCmd seqNum =>
    simp only [EventsClient.step] at hstep
    split at hstep
    · next item hruns =>
      simp only [Option.ite_none_right_eq_some] at hstep
      obtain ⟨hsends, hstep⟩ := hstep
      cases hstep
      refine h.shrink (fun _ hx => hx) (fun x hx => .inl ?_) (fun x seq heq => ?_)
      · rw [hruns]
        exact hx
      · cases heq
        exact hsends
    · cases hstep
  | cmdTimeout =>
    simp only [EventsClient.step] at hstep
    split at hstep
    · next item seqNum hwaits =>
      cases hstep
      refine h.shrink (fun _ hx => hx) (fun x hx => .inl ?_) (fun _ _ heq => by cases heq)
      rw [hwaits]
      exact hx
    · cases hstep
  | cmdReturns =>
    simp only [EventsClient.step] at hstep
    split at hstep
    · next item hanswered =>
      cases hstep
      refine h.shrink (fun _ hx => hx) (fun x hx => .inl ?_) (fun _ _ heq => by cases heq)
      rw [hanswered]
      exact hx
    · cases hstep
  | callbacksEnd =>
    simp only [EventsClient.step] at hstep
    split at hstep
    · cases hstep
      exact h.shrink (fun _ hx => hx) (fun x hx => by cases hx) (fun _ _ heq => by cases heq)
    · cases hstep

end ListenerInv

/-- An event arrives and is submitted. -/
def submitRun (item : EventItem) : List ListenerAction :=
  [.arrive (.event item), .takeMsg, .trySubmit]

/-- As long as there is room, every event that arrives gets into the list. -/
theorem exec_burst {item : EventItem} (hasync : item.sync = false) (n : Nat) {s : EventsClient}
    (hstream : s.stream = []) (hlistener : s.listener = .listening)
    (hroom : s.workList.length + n ≤ asyncWorkListMaxSize) :
    exec EventsClient.step s (List.replicate n (submitRun item)).flatten =
      some { s with workList := s.workList ++ List.replicate n item } := by
  induction n generalizing s with
  | zero => simp
  | succ n ih =>
    obtain ⟨stream, listener, workList, events⟩ := s
    obtain ⟨sync, sends⟩ := item
    simp only at hstream hlistener hroom hasync
    subst hstream hlistener hasync
    have hfree : ¬workList.length ≥ asyncWorkListMaxSize := by omega
    have hone : exec EventsClient.step ⟨[], .listening, workList, events⟩
        (submitRun ⟨false, sends⟩) =
        some ⟨[], .listening, workList ++ [⟨false, sends⟩], events⟩ := by
      simp [submitRun, EventsClient.step, hfree]
    rw [List.replicate_succ, List.flatten_cons, exec_append, hone, Option.bind_some,
      ih rfl rfl (by simp; omega)]
    simp [List.replicate_succ]

/-- Each of these submissions finds room. -/
theorem burst_room {item : EventItem} (hasync : item.sync = false) (n : Nat) {s : EventsClient}
    (hstream : s.stream = []) (hlistener : s.listener = .listening)
    (hroom : s.workList.length + n ≤ asyncWorkListMaxSize) :
    Along EventsClient.step NoCommandBehindFullList s
      (List.replicate n (submitRun item)).flatten := by
  induction n generalizing s with
  | zero => trivial
  | succ n ih =>
    rw [List.replicate_succ, List.flatten_cons]
    have hone := exec_burst hasync 1 hstream hlistener (by omega)
    rw [List.replicate_one, List.flatten_singleton] at hone
    refine Along.append ?_ fun s' hrun => ?_
    · obtain ⟨stream, listener, workList, events⟩ := s
      simp only at hstream hlistener hroom
      subst hstream hlistener
      refine ⟨trivial, trivial, along_singleton fun hfull => ?_⟩
      simp only at hfull
      omega
    · rw [hone] at hrun
      cases hrun
      exact ih hstream hlistener (by simp; omega)

/-- In every run in which the listener finds its list full only when no callback that sends commands
runs or is due, it does not wait for room while a callback waits for a reply. -/
theorem listenerProgress {s : EventsClient} {acts : List ListenerAction}
    (hok : Along EventsClient.step NoCommandBehindFullList .init acts)
    (hrun : exec EventsClient.step .init acts = some s) : ¬(Retries s ∧ AwaitsReply s) := by
  have hinv := exec_along (fun h => h.step) ListenerInv.init hok hrun
  rintro ⟨hretries, item, seqNum, hwaits⟩
  have hquiet := (hinv.quiet hretries).1 item (by rw [hwaits]; rfl)
  rw [hinv.sender item seqNum hwaits] at hquiet
  cases hquiet

/-- A callback sends a command and gets its reply while one more event arrives and is submitted. -/
def commandRun : List ListenerAction :=
  submitRun ⟨false, true⟩ ++ [.takeWork, .sendCmd 1] ++ submitRun ⟨false, false⟩ ++
    [.arrive (.reply 1), .takeMsg, .cmdReturns, .callbacksEnd]

theorem exec_commandRun : exec EventsClient.step .init commandRun =
    some ⟨[], .listening, [⟨false, false⟩], .idle⟩ := rfl

theorem commandRun_room : Along EventsClient.step NoCommandBehindFullList .init commandRun := by
  refine ⟨trivial, trivial, ?_, trivial, trivial, trivial, trivial, ?_, trivial, trivial, trivial,
    trivial, trivial⟩
  all_goals exact fun hfull => absurd hfull (by decide)

/-- After the command, events whose callbacks send none fill the list, and one more arrives. -/
def fullListRun : List ListenerAction :=
  (commandRun ++ (List.replicate (asyncWorkListMaxSize - 1) (submitRun ⟨false, false⟩)).flatten) ++
    submitRun ⟨false, false⟩

theorem exec_fillList : exec EventsClient.step .init
    (commandRun ++ (List.replicate (asyncWorkListMaxSize - 1) (submitRun ⟨false, false⟩)).flatten) =
      some ⟨[], .listening, List.replicate asyncWorkListMaxSize ⟨false, false⟩, .idle⟩ := by
  rw [exec_append, exec_commandRun, Option.bind_some, exec_burst rfl _ rfl rfl (by decide)]
  rfl

theorem exec_fullListRun : exec EventsClient.step .init fullListRun =
    some ⟨[], .submitting ⟨false, false⟩ true,
      List.replicate asyncWorkListMaxSize ⟨false, false⟩, .idle⟩ := by
  rw [fullListRun, exec_append, exec_fillList, Option.bind_some]
  simp [submitRun, EventsClient.step]

theorem fullListRun_quiet : Along EventsClient.step NoCommandBehindFullList .init fullListRun := by
  refine Along.append (Along.append commandRun_room fun s hrun => ?_) fun s hrun => ?_
  · rw [exec_commandRun] at hrun
    cases hrun
    exact burst_room rfl _ rfl rfl (by decide)
  · rw [exec_fillList] at hrun
    cases hrun
    refine ⟨trivial, trivial, along_singleton fun _ => ⟨fun _ hmem => ?_, fun item hmem => ?_⟩⟩
    · cases hmem
    · rw [List.eq_of_mem_replicate hmem]

theorem listenerProgress_fullListRun :
    ∃ s, exec EventsClient.step .init fullListRun = some s ∧ Retries s ∧
      ¬(Retries s ∧ AwaitsReply s) :=
  ⟨_, exec_fullListRun, ⟨_, rfl⟩, listenerProgress fullListRun_quiet exec_fullListRun⟩

/-- A callback runs, 500 events fill the list, the callback sends a command, and one more event
arrives before the reply. -/
def burstRun : List ListenerAction :=
  (submitRun ⟨false, true⟩ ++ [.takeWork]) ++
    ((List.replicate asyncWorkListMaxSize (submitRun ⟨false, false⟩)).flatten ++
      (.sendCmd 1 :: submitRun ⟨false, false⟩))

theorem listener_waits_for_consumer :
    ¬∀ (s : EventsClient) (acts : List ListenerAction),
      exec EventsClient.step .init acts = some s → ¬(Retries s ∧ AwaitsReply s) := by
  intro h
  have hstart : exec EventsClient.step .init (submitRun ⟨false, true⟩ ++ [.takeWork]) =
      some ⟨[], .listening, [], .running ⟨false, true⟩⟩ := rfl
  have hend : exec EventsClient.step .init burstRun =
      some ⟨[], .submitting ⟨false, false⟩ true,
        List.replicate asyncWorkListMaxSize ⟨false, false⟩, .waiting ⟨false, true⟩ 1⟩ := by
    rw [burstRun, exec_append, hstart, Option.bind_some, exec_append,
      exec_burst rfl _ rfl rfl (Nat.le_of_eq (Nat.zero_add _)), Option.bind_some]
    simp [submitRun, EventsClient.step]
  exact h _ _ hend ⟨⟨_, rfl⟩, _, _, rfl⟩

end Dwpal.Client
