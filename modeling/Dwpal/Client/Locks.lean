import Dwpal.Lib.Machine
import Dwpal.Lib.LockCode

/-! The two mutexes of a `dwpald_connection` and the threads of the client: the listener with its
events thread, or a thread in `dwpald_start_blocked_listen`, and the threads of the user. A command
is sent with mutexes held, and may enter `dwpald_disconnected` when the connection breaks. -/

namespace Dwpal.Client

open Machine LockCode

inductive Mutex where
  | hapAttachLock
  | drvNlAttachLock
deriving DecidableEq

/-- A thread of the client's process. -/
abbrev ClientThread := Nat

/-- `dwpald_disconnected`. Its events go to the serializer, which takes neither mutex. -/
def dwpaldDisconnectedCode : Code Mutex :=
  .lock .hapAttachLock (.unlock .hapAttachLock .ret)

/-- The loop of `dwpald_reconnected` over the attachments that are left, with what follows it. -/
def reattachLoop (next : Code Mutex) : Nat → Code Mutex
  | 0 => next
  | n + 1 => .call (reattachLoop next n) (.unlock .hapAttachLock .ret)

/-- `dwpald_reconnected` with that many hostap attachments. -/
def dwpaldReconnectedCode (numAttachments : Nat) : Code Mutex :=
  .lock .hapAttachLock (reattachLoop
    (.unlock .hapAttachLock
      (.lock .drvNlAttachLock
        -- there is no driver attachment, or its attach request is sent
        (.choose (.unlock .drvNlAttachLock .ret)
          (.call (.unlock .drvNlAttachLock .ret) (.unlock .drvNlAttachLock .ret)))))
    numAttachments)

/-- `dwpald_hostap_attach_ex_with_id`, which the events thread may not call. -/
def dwpaldHostapAttachCode (isEventThread : Bool) : Code Mutex :=
  if isEventThread then .ret
  else
    .lock .hapAttachLock (.choose
      -- the interface was already attached: no new events, events that cannot be added, an update
      (.choose (.unlock .hapAttachLock .ret)
        (.choose (.unlock .hapAttachLock .ret)
          (.call (.unlock .hapAttachLock .ret) (.unlock .hapAttachLock .ret))))
      -- a new attachment, which is detached again when it is not to stay with its interface down
      (.choose (.unlock .hapAttachLock .ret)
        (.call
          (.choose (.unlock .hapAttachLock .ret)
            (.call (.unlock .hapAttachLock .ret) (.unlock .hapAttachLock .ret)))
          (.unlock .hapAttachLock .ret))))

/-- `dwpald_hostap_detach_with_id`: nothing is sent when no events go away, else a detach or an
update. -/
def dwpaldHostapDetachCode (isEventThread : Bool) : Code Mutex :=
  if isEventThread then .ret
  else
    .lock .hapAttachLock (.choose (.unlock .hapAttachLock .ret)
      (.call (.unlock .hapAttachLock .ret) (.unlock .hapAttachLock .ret)))

/-- `dwpald_nl_drv_attach_with_id`. -/
def dwpaldNlDrvAttachCode : Code Mutex :=
  .lock .drvNlAttachLock (.choose
    -- already attached: nothing to send, or an update
    (.choose (.unlock .drvNlAttachLock .ret)
      (.call (.unlock .drvNlAttachLock .ret) (.unlock .drvNlAttachLock .ret)))
    (.choose (.unlock .drvNlAttachLock .ret)
      (.call (.unlock .drvNlAttachLock .ret) (.unlock .drvNlAttachLock .ret))))

/-- `dwpald_receive_hostap_event`, which drops a malformed event. -/
def dwpaldReceiveHostapEventCode : Code Mutex :=
  .choose .ret (.lock .hapAttachLock (.unlock .hapAttachLock (.callback .ret)))

/-- `dwpald_receive_drv_event` and `dwpald_receive_kernel_event`, which drop a malformed event and
one that comes without an attachment. -/
def dwpaldReceiveNlEventCode : Code Mutex :=
  .choose .ret (.lock .drvNlAttachLock
    (.choose (.unlock .drvNlAttachLock .ret) (.unlock .drvNlAttachLock (.callback .ret))))

/-- A function of the client's interface, by what it does with the mutexes. The functions that send
a command for an interface take none. -/
inductive Api where
  | hostapAttach
  | hostapDetach
  | nlDrvAttach
  | command

def Api.code (isEventThread : Bool) : Api → Code Mutex
  | .hostapAttach => dwpaldHostapAttachCode isEventThread
  | .hostapDetach => dwpaldHostapDetachCode isEventThread
  | .nlDrvAttach => dwpaldNlDrvAttachCode
  | .command => .call .ret .ret

/-- The events that `dwpald_event` dispatches. -/
inductive ReceivedEvent where
  | hostap
  | drv
  | kernel

def dwpaldEventCode : ReceivedEvent → Code Mutex
  | .hostap => dwpaldReceiveHostapEventCode
  | .drv | .kernel => dwpaldReceiveNlEventCode

/-- The client. `path` says of a thread inside `wave_ipcc_send_cmd` whether it is in
`wave_ipcc_send_cmd_no_listener`. -/
structure ClientThreads where
  threads : Threads Mutex ClientThread
  listener : Option ClientThread
  eventsThread : Option ClientThread
  blocked : Option ClientThread
  disconnectClb : Bool
  path : ClientThread → Option Bool

/-- How `wave_ipcc_send_cmd` ends; `disconnect` is the label of
`wave_ipcc_send_cmd_no_listener`. -/
inductive SendOutcome where
  | ok
  | err
  | disconnect

/-- What happens: the listener starts and stops, a thread starts to listen and stops, a thread calls
a function of the interface, an event is handled, the listening thread finds the connection broken
or has it again, and the steps of a thread, with the start and the end of a command apart. -/
inductive LockAction where
  | startListener (t events : ClientThread)
  | stopListener
  | startBlocked (t : ClientThread)
  | endBlocked (terminated : Bool)
  | api (t : ClientThread) (f : Api)
  | event (t : ClientThread) (kind : ReceivedEvent)
  | disconnected (t : ClientThread)
  | reconnected (t : ClientThread) (numAttachments : Nat)
  | advance (t : ClientThread) (first : Bool)
  | sendCmd (t : ClientThread)
  | sendEnd (t : ClientThread) (outcome : SendOutcome)

namespace ClientThreads

def init : ClientThreads := ⟨⟨fun _ => none, fun _ => []⟩, none, none, none, false, fun _ => none⟩

/-- The thread runs the loop that waits for messages. -/
def Listens (s : ClientThreads) (t : ClientThread) : Prop :=
  s.listener = some t ∨ s.blocked = some t

instance (s : ClientThreads) (t : ClientThread) : Decidable (s.Listens t) :=
  inferInstanceAs (Decidable (_ ∨ _))

/-- The thread is in a callback of the user, or a thread of the user outside the library. -/
def MayCall (s : ClientThreads) (t : ClientThread) : Prop :=
  match s.threads.stack t with
  | [] => ¬s.Listens t ∧ s.eventsThread ≠ some t
  | .callback _ :: _ => True
  | _ => False

instance (s : ClientThreads) (t : ClientThread) : Decidable (s.MayCall t) := by
  unfold MayCall
  split <;> infer_instance

def enter (s : ClientThreads) (t : ClientThread) (c : Code Mutex) : ClientThreads :=
  { s with threads := s.threads.enter t c }

def step (s : ClientThreads) : LockAction → Option ClientThreads
  | .startListener t events =>
    if s.listener = none ∧ s.threads.stack t = [] ∧ s.threads.stack events = [] ∧ t ≠ events then
      some { s with listener := some t, eventsThread := some events, disconnectClb := true }
    else none
  | .stopListener =>
    -- both threads are joined
    if s.listener.all (fun t => (s.threads.stack t).isEmpty) ∧
        s.eventsThread.all (fun t => (s.threads.stack t).isEmpty) then
      some { s with listener := none, eventsThread := none, disconnectClb := false }
    else none
  | .startBlocked t =>
    if s.blocked = none ∧ s.MayCall t ∧ s.threads.stack t = [] then
      some { s with blocked := some t, disconnectClb := true }
    else none
  | .endBlocked terminated =>
    -- an error of the wait leaves the callback in place
    if s.blocked.any fun t => (s.threads.stack t).isEmpty then
      some { s with blocked := none, disconnectClb := !terminated && s.disconnectClb }
    else none
  | .api t f =>
    if s.MayCall t then some (s.enter t (f.code (s.eventsThread = some t))) else none
  | .event t kind =>
    if (s.eventsThread = some t ∨ s.blocked = some t) ∧ s.threads.stack t = [] then
      some (s.enter t (dwpaldEventCode kind))
    else none
  | .disconnected t =>
    if s.Listens t ∧ s.threads.stack t = [] ∧ s.disconnectClb = true then
      some (s.enter t dwpaldDisconnectedCode)
    else none
  | .reconnected t numAttachments =>
    if s.Listens t ∧ s.threads.stack t = [] then
      some (s.enter t (dwpaldReconnectedCode numAttachments))
    else none
  | .advance t first => (s.threads.advance t first).map fun threads => { s with threads }
  | .sendCmd t =>
    match s.threads.stack t, s.path t with
    | .call _ _ :: _, none => some { s with
        path := Function.update s.path t (some (s.listener = none ∨ s.listener = some t)) }
    | _, _ => none
  | .sendEnd t outcome =>
    match outcome, s.path t with
    | _, none => none
    | .disconnect, some false => none
    | .disconnect, some true =>
      (s.threads.leaveCall t false (if s.disconnectClb then [dwpaldDisconnectedCode] else [])).map
        fun threads => { s with threads, path := Function.update s.path t none }
    | .ok, some _ => (s.threads.leaveCall t true []).map fun threads =>
        { s with threads, path := Function.update s.path t none }
    | .err, some _ => (s.threads.leaveCall t false []).map fun threads =>
        { s with threads, path := Function.update s.path t none }

end ClientThreads

/-- The thread is about to lock a mutex that it holds. -/
def RequestsAgain (s : ClientThreads) (t : ClientThread) (l : Mutex) : Prop :=
  ∃ next rest, s.threads.stack t = .lock l next :: rest ∧ s.threads.owner l = some t

/-- The connection does not break, with a disconnect callback in place, under a command that a
thread sends through `wave_ipcc_send_cmd_no_listener` while it holds `hap_attach_lock`. -/
def NoBreakUnderLock (s : ClientThreads) : LockAction → Prop
  | .sendEnd t .disconnect =>
    s.disconnectClb = true → s.threads.owner .hapAttachLock ≠ some t
  | _ => True

theorem disconnected_safe {held : Finset Mutex} (h : Mutex.hapAttachLock ∉ held) :
    Safe dwpaldDisconnectedCode held held :=
  ⟨h, Finset.mem_insert_self _ _, Finset.erase_insert h⟩

theorem reattachLoop_safe {next : Code Mutex} {held : Finset Mutex}
    (hheld : Mutex.hapAttachLock ∈ held) (hnext : Safe next held ∅)
    (hunlocked : held.erase .hapAttachLock = ∅) (n : Nat) :
    Safe (reattachLoop next n) held ∅ := by
  induction n with
  | zero => exact hnext
  | succ n ih => exact ⟨ih, hheld, hunlocked⟩

theorem reconnected_safe (numAttachments : Nat) :
    Safe (dwpaldReconnectedCode numAttachments) ∅ ∅ := by
  refine ⟨by simp, reattachLoop_safe (by simp) ?_ (by decide) numAttachments⟩
  decide

theorem api_safe (isEventThread : Bool) (f : Api) : Safe (f.code isEventThread) ∅ ∅ := by
  cases isEventThread <;> cases f <;> decide

theorem event_safe (kind : ReceivedEvent) : Safe (dwpaldEventCode kind) ∅ ∅ := by
  cases kind <;> decide

namespace ClientThreads

variable {s s' : ClientThreads} {t : ClientThread}

theorem MayCall.free (h : s.MayCall t) : s.threads.Free t := by
  unfold MayCall at h
  split at h
  · next hnil => exact .inl hnil
  · next k rest hcallback => exact .inr ⟨k, rest, hcallback⟩
  · exact h.elim

theorem step_good {a : LockAction} (h : s.threads.Good) (hok : NoBreakUnderLock s a)
    (hstep : s.step a = some s') : s'.threads.Good := by
  cases a with
  | startListener t events =>
    simp only [step, Option.ite_none_right_eq_some] at hstep
    obtain ⟨-, hstep⟩ := hstep
    cases hstep
    exact h
  | stopListener =>
    simp only [step, Option.ite_none_right_eq_some] at hstep
    obtain ⟨-, hstep⟩ := hstep
    cases hstep
    exact h
  | startBlocked t =>
    simp only [step, Option.ite_none_right_eq_some] at hstep
    obtain ⟨-, hstep⟩ := hstep
    cases hstep
    exact h
  | endBlocked terminated =>
    simp only [step, Option.ite_none_right_eq_some] at hstep
    obtain ⟨-, hstep⟩ := hstep
    cases hstep
    exact h
  | api t f =>
    simp only [step, Option.ite_none_right_eq_some] at hstep
    obtain ⟨hcall, hstep⟩ := hstep
    cases hstep
    exact h.enter hcall.free (api_safe _ f)
  | event t kind =>
    simp only [step, Option.ite_none_right_eq_some] at hstep
    obtain ⟨⟨-, hidle⟩, hstep⟩ := hstep
    cases hstep
    exact h.enter (.inl hidle) (event_safe kind)
  | disconnected t =>
    simp only [step, Option.ite_none_right_eq_some] at hstep
    obtain ⟨⟨-, hidle, -⟩, hstep⟩ := hstep
    cases hstep
    exact h.enter (.inl hidle) (disconnected_safe (by simp))
  | reconnected t numAttachments =>
    simp only [step, Option.ite_none_right_eq_some] at hstep
    obtain ⟨⟨-, hidle⟩, hstep⟩ := hstep
    cases hstep
    exact h.enter (.inl hidle) (reconnected_safe numAttachments)
  | advance t first =>
    simp only [step, Option.map_eq_some_iff] at hstep
    obtain ⟨threads, hadvance, rfl⟩ := hstep
    exact h.advance hadvance
  | sendCmd t =>
    simp only [step] at hstep
    split at hstep
    · cases hstep
      exact h
    · cases hstep
  | sendEnd t outcome =>
    simp only [step] at hstep
    split at hstep
    · cases hstep
    · cases hstep
    · simp only [Option.map_eq_some_iff] at hstep
      obtain ⟨threads, hleave, rfl⟩ := hstep
      by_cases hclb : s.disconnectClb = true
      · rw [if_pos hclb] at hleave
        refine h.leaveCall_enter (fun held hheld => disconnected_safe fun hmem => ?_) hleave
        exact hok hclb (hheld _ hmem)
      · rw [if_neg hclb] at hleave
        exact h.leaveCall hleave
    · simp only [Option.map_eq_some_iff] at hstep
      obtain ⟨threads, hleave, rfl⟩ := hstep
      exact h.leaveCall hleave
    · simp only [Option.map_eq_some_iff] at hstep
      obtain ⟨threads, hleave, rfl⟩ := hstep
      exact h.leaveCall hleave

theorem init_good : init.threads.Good :=
  ⟨fun _ => ∅, fun _ _ => by simp [init], fun _ => rfl⟩

end ClientThreads

/-- In every run in which the connection does not break under a command sent with `hap_attach_lock`
held on the path that enters `dwpald_disconnected`, no thread locks a mutex that it holds. -/
theorem lockSafety {s : ClientThreads} {acts : List LockAction}
    (hok : Along ClientThreads.step NoBreakUnderLock .init acts)
    (hrun : exec ClientThreads.step .init acts = some s) (t : ClientThread) (l : Mutex) :
    ¬RequestsAgain s t l := by
  have hgood := exec_along (fun h => ClientThreads.step_good h) ClientThreads.init_good hok hrun
  rintro ⟨next, rest, htop, hself⟩
  exact hgood.not_self htop hself

/-- A break under the lock is what makes a thread ask for it again. -/
theorem break_requestsAgain {s s' : ClientThreads} {t : ClientThread}
    (hstep : s.step (.sendEnd t .disconnect) = some s')
    (hbreak : ¬NoBreakUnderLock s (.sendEnd t .disconnect)) :
    RequestsAgain s' t .hapAttachLock := by
  simp only [NoBreakUnderLock, not_forall, not_not] at hbreak
  obtain ⟨hclb, howner⟩ := hbreak
  simp only [ClientThreads.step] at hstep
  split at hstep
  · cases hstep
  · cases hstep
  · simp only [if_pos hclb, Option.map_eq_some_iff] at hstep
    obtain ⟨threads, hleave, rfl⟩ := hstep
    simp only [Threads.leaveCall] at hleave
    split at hleave
    · next a b rest htop =>
      cases hleave
      exact ⟨_, _, Function.update_self .., howner⟩
    · cases hleave
  all_goals next heq _ => cases heq

/-- A thread of the user attaches an interface while the events thread handles an event and the
listener reattaches. -/
def attachRun : List LockAction :=
  [.startListener 1 2, .event 2 .hostap, .api 3 .hostapAttach, .advance 3 true, .advance 3 false,
    .advance 3 false, .sendCmd 3, .sendEnd 3 .ok, .advance 3 true, .advance 3 true,
    .reconnected 1 1, .advance 3 true, .advance 1 true, .sendCmd 1, .sendEnd 1 .err]

theorem attachRun_unbroken : Along ClientThreads.step NoBreakUnderLock .init attachRun :=
  ⟨trivial, trivial, trivial, trivial, trivial, trivial, trivial, trivial, trivial, trivial,
    trivial, trivial, trivial, trivial, trivial, trivial⟩

theorem lockSafety_attachRun :
    ∃ s, exec ClientThreads.step .init attachRun = some s ∧
      ∀ t l, ¬RequestsAgain s t l :=
  ⟨_, rfl, lockSafety attachRun_unbroken rfl⟩

/-- The server closes the connection while the listener waits for the reply to the attach request
of the only interface. -/
def breakRun : List LockAction :=
  [.startListener 1 2, .reconnected 1 1, .advance 1 true, .sendCmd 1, .sendEnd 1 .disconnect]

theorem reattach_locks_again :
    ¬∀ (s : ClientThreads) (acts : List LockAction),
      exec ClientThreads.step .init acts = some s → ∀ t l, ¬RequestsAgain s t l := by
  intro h
  exact h _ breakRun rfl 1 .hapAttachLock ⟨_, _, rfl, rfl⟩

end Dwpal.Client
