import Mathlib.Data.List.Chain
import Dwpal.Lib.Machine
import Dwpal.Client.HostapAttach

/-! The state of one attachment and the callbacks about it: the listener writes the state when the
connection breaks and when it is there again, and emulates an event each time; the events thread
writes it once more when it comes to the event, and then calls the callbacks. -/

namespace Dwpal.Client

open Machine Daemon

/-- The events that the client emulates. -/
inductive IntfEvent where
  | connectedOk
  | reconnectedOk
  | disconnected
deriving DecidableEq

def IntfEvent.opCode : IntfEvent → List UInt8
  | .connectedOk => ascii "INTERFACE_CONNECTED_OK"
  | .reconnectedOk => ascii "INTERFACE_RECONNECTED_OK"
  | .disconnected => ascii "INTERFACE_DISCONNECTED"

/-- `dwpald_receive_hostap_event` takes the attachment for connected. -/
def IntfEvent.connects (event : IntfEvent) : Bool :=
  intfEventState event.opCode == some interfaceDwpalStateConnected

/-- The connection to the daemon, as the listener sees it: it is there, it is broken, or there again
and `dwpald_reconnected` has not gone over the attachments yet. -/
inductive LinkPhase where
  | up
  | down
  | connected
deriving DecidableEq

/-- The `INTERFACE_CONNECTED_OK` of the attach call: not asked for, to be submitted by the thread
that has attached, in the list of the serializer, or out of it. -/
inductive ConnectedOk where
  | absent
  | due
  | queued
  | gone
deriving DecidableEq

/-- Where the events thread is: at its list, with an event that it has taken, or with one for which
it has set the state and is to call the callbacks. -/
inductive DeliveryPhase where
  | idle
  | taken (event : IntfEvent)
  | handled (event : IntfEvent)
deriving DecidableEq

/-- One attachment. `state` says whether `hap_attch->state` is `INTERFACE_DWPAL_STATE_CONNECTED`;
the daemon knows only one other state. `real` is the outcome of the last transition, `queue` holds
the emulated events that nobody waits for, and `called` the events whose callbacks were called. -/
structure Notifications where
  attached : Bool
  state : Bool
  real : Bool
  link : LinkPhase
  connectedOk : ConnectedOk
  queue : List IntfEvent
  delivery : DeliveryPhase
  called : List IntfEvent

/-- What happens: an attach call gets its reply, which tells the state, and submits its event or
gives up waiting for it; the connection breaks, is there again, and the attachment is attached again
or not; the events thread takes an event, sets the state, and calls the callbacks. -/
inductive NotifyAction where
  | attach (connected : Bool)
  | submit
  | giveUp
  | breaks
  | connects
  | reattach (reply : Option Bool)
  | take
  | setState
  | callClbs
deriving DecidableEq

namespace Notifications

def init : Notifications := ⟨false, false, false, .up, .absent, [], .idle, []⟩

def step (s : Notifications) : NotifyAction → Option Notifications
  | .attach connected =>
    -- while `dwpald_reconnected` waits for `hap_attach_lock` the listener hands over no reply
    if s.attached = false ∧ s.link = .up then
      some { s with
        attached := true
        state := connected
        real := connected
        connectedOk := if connected then .due else .absent }
    else none
  | .submit => if s.connectedOk = .due then some { s with connectedOk := .queued } else none
  | .giveUp => if s.connectedOk = .queued then some { s with connectedOk := .gone } else none
  | .breaks =>
    -- `dwpald_disconnected`
    if s.link = .up then
      if s.attached ∧ s.state then
        some { s with
          link := .down
          state := false
          real := false
          queue := s.queue ++ [.disconnected] }
      else some { s with link := .down, real := false }
    else none
  | .connects => if s.link = .down then some { s with link := .connected } else none
  | .reattach reply =>
    -- `dwpald_reconnected`; without a reply the attachment stays as it is
    if s.link = .connected then
      match s.attached, reply with
      | true, some true => some { s with
          link := .up
          state := true
          real := true
          queue := s.queue ++ [.reconnectedOk] }
      | true, some false => some { s with link := .up, state := false, real := false }
      | _, _ => some { s with link := .up }
    else none
  | .take =>
    -- a synchronous work goes in front of the others
    match s.delivery, s.connectedOk, s.queue with
    | .idle, .queued, _ => some { s with connectedOk := .gone, delivery := .taken .connectedOk }
    | .idle, _, event :: rest => some { s with queue := rest, delivery := .taken event }
    | _, _, _ => none
  | .setState =>
    match s.delivery with
    | .taken event => some { s with state := event.connects, delivery := .handled event }
    | _ => none
  | .callClbs =>
    match s.delivery with
    | .handled event => some { s with called := s.called ++ [event], delivery := .idle }
    | _ => none

end Notifications

/-- The callbacks tell in turn that the interface is there and that it is not, and the state is the
outcome of the last transition when no emulated event is queued. An event that is taken counts as
queued until its state is set. -/
structure Notified (s : Notifications) : Prop where
  alternates : s.called.IsChain fun a b => a.connects ≠ b.connects
  settled : s.connectedOk ≠ .queued → s.queue = [] → (∀ event, s.delivery ≠ .taken event) →
    s.state = s.real

/-- The connection does not break while the state, overwritten for an older event, differs from the
outcome of the last transition, and no event overtakes the `INTERFACE_CONNECTED_OK` of an attach
call that has not submitted it yet. -/
def NoStaleState (s : Notifications) : NotifyAction → Prop
  | .breaks => s.state = s.real
  | .take => s.connectedOk ≠ .due
  | _ => True

/-- The event in the hands of the events thread. -/
def DeliveryPhase.event? : DeliveryPhase → Option IntfEvent
  | .idle => none
  | .taken event | .handled event => some event

/-- The `INTERFACE_CONNECTED_OK` that is still to come. -/
def ConnectedOk.coming : ConnectedOk → List IntfEvent
  | .due | .queued => [.connectedOk]
  | .absent | .gone => []

/-- All events of the attachment in the order in which the callbacks get them. -/
def Notifications.events (s : Notifications) : List IntfEvent :=
  s.called ++ (s.delivery.event?.toList ++ (s.connectedOk.coming ++ s.queue))

structure NotifyInv (s : Notifications) : Prop where
  alternates : s.events.IsChain fun a b => a.connects ≠ b.connects
  newest : ∀ event, s.events.getLast? = some event → event.connects = s.real
  first : s.connectedOk.coming ≠ [] → s.called = [] ∧ s.delivery = .idle
  untouched : s.called = [] → (∀ event, s.delivery ≠ .handled event) → s.state = s.real
  settled : s.connectedOk.coming = [] → s.queue = [] → (∀ event, s.delivery ≠ .taken event) →
    s.state = s.real
  broken : s.link ≠ .up → s.real = false
  unattached : s.attached = false → s.state = false ∧ s.events = []

@[simp] theorem connects_connectedOk : IntfEvent.connects .connectedOk = true := by decide

@[simp] theorem connects_reconnectedOk : IntfEvent.connects .reconnectedOk = true := by decide

@[simp] theorem connects_disconnected : IntfEvent.connects .disconnected = false := by decide

namespace Notifications

variable {s : Notifications}

/-- An emulated event comes after all others. -/
theorem events_push (link : LinkPhase) (state real : Bool) (event : IntfEvent) :
    events { s with link, state, real, queue := s.queue ++ [event] } = s.events ++ [event] := by
  simp [events]

end Notifications

namespace NotifyInv

variable {s s' : Notifications}

theorem init : NotifyInv .init where
  alternates := .nil
  newest _ h := by cases h
  first h := (h rfl).elim
  untouched _ _ := rfl
  settled _ _ _ := rfl
  broken _ := rfl
  unattached _ := ⟨rfl, rfl⟩

/-- An event that tells of another outcome than the last one goes to the end of the list. -/
theorem push (hi : NotifyInv s) (hattached : s.attached = true) (event : IntfEvent)
    (hnew : event.connects ≠ s.real) (link : LinkPhase)
    (hlink : link ≠ .up → event.connects = false) :
    NotifyInv { s with
      link
      state := event.connects
      real := event.connects
      queue := s.queue ++ [event] } := by
  constructor
  · rw [Notifications.events_push, List.isChain_append]
    refine ⟨hi.alternates, .singleton _, ?_⟩
    rintro last hlast _ ⟨⟩
    have hreal := hi.newest last hlast
    rw [hreal]
    exact hnew.symm
  · intro last hlast
    rw [Notifications.events_push] at hlast
    obtain rfl : event = last := by simpa using hlast
    rfl
  · exact hi.first
  · intro _ _
    rfl
  · intro _ hqueue _
    simp at hqueue
  · exact hlink
  · intro hdetached
    simp_all

theorem attach (hi : NotifyInv s) (hattached : s.attached = false) (hlink : s.link = .up)
    (connected : Bool) :
    NotifyInv { s with
      attached := true
      state := connected
      real := connected
      connectedOk := if connected then .due else .absent } := by
  obtain ⟨-, hevents⟩ := hi.unattached hattached
  obtain ⟨hcalled, hdelivery, -, hqueue⟩ :
      s.called = [] ∧ s.delivery.event? = none ∧ s.connectedOk.coming = [] ∧ s.queue = [] := by
    simpa [Notifications.events] using hevents
  have hidle : s.delivery = .idle := by
    cases hd : s.delivery with
    | idle => rfl
    | taken _ | handled _ => simp [hd, DeliveryPhase.event?] at hdelivery
  constructor
  all_goals
    cases connected <;>
      simp [Notifications.events, hcalled, hidle, hqueue, hlink, DeliveryPhase.event?,
        ConnectedOk.coming]

theorem breaks (hi : NotifyInv s) (hreal : s.state = s.real)
    (hst : s.step .breaks = some s') : NotifyInv s' := by
  simp only [Notifications.step, Option.ite_none_right_eq_some] at hst
  obtain ⟨-, hst⟩ := hst
  by_cases hconnected : s.attached = true ∧ s.state = true
  · rw [if_pos hconnected] at hst
    cases hst
    apply hi.push hconnected.1 .disconnected
    · rw [← hreal, hconnected.2]
      decide
    · intro _
      rfl
  · rw [if_neg hconnected] at hst
    cases hst
    have hdown : s.state = false := by
      cases hattached : s.attached with
      | false => exact (hi.unattached hattached).1
      | true => simpa [hattached] using hconnected
    have hwas : s.real = false := by rw [← hreal, hdown]
    refine ⟨hi.alternates, ?_, hi.first, ?_, ?_, fun _ => rfl, hi.unattached⟩
    · intro event hlast
      rw [hi.newest event hlast, hwas]
    · intro _ _
      exact hdown
    · intro _ _ _
      exact hdown

theorem reattach (hi : NotifyInv s) {reply : Option Bool}
    (hst : s.step (.reattach reply) = some s') : NotifyInv s' := by
  simp only [Notifications.step, Option.ite_none_right_eq_some] at hst
  obtain ⟨hlink, hst⟩ := hst
  have hwas : s.real = false := hi.broken (by simp [hlink])
  -- the attachment stays as it is
  have hkept : NotifyInv { s with link := .up } :=
    ⟨hi.alternates, hi.newest, hi.first, hi.untouched, hi.settled, fun h => (h rfl).elim,
      hi.unattached⟩
  cases hattached : s.attached with
  | false =>
    rw [hattached] at hst hkept
    cases hst
    exact hkept
  | true =>
    rw [hattached] at hst
    match reply with
    | none =>
      rw [hattached] at hkept
      cases hst
      exact hkept
    | some true =>
      cases hst
      have hpushed := hi.push hattached .reconnectedOk
        (by rw [hwas]; decide) .up (fun h => (h rfl).elim)
      rw [hattached] at hpushed
      exact hpushed
    | some false =>
      cases hst
      refine ⟨hi.alternates, ?_, hi.first, fun _ _ => rfl, fun _ _ _ => rfl, fun _ => rfl, ?_⟩
      · intro event hlast
        rw [hi.newest event hlast, hwas]
      · intro hdetached
        cases hdetached

/-- The events thread takes an event only when nothing is to come before it. -/
theorem take (hi : NotifyInv s) (hok : s.connectedOk ≠ .due) (hst : s.step .take = some s') :
    NotifyInv s' := by
  simp only [Notifications.step] at hst
  split at hst
  · next hidle hqueued =>
    cases hst
    have hcoming : s.connectedOk.coming = [.connectedOk] := by rw [hqueued]; rfl
    obtain ⟨hcalled, -⟩ := hi.first (by simp [hcoming])
    have hevents : Notifications.events
        { s with connectedOk := .gone, delivery := .taken .connectedOk } = s.events := by
      simp [Notifications.events, hidle, hqueued, DeliveryPhase.event?, ConnectedOk.coming]
    refine ⟨?_, ?_, fun h => (h rfl).elim, ?_, ?_, hi.broken, ?_⟩
    · rw [hevents]
      exact hi.alternates
    · rw [hevents]
      exact hi.newest
    · intro _ _
      exact hi.untouched hcalled (by simp [hidle])
    · intro _ _ htaken
      exact (htaken _ rfl).elim
    · rw [hevents]
      exact hi.unattached
  · next event rest hidle hqueue hnone =>
    cases hst
    have hcoming : s.connectedOk.coming = [] := by
      cases hconnectedOk : s.connectedOk with
      | due => exact (hok hconnectedOk).elim
      | queued => exact (hnone hconnectedOk).elim
      | absent | gone => rfl
    have hevents : Notifications.events { s with queue := rest, delivery := .taken event } =
        s.events := by
      simp [Notifications.events, hidle, hcoming, hqueue, DeliveryPhase.event?]
    refine ⟨?_, ?_, fun h => (h hcoming).elim, ?_, ?_, hi.broken, ?_⟩
    · rw [hevents]
      exact hi.alternates
    · rw [hevents]
      exact hi.newest
    · intro hcalled _
      exact hi.untouched hcalled (by simp [hidle])
    · intro _ _ htaken
      exact (htaken _ rfl).elim
    · rw [hevents]
      exact hi.unattached
  · cases hst

theorem setState (hi : NotifyInv s) (hst : s.step .setState = some s') : NotifyInv s' := by
  simp only [Notifications.step] at hst
  split at hst
  · next event htaken =>
    cases hst
    have hevents : Notifications.events
        { s with state := event.connects, delivery := .handled event } = s.events := by
      simp [Notifications.events, htaken, DeliveryPhase.event?]
    refine ⟨?_, ?_, ?_, ?_, ?_, hi.broken, ?_⟩
    · rw [hevents]
      exact hi.alternates
    · rw [hevents]
      exact hi.newest
    · intro hcoming
      have hidle := (hi.first hcoming).2
      rw [htaken] at hidle
      cases hidle
    · intro _ hhandled
      exact (hhandled _ rfl).elim
    · -- no event is newer than the one in hand
      intro hcoming hqueue _
      apply hi.newest
      have hempty : s.connectedOk.coming ++ s.queue = [] := by
        rw [List.append_eq_nil_iff]
        exact ⟨hcoming, hqueue⟩
      simp [Notifications.events, htaken, hempty, DeliveryPhase.event?]
    · intro hdetached
      have hnone := (hi.unattached hdetached).2
      simp [Notifications.events, htaken, DeliveryPhase.event?] at hnone
  · cases hst

theorem callClbs (hi : NotifyInv s) (hst : s.step .callClbs = some s') : NotifyInv s' := by
  simp only [Notifications.step] at hst
  split at hst
  · next event hhandled =>
    cases hst
    have hevents : Notifications.events
        { s with called := s.called ++ [event], delivery := .idle } = s.events := by
      simp [Notifications.events, hhandled, DeliveryPhase.event?]
    refine ⟨?_, ?_, ?_, ?_, ?_, hi.broken, ?_⟩
    · rw [hevents]
      exact hi.alternates
    · rw [hevents]
      exact hi.newest
    · intro hcoming
      have hidle := (hi.first hcoming).2
      rw [hhandled] at hidle
      cases hidle
    · intro hcalled
      simp at hcalled
    · intro hcoming hqueue _
      exact hi.settled hcoming hqueue (by simp [hhandled])
    · rw [hevents]
      exact hi.unattached
  · cases hst

/-- Whether the event is submitted or is in the list of the serializer, it is to come. -/
theorem submit (hi : NotifyInv s) (hdue : s.connectedOk = .due) :
    NotifyInv { s with connectedOk := .queued } := by
  have hevents : Notifications.events { s with connectedOk := .queued } = s.events := by
    simp [Notifications.events, hdue, ConnectedOk.coming]
  refine ⟨?_, ?_, ?_, hi.untouched, ?_, hi.broken, ?_⟩
  · rw [hevents]
    exact hi.alternates
  · rw [hevents]
    exact hi.newest
  · intro _
    exact hi.first (by simp [hdue, ConnectedOk.coming])
  · intro hcoming
    cases hcoming
  · rw [hevents]
    exact hi.unattached

theorem giveUp (hi : NotifyInv s) (hqueued : s.connectedOk = .queued) :
    NotifyInv { s with connectedOk := .gone } := by
  have hcoming : s.connectedOk.coming = [.connectedOk] := by rw [hqueued]; rfl
  obtain ⟨hcalled, hidle⟩ := hi.first (by simp [hcoming])
  have hbefore : s.events = .connectedOk :: s.queue := by
    simp [Notifications.events, hcalled, hidle, hcoming, DeliveryPhase.event?]
  have hafter : Notifications.events { s with connectedOk := .gone } = s.queue := by
    simp [Notifications.events, hcalled, hidle, DeliveryPhase.event?, ConnectedOk.coming]
  refine ⟨?_, ?_, fun h => (h rfl).elim, hi.untouched, ?_, hi.broken, ?_⟩
  · have halternates := hi.alternates
    rw [hbefore] at halternates
    rw [hafter]
    exact halternates.tail
  · intro event hlast
    apply hi.newest
    rw [hafter] at hlast
    rw [hbefore, List.getLast?_cons, hlast]
    rfl
  · intro _ _ _
    exact hi.untouched hcalled (by simp [hidle])
  · intro hdetached
    have hnone := (hi.unattached hdetached).2
    rw [hbefore] at hnone
    cases hnone

theorem step {action : NotifyAction} (hi : NotifyInv s) (hok : NoStaleState s action)
    (hst : s.step action = some s') : NotifyInv s' := by
  cases action with
  | attach connected =>
    simp only [Notifications.step, Option.ite_none_right_eq_some] at hst
    obtain ⟨⟨hattached, hlink⟩, hst⟩ := hst
    cases hst
    exact hi.attach hattached hlink connected
  | submit =>
    simp only [Notifications.step, Option.ite_none_right_eq_some] at hst
    obtain ⟨hdue, hst⟩ := hst
    cases hst
    exact hi.submit hdue
  | giveUp =>
    simp only [Notifications.step, Option.ite_none_right_eq_some] at hst
    obtain ⟨hqueued, hst⟩ := hst
    cases hst
    exact hi.giveUp hqueued
  | breaks => exact hi.breaks hok hst
  | connects =>
    simp only [Notifications.step, Option.ite_none_right_eq_some] at hst
    obtain ⟨hlink, hst⟩ := hst
    cases hst
    refine ⟨hi.alternates, hi.newest, hi.first, hi.untouched, hi.settled, ?_, hi.unattached⟩
    intro _
    exact hi.broken (by simp [hlink])
  | reattach reply => exact hi.reattach hst
  | take => exact hi.take hok hst
  | setState => exact hi.setState hst
  | callClbs => exact hi.callClbs hst

theorem notified (hi : NotifyInv s) : Notified s where
  alternates := hi.alternates.left_of_append
  settled hqueued hqueue htaken := by
    cases hconnectedOk : s.connectedOk with
    | due =>
      obtain ⟨hcalled, hidle⟩ := hi.first (by rw [hconnectedOk]; exact List.cons_ne_nil _ _)
      exact hi.untouched hcalled (by simp [hidle])
    | queued => exact (hqueued hconnectedOk).elim
    | absent | gone => exact hi.settled (by rw [hconnectedOk]; rfl) hqueue htaken

end NotifyInv

instance decidableNoStaleState : ∀ s action, Decidable (NoStaleState s action)
  | s, .breaks => inferInstanceAs (Decidable (s.state = s.real))
  | s, .take => inferInstanceAs (Decidable (s.connectedOk ≠ .due))
  | _, .attach _ | _, .submit | _, .giveUp | _, .connects | _, .reattach _ | _, .setState
  | _, .callClbs => .isTrue trivial

/-- In every run that keeps to the condition, the callbacks tell in turn of the interface that is
there and the one that is not, and the state settles to the outcome of the last transition. -/
theorem stateNotifications {actions : List NotifyAction} {s : Notifications}
    (hok : Along Notifications.step NoStaleState .init actions)
    (hrun : exec Notifications.step .init actions = some s) : Notified s :=
  (exec_along NotifyInv.step NotifyInv.init hok hrun).notified

/-- A break that finds another state than the outcome of the last transition has one more event
emulated that tells the same as the last one, or none although the last one tells of a
connection. -/
theorem breaks_stale {s s' : Notifications} (hi : NotifyInv s) (hstale : s.state ≠ s.real)
    (hst : s.step .breaks = some s') :
    ¬s'.events.IsChain (fun a b => a.connects ≠ b.connects) ∨
      ∃ event, s'.events.getLast? = some event ∧ event.connects ≠ s'.real := by
  have hne : s.events ≠ [] := by
    intro hnil
    apply hstale
    simp only [Notifications.events, List.append_eq_nil_iff] at hnil
    obtain ⟨hcalled, hdelivery, -⟩ := hnil
    apply hi.untouched hcalled
    intro event hhandled
    rw [hhandled] at hdelivery
    cases hdelivery
  have hattached : s.attached = true := by
    by_contra hdetached
    exact hne (hi.unattached (by simpa using hdetached)).2
  obtain ⟨last, hlast⟩ : ∃ last, s.events.getLast? = some last :=
    ⟨_, List.getLast?_eq_some_getLast hne⟩
  have hreal := hi.newest last hlast
  simp only [Notifications.step, Option.ite_none_right_eq_some] at hst
  obtain ⟨-, hst⟩ := hst
  cases hstate : s.state with
  | true =>
    left
    simp only [hattached, hstate, and_self, if_true] at hst
    cases hst
    have hfalse : s.real = false := by
      rw [hstate] at hstale
      simpa using hstale
    intro hchain
    have hevents := Notifications.events_push (s := s) .down false false .disconnected
    rw [hattached] at hevents
    rw [hevents, List.isChain_append] at hchain
    apply hchain.2.2 last hlast .disconnected rfl
    rw [hreal, hfalse]
    decide
  | false =>
    right
    rw [if_neg (by simp [hstate])] at hst
    cases hst
    refine ⟨last, hlast, ?_⟩
    rw [hreal]
    rw [hstate] at hstale
    exact hstale.symm

/-- An attach, a break and a reconnect, each followed by the delivery of its event. -/
def reconnectRun : List NotifyAction :=
  [.attach true, .submit, .take, .setState, .callClbs, .breaks, .take, .setState, .callClbs,
    .connects, .reattach (some true), .take, .setState, .callClbs]

theorem stateNotifications_reconnectRun :
    ∃ s, exec Notifications.step .init reconnectRun = some s ∧
      s.called = [.connectedOk, .disconnected, .reconnectedOk] ∧ Notified s :=
  ⟨_, rfl, rfl, @stateNotifications reconnectRun _ (by decide) rfl⟩

/-- The events thread sets the state for the first break after the reconnect, and the connection
breaks again. -/
def staleRun : List NotifyAction :=
  [.attach true, .submit, .take, .setState, .callClbs, .breaks, .connects, .reattach (some true),
    .take, .setState, .breaks, .callClbs, .take, .setState, .callClbs]

theorem stale_state_misses_break :
    ¬∀ (s : Notifications) (actions : List NotifyAction),
      exec Notifications.step .init actions = some s → Notified s := by
  intro h
  have hsettled := (h _ staleRun rfl).settled (by decide) rfl nofun
  cases hsettled

example :
    (exec Notifications.step .init (staleRun ++
      [.connects, .reattach (some true), .take, .setState, .callClbs])).map (·.called) =
      some [.connectedOk, .disconnected, .reconnectedOk, .reconnectedOk] := rfl

end Dwpal.Client
