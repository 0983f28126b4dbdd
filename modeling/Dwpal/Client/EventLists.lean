import Dwpal.Lib.Bytes

/-! The lists of registered events of `daemon/dwpald_client.c`: each event with its callbacks, and
each callback with the id that registered it. The file has every function twice, for the events of
hostapd and for the events of the driver; here each is one function of the kind of events.
Allocations succeed. -/

namespace Dwpal.Client

/-- The address of a callback of the application. -/
abbrev Clb := Nat

/-- `dwpald_hostap_clb_id` and `dwpald_drv_clb_id`; the callback `none` is `NULL`. -/
structure ClbId where
  clb : Option Clb
  id : UInt32
deriving DecidableEq, Repr

/-- `dwpald_hostap_event_with_id` and `dwpald_driver_nl_event_with_id`. -/
structure EventWithId (κ : Type) where
  key : κ
  clbIdList : List ClbId

/-- What the events of hostapd and the events of the driver differ in. An application passes events
of type `ν`, and the lists hold keys of type `κ`. -/
structure EventKind (ν κ : Type) where
  /-- The comparison of an entry of the list with an event that is to be added. -/
  found : κ → ν → Bool
  /-- The comparison would read through a null pointer. -/
  unreadable : ν → Bool
  clb : ν → Option Clb
  /-- A callback that is `NULL` is pushed like any other. -/
  pushesNull : Bool
  /-- The key of the copy of an event, `none` if the arguments are bad. -/
  copyKey : ν → Option κ

variable {ν κ : Type}

/-- `dwpald_free_hostap_events_with_id` and `dwpald_free_driver_events_with_id`. -/
def freeEventsWithId (events : List (EventWithId κ)) (id : UInt32) : List (EventWithId κ) :=
  (events.map fun event =>
    { event with clbIdList := event.clbIdList.filter fun clbId => clbId.id ≠ id }).filter
      fun event => !event.clbIdList.isEmpty

namespace EventKind

variable (kind : EventKind ν κ)

/-- `dwpald_push_hostap_callback` and `dwpald_push_drv_callback`. -/
def pushCallback (l : List ClbId) (clb : Option Clb) (id : UInt32) : List ClbId :=
  if clb.isNone && !kind.pushesNull then l else l ++ [⟨clb, id⟩]

/-- `dwpald_copy_hostap_events` and `dwpald_copy_driver_events`: 0, or 1 for bad arguments, and the
destination list. -/
def copyEvents (dst : List (EventWithId κ)) (id : UInt32) :
    List ν → Nat × List (EventWithId κ)
  | [] => (0, dst)
  | event :: events =>
    match kind.copyKey event with
    | some key => copyEvents (⟨key, [⟨kind.clb event, id⟩]⟩ :: dst) id events
    | none => (1, freeEventsWithId dst id)

/-- The search for an event in the list, and what is done with the first entry that `found` takes
for it: `clb_found`, which is set if the callback is there, and the list, to which the callback is
added unless `clb_found` is set. `none` when there is no such entry. -/
def addToKnown (found : κ → ν → Bool) (event : ν) (id : UInt32) (clbFound : Bool) :
    List (EventWithId κ) → Option (Bool × List (EventWithId κ))
  | [] => none
  | known :: events =>
    if found known.key event then
      let clbFound := clbFound || known.clbIdList.any fun clbId => clbId.clb == kind.clb event
      some (clbFound,
        if clbFound then known :: events
        else { known with
          clbIdList := kind.pushCallback known.clbIdList (kind.clb event) id } :: events)
    else (addToKnown found event id clbFound events).map fun r => (r.1, known :: r.2)

/-- The loop of `dwpald_add_hostap_events` and `dwpald_add_driver_events`; `clb_found` is declared
in front of the loop and not reset. `none` when a null pointer is read through. -/
def addEventsLoop (id : UInt32) :
    Bool → List (EventWithId κ) → List ν → Option (Int × List (EventWithId κ))
  | _, events, [] => some (0, events)
  | clbFound, events, event :: rest =>
    if kind.unreadable event && !events.isEmpty then none
    else
      match kind.addToKnown kind.found event id clbFound events with
      | some (clbFound, events) => addEventsLoop id clbFound events rest
      | none =>
        match kind.copyEvents events id [event] with
        | (0, events) => addEventsLoop id clbFound events rest
        | (_, events) => some (-1, events)

/-- `dwpald_add_hostap_events` and `dwpald_add_driver_events`. -/
def addEvents (events : List (EventWithId κ)) (added : List ν) (id : UInt32) :
    Option (Int × List (EventWithId κ)) :=
  kind.addEventsLoop id false events added

end EventKind

/-! What the lists are for: a relation between the names of events and the callbacks registered to
them, each with the id that registered it. -/

/-- The name that an entry has and the name that an event of the application asks for. An entry with
the very name is always found, and a copy has the name of the event. -/
structure EventKind.Naming (kind : EventKind ν κ) (ι : Type) where
  name : κ → ι
  nameOf : ν → ι
  found_of_eq : ∀ {key event}, name key = nameOf event → kind.found key event = true
  name_copyKey : ∀ {event key}, kind.copyKey event = some key → name key = nameOf event
  clb_copyKey : ∀ {event key}, kind.copyKey event = some key → kind.clb event ≠ none
  readable_copyKey : ∀ {event key}, kind.copyKey event = some key → kind.unreadable event = false

section

variable {ι : Type}

/-- The callback `c` is registered to the events named `n`. -/
def Registered (name : κ → ι) (events : List (EventWithId κ)) (n : ι) (c : ClbId) : Prop :=
  ∃ event ∈ events, name event.key = n ∧ c ∈ event.clbIdList

variable {name : κ → ι} {n : ι} {c : ClbId}

theorem not_registered_nil : ¬ Registered name [] n c := by simp [Registered]

theorem registered_cons {event : EventWithId κ} {events : List (EventWithId κ)} :
    Registered name (event :: events) n c ↔
      name event.key = n ∧ c ∈ event.clbIdList ∨ Registered name events n c := by
  simp [Registered]

theorem registered_append {events events' : List (EventWithId κ)} :
    Registered name (events ++ events') n c ↔
      Registered name events n c ∨ Registered name events' n c := by
  simp [Registered, or_and_right, exists_or]

/-- Freeing the registrations of one id leaves those of the others. -/
theorem registered_freeEventsWithId {events : List (EventWithId κ)} {id : UInt32} :
    Registered name (freeEventsWithId events id) n c ↔ Registered name events n c ∧ c.id ≠ id := by
  constructor
  · rintro ⟨event, hevent, hname, hc⟩
    obtain ⟨event', hevent', rfl⟩ := List.mem_map.mp (List.mem_of_mem_filter hevent)
    obtain ⟨hc, hid⟩ := List.mem_filter.mp hc
    exact ⟨⟨event', hevent', hname, hc⟩, by simpa using hid⟩
  · rintro ⟨⟨event, hevent, hname, hc⟩, hid⟩
    have hc' : c ∈ event.clbIdList.filter fun clbId => clbId.id ≠ id :=
      List.mem_filter.mpr ⟨hc, by simpa using hid⟩
    refine ⟨_, List.mem_filter.mpr ⟨List.mem_map_of_mem hevent, ?_⟩, hname, hc'⟩
    rw [Bool.not_eq_true', List.isEmpty_eq_false_iff]
    exact List.ne_nil_of_mem hc'

end

end Dwpal.Client
