import Dwpal.Client.AttachComplete
import Dwpal.Client.FailedAttach
import Dwpal.Lib.Machine

/-! The life of the attachment of an interface while ids attach and detach and the daemon grants
every request: the client tells from the sizes of the list of events when the last id has gone. -/

namespace Dwpal.Client

open Ipc Daemon Machine

/-- The attachments, the ids that have attached to the interface and not detached, and the detach
requests that were sent for it since its attachment was created. -/
structure AttachmentLife where
  attachments : List DwpaldHostapAttachment
  users : List UInt32
  detaches : Nat

/-- A call of `dwpald_hostap_attach_with_id`, which is told the state of the interface if it asks
the daemon, or of `dwpald_hostap_detach_with_id`. -/
inductive LifeAction where
  | attach (eventThread : Bool) (hostapEvents : Option (List DwpaldHostapEvent))
    (failOnIfaceDown : Bool) (state : UInt8) (id : UInt32)
  | detach (eventThread : Bool) (id : UInt32)

theorem granted_ne (state : UInt8) (_ : DwpaldHostapAttachment) :
    (DwpaldRet.success, state).1 ≠ .dwpalIfaceIsDown := by simp

/-- Every request succeeds, and the interface has the state `state`. -/
def grantedRequests (state : UInt8) : Requests :=
  { servedRequests with
    sendHostapAttach := fun _ => (.success, state)
    attach_ne := granted_ne state }

/-- The request is a detach. -/
def HostapRequest.isDetach : HostapRequest → Bool
  | .detach _ => true
  | .attach _ | .update _ _ => false

namespace AttachmentLife

variable (ifname : List UInt8)

/-- The attachment of the interface. -/
def attachment (s : AttachmentLife) : Option DwpaldHostapAttachment :=
  s.attachments.find? (·.named ifname)

/-- Nobody has attached to the interface. -/
def start (attachments : List DwpaldHostapAttachment) : AttachmentLife := ⟨attachments, [], 0⟩

/-- The detaches among the requests. -/
def detachRequests (sent : List HostapRequest) : Nat :=
  sent.countP HostapRequest.isDetach

/-- A call on the interface. -/
def step (s : AttachmentLife) : LifeAction → Option AttachmentLife
  | .attach eventThread hostapEvents failOnIfaceDown state id =>
    (dwpaldHostapAttachWithId (grantedRequests state) eventThread s.attachments (some ifname)
      hostapEvents failOnIfaceDown id).map fun attached =>
        { attachments := attached.attachments
          users :=
            if AttachSucceeded s.attachments ifname failOnIfaceDown attached.ret then id :: s.users
            else s.users
          -- an attach that creates the attachment starts the count
          detaches :=
            (if s.attachment ifname = none ∧
                AttachSucceeded s.attachments ifname failOnIfaceDown attached.ret then 0
              else s.detaches) + detachRequests attached.sent }
  | .detach eventThread id =>
    let (ret, attachments, sent) :=
      dwpaldHostapDetachWithId servedRequests eventThread s.attachments (some ifname) id
    some { attachments
           users := if ret = .success then s.users.filter (· ≠ id) else s.users
           detaches := s.detaches + detachRequests sent }

/-- After the step the attachment exists, without a detach request since it was created, just when
an id is attached; and if the last id has gone, the attachment is gone and one detach request was
sent. -/
def KeepsLifetime (s : AttachmentLife) (a : LifeAction) : Prop :=
  ∀ s', s.step ifname a = some s' →
    ((s'.attachment ifname).isSome ∧ s'.detaches = 0 ↔ s'.users ≠ []) ∧
      (s.users ≠ [] → s'.users = [] → s'.attachment ifname = none ∧ s'.detaches = 1)

/-- The attach creates the attachment. -/
def Creates (s : AttachmentLife) (eventThread : Bool)
    (hostapEvents : Option (List DwpaldHostapEvent)) (failOnIfaceDown : Bool) (state : UInt8)
    (id : UInt32) : Prop :=
  s.attachment ifname = none ∧ id ≠ defaultAttachId ∧ eventThread = false ∧
    (∃ events, hostapEvents = some events ∧
      ∀ event ∈ events, hostapEventKind.copyKey event ≠ none) ∧
    ¬ (state = interfaceDwpalStateDisconnected ∧ failOnIfaceDown = true)

/-- There are events, and all their callbacks are registered with the id. -/
def AllOf (id : UInt32) (hapAttch : DwpaldHostapAttachment) : Prop :=
  hapAttch.hostapEvents ≠ [] ∧
    ∀ event ∈ hapAttch.hostapEvents, ∀ clbId ∈ event.clbIdList, clbId.id = id

instance (s : AttachmentLife) (eventThread : Bool) (hostapEvents : Option (List DwpaldHostapEvent))
    (failOnIfaceDown : Bool) (state : UInt8) (id : UInt32) :
    Decidable (s.Creates ifname eventThread hostapEvents failOnIfaceDown state id) :=
  match hostapEvents with
  | none => .isFalse fun ⟨_, _, _, ⟨_, h, _⟩, _⟩ => (by cases h)
  | some events => decidable_of_iff (s.attachment ifname = none ∧ id ≠ defaultAttachId ∧
      eventThread = false ∧ (∀ event ∈ events, hostapEventKind.copyKey event ≠ none) ∧
      ¬ (state = interfaceDwpalStateDisconnected ∧ failOnIfaceDown = true)) (by simp [Creates])

instance (id : UInt32) (hapAttch : DwpaldHostapAttachment) : Decidable (AllOf id hapAttch) :=
  inferInstanceAs (Decidable (_ ∧ _))

/-- The list of events tells who is attached: when an id detaches, all events are its own just when
no other id is attached. The name of an attachment that is created is not cut off. -/
def EventsTell (s : AttachmentLife) : LifeAction → Prop
  | .attach eventThread hostapEvents failOnIfaceDown state id =>
    s.Creates ifname eventThread hostapEvents failOnIfaceDown state id →
      (cstr ifname).length ≤ ifnamsiz
  | .detach eventThread id =>
    eventThread = false → ∀ hapAttch, s.attachment ifname = some hapAttch →
      (AllOf id hapAttch ↔ ∀ user ∈ s.users, user = id)

instance (s : AttachmentLife) : ∀ a, Decidable (s.EventsTell ifname a)
  | .attach .. => inferInstanceAs (Decidable (_ → _))
  | .detach eventThread id =>
    match h : s.attachment ifname with
    | none => .isTrue fun _ _ h' => (by rw [h] at h'; cases h')
    | some hapAttch => decidable_of_iff
        (eventThread = false → (AllOf id hapAttch ↔ s.users.all (· == id) = true))
        (by simp [EventsTell, h])

end AttachmentLife

/-! The attachments with the name. -/

variable {ifname : List UInt8} {attachments : List DwpaldHostapAttachment}

theorem filter_changeAttachment (change : DwpaldHostapAttachment → Option DwpaldHostapAttachment) :
    (changeAttachment ifname change attachments).filter (·.named ifname) =
      match attachments.filter (·.named ifname) with
      | hapAttch :: rest => (change hapAttch).toList.filter (·.named ifname) ++ rest
      | [] => [] := by
  induction attachments with
  | nil => rfl
  | cons hapAttch attachments ih =>
    rw [changeAttachment]
    cases hnamed : hapAttch.named ifname with
    | true => simp [hnamed]
    | false => simp [hnamed, ih]

theorem filter_setHostapEvents {hapAttch : DwpaldHostapAttachment}
    (hown : attachments.filter (·.named ifname) = [hapAttch])
    (events : List DwpaldHostapEventWithId) :
    (setHostapEvents attachments ifname events).filter (·.named ifname) =
      [{ hapAttch with hostapEvents := events }] := by
  have hnamed : hapAttch.named ifname = true :=
    (List.mem_filter.mp (hown ▸ List.mem_singleton_self hapAttch)).2
  have hsame : DwpaldHostapAttachment.named ifname
      { hapAttch with hostapEvents := events } = true :=
    hnamed
  rw [setHostapEvents, filter_changeAttachment, hown]
  simp [hsame]

/-- Attaching again changes the events of the attachment, if it changes the attachments, and sends
no detach. -/
theorem attachAgain_attachments {requests : Requests} {hapAttch : DwpaldHostapAttachment}
    {hostapEvents : List DwpaldHostapEvent} {id : UInt32} {attached : Attached}
    (hattach : attachAgain requests attachments hapAttch ifname hostapEvents id = some attached) :
    (attached.attachments = attachments ∨
      ∃ events, attached.attachments = setHostapEvents attachments ifname events) ∧
      AttachmentLife.detachRequests attached.sent = 0 := by
  rw [attachAgain] at hattach
  by_cases hid : id = defaultAttachId
  · rw [if_pos hid] at hattach
    obtain rfl := Option.some.inj hattach
    exact ⟨.inl rfl, rfl⟩
  · rw [if_neg hid, Option.map_eq_some_iff] at hattach
    obtain ⟨⟨err, events⟩, -, rfl⟩ := hattach
    refine ⟨.inr ⟨events, ?_⟩, ?_⟩
    all_goals
      simp only
      split_ifs <;> rfl

/-- Freeing the registrations of the id leaves nothing when all callbacks are the id's. -/
theorem freeHostapEvents_eq_nil {events : List DwpaldHostapEventWithId} {id : UInt32} :
    dwpaldFreeHostapEventsWithId events id = [] ↔
      ∀ event ∈ events, ∀ clbId ∈ event.clbIdList, clbId.id = id := by
  rw [dwpaldFreeHostapEventsWithId, freeEventsWithId, List.filter_eq_nil_iff, List.forall_mem_map]
  simp [List.filter_eq_nil_iff]

theorem allOf_iff {id : UInt32} {hapAttch : DwpaldHostapAttachment} :
    AttachmentLife.AllOf id hapAttch ↔
      (dwpaldFreeHostapEventsWithId hapAttch.hostapEvents id).length ≠
        hapAttch.hostapEvents.length ∧
        (dwpaldFreeHostapEventsWithId hapAttch.hostapEvents id).length = 0 := by
  rw [AttachmentLife.AllOf, ← freeHostapEvents_eq_nil, List.length_eq_zero_iff]
  constructor
  · rintro ⟨hevents, hfreed⟩
    refine ⟨?_, hfreed⟩
    rw [hfreed, List.length_nil]
    exact fun h => hevents (List.length_eq_zero_iff.mp h.symm)
  · rintro ⟨hlen, hfreed⟩
    refine ⟨fun hevents => hlen ?_, hfreed⟩
    rw [hfreed, hevents]

namespace AttachmentLife

variable {s s' : AttachmentLife} {id : UInt32} {hapAttch : DwpaldHostapAttachment}

/-- The attachments with the name. -/
def own (ifname : List UInt8) (s : AttachmentLife) : List DwpaldHostapAttachment :=
  s.attachments.filter (·.named ifname)

theorem attachment_eq (ifname : List UInt8) (s : AttachmentLife) :
    s.attachment ifname = (s.own ifname).head? := (List.head?_filter ..).symm

/-- There is one attachment at most, it is there just when an id is attached, and while it is there
no detach request has been sent. -/
structure LifeInv (ifname : List UInt8) (s : AttachmentLife) : Prop where
  single : (s.own ifname).length ≤ 1
  fresh : (s.attachment ifname).isSome → s.detaches = 0
  alive : (s.attachment ifname).isSome ↔ s.users ≠ []

theorem LifeInv.own_eq (h : LifeInv ifname s) : s.own ifname = (s.attachment ifname).toList := by
  have hlen := h.single
  rw [attachment_eq]
  cases hown : s.own ifname with
  | nil => rfl
  | cons hapAttch rest =>
    rw [hown, List.length_cons] at hlen
    rw [List.length_eq_zero_iff.mp (by omega : rest.length = 0)]
    rfl

theorem LifeInv.start (hnone : attachments.find? (·.named ifname) = none) :
    LifeInv ifname (.start attachments) := by
  have hattachment : (AttachmentLife.start attachments).attachment ifname = none := hnone
  rw [attachment_eq, List.head?_eq_none_iff] at hattachment
  refine ⟨by rw [hattachment]; exact Nat.zero_le 1, fun _ => rfl, ?_⟩
  rw [attachment_eq, hattachment]
  exact iff_of_false (by simp) (not_not_intro rfl)

theorem isSome_of_length (hlen : (s.own ifname).length = 1) : (s.attachment ifname).isSome := by
  obtain ⟨hapAttch, hown⟩ := List.length_eq_one_iff.mp hlen
  rw [attachment_eq, hown]
  rfl

theorem attachment_of_own_nil (hown : s.own ifname = []) : s.attachment ifname = none := by
  rw [attachment_eq, hown]
  rfl

/-- Somebody is attached. -/
theorem LifeInv.attached (hlen : (s.own ifname).length = 1) (hfresh : s.detaches = 0)
    (husers : s.users ≠ []) : LifeInv ifname s :=
  ⟨hlen.le, fun _ => hfresh, iff_of_true (isSome_of_length hlen) husers⟩

/-- Nobody is attached. -/
theorem LifeInv.gone (hown : s.own ifname = []) (husers : s.users = []) : LifeInv ifname s := by
  have hnone := attachment_of_own_nil hown
  exact ⟨by rw [hown]; exact Nat.zero_le 1, fun h => by simp [hnone] at h, by simp [hnone, husers]⟩

/-- What a detach by an id leaves of the attachment. -/
theorem detach_own (hown : s.own ifname = [hapAttch]) (id : UInt32) :
    ∃ s', s.step ifname (.detach false id) = some s' ∧
      s'.users = s.users.filter (· ≠ id) ∧
      (AllOf id hapAttch → s'.own ifname = [] ∧ s'.detaches = s.detaches + 1) ∧
      (¬ AllOf id hapAttch → (s'.own ifname).length = 1 ∧ s'.detaches = s.detaches) := by
  have hfind : s.attachments.find? (·.named ifname) = some hapAttch := by
    have hattachment := attachment_eq ifname s
    rwa [hown] at hattachment
  have hnamed : hapAttch.named ifname = true := List.find?_some hfind
  have hchange := @filter_changeAttachment ifname s.attachments
  rw [show s.attachments.filter (·.named ifname) = [hapAttch] from hown] at hchange
  have hattachment : s.attachment ifname = some hapAttch := hfind
  have hkept := filter_setHostapEvents hown
  rw [allOf_iff]
  simp only [step, dwpaldHostapDetachWithId, Bool.false_eq_true, if_false, hfind]
  generalize dwpaldFreeHostapEventsWithId hapAttch.hostapEvents id = events
  by_cases hlen : events.length = hapAttch.hostapEvents.length
  · refine ⟨_, rfl, ?_, fun h => absurd hlen h.1, fun _ => ?_⟩
    · simp only [hlen, if_true]
    · simp only [own, hlen, if_true, hkept, List.length_singleton]
      exact ⟨trivial, rfl⟩
  · refine ⟨_, rfl, ?_, fun h => ?_, fun h => ?_⟩
    · simp only [hlen, if_false]
      split_ifs <;> simp_all [servedRequests]
    · have hgone := hchange fun _ => none
      simp only [own, if_neg hlen, if_pos h.2]
      exact ⟨hgone, rfl⟩
    · have hne : events.length ≠ 0 := fun h0 => h ⟨hlen, h0⟩
      simp only [own, hlen, hne, if_false, hkept]
      exact ⟨rfl, rfl⟩

/-- In the thread of the events nothing can be detached. -/
theorem detach_refused (s : AttachmentLife) (id : UInt32) :
    s.step ifname (.detach true id) = some s := rfl

/-- A detach that finds nothing to detach from changes nothing where nobody is attached. -/
theorem detach_none (hnone : s.attachment ifname = none) (husers : s.users = []) (id : UInt32) :
    s.step ifname (.detach false id) = some s := by
  have hfind : s.attachments.find? (·.named ifname) = none := hnone
  simp only [step, dwpaldHostapDetachWithId, Bool.false_eq_true, if_false, hfind, if_true, husers,
    List.filter_nil]
  rw [← husers]
  rfl

section Attach

variable {eventThread : Bool} {hostapEvents : Option (List DwpaldHostapEvent)}
  {failOnIfaceDown : Bool} {state : UInt8}

/-- An attach of an interface that is attached leaves its attachment there. -/
theorem attach_own (hown : s.own ifname = [hapAttch])
    (hstep : s.step ifname (.attach eventThread hostapEvents failOnIfaceDown state id) = some s') :
    (s'.own ifname).length = 1 ∧ s'.detaches = s.detaches ∧
      (s.users ≠ [] → s'.users ≠ []) := by
  have hattachment : s.attachment ifname = some hapAttch := by
    rw [attachment_eq, hown]
    rfl
  have hfind : s.attachments.find? (·.named ifname) = some hapAttch := hattachment
  rw [step, Option.map_eq_some_iff] at hstep
  obtain ⟨attached, hattached, rfl⟩ := hstep
  suffices hkept : (attached.attachments = s.attachments ∨
      ∃ events, attached.attachments = setHostapEvents s.attachments ifname events) ∧
      detachRequests attached.sent = 0 by
    obtain ⟨hattachments, hsent⟩ := hkept
    refine ⟨?_, ?_, fun husers => ?_⟩
    · obtain hsame | ⟨events, hset⟩ := hattachments
      · rw [own, hsame]
        exact congrArg List.length hown
      · rw [own, hset, filter_setHostapEvents hown]
        rfl
    · simp [hattachment, hsent]
    · simp only
      split_ifs
      · exact List.cons_ne_nil _ _
      · exact husers
  rw [dwpaldHostapAttachWithId] at hattached
  by_cases hid : id = defaultAttachId
  · rw [if_pos hid] at hattached
    obtain rfl := Option.some.inj hattached
    exact ⟨.inl rfl, rfl⟩
  rw [if_neg hid] at hattached
  cases hostapEvents with
  | none =>
    obtain rfl := Option.some.inj hattached
    exact ⟨.inl rfl, rfl⟩
  | some hostapEvents =>
    rw [dwpaldHostapAttachExWithId] at hattached
    cases eventThread with
    | true =>
      obtain rfl := Option.some.inj hattached
      exact ⟨.inl rfl, rfl⟩
    | false =>
      simp only [Bool.false_eq_true, if_false, hfind] at hattached
      exact attachAgain_attachments hattached

/-- An attach that does not create the attachment changes nothing where nobody is attached. -/
theorem attach_none (hnone : s.attachment ifname = none) (husers : s.users = [])
    (hcreates : ¬ s.Creates ifname eventThread hostapEvents failOnIfaceDown state id) :
    ∃ s', s.step ifname (.attach eventThread hostapEvents failOnIfaceDown state id) = some s' ∧
      s'.attachments = s.attachments ∧ s'.users = [] := by
  have hfind : s.attachments.find? (·.named ifname) = none := hnone
  suffices hundone : ∃ attached, dwpaldHostapAttachWithId (grantedRequests state) eventThread
      s.attachments (some ifname) hostapEvents failOnIfaceDown id = some attached ∧
      attached.attachments = s.attachments ∧
      ¬ AttachSucceeded s.attachments ifname failOnIfaceDown attached.ret by
    obtain ⟨attached, hattached, hsame, hfailed⟩ := hundone
    simp only [step, hattached, Option.map_some]
    exact ⟨_, rfl, hsame, by simp only [if_neg hfailed, husers]⟩
  have hrefused : ∀ ret : DwpaldRet, ret ≠ .success → ret ≠ .dwpalIfaceIsDown →
      ¬ AttachSucceeded s.attachments ifname failOnIfaceDown ret := fun ret hsuccess hdown h =>
    h.elim hsuccess fun h => hdown h.1
  rw [dwpaldHostapAttachWithId]
  by_cases hid : id = defaultAttachId
  · rw [if_pos hid]
    exact ⟨_, rfl, rfl, hrefused .error (by decide) (by decide)⟩
  rw [if_neg hid]
  cases hostapEvents with
  | none => exact ⟨_, rfl, rfl, hrefused .error (by decide) (by decide)⟩
  | some hostapEvents =>
  cases eventThread with
  | true => exact ⟨_, rfl, rfl, hrefused .failed (by decide) (by decide)⟩
  | false =>
  simp only [dwpaldHostapAttachExWithId, Bool.false_eq_true, if_false, hfind]
  refine ⟨_, rfl, ?_⟩
  obtain ⟨hall, hbad⟩ := @EventKind.copyEvents_keys _ _ hostapEventKind id hostapEvents []
  by_cases hcopies : ∀ event ∈ hostapEvents, hostapEventKind.copyKey event ≠ none
  · obtain ⟨copied, hcopied, -⟩ := hall hcopies
    have hdown : state = interfaceDwpalStateDisconnected ∧ failOnIfaceDown = true := by
      by_contra hup
      exact hcreates ⟨hnone, hid, rfl, ⟨hostapEvents, rfl, hcopies⟩, hup⟩
    rw [← dwpaldCopyHostapEvents] at hcopied
    simp only [attachFirst, hcopied, grantedRequests, hdown.1, hdown.2, if_true]
    refine ⟨trivial, fun h => h.elim (by decide) fun h => ?_⟩
    simp [hfind] at h
  · obtain ⟨copied, hcopied⟩ := hbad hcopies
    rw [← dwpaldCopyHostapEvents] at hcopied
    simp only [attachFirst, hcopied]
    exact ⟨trivial, hrefused .error (by decide) (by decide)⟩

/-- The attach that creates the attachment. -/
theorem attach_creates
    (hcreates : s.Creates ifname eventThread hostapEvents failOnIfaceDown state id) :
    ∃ s', s.step ifname (.attach eventThread hostapEvents failOnIfaceDown state id) = some s' ∧
      s'.users ≠ [] ∧ s'.detaches = 0 ∧
      (s'.own ifname).length = if (cstr ifname).length ≤ ifnamsiz then 1 else 0 := by
  obtain ⟨hnone, hid, rfl, ⟨hostapEvents, rfl, hcopies⟩, hup⟩ := hcreates
  have hfind : s.attachments.find? (·.named ifname) = none := hnone
  obtain ⟨copied, hcopied, -⟩ :=
    (@EventKind.copyEvents_keys _ _ hostapEventKind id hostapEvents []).1 hcopies
  rw [← dwpaldCopyHostapEvents] at hcopied
  have hattached : ∃ attached, dwpaldHostapAttachWithId (grantedRequests state) false s.attachments
      (some ifname) (some hostapEvents) failOnIfaceDown id = some attached ∧
      AttachSucceeded s.attachments ifname failOnIfaceDown attached.ret ∧
      attached.attachments =
        s.attachments ++ [{ newAttachment ifname none copied with state := state }] ∧
      detachRequests attached.sent = 0 := by
    simp only [dwpaldHostapAttachWithId, if_neg hid, dwpaldHostapAttachExWithId,
      Bool.false_eq_true, if_false, hfind, attachFirst, hcopied, grantedRequests]
    refine ⟨_, rfl, ?_⟩
    by_cases hstate : state = interfaceDwpalStateDisconnected
    · have hflag : failOnIfaceDown = false := by
        cases failOnIfaceDown with
        | true => exact absurd ⟨hstate, rfl⟩ hup
        | false => rfl
      simp only [if_pos hstate, hflag, Bool.false_eq_true, if_false]
      exact ⟨.inr ⟨rfl, .inl rfl⟩, trivial, rfl⟩
    · simp only [if_neg hstate]
      exact ⟨.inl rfl, trivial, rfl⟩
  obtain ⟨attached, hattached, hsucceeded, hnew, hsent⟩ := hattached
  simp only [step, hattached, Option.map_some, if_pos hsucceeded,
    if_pos (And.intro hnone hsucceeded), hsent]
  refine ⟨_, rfl, List.cons_ne_nil _ _, rfl, ?_⟩
  have hown : s.attachments.filter (·.named ifname) = [] := by
    rw [← List.head?_eq_none_iff, List.head?_filter]
    exact hfind
  have hnamed : DwpaldHostapAttachment.named ifname
      { newAttachment ifname none copied with state := state } = true ↔
        (cstr ifname).length ≤ ifnamsiz := by
    rw [named_iff_bytes, newAttachment, ifName, CString.copyFrom_bytes_eq (by decide) (by decide)]
    exact List.take_eq_self_iff _
  rw [own, hnew, List.filter_append, hown, List.nil_append]
  by_cases hlen : (cstr ifname).length ≤ ifnamsiz
  · rw [List.filter_singleton, hnamed.mpr hlen, if_pos hlen]
    rfl
  · rw [List.filter_singleton, Bool.eq_false_iff.mpr fun h => hlen (hnamed.mp h), if_neg hlen]
    rfl

end Attach

/-! A step where nobody or somebody is attached. -/

/-- What holds after a step that keeps the lifetime. -/
def Kept (ifname : List UInt8) (s s' : AttachmentLife) : Prop :=
  LifeInv ifname s' ∧ (s.users ≠ [] → s'.users = [] → s'.attachment ifname = none ∧ s'.detaches = 1)

theorem Kept.keeps {a : LifeAction}
    (h : ∀ s', s.step ifname a = some s' → Kept ifname s s') : s.KeepsLifetime ifname a := by
  intro s' hstep
  obtain ⟨hinv, hlast⟩ := h s' hstep
  refine ⟨⟨fun hsome => hinv.alive.mp hsome.1, fun husers => ?_⟩, hlast⟩
  have hsome := hinv.alive.mpr husers
  exact ⟨hsome, hinv.fresh hsome⟩

/-- A step keeps the lifetime if the list of events tells who is attached, and breaks it if not. -/
theorem LifeInv.step_spec (h : LifeInv ifname s) (a : LifeAction) :
    (s.EventsTell ifname a → ∀ s', s.step ifname a = some s' → Kept ifname s s') ∧
      (¬ s.EventsTell ifname a → ¬ s.KeepsLifetime ifname a) := by
  have hown := h.own_eq
  cases hattachment : s.attachment ifname with
  | none =>
    have husers : s.users = [] := by
      by_contra husers
      have hsome := h.alive.mpr husers
      simp [hattachment] at hsome
    rw [hattachment] at hown
    cases a with
    | attach eventThread hostapEvents failOnIfaceDown state id =>
      by_cases hcreates : s.Creates ifname eventThread hostapEvents failOnIfaceDown state id
      · obtain ⟨s', hstep, husers', hfresh, hlen⟩ := attach_creates hcreates
        rw [EventsTell, forall_prop_of_true hcreates]
        refine ⟨fun hshort next hnext => ?_, fun hlong hkeeps => ?_⟩
        · obtain rfl := Option.some.inj (hstep.symm.trans hnext)
          rw [if_pos hshort] at hlen
          exact ⟨.attached hlen hfresh husers', fun h => absurd husers h⟩
        · rw [if_neg hlong, List.length_eq_zero_iff] at hlen
          have hsome := ((hkeeps s' hstep).1.mpr husers').1
          simp [attachment_of_own_nil hlen] at hsome
      · obtain ⟨s', hstep, hsame, husers'⟩ := attach_none hattachment husers hcreates
        rw [EventsTell, forall_prop_of_false hcreates]
        refine ⟨fun _ next hnext => ?_, fun h => absurd trivial h⟩
        obtain rfl := Option.some.inj (hstep.symm.trans hnext)
        refine ⟨.gone ?_ husers', fun h => absurd husers h⟩
        rw [own, hsame]
        exact hown
    | detach eventThread id =>
      have hstep : s.step ifname (.detach eventThread id) = some s := by
        cases eventThread with
        | true => exact detach_refused s id
        | false => exact detach_none hattachment husers id
      refine ⟨fun _ next hnext => ?_, fun htell => absurd (fun _ hapAttch hfound => ?_) htell⟩
      · obtain rfl := Option.some.inj (hstep.symm.trans hnext)
        exact ⟨h, fun h => absurd husers h⟩
      · rw [hattachment] at hfound
        cases hfound
  | some hapAttch =>
    have hsome : (s.attachment ifname).isSome := by rw [hattachment]; rfl
    have husers := h.alive.mp hsome
    have hfresh := h.fresh hsome
    rw [hattachment] at hown
    cases a with
    | attach eventThread hostapEvents failOnIfaceDown state id =>
      refine ⟨fun _ s' hstep => ?_, fun htell => absurd (fun hcreates => ?_) htell⟩
      · obtain ⟨hlen, hsame, husers'⟩ := attach_own hown hstep
        exact ⟨.attached hlen (hsame.trans hfresh) (husers' husers),
          fun _ hnone => absurd hnone (husers' husers)⟩
      · have hnone := hcreates.1
        rw [hattachment] at hnone
        cases hnone
    | detach eventThread id =>
      cases eventThread with
      | true =>
        refine ⟨fun _ s' hstep => ?_, fun htell => absurd (fun hfalse => ?_) htell⟩
        · rw [detach_refused, Option.some.injEq] at hstep
          subst hstep
          exact ⟨h, fun h hnone => absurd hnone h⟩
        · cases hfalse
      | false =>
        obtain ⟨s', hstep, husers', hall, hsome'⟩ := detach_own hown id
        have hlast : s'.users = [] ↔ ∀ user ∈ s.users, user = id := by
          rw [husers', List.filter_eq_nil_iff]
          simp
        have htell : s.EventsTell ifname (.detach false id) ↔
            (AllOf id hapAttch ↔ s'.users = []) := by
          rw [EventsTell, forall_prop_of_true rfl, hattachment, hlast]
          simp
        rw [htell]
        by_cases hallOf : AllOf id hapAttch
        · obtain ⟨hown', hdetaches⟩ := hall hallOf
          have hnone := attachment_of_own_nil hown'
          refine ⟨fun htells next hnext => ?_, fun htells hkeeps => ?_⟩
          · obtain rfl := Option.some.inj (hstep.symm.trans hnext)
            exact ⟨.gone hown' (htells.mp hallOf), fun _ _ => ⟨hnone, by rw [hdetaches, hfresh]⟩⟩
          · have hleft : s'.users ≠ [] := fun hlast => htells (iff_of_true hallOf hlast)
            have hsome' := ((hkeeps s' hstep).1.mpr hleft).1
            simp [hnone] at hsome'
        · obtain ⟨hlen, hdetaches⟩ := hsome' hallOf
          refine ⟨fun htells next hnext => ?_, fun htells hkeeps => ?_⟩
          · obtain rfl := Option.some.inj (hstep.symm.trans hnext)
            have hleft : s'.users ≠ [] := fun hlast => hallOf (htells.mpr hlast)
            exact ⟨.attached hlen (hdetaches.trans hfresh) hleft, fun _ hlast => absurd hlast hleft⟩
          · have hlast : s'.users = [] := by
              by_contra hleft
              exact htells (iff_of_false hallOf hleft)
            exact (hkeeps s' hstep).1.mp ⟨isSome_of_length hlen, hdetaches.trans hfresh⟩ hlast

end AttachmentLife

open AttachmentLife in
/-- In every run of attaches and detaches from a state where nobody is attached, the attachment
lives as long as an id is attached, just when at each detach the events are all of the id if and
only if no other id is attached. -/
theorem attachmentLifetime (ifname : List UInt8) (attachments : List DwpaldHostapAttachment)
    (hnone : attachments.find? (·.named ifname) = none) (as : List LifeAction) :
    Along (step ifname) (KeepsLifetime ifname) (.start attachments) as ↔
      Along (step ifname) (EventsTell ifname) (.start attachments) as := by
  refine (along_iff (fun {s a} h => ⟨fun htell => ?_, fun hkeeps => ?_⟩)
    (fun h htell hstep => ?_) (LifeInv.start hnone)).symm
  · exact Kept.keeps ((h.step_spec a).1 htell)
  · by_contra htell
    exact (h.step_spec a).2 htell hkeeps
  · exact ((h.step_spec _).1 htell _ hstep).1

/-- Two ids attach to `wlan0`, with one event in common, and detach. -/
def twoUsers : List LifeAction :=
  [.attach false (some [apEnabledRequest.event]) false interfaceDwpalStateConnected 1,
    .attach false (some moreEvents) false interfaceDwpalStateConnected 2,
    .detach false 1, .detach false 2]

open AttachmentLife in
theorem attachmentLifetime_twoUsers :
    Along (step (ascii "wlan0")) (KeepsLifetime (ascii "wlan0")) (.start []) twoUsers :=
  (attachmentLifetime (ascii "wlan0") [] rfl twoUsers).mpr (by decide +kernel)

/-- An id attaches to `wlan0` without an event, and detaches. -/
def noEvents : List LifeAction :=
  [.attach false (some []) false interfaceDwpalStateConnected 1, .detach false 1]

open AttachmentLife in
/-- The attachment stays, and no detach is sent. -/
theorem noEvents_staysAttached :
    ¬ ∀ (ifname : List UInt8) (attachments : List DwpaldHostapAttachment),
      attachments.find? (·.named ifname) = none →
        ∀ as, Along (step ifname) (KeepsLifetime ifname) (.start attachments) as := by
  intro h
  have hkeeps := (h (ascii "wlan0") [] rfl noEvents).2.1
  have hgone := (hkeeps _ rfl).2 (by decide) rfl
  cases hgone.2

end Dwpal.Client
