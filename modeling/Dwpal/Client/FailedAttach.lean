import Dwpal.Client.Nl80211Id
import Dwpal.Daemon.Refusals

/-! Attaches that fail: when an attach that returns an error leaves the registrations of the client
as they were, and those of the station at the daemon if the daemon has refused the request. -/

namespace Dwpal.Client

open Ipc Daemon

/-! The lists of the client. -/

namespace EventKind

variable {ν κ : Type} (kind : EventKind ν κ)

/-- What a merge of events makes of the keys of the registered ones: `none` when a null pointer is
read through, else whether all events could be added, and the keys. -/
def mergeKeys : List κ → List ν → Option (Bool × List κ)
  | keys, [] => some (true, keys)
  | keys, event :: rest =>
    if kind.unreadable event && !keys.isEmpty then none
    else if keys.any fun key => kind.found key event then mergeKeys keys rest
    else
      match kind.copyKey event with
      | some key => mergeKeys (key :: keys) rest
      | none => some (false, keys)

variable {kind} {id : UInt32} {event : ν}

theorem freeEventsWithId_append (events events' : List (EventWithId κ)) (id : UInt32) :
    freeEventsWithId (events ++ events') id =
      freeEventsWithId events id ++ freeEventsWithId events' id := by
  simp [freeEventsWithId]

/-- An entry that has got a callback of the id is freed like the one without it. -/
theorem freeEventsWithId_push (known : EventWithId κ) (clb : Option Clb) (id : UInt32) :
    freeEventsWithId [{ known with clbIdList := kind.pushCallback known.clbIdList clb id }] id =
      freeEventsWithId [known] id := by
  simp only [freeEventsWithId, List.map_cons, List.map_nil, pushCallback]
  cases clb.isNone && !kind.pushesNull <;> simp

/-- A new entry is freed. -/
theorem freeEventsWithId_new (key : κ) (clb : Option Clb) (id : UInt32)
    (events : List (EventWithId κ)) :
    freeEventsWithId (⟨key, [⟨clb, id⟩]⟩ :: events) id = freeEventsWithId events id := by
  simp [freeEventsWithId]

theorem any_keys {found : κ → ν → Bool} {events : List (EventWithId κ)} :
    (events.map EventWithId.key).any (found · event) = (firstFound found events event).isSome := by
  rw [firstFound, List.isSome_find?, List.any_map]
  rfl

/-- A known event changes neither the keys nor what is left without the id. -/
theorem addToKnown_kept {clbFound flag : Bool} {events added : List (EventWithId κ)}
    (hadd : kind.addToKnown kind.found event id clbFound events = some (flag, added)) :
    added.map EventWithId.key = events.map EventWithId.key ∧
      freeEventsWithId added id = freeEventsWithId events id := by
  cases hfirst : firstFound kind.found events event with
  | none =>
    rw [addToKnown_none kind id clbFound hfirst] at hadd
    cases hadd
  | some known =>
    obtain ⟨pre, post, rfl, -, heq⟩ := addToKnown_some kind id clbFound hfirst
    rw [heq] at hadd
    cases hadd
    split
    · exact ⟨rfl, rfl⟩
    · refine ⟨by simp, ?_⟩
      rw [freeEventsWithId_append, freeEventsWithId_append, ← List.singleton_append,
        freeEventsWithId_append, freeEventsWithId_push, ← freeEventsWithId_append,
        List.singleton_append]

/-- A merge that fails takes all registrations of the id away. -/
theorem addEventsLoop_merge (id : UInt32) : ∀ {added : List ν} {clbFound : Bool}
    {events : List (EventWithId κ)},
    match kind.mergeKeys (events.map EventWithId.key) added with
    | none => kind.addEventsLoop id clbFound events added = none
    | some (false, _) =>
      kind.addEventsLoop id clbFound events added = some (-1, freeEventsWithId events id)
    | some (true, keys) => ∃ merged,
      kind.addEventsLoop id clbFound events added = some (0, merged) ∧
        merged.map EventWithId.key = keys := by
  intro added
  induction added with
  | nil => exact fun {_ events} => ⟨events, rfl, rfl⟩
  | cons event added ih =>
    intro clbFound events
    rw [mergeKeys, addEventsLoop, List.isEmpty_map, any_keys]
    by_cases hnull : (kind.unreadable event && !events.isEmpty) = true
    · simp [hnull]
    · simp only [hnull, Bool.false_eq_true, if_false]
      cases hfirst : firstFound kind.found events event with
      | some known =>
        obtain ⟨_, _, _, _, hadd⟩ := addToKnown_some kind id clbFound hfirst
        obtain ⟨hkeys, hfree⟩ := addToKnown_kept hadd
        rw [hadd, ← hkeys, ← hfree]
        exact ih
      | none =>
        rw [addToKnown_none kind id clbFound hfirst]
        cases hcopy : kind.copyKey event with
        | none => simp [copyEvents, hcopy]
        | some key =>
          have hrest := @ih clbFound (⟨key, [⟨kind.clb event, id⟩]⟩ :: events)
          rw [freeEventsWithId_new, List.map_cons] at hrest
          simpa [copyEvents, hcopy] using hrest

end EventKind

/-- Every event has callbacks, and none of them is registered with the id. -/
def NothingOf {κ : Type} (id : UInt32) (events : List (EventWithId κ)) : Prop :=
  ∀ event ∈ events, event.clbIdList ≠ [] ∧ ∀ clbId ∈ event.clbIdList, clbId.id ≠ id

theorem freeEventsWithId_eq_self {κ : Type} {id : UInt32} {events : List (EventWithId κ)} :
    freeEventsWithId events id = events ↔ NothingOf id events := by
  constructor
  · intro h event hevent
    rw [← h] at hevent
    obtain ⟨hmem, hempty⟩ := List.mem_filter.mp hevent
    obtain ⟨known, -, rfl⟩ := List.mem_map.mp hmem
    refine ⟨by simpa using hempty, fun clbId hclb => ?_⟩
    simpa using (List.mem_filter.mp hclb).2
  · intro h
    have hmap : events.map (fun event =>
        { event with clbIdList := event.clbIdList.filter fun clbId => clbId.id ≠ id }) =
          events := by
      refine (List.map_congr_left fun event hevent => ?_).trans (List.map_id events)
      rw [List.filter_eq_self.mpr fun clbId hclb => by simpa using (h event hevent).2 clbId hclb]
      rfl
    rw [freeEventsWithId, hmap]
    refine List.filter_eq_self.mpr fun event hevent => ?_
    simpa using (h event hevent).1

/-! The requests of an attach. -/

/-- The path when the link does not fail. -/
def Path.reliable (p : Path) : Path := { p with link := { p.link with failure := none } }

/-- What the request ends with, and the daemon after it. -/
def HostapRequest.send (p : Path) (d : Dwpald) : HostapRequest → DwpaldRet × Dwpald
  | .attach hapAttachment =>
    let sent := dwpaldSendHostapAttach p d hapAttachment
    (sent.1, sent.2.2)
  | .update ifname hapEvents => dwpaldSendHostapUpdateEvent p d ifname hapEvents
  | .detach ifname => dwpaldSendHostapDetach p d ifname

/-- The clients of the daemon's interfaces and the registrations of the station are the same. -/
def SameDaemon (ipsta : Station) (d d' : Dwpald) : Prop :=
  SameRegistry registeredOpCodes ipsta d.hapMan d'.hapMan ∧
    SameRegistry registeredNlIds ipsta d.nlMan d'.nlMan

/-! Attaches that leave no trace. -/

/-- If the attach fails, the attachments of the client are what they were; and the daemon is, if it
refuses the first request, which then fails even if the link does not. Only a detach comes after the
first request. -/
def HostapTraceless (p : Path) (d : Dwpald) (eventThread : Bool)
    (attachments : List DwpaldHostapAttachment) (ifname : Option (List UInt8))
    (hostapEvents : Option (List DwpaldHostapEvent)) (commonEvent : Option Clb)
    (failOnIfaceDown : Bool) (id : UInt32) : Prop :=
  ∀ attached, dwpaldHostapAttachExWithId (.over p d) eventThread attachments ifname hostapEvents
      commonEvent failOnIfaceDown id = some attached →
    (∀ name, ifname = some name →
      ¬ AttachSucceeded attachments name failOnIfaceDown attached.ret) →
    attached.attachments = attachments ∧
      ∀ request ∈ attached.sent.head?,
        (request.send p.reliable d).1 ≠ .success → SameDaemon p.ipsta d (request.send p d).2

def DriverTraceless (p : Path) (d : Dwpald) (nl80211Id : Int)
    (drvNlAttch : Option DwpaldDrvNlAttachment) (driverEvents : Option (List DwpaldDriverNlEvent))
    (nlEventCb : Option Clb) (id : UInt32) : Prop :=
  let attached := dwpaldNlDrvAttachWithId (sendsTo p d nl80211Id).requests drvNlAttch driverEvents
    nlEventCb id
  attached.1 ≠ .success →
    attached.2 = drvNlAttch ∧
      ∀ request, driverRequest drvNlAttch driverEvents id = some request →
        ((sendsTo p.reliable d nl80211Id).send request).1 ≠ .success →
          SameDaemon p.ipsta d ((sendsTo p d nl80211Id).send request).2.2

/-- Events with these keys. -/
def keyed {κ : Type} (keys : List κ) : List (EventWithId κ) := keys.map fun key => ⟨key, []⟩

/-- An update of the interface with these op_codes goes through. -/
def HostapUpdateServed (p : Path) (d : Dwpald) (ifname : List UInt8) (keys : List OpCode) : Prop :=
  p.link.failure = none ∧ reqLen (keyed keys) ≤ waveIpcBuffSize ∧
    d.hapMan.find (ifName ifname) ≠ none ∧ AllShort (reqEvents (keyed keys))

/-- The events of one list are merged into the others, and either every event is known, or the
update goes through; a merge that meets a bad event has nothing of the id to take away. -/
def MergesCleanly {ν κ : Type} (kind : EventKind ν κ) (served : List κ → Prop) (id : UInt32)
    (events : List (EventWithId κ)) (added : List ν) : Prop :=
  id = defaultAttachId ∨
    match kind.mergeKeys (events.map EventWithId.key) added with
    | none => True
    | some (false, _) => NothingOf id events
    | some (true, keys) => keys.length = events.length ∨ served keys

/-- The attach does not get an op_code that is too long as far as the daemon's registrations, unless
the station has been through that. -/
def AttachesCleanly (p : Path) (d : Dwpald) (ifname : List UInt8) (keys : List OpCode) : Prop :=
  reqLen (keyed keys) ≤ waveIpcBuffSize →
    p.world.hostapInterfaceAttach (ifName ifname).bytes ≠ .failure →
      AllShort (reqEvents (keyed keys)) ∨
        Rehearsed d.hapMan (ifName ifname) p.ipsta (reqEvents (keyed keys))

def HostapCleanly (p : Path) (d : Dwpald) (eventThread : Bool)
    (attachments : List DwpaldHostapAttachment) (ifname : Option (List UInt8))
    (hostapEvents : Option (List DwpaldHostapEvent)) (id : UInt32) : Prop :=
  match ifname, hostapEvents with
  | some ifname, some hostapEvents =>
    eventThread = true ∨
      match attachments.find? (·.named ifname) with
      | some hapAttch =>
        MergesCleanly hostapEventKind (HostapUpdateServed p d ifname) id hapAttch.hostapEvents
          hostapEvents
      | none =>
        (∀ event ∈ hostapEvents, hostapEventKind.copyKey event ≠ none) →
          AttachesCleanly p d ifname (hostapEvents.filterMap hostapEventKind.copyKey).reverse
  | _, _ => True

def DriverCleanly (p : Path) (d : Dwpald) (drvNlAttch : Option DwpaldDrvNlAttachment)
    (driverEvents : Option (List DwpaldDriverNlEvent)) (id : UInt32) : Prop :=
  match driverEvents, drvNlAttch with
  | some driverEvents, some attch =>
    MergesCleanly driverEventKind
      (fun keys => p.link.failure = none ∧ UpdateAccepted d (keyed keys)) id attch.drvEvents
      driverEvents
  | _, _ => True

/-! What becomes of the requests. -/

/-- How the daemon serves a request of hostapd events. -/
theorem sendRegCmd_hostap (p : Path) (d : Dwpald) (ifname : List UInt8)
    (hapEvents : List DwpaldHostapEventWithId) (reqType respType : UInt8) (work : CmdWork → Work)
    (hreq : reqType = dwpaldCmd ∨ reqType = dwpaldAttachReq ∨ reqType = dwpaldDetachReq ∨
      reqType = dwpaldUpdateEventReq)
    (hwork : ∀ cmd, makeWork ⟨reqType, dwpaldIfTypeHostap, 0, 0, 0, 0⟩ p.ipsta p.link.seqNum cmd =
      some (work ⟨cmd, p.link.seqNum, p.ipsta⟩)) :
    ∃ cmd, (reqLen hapEvents ≤ waveIpcBuffSize →
        RequestFor p.world cmd (ifName ifname) (reqEvents hapEvents)) ∧
      (waveIpcBuffSize < reqLen hapEvents → waveIpcMsgGetData cmd = none) ∧
      ∀ r, workFunc p.world hapInit d.hapMan (work ⟨cmd, p.link.seqNum, p.ipsta⟩) = r →
        sendRegCmd reqType respType p d (regRequest ifname hapEvents).bytes dwpaldIfTypeHostap =
          regCmdResult respType dwpaldIfTypeHostap (p.link.finish p.ipsta
            ({ d with hapMan := r.2.1 }, r.2.2)) := by
  obtain ⟨cmd, hdata, hlen, hsend⟩ := sendRegCmd_eq p d (regRequest ifname hapEvents).bytes respType
    hreq (show dwpaldIfTypeHostap = IfType.hostap.byte from rfl)
  refine ⟨cmd, fun hfit => requestFor hfit hdata hlen, fun hlong => getData_tooLong hlong hlen,
    fun r hr => ?_⟩
  rw [hsend _ (hwork cmd), Dwpald.execWork, hr]

/-- An update of hostapd events succeeds if the daemon grants it and the link does not fail. -/
theorem sendHostapUpdateEvent_success (p : Path) (d : Dwpald) (ifname : List UInt8)
    (hapEvents : List DwpaldHostapEventWithId) :
    (dwpaldSendHostapUpdateEvent p d ifname hapEvents).1 = .success ↔
      p.link.failure = none ∧ reqLen hapEvents ≤ waveIpcBuffSize ∧
        d.hapMan.find (ifName ifname) ≠ none ∧ AllShort (reqEvents hapEvents) := by
  obtain ⟨cmd, hfits, hlong, hsend⟩ := sendRegCmd_hostap p d ifname hapEvents dwpaldUpdateEventReq
    dwpaldUpdateEventResp .updateEvent (by simp) (fun _ => rfl)
  rw [dwpaldSendHostapUpdateEvent_eq, hsend _ rfl]
  by_cases hfit : reqLen hapEvents ≤ waveIpcBuffSize
  · obtain ⟨hrefused, hregisters⟩ := ifaceUpdateEventWork_hap (hfits hfit) p.link.seqNum p.ipsta
      d.hapMan
    by_cases hok : d.hapMan.find (ifName ifname) ≠ none ∧ AllShort (reqEvents hapEvents)
    · obtain ⟨_, _, hsent, -⟩ := hregisters hok.1 hok.2
      refine (result_registers hsent _).trans ?_
      simp [hfit, hok]
    · have hno := hrefused (by tauto)
      exact iff_of_false (result_refused _ hno _) fun h => hok h.2.2
  · have hno := withIfname_noData p d.hapMan (hlong (Nat.not_le.mp hfit))
      (updateEventsOf p.world hapInit d.hapMan)
    exact iff_of_false (result_refused _ hno _) fun h => hfit h.2.1

/-- So does an attach of hostapd events. One that the daemon refuses leaves no trace there if it is
clean. -/
theorem sendHostapAttach_success (p : Path) (d : Dwpald) (ifname : List UInt8)
    (commonEvent : Option Clb) (hapEvents : List DwpaldHostapEventWithId) :
    (dwpaldSendHostapAttach p d (newAttachment ifname commonEvent hapEvents)).1 = .success ↔
      p.link.failure = none ∧ reqLen hapEvents ≤ waveIpcBuffSize ∧
        p.world.hostapInterfaceAttach (ifName ifname).bytes ≠ .failure ∧
        AllShort (reqEvents hapEvents) := by
  obtain ⟨cmd, hfits, hlong, hsend⟩ := sendRegCmd_hostap p d (ifName ifname).bytes hapEvents
    dwpaldAttachReq dwpaldAttachResp .attach (by simp) (fun _ => rfl)
  rw [(dwpaldSendHostapAttach_eq _ _ _).1, newAttachment, hsend _ rfl]
  rw [ifName_bytes] at hfits
  by_cases hfit : reqLen hapEvents ≤ waveIpcBuffSize
  · obtain ⟨hrefused, hregisters⟩ := ifaceAttachWork_hap (hfits hfit) p.link.seqNum p.ipsta d.hapMan
    by_cases hok : p.world.hostapInterfaceAttach (ifName ifname).bytes ≠ .failure ∧
        AllShort (reqEvents hapEvents)
    · obtain ⟨_, _, hsent, -⟩ := hregisters hok.1 hok.2
      refine (result_registers hsent _).trans ?_
      simp [hfit, hok]
    · have hno := hrefused (by tauto)
      exact iff_of_false (result_refused _ hno _) fun h => hok h.2.2
  · have hno := withIfname_noData p d.hapMan (hlong (Nat.not_le.mp hfit))
      (attachTo p.world hapInit d.hapMan)
    exact iff_of_false (result_refused _ hno _) fun h => hfit h.2.1

theorem reqLen_keyed (hapEvents : List DwpaldHostapEventWithId) :
    reqLen (keyed (hapEvents.map EventWithId.key)) = reqLen hapEvents := by
  simp [reqLen, keyed, Function.comp_def, DwpaldHostapEventWithId.opCodeLen]

theorem reqEvents_keyed (hapEvents : List DwpaldHostapEventWithId) :
    reqEvents (keyed (hapEvents.map EventWithId.key)) = reqEvents hapEvents := by
  have hframes : eventFrames (keyed (hapEvents.map EventWithId.key)) = eventFrames hapEvents := by
    simp [eventFrames, keyed, List.flatMap_map, DwpaldHostapEventWithId.opCodeLen,
      DwpaldHostapEventWithId.opCode]
  rw [reqEvents, reqEvents, hframes, reqLen_keyed]

/-- An attach that the daemon refuses leaves no trace there if it is clean. -/
theorem sendHostapAttach_sameDaemon (p : Path) (d : Dwpald) (ifname : List UInt8)
    (commonEvent : Option Clb) (hapEvents : List DwpaldHostapEventWithId)
    (hrefused : ¬ (reqLen hapEvents ≤ waveIpcBuffSize ∧
      p.world.hostapInterfaceAttach (ifName ifname).bytes ≠ .failure ∧
      AllShort (reqEvents hapEvents))) :
    SameDaemon p.ipsta d
        (dwpaldSendHostapAttach p d (newAttachment ifname commonEvent hapEvents)).2.2 ↔
      AttachesCleanly p d ifname (hapEvents.map EventWithId.key) := by
  obtain ⟨cmd, hfits, hlong, hsend⟩ := sendRegCmd_hostap p d (ifName ifname).bytes hapEvents
    dwpaldAttachReq dwpaldAttachResp .attach (by simp) (fun _ => rfl)
  have hkernel : SameRegistry registeredNlIds p.ipsta d.nlMan d.nlMan := ⟨rfl, fun _ => rfl⟩
  rw [(dwpaldSendHostapAttach_eq _ _ _).2, newAttachment, hsend _ rfl, regCmdResult_daemon,
    AttachesCleanly, reqLen_keyed, reqEvents_keyed, SameDaemon]
  simp only [hkernel, and_true, workFunc]
  rw [ifName_bytes] at hfits
  by_cases hfit : reqLen hapEvents ≤ waveIpcBuffSize
  · rw [forall_prop_of_true hfit]
    have hno : p.world.hostapInterfaceAttach (ifName ifname).bytes = .failure ∨
        ¬ AllShort (reqEvents hapEvents) := by tauto
    rw [ifaceAttachWork_refused (hfits hfit) p.link.seqNum p.ipsta d.hapMan hno]
    tauto
  · have hnone := hlong (Nat.not_le.mp hfit)
    refine iff_of_true ?_ fun h => absurd h hfit
    simp only [ifaceAttachWork, withIfname, hnone]
    exact ⟨rfl, fun _ => rfl⟩

namespace EventKind

variable {ν κ : Type} {kind : EventKind ν κ} {id : UInt32}

/-- A copy takes the keys of the events, unless one of the events is bad. -/
theorem copyEvents_keys : ∀ {events : List ν} {dst : List (EventWithId κ)},
    ((∀ event ∈ events, kind.copyKey event ≠ none) → ∃ copied,
      kind.copyEvents dst id events = (0, copied) ∧
      copied.map EventWithId.key =
        (events.filterMap kind.copyKey).reverse ++ dst.map EventWithId.key) ∧
    (¬ (∀ event ∈ events, kind.copyKey event ≠ none) →
      ∃ copied, kind.copyEvents dst id events = (1, copied)) := by
  intro events
  induction events with
  | nil => exact fun {dst} => ⟨fun _ => ⟨dst, rfl, rfl⟩, fun h => absurd (by simp) h⟩
  | cons event events ih =>
    intro dst
    rw [copyEvents, List.forall_mem_cons]
    cases hcopy : kind.copyKey event with
    | none => simp
    | some key =>
      obtain ⟨hall, hbad⟩ := @ih (⟨key, [⟨kind.clb event, id⟩]⟩ :: dst)
      simp only [ne_eq, reduceCtorEq, not_false_eq_true, true_and, List.filterMap_cons_some hcopy]
      refine ⟨fun h => ?_, hbad⟩
      obtain ⟨copied, heq, hkeys⟩ := hall h
      exact ⟨copied, heq, by simpa using hkeys⟩

end EventKind

theorem setHostapEvents_eq_self {attachments : List DwpaldHostapAttachment}
    {hapAttch : DwpaldHostapAttachment} {ifname : List UInt8}
    {events : List DwpaldHostapEventWithId}
    (hfind : attachments.find? (·.named ifname) = some hapAttch) :
    setHostapEvents attachments ifname events = attachments ↔ events = hapAttch.hostapEvents := by
  obtain ⟨pre, post, rfl, -, hchange⟩ := changeAttachment_eq
    (fun hapAttch => some { hapAttch with hostapEvents := events }) hfind
  rw [setHostapEvents, hchange]
  obtain ⟨name, commonEvent, hostapEvents, state⟩ := hapAttch
  simp

section Hostap

variable {p : Path} {d : Dwpald} {attachments : List DwpaldHostapAttachment} {ifname : List UInt8}
  {hostapEvents : List DwpaldHostapEvent} {commonEvent : Option Clb} {failOnIfaceDown : Bool}
  {id : UInt32}

/-- A call that changes nothing and sends nothing is traceless. -/
theorem hostapTraceless_idle {eventThread : Bool} {ifname : Option (List UInt8)}
    {hostapEvents : Option (List DwpaldHostapEvent)} {ret : DwpaldRet} {emulated : Bool}
    (hcall : dwpaldHostapAttachExWithId (.over p d) eventThread attachments ifname hostapEvents
      commonEvent failOnIfaceDown id = some ⟨ret, attachments, emulated, []⟩) :
    HostapTraceless p d eventThread attachments ifname hostapEvents commonEvent failOnIfaceDown
      id := by
  intro attached hattached _
  rw [hcall] at hattached
  obtain rfl := Option.some.inj hattached
  exact ⟨rfl, fun request h => by cases h⟩

/-- So is one that succeeds. -/
theorem hostapTraceless_succeeded {attached : Attached}
    (hcall : dwpaldHostapAttachExWithId (.over p d) false attachments (some ifname)
      (some hostapEvents) commonEvent failOnIfaceDown id = some attached)
    (hret : AttachSucceeded attachments ifname failOnIfaceDown attached.ret) :
    HostapTraceless p d false attachments (some ifname) (some hostapEvents) commonEvent
      failOnIfaceDown id := by
  intro attached' hattached hfailed
  rw [hcall] at hattached
  obtain rfl := Option.some.inj hattached
  exact absurd hret (hfailed ifname rfl)

/-- One that fails and sends nothing is traceless if it keeps the attachments. -/
theorem hostapTraceless_failed {attached : Attached}
    (hcall : dwpaldHostapAttachExWithId (.over p d) false attachments (some ifname)
      (some hostapEvents) commonEvent failOnIfaceDown id = some attached)
    (hret : attached.ret = .error)
    (hrequest : ∀ request ∈ attached.sent.head?, attached.attachments ≠ attachments) :
    HostapTraceless p d false attachments (some ifname) (some hostapEvents) commonEvent
        failOnIfaceDown id ↔ attached.attachments = attachments := by
  have hfailed : ∀ name, some ifname = some name →
      ¬ AttachSucceeded attachments name failOnIfaceDown attached.ret := by
    rintro name - (h | h)
    · rw [hret] at h
      cases h
    · rw [hret] at h
      cases h.1
  constructor
  · exact fun h => (h attached hcall hfailed).1
  · intro hkept attached' hattached _
    rw [hcall] at hattached
    obtain rfl := Option.some.inj hattached
    exact ⟨hkept, fun request h => absurd hkept (hrequest request h)⟩

theorem hostapTraceless_again {hapAttch : DwpaldHostapAttachment}
    (hfind : attachments.find? (·.named ifname) = some hapAttch) :
    HostapTraceless p d false attachments (some ifname) (some hostapEvents) commonEvent
        failOnIfaceDown id ↔
      MergesCleanly hostapEventKind (HostapUpdateServed p d ifname) id hapAttch.hostapEvents
        hostapEvents := by
  have hcall : dwpaldHostapAttachExWithId (.over p d) false attachments (some ifname)
      (some hostapEvents) commonEvent failOnIfaceDown id =
        attachAgain (.over p d) attachments hapAttch ifname hostapEvents id := by
    simp only [dwpaldHostapAttachExWithId, Bool.false_eq_true, if_false, hfind]
  generalize hret : (if hapAttch.state = interfaceDwpalStateConnected then DwpaldRet.success
    else DwpaldRet.dwpalIfaceIsDown) = ret
  have hsucceeds : AttachSucceeded attachments ifname failOnIfaceDown ret := by
    rw [← hret, AttachSucceeded, hfind]
    split_ifs
    · exact .inl rfl
    · exact .inr ⟨rfl, .inr rfl⟩
  simp only [attachAgain, hret] at hcall
  rw [MergesCleanly]
  by_cases hid : id = defaultAttachId
  · rw [if_pos hid] at hcall
    exact iff_of_true (hostapTraceless_succeeded hcall hsucceeds) (.inl hid)
  · rw [if_neg hid] at hcall
    rw [or_iff_right hid]
    have hmerge := @EventKind.addEventsLoop_merge _ _ hostapEventKind id hostapEvents false
      hapAttch.hostapEvents
    rw [dwpaldAddHostapEvents, EventKind.addEvents] at hcall
    revert hmerge
    cases hkeys : hostapEventKind.mergeKeys
      (hapAttch.hostapEvents.map EventWithId.key) hostapEvents with
    | none =>
      intro hmerge
      rw [hmerge] at hcall
      refine iff_of_true (fun attached hattached => ?_) trivial
      rw [hcall] at hattached
      cases hattached
    | some r =>
      obtain ⟨ok, keys⟩ := r
      cases ok with
      | false =>
        intro hmerge
        simp only [hmerge, Option.map_some] at hcall
        rw [hostapTraceless_failed hcall rfl fun request h => by cases h]
        exact (setHostapEvents_eq_self hfind).trans freeEventsWithId_eq_self
      | true =>
        rintro ⟨merged, hmerged, rfl⟩
        simp only [hmerged, Option.map_some, ne_eq, not_true_eq_false, if_false] at hcall
        by_cases hlen : hapAttch.hostapEvents.length = merged.length
        · rw [if_neg (not_not_intro hlen)] at hcall
          refine iff_of_true (hostapTraceless_succeeded hcall hsucceeds) (.inl ?_)
          rw [List.length_map, hlen]
        · have hserved : HostapUpdateServed p d ifname (merged.map EventWithId.key) ↔
              (Requests.over p d).sendHostapUpdateEvent ifname merged = .success := by
            simp only [Requests.over, sendHostapUpdateEvent_success, HostapUpdateServed,
              reqLen_keyed, reqEvents_keyed]
          rw [if_pos hlen] at hcall
          simp only [List.length_map, hserved, Ne.symm hlen, false_or]
          by_cases hsent : (Requests.over p d).sendHostapUpdateEvent ifname merged = .success
          · rw [if_neg (not_not_intro hsent)] at hcall
            exact iff_of_true (hostapTraceless_succeeded hcall hsucceeds) hsent
          · -- the merged list stays although the daemon does not have it
            have hchanged : setHostapEvents attachments ifname merged ≠ attachments := by
              rw [Ne, setHostapEvents_eq_self hfind]
              exact fun heq => hlen (congrArg List.length heq.symm)
            rw [if_pos hsent] at hcall
            rw [hostapTraceless_failed hcall rfl fun _ _ => hchanged]
            exact iff_of_false hchanged hsent

theorem over_sendHostapAttach (p : Path) (d : Dwpald) (hapAttachment : DwpaldHostapAttachment) :
    ((Requests.over p d).sendHostapAttach hapAttachment).1 =
      (dwpaldSendHostapAttach p d hapAttachment).1 := by
  simp only [Requests.over]

section First

variable {requests : Requests} {copied : List DwpaldHostapEventWithId}

/-- A first attach that fails keeps the attachments. -/
theorem attachFirst_kept (hcopied : dwpaldCopyHostapEvents [] id hostapEvents = (0, copied))
    (hfailed : ¬ AttachSucceeded attachments ifname failOnIfaceDown
      (attachFirst requests attachments ifname hostapEvents commonEvent failOnIfaceDown id).ret) :
    (attachFirst requests attachments ifname hostapEvents commonEvent failOnIfaceDown
      id).attachments = attachments := by
  rw [attachFirst, hcopied] at hfailed ⊢
  simp only at hfailed ⊢
  generalize requests.sendHostapAttach (newAttachment ifname commonEvent copied) = sent at hfailed ⊢
  obtain ⟨ret, state⟩ := sent
  cases ret with
  | success =>
    simp only at hfailed ⊢
    split_ifs at hfailed ⊢ with hdown hfail
    · rfl
    · exact absurd (.inr ⟨rfl, .inl (by simpa using hfail)⟩) hfailed
    · exact absurd (.inl rfl) hfailed
  | _ => rfl

/-- One whose request is not granted has failed. -/
theorem attachFirst_failed (hcopied : dwpaldCopyHostapEvents [] id hostapEvents = (0, copied))
    (hsent : (requests.sendHostapAttach (newAttachment ifname commonEvent copied)).1 ≠ .success) :
    ¬ AttachSucceeded attachments ifname failOnIfaceDown
      (attachFirst requests attachments ifname hostapEvents commonEvent failOnIfaceDown
        id).ret := by
  have heq : attachFirst requests attachments ifname hostapEvents commonEvent failOnIfaceDown id =
      ⟨(requests.sendHostapAttach (newAttachment ifname commonEvent copied)).1, attachments,
        false, [.attach (newAttachment ifname commonEvent copied)]⟩ := by
    cases hr : requests.sendHostapAttach (newAttachment ifname commonEvent copied) with
    | mk ret state =>
      rw [hr] at hsent
      cases ret with
      | success => exact absurd rfl hsent
      | _ => simp only [attachFirst, hcopied, hr]
  rw [heq]
  rintro (h | h)
  · exact hsent h
  · exact requests.attach_ne _ h.1

/-- Its first request is the attach. -/
theorem attachFirst_sent (hcopied : dwpaldCopyHostapEvents [] id hostapEvents = (0, copied)) :
    (attachFirst requests attachments ifname hostapEvents commonEvent failOnIfaceDown
      id).sent.head? = some (.attach (newAttachment ifname commonEvent copied)) := by
  rw [attachFirst, hcopied]
  simp only
  generalize requests.sendHostapAttach (newAttachment ifname commonEvent copied) = reply
  obtain ⟨ret, state⟩ := reply
  cases ret with
  | success =>
    simp only
    split_ifs <;> rfl
  | _ => rfl

end First

theorem hostapTraceless_first (hfind : attachments.find? (·.named ifname) = none) :
    HostapTraceless p d false attachments (some ifname) (some hostapEvents) commonEvent
        failOnIfaceDown id ↔
      ((∀ event ∈ hostapEvents, hostapEventKind.copyKey event ≠ none) →
        AttachesCleanly p d ifname (hostapEvents.filterMap hostapEventKind.copyKey).reverse) := by
  have hcall : dwpaldHostapAttachExWithId (.over p d) false attachments (some ifname)
      (some hostapEvents) commonEvent failOnIfaceDown id =
        some (attachFirst (.over p d) attachments ifname hostapEvents commonEvent failOnIfaceDown
          id) := by
    simp only [dwpaldHostapAttachExWithId, Bool.false_eq_true, if_false, hfind]
  obtain ⟨hall, hbad⟩ := @EventKind.copyEvents_keys _ _ hostapEventKind id hostapEvents []
  by_cases hcopies : ∀ event ∈ hostapEvents, hostapEventKind.copyKey event ≠ none
  · rw [forall_prop_of_true hcopies]
    obtain ⟨copied, hcopied, hkeys⟩ := hall hcopies
    rw [← dwpaldCopyHostapEvents] at hcopied
    rw [List.map_nil, List.append_nil] at hkeys
    have hrequest :=
      @attachFirst_sent attachments ifname hostapEvents commonEvent failOnIfaceDown id
      (.over p d) copied hcopied
    have hreliable : ((HostapRequest.attach (newAttachment ifname commonEvent copied)).send
        p.reliable d).1 = .success ↔ reqLen copied ≤ waveIpcBuffSize ∧
        p.world.hostapInterfaceAttach (ifName ifname).bytes ≠ .failure ∧
        AllShort (reqEvents copied) := by
      rw [HostapRequest.send, sendHostapAttach_success]
      exact and_iff_right rfl
    rw [← hkeys]
    by_cases hgranted : reqLen copied ≤ waveIpcBuffSize ∧
        p.world.hostapInterfaceAttach (ifName ifname).bytes ≠ .failure ∧
        AllShort (reqEvents copied)
    · refine iff_of_true (fun attached hattached hfailed => ?_) fun _ _ => .inl ?_
      · rw [hcall] at hattached
        obtain rfl := Option.some.inj hattached
        refine ⟨attachFirst_kept hcopied (hfailed ifname rfl), fun request h hrefused => ?_⟩
        rw [hrequest] at h
        obtain rfl := Option.some.inj h
        exact absurd (hreliable.mpr hgranted) hrefused
      · rw [reqEvents_keyed]
        exact hgranted.2.2
    · rw [← sendHostapAttach_sameDaemon p d ifname commonEvent copied hgranted]
      have hsent : ((Requests.over p d).sendHostapAttach
          (newAttachment ifname commonEvent copied)).1 ≠ .success := by
        rw [over_sendHostapAttach, Ne, sendHostapAttach_success]
        exact fun h => hgranted h.2
      constructor
      · intro h
        have hfailed : ∀ name, some ifname = some name → ¬ AttachSucceeded attachments name
            failOnIfaceDown (attachFirst (.over p d) attachments ifname hostapEvents commonEvent
              failOnIfaceDown id).ret := fun name hname =>
          Option.some.inj hname ▸ attachFirst_failed hcopied hsent
        have hsame := (h _ hcall hfailed).2 _ hrequest fun hsent => hgranted (hreliable.mp hsent)
        simp only [HostapRequest.send] at hsame
        exact hsame
      · intro hsame attached hattached hfailed
        rw [hcall] at hattached
        obtain rfl := Option.some.inj hattached
        refine ⟨attachFirst_kept hcopied (hfailed ifname rfl), fun request h _ => ?_⟩
        rw [hrequest] at h
        obtain rfl := Option.some.inj h
        simp only [HostapRequest.send]
        exact hsame
  · rw [forall_prop_of_false hcopies]
    obtain ⟨copied, hcopied⟩ := hbad hcopies
    rw [← dwpaldCopyHostapEvents] at hcopied
    rw [attachFirst, hcopied] at hcall
    exact iff_of_true (hostapTraceless_idle hcall) trivial

theorem hostapTraceless_iff (p : Path) (d : Dwpald) (eventThread : Bool)
    (attachments : List DwpaldHostapAttachment) (ifname : Option (List UInt8))
    (hostapEvents : Option (List DwpaldHostapEvent)) (commonEvent : Option Clb)
    (failOnIfaceDown : Bool) (id : UInt32) :
    HostapTraceless p d eventThread attachments ifname hostapEvents commonEvent failOnIfaceDown id ↔
      HostapCleanly p d eventThread attachments ifname hostapEvents id := by
  cases ifname with
  | none => exact iff_of_true (hostapTraceless_idle rfl) trivial
  | some ifname =>
    cases hostapEvents with
    | none => exact iff_of_true (hostapTraceless_idle rfl) trivial
    | some hostapEvents =>
      cases eventThread with
      | true => exact iff_of_true (hostapTraceless_idle rfl) (.inl rfl)
      | false =>
        rw [HostapCleanly, or_iff_right Bool.false_ne_true]
        cases hfind : attachments.find? (·.named ifname) with
        | some hapAttch => exact hostapTraceless_again hfind
        | none => exact hostapTraceless_first hfind

end Hostap

section Driver

variable {p : Path} {d : Dwpald} {nl80211Id : Int} {attch : DwpaldDrvNlAttachment}
  {driverEvents : List DwpaldDriverNlEvent} {nlEventCb : Option Clb} {id : UInt32}

theorem updateAccepted_keyed (d : Dwpald) (drvEvents : List DwpaldDriverNlEventWithId) :
    UpdateAccepted d (keyed (drvEvents.map EventWithId.key)) ↔ UpdateAccepted d drvEvents := by
  simp only [UpdateAccepted, DrvFits, drvReqLen, keyed, List.length_map]

theorem sendDrvNlUpdateEvent_success (p : Path) (d : Dwpald) (nl80211Id : Int)
    (drvEvents : List DwpaldDriverNlEventWithId) :
    (sendsTo p d nl80211Id).requests.sendDrvNlUpdateEvent drvEvents = .success ↔
      p.link.failure = none ∧ UpdateAccepted d drvEvents := by
  obtain ⟨ret, nlMan, hret, hsend⟩ := sendDrvNlUpdateEvent_spec p d nl80211Id drvEvents
  simp only [DrvSends.requests, sendsTo, hsend]
  rw [hret, and_comm]

/-- An attach of the driver that the daemon refuses leaves no trace there. -/
theorem sendDrvNlAttach_sameDaemon (p : Path) (d : Dwpald) (nl80211Id : Int)
    (drvEvents : List DwpaldDriverNlEventWithId)
    (hrefused : ((sendsTo p.reliable d nl80211Id).send (.attach drvEvents)).1 ≠ .success) :
    SameDaemon p.ipsta d ((sendsTo p d nl80211Id).send (.attach drvEvents)).2.2 := by
  obtain ⟨ret, _, hret, hsend, -, -⟩ := sendDrvNlAttach_spec p.reliable d nl80211Id drvEvents
  simp only [DrvSends.send, sendsTo, hsend] at hrefused
  have hno : ¬ DrvAccepted p d drvEvents := fun h => hrefused (hret.mpr ⟨h, rfl⟩)
  obtain ⟨_, nlMan, -, hsend, hsame, -⟩ := sendDrvNlAttach_spec p d nl80211Id drvEvents
  simp only [DrvSends.send, sendsTo, hsend]
  have hifaces := hsame hno
  refine ⟨⟨rfl, fun _ => rfl⟩, ?_, fun ifname => ?_⟩
  · rw [clientsOf, hifaces, clientsOf]
  · ext nlId
    rw [registeredNlIds, registeredNlIds, IfaceManager.find, hifaces, IfaceManager.find]

theorem driverTraceless_first :
    DriverTraceless p d nl80211Id none (some driverEvents) nlEventCb id := by
  rcases hcopied : dwpaldCopyDriverEvents [] id driverEvents with ⟨err, copied⟩
  cases err with
  | succ err =>
    simp only [DriverTraceless, dwpaldNlDrvAttachWithId, driverRequest, hcopied]
    exact fun _ => ⟨trivial, fun _ h => by cases h⟩
  | zero =>
    simp only [DriverTraceless, dwpaldNlDrvAttachWithId, driverRequest, hcopied]
    generalize (sendsTo p d nl80211Id).requests.sendDrvNlAttach copied = ret
    intro hfailed
    refine ⟨?_, fun request h hrefused => ?_⟩
    · cases ret with
      | success => exact absurd rfl hfailed
      | _ => rfl
    · obtain rfl := Option.some.inj h
      exact sendDrvNlAttach_sameDaemon p d nl80211Id copied hrefused

theorem driverTraceless_again :
    DriverTraceless p d nl80211Id (some attch) (some driverEvents) nlEventCb id ↔
      MergesCleanly driverEventKind
        (fun keys => p.link.failure = none ∧ UpdateAccepted d (keyed keys)) id attch.drvEvents
        driverEvents := by
  have hsame : ∀ drvEvents, some { attch with drvEvents := drvEvents } = some attch ↔
      drvEvents = attch.drvEvents := fun drvEvents => by
    obtain ⟨known, nlEventCb⟩ := attch
    simp
  rw [MergesCleanly]
  simp only [DriverTraceless, dwpaldNlDrvAttachWithId, driverRequest]
  by_cases hid : id = defaultAttachId
  · rw [if_pos hid]
    exact iff_of_true (fun h => absurd rfl h) (.inl hid)
  · rw [if_neg hid, if_neg hid, or_iff_right hid]
    have hmerge := @EventKind.addEventsLoop_merge _ _ driverEventKind id driverEvents false
      attch.drvEvents
    rw [dwpaldAddDriverEvents, EventKind.addEvents]
    revert hmerge
    cases driverEventKind.mergeKeys (attch.drvEvents.map EventWithId.key) driverEvents with
    | none =>
      intro hmerge
      rw [hmerge]
      exact iff_of_true (fun _ => ⟨rfl, fun _ h => by cases h⟩) trivial
    | some r =>
      obtain ⟨ok, keys⟩ := r
      cases ok with
      | false =>
        intro hmerge
        rw [hmerge]
        refine Iff.trans ⟨fun h => (h DwpaldRet.noConfusion).1, fun h _ => ⟨h, fun _ hr => ?_⟩⟩
          ((hsame _).trans freeEventsWithId_eq_self)
        cases hr
      | true =>
        rintro ⟨merged, hmerged, rfl⟩
        have hserved : p.link.failure = none ∧
            UpdateAccepted d (keyed (merged.map EventWithId.key)) ↔
            (sendsTo p d nl80211Id).requests.sendDrvNlUpdateEvent merged = .success := by
          rw [updateAccepted_keyed, sendDrvNlUpdateEvent_success]
        simp only [hmerged, hserved, List.length_map]
        by_cases hlen : attch.drvEvents.length = merged.length
        · rw [if_neg (not_not_intro hlen), if_neg (not_not_intro hlen)]
          refine iff_of_true (fun h => ?_) (.inl hlen.symm)
          exact absurd (by split_ifs <;> rfl) h
        · rw [if_pos hlen, if_pos hlen, or_iff_right (Ne.symm hlen)]
          by_cases hsent : (sendsTo p d nl80211Id).requests.sendDrvNlUpdateEvent merged = .success
          · refine iff_of_true (fun h => ?_) hsent
            rw [if_neg (not_not_intro hsent)] at h
            exact absurd (by split_ifs <;> rfl) h
          · rw [if_pos hsent]
            refine iff_of_false (fun h => ?_) hsent
            dsimp only at h
            have hkept := (hsame merged).mp (h hsent).1
            exact hlen (congrArg List.length hkept.symm)

theorem driverTraceless_iff (p : Path) (d : Dwpald) (nl80211Id : Int)
    (drvNlAttch : Option DwpaldDrvNlAttachment) (driverEvents : Option (List DwpaldDriverNlEvent))
    (nlEventCb : Option Clb) (id : UInt32) :
    DriverTraceless p d nl80211Id drvNlAttch driverEvents nlEventCb id ↔
      DriverCleanly p d drvNlAttch driverEvents id := by
  cases driverEvents with
  | none => exact iff_of_true (fun _ => ⟨rfl, fun _ h => by cases h⟩) trivial
  | some driverEvents =>
    cases drvNlAttch with
    | none => exact iff_of_true driverTraceless_first trivial
    | some attch => exact driverTraceless_again

end Driver

/-- An attach that returns an error leaves no trace, at the client and at a daemon that refuses it,
exactly when it is clean: a merge into a list that is there meets no bad event unless the id has
nothing registered, and its update goes through; and no op_code of a first attach is too long for
the daemon, unless the station has been through that. -/
theorem failedAttachTraceless (p : Path) (d : Dwpald) :
    (∀ eventThread attachments ifname hostapEvents commonEvent failOnIfaceDown id,
      HostapTraceless p d eventThread attachments ifname hostapEvents commonEvent
        failOnIfaceDown id ↔ HostapCleanly p d eventThread attachments ifname hostapEvents id) ∧
    ∀ nl80211Id drvNlAttch driverEvents nlEventCb id,
      DriverTraceless p d nl80211Id drvNlAttch driverEvents nlEventCb id ↔
        DriverCleanly p d drvNlAttch driverEvents id :=
  ⟨hostapTraceless_iff p d, driverTraceless_iff p d⟩

/-- The interface is attached, and id 1 is registered to one event. -/
def apEnabledAttachment : DwpaldHostapAttachment :=
  ⟨ifName (ascii "wlan0"), none, [apEnabledRequest.entry 1], interfaceDwpalStateConnected⟩

/-- An event without a callback. -/
def silentEvent : DwpaldHostapEvent where
  opCode := some (ascii "WPS")
  opCodeLen := 3
  hapdClb := none
  length_eq bytes h := by
    cases h
    rfl

/-- Id 1 attaches once more, with a bad event: the registration that it had is gone. -/
theorem silentEvent_leaves_trace :
    ¬ HostapTraceless quietPath startedDwpald false [apEnabledAttachment] (some (ascii "wlan0"))
      (some [silentEvent]) none false 1 := by
  intro h
  have hcall : dwpaldHostapAttachExWithId (.over quietPath startedDwpald) false
      [apEnabledAttachment] (some (ascii "wlan0")) (some [silentEvent]) none false 1 =
        some ⟨.error, [{ apEnabledAttachment with hostapEvents := [] }], false, []⟩ := rfl
  have hfailed : ∀ name, some (ascii "wlan0") = some name →
      ¬ AttachSucceeded [apEnabledAttachment] name false DwpaldRet.error := by
    rintro name - (hret | hret)
    · cases hret
    · cases hret.1
  have hkept := congrArg (List.map DwpaldHostapAttachment.hostapEvents) (h _ hcall hfailed).1
  cases hkept

end Dwpal.Client
