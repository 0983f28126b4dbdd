import Dwpal.Client.DriverEvents
import Dwpal.Client.EventService

/-! Attaches are complete: when every event that an attach asks for is dispatched to the callback it
was asked for with. -/

namespace Dwpal.Client

open Ipc Daemon EventKind

/-! Events of hostapd. -/

/-- The message carries an event of the interface with the op_code. -/
structure CarriesHostapEvent (eventData : List UInt8) (hdr : DwpaldHeader)
    (ifname opCode : List UInt8) : Prop where
  ifname_take : cstr (eventData.take hdr.header2.toNat) = cstr ifname
  ifnameLen_le : hdr.header2.toNat ≤ ifnamsiz
  opCode_take : (eventData.drop hdr.header2.toNat).take hdr.header3.toNat = opCode
  length_eq : eventData.length =
    hdr.header2.toNat + hdr.header3.toNat + (hdr.header4.toNat + 256 * hdr.header5.toNat)

/-- The callbacks that are registered on an attachment for the events with the op_code, the common
handler among them. -/
def numCallbacks (hapAttch : DwpaldHostapAttachment) (opCode : List UInt8) : Nat :=
  hapAttch.commonEvent.toList.length +
    ((hapAttch.hostapEvents.filter fun hapEvent => hapEvent.opCode = opCode).map fun hapEvent =>
      hapEvent.clbIdList.filterMap ClbId.clb).flatten.length

/-- Every event that the list asks for is dispatched to its callback. -/
def HostapComplete (attachments : List DwpaldHostapAttachment) (ifname : List UInt8)
    (events : List DwpaldHostapEvent) : Prop :=
  ∀ event ∈ events, ∀ opCode clb, event.opCode = some opCode → event.hapdClb = some clb →
    ∀ eventData hdr, CarriesHostapEvent eventData hdr ifname opCode →
      ∃ call ∈ (dwpaldReceiveHostapEvent attachments eventData hdr).2.1, call.clb = clb

/-- No more callbacks are registered for an event of the list than can be called. -/
def HostapWithin (attachments : List DwpaldHostapAttachment) (ifname : List UInt8)
    (events : List DwpaldHostapEvent) : Prop :=
  ∀ hapAttch, attachments.find? (·.named ifname) = some hapAttch → ∀ event ∈ events,
    numCallbacks hapAttch (hostapNaming.nameOf event) ≤ maxNumCbEvents

/-- The op_codes of the list fit into the client's buffer for a received op_code. -/
def ShortOpCodes (events : List DwpaldHostapEvent) : Prop :=
  ∀ event ∈ events, event.opCode ≠ none → event.hapdClb ≠ none →
    0 < event.opCodeLen.toNat ∧ event.opCodeLen.toNat < opcodeSize

theorem strncmpEq_opCode {a b : List UInt8} (ha : 0 ∉ a) (hb : b.length < opcodeSize)
    (hb0 : 0 ∉ b) : strncmpEq a b opcodeSize = true ↔ a = b := by
  rw [strncmpEq_iff, cstr_of_notMem ha, cstr_of_notMem hb0,
    List.take_of_length_le (Nat.le_of_lt hb)]
  constructor
  · intro h
    have hlen := congrArg List.length h
    rw [List.length_take] at hlen
    rw [← h, List.take_of_length_le (by omega)]
  · rintro rfl
    exact List.take_of_length_le (Nat.le_of_lt hb)

variable {attachments : List DwpaldHostapAttachment} {hapAttch : DwpaldHostapAttachment}
  {ifname : List UInt8}

/-- The callbacks that are called for a received event. -/
theorem receiveHostapEvent_clbs {eventData opCode : List UInt8} {hdr : DwpaldHeader}
    (hfind : attachments.find? (·.named ifname) = some hapAttch)
    (hevent : CarriesHostapEvent eventData hdr ifname opCode) :
    (dwpaldReceiveHostapEvent attachments eventData hdr).2.1.map HostapCall.clb =
      if 0 < opCode.length ∧ opCode.length < opcodeSize then
        match entryOf OpCode.opCode hapAttch.hostapEvents (cstr opCode) with
        | some hapEvent => copyHostapEvent hapAttch hapEvent maxNumCbEvents
        | none => []
      else [] := by
  have hlen : opCode.length = hdr.header3.toNat := by
    have htotal := hevent.length_eq
    rw [← hevent.opCode_take, List.length_take, List.length_drop]
    omega
  have hnamed : attachments.find? (·.named (cstr (eventData.take hdr.header2.toNat))) =
      some hapAttch := by
    rw [← hfind]
    congr 1
    funext other
    rw [Bool.eq_iff_iff, named_iff_bytes, named_iff_bytes, cstr_cstr, hevent.ifname_take]
  rw [dwpaldReceiveHostapEvent]
  simp only
  rw [if_neg (not_not.mpr hevent.length_eq), if_neg (Nat.not_lt.mpr hevent.ifnameLen_le)]
  by_cases hshort : 0 < opCode.length ∧ opCode.length < opcodeSize
  · have hbuf : ¬ (hdr.header3.toNat = 0 ∨ hdr.header3.toNat > opcodeSize - 1) := by
      rw [← hlen]
      omega
    have hfirst : hapAttch.hostapEvents.find? (fun hapEvent => strncmpEq hapEvent.opCode
        (cstr ((eventData.drop hdr.header2.toNat).take hdr.header3.toNat)) opcodeSize) =
        entryOf OpCode.opCode hapAttch.hostapEvents (cstr opCode) := by
      have hle : (cstr opCode).length ≤ opCode.length := (List.takeWhile_prefix _).length_le
      rw [hevent.opCode_take, entryOf]
      congr 1
      funext hapEvent
      rw [Bool.eq_iff_iff, decide_eq_true_iff]
      exact strncmpEq_opCode hapEvent.key.zero_notMem (Nat.lt_of_le_of_lt hle hshort.2)
        (cstr_zero_notMem opCode)
    rw [if_neg hbuf, if_pos hshort, hnamed]
    simp only
    rw [hfirst]
    cases entryOf OpCode.opCode hapAttch.hostapEvents (cstr opCode) with
    | some hapEvent => simp [Function.comp_def]
    | none => rfl
  · have hbuf : hdr.header3.toNat = 0 ∨ hdr.header3.toNat > opcodeSize - 1 := by
      rw [← hlen]
      omega
    rw [if_pos hbuf, if_neg hshort]
    rfl

/-- Within the limit every callback of the entry is called. -/
theorem mem_copyHostapEvent {hapEvent : DwpaldHostapEventWithId} {opCode : List UInt8} {clb : Clb}
    (hentry : entryOf OpCode.opCode hapAttch.hostapEvents opCode = some hapEvent)
    (hwithin : numCallbacks hapAttch opCode ≤ maxNumCbEvents) :
    clb ∈ copyHostapEvent hapAttch hapEvent maxNumCbEvents ↔
      hapAttch.commonEvent = some clb ∨ ∃ c ∈ hapEvent.clbIdList, c.clb = some clb := by
  have hname := List.find?_some hentry
  have hmem : hapEvent ∈ hapAttch.hostapEvents.filter fun hapEvent => hapEvent.opCode = opCode :=
    List.mem_filter.mpr ⟨List.mem_of_find?_eq_some hentry, hname⟩
  have hsub : hapEvent.clbIdList.filterMap ClbId.clb ∈
      (hapAttch.hostapEvents.filter fun hapEvent => hapEvent.opCode = opCode).map fun hapEvent =>
        hapEvent.clbIdList.filterMap ClbId.clb := List.mem_map_of_mem hmem
  have hle := (List.sublist_flatten_of_mem hsub).length_le
  rw [numCallbacks] at hwithin
  rw [copyHostapEvent, List.take_of_length_le (by rw [List.length_append]; omega), List.mem_append,
    Option.mem_toList, List.mem_filterMap]

/-- The message that carries an event without a text. -/
theorem carries_bare (ifname : List UInt8) {event : DwpaldHostapEvent} {opCode : List UInt8}
    (hlen : (cstr ifname).length ≤ ifnamsiz) (hop : event.opCode = some opCode) :
    CarriesHostapEvent (cstr ifname ++ opCode)
      ⟨dwpaldEvent, dwpaldIfTypeHostap, UInt8.ofNat (cstr ifname).length, event.opCodeLen, 0, 0⟩
      ifname opCode := by
  have hname : (UInt8.ofNat (cstr ifname).length).toNat = (cstr ifname).length := by
    rw [UInt8.toNat_ofNat']
    exact Nat.mod_eq_of_lt (by rw [ifnamsiz] at hlen; omega)
  have hcode := event.length_eq opCode hop
  refine ⟨?_, ?_, ?_, ?_⟩
  · rw [hname, List.take_left' rfl, cstr_cstr]
  · rw [hname]
    exact hlen
  · rw [hname, List.drop_left' rfl, ← hcode, List.take_length]
  · rw [hname, ← hcode]
    simp

/-- The events of a list are dispatched to their callbacks if and only if the op_codes fit and every
callback other than the common handler is in the entry of its op_code. -/
theorem hostapComplete_iff {events : List DwpaldHostapEvent}
    (hlen : (cstr ifname).length ≤ ifnamsiz)
    (hfind : attachments.find? (·.named ifname) = some hapAttch)
    (hop : ∀ event ∈ events, event.opCode ≠ none)
    (hwithin : HostapWithin attachments ifname events)
    (hnamed : ∀ event ∈ events,
      Named OpCode.opCode hapAttch.hostapEvents (hostapNaming.nameOf event)) :
    HostapComplete attachments ifname events ↔ ShortOpCodes events ∧
      hostapNaming.AllServed (fun clb => hapAttch.commonEvent ≠ some clb) hapAttch.hostapEvents
        events := by
  -- the calls for a message that carries an event of the list
  have hcalls : ∀ event ∈ events, ∀ opCode clb, event.opCode = some opCode →
      ∀ eventData hdr, CarriesHostapEvent eventData hdr ifname opCode →
        ((∃ call ∈ (dwpaldReceiveHostapEvent attachments eventData hdr).2.1, call.clb = clb) ↔
          (0 < event.opCodeLen.toNat ∧ event.opCodeLen.toNat < opcodeSize) ∧
            (hapAttch.commonEvent ≠ some clb →
              Serves OpCode.opCode hapAttch.hostapEvents (hostapNaming.nameOf event) clb)) := by
    intro event hevent opCode clb hopc eventData hdr hcarries
    have hname : hostapNaming.nameOf event = cstr opCode := by
      show cstr (event.opCode.getD []) = cstr opCode
      rw [hopc, Option.getD_some]
    obtain ⟨known, hentry⟩ := named_iff.mp (hnamed event hevent)
    have hw := hwithin hapAttch hfind event hevent
    rw [hname] at hentry hw
    have hmem : (∃ call ∈ (dwpaldReceiveHostapEvent attachments eventData hdr).2.1,
        call.clb = clb) ↔ clb ∈ (dwpaldReceiveHostapEvent attachments eventData hdr).2.1.map
          HostapCall.clb := List.mem_map.symm
    rw [hmem, receiveHostapEvent_clbs hfind hcarries, event.length_eq opCode hopc]
    by_cases hshort : 0 < event.opCodeLen.toNat ∧ event.opCodeLen.toNat < opcodeSize
    · rw [if_pos hshort, hentry]
      simp only
      rw [mem_copyHostapEvent hentry hw, hname]
      simp only [hshort, and_self, true_and, Serves, hentry, Option.some.injEq, exists_eq_left',
        ne_eq]
      exact Decidable.or_iff_not_imp_left
    · rw [if_neg hshort]
      simp [hshort]
  constructor
  · intro hcomplete
    have hserved : ∀ event ∈ events, ∀ clb, event.hapdClb = some clb →
        (0 < event.opCodeLen.toNat ∧ event.opCodeLen.toNat < opcodeSize) ∧
          (hapAttch.commonEvent ≠ some clb →
            Serves OpCode.opCode hapAttch.hostapEvents (hostapNaming.nameOf event) clb) := by
      intro event hevent clb hclb
      obtain ⟨opCode, hopc⟩ := Option.ne_none_iff_exists'.mp (hop event hevent)
      exact (hcalls event hevent opCode clb hopc _ _ (carries_bare ifname hlen hopc)).mp
        (hcomplete event hevent opCode clb hopc hclb _ _ (carries_bare ifname hlen hopc))
    refine ⟨?_, fun event hevent clb hclb hwanted => (hserved event hevent clb hclb).2 hwanted⟩
    intro event hevent _ hclb
    obtain ⟨clb, hclb⟩ := Option.ne_none_iff_exists'.mp hclb
    exact (hserved event hevent clb hclb).1
  · rintro ⟨hshort, hserved⟩ event hevent opCode clb hopc hclb eventData hdr hcarries
    refine (hcalls event hevent opCode clb hopc eventData hdr hcarries).mpr
      ⟨hshort event hevent (hop event hevent) ?_, hserved event hevent clb hclb⟩
    rw [hclb]
    exact Option.some_ne_none clb

/-- What an attach of a new interface has done when it succeeds. -/
theorem attachFirst_succeeded {requests : Requests} {hostapEvents : List DwpaldHostapEvent}
    {commonEvent : Option Clb} {failOnIfaceDown : Bool} {id : UInt32}
    (hfind : attachments.find? (·.named ifname) = none)
    (hret : AttachSucceeded attachments ifname failOnIfaceDown (attachFirst requests attachments
      ifname hostapEvents commonEvent failOnIfaceDown id).ret) :
    ∃ events state, dwpaldCopyHostapEvents [] id hostapEvents = (0, events) ∧
      (attachFirst requests attachments ifname hostapEvents commonEvent failOnIfaceDown
        id).attachments =
          attachments ++ [{ newAttachment ifname commonEvent events with state := state }] := by
  rw [attachFirst] at hret ⊢
  generalize hcopy : dwpaldCopyHostapEvents [] id hostapEvents = copy at hret ⊢
  obtain ⟨err, events⟩ := copy
  match err with
  | 0 =>
    simp only at hret ⊢
    generalize hreply :
      requests.sendHostapAttach (newAttachment ifname commonEvent events) = reply at hret ⊢
    obtain ⟨ret, state⟩ := reply
    refine ⟨events, state, rfl, ?_⟩
    cases ret with
    | success =>
      simp only at hret ⊢
      by_cases hstate : state = interfaceDwpalStateDisconnected
      · simp only [hstate, if_true] at hret ⊢
        cases failOnIfaceDown with
        | true => simp [AttachSucceeded, hfind] at hret
        | false => simp
      · simp only [hstate, if_false]
    | disconnected | dwpalFailure | failed | error => simp [AttachSucceeded] at hret
    | dwpalIfaceIsDown => exact absurd (congrArg Prod.fst hreply) (requests.attach_ne _)
  | err + 1 => simp [AttachSucceeded] at hret

/-- What an attach of an attached interface has done when it succeeds. -/
theorem attachAgain_succeeded {requests : Requests} {hostapEvents : List DwpaldHostapEvent}
    {failOnIfaceDown : Bool} {id : UInt32} {attached : Attached} (hid : id ≠ defaultAttachId)
    (hattach : attachAgain requests attachments hapAttch ifname hostapEvents id = some attached)
    (hret : AttachSucceeded attachments ifname failOnIfaceDown attached.ret) :
    ∃ events, dwpaldAddHostapEvents hapAttch.hostapEvents hostapEvents id = some (0, events) ∧
      attached.attachments = setHostapEvents attachments ifname events := by
  rw [attachAgain, if_neg hid, Option.map_eq_some_iff] at hattach
  obtain ⟨⟨err, events⟩, hadd, rfl⟩ := hattach
  by_cases herr : err = 0
  · subst herr
    refine ⟨events, hadd, ?_⟩
    simp only [ne_eq, not_true_eq_false, if_false]
    split_ifs <;> rfl
  · simp [herr, AttachSucceeded] at hret

theorem find_setHostapEvents (events : List DwpaldHostapEventWithId)
    (hfind : attachments.find? (·.named ifname) = some hapAttch) :
    (setHostapEvents attachments ifname events).find? (·.named ifname) =
      some { hapAttch with hostapEvents := events } := by
  induction attachments with
  | nil => cases hfind
  | cons other attachments ih =>
    rw [List.find?_cons] at hfind
    rw [setHostapEvents, changeAttachment]
    cases hnamed : other.named ifname with
    | true =>
      simp only [hnamed, Option.some.injEq] at hfind
      subst hfind
      exact List.find?_cons_of_pos hnamed
    | false =>
      simp only [hnamed] at hfind
      simp only [Bool.false_eq_true, if_false]
      rw [List.find?_cons, hnamed]
      exact ih hfind

theorem opCode_ne_none {events events' : List DwpaldHostapEventWithId}
    {added : List DwpaldHostapEvent} {id : UInt32} {clbFound : Bool}
    (hadd : hostapEventKind.addEventsLoop id clbFound events added = some (0, events')) :
    ∀ event ∈ added, event.opCode ≠ none := by
  intro event hevent
  have hreadable := EventKind.readable_addEventsLoop hostapNaming hadd event hevent
  intro hnone
  simp [hostapEventKind, hnone] at hreadable

/-- Every round of a merge finds the entry of its op_code, if it finds one. -/
def HostapExact (attachments : List DwpaldHostapAttachment) (ifname : List UInt8)
    (events : List DwpaldHostapEvent) (id : UInt32) : Prop :=
  ∀ hapAttch, attachments.find? (·.named ifname) = some hapAttch →
    hostapNaming.AllExact id hapAttch.hostapEvents events

/-- Of the events of a first attach with one op_code the last one has the callback of all of them;
an attach of an attached interface finds every callback that comes behind one that was there. The
common handler is called anyway. -/
def HostapInTime (attachments : List DwpaldHostapAttachment) (ifname : List UInt8)
    (events : List DwpaldHostapEvent) (commonEvent : Option Clb) (id : UInt32) : Prop :=
  match attachments.find? (·.named ifname) with
  | none => hostapNaming.LastOfName (fun clb => commonEvent ≠ some clb) events
  | some hapAttch =>
    hostapNaming.Rounds id (hostapEventKind.NotStale fun clb => hapAttch.commonEvent ≠ some clb)
      false hapAttch.hostapEvents events

theorem hostapAttach_complete {requests : Requests} {events : List DwpaldHostapEvent}
    {commonEvent : Option Clb} {failOnIfaceDown : Bool} {id : UInt32} {attached : Attached}
    (hlen : (cstr ifname).length ≤ ifnamsiz)
    (hid : (attachments.find? (·.named ifname)).isSome → id ≠ defaultAttachId)
    (hattach : dwpaldHostapAttachExWithId requests false attachments (some ifname) (some events)
      commonEvent failOnIfaceDown id = some attached)
    (hret : AttachSucceeded attachments ifname failOnIfaceDown attached.ret)
    (hwithin : HostapWithin attached.attachments ifname events)
    (hexact : HostapExact attachments ifname events id) :
    HostapComplete attached.attachments ifname events ↔
      ShortOpCodes events ∧ HostapInTime attachments ifname events commonEvent id := by
  rw [dwpaldHostapAttachExWithId] at hattach
  simp only [Bool.false_eq_true, if_false] at hattach
  rw [HostapInTime]
  cases hfind : attachments.find? (·.named ifname) with
  | none =>
    rw [hfind] at hattach
    cases hattach
    obtain ⟨hapEvents, state, hcopy, hatt⟩ := attachFirst_succeeded hfind hret
    have hname : (ifName ifname).bytes = cstr ifname := by
      rw [ifName, CString.copyFrom_bytes_eq (by decide) (by decide), List.take_of_length_le hlen]
    have hnew : (attachments ++
        [{ newAttachment ifname commonEvent hapEvents with state := state }]).find?
          (·.named ifname) =
        some { newAttachment ifname commonEvent hapEvents with state := state } := by
      rw [List.find?_append, hfind, Option.none_or]
      exact List.find?_cons_of_pos (named_iff_bytes.mpr hname)
    obtain ⟨rs, rfl⟩ := requests_of_copyHostapEvents hcopy
    rw [hatt] at hwithin ⊢
    rw [hostapComplete_iff hlen hnew (by simp [Request.event]) hwithin
      (named_copyEvents hcopy)]
    exact and_congr_right fun _ => allServed_copyEvents hcopy
  | some hapAttch =>
    rw [hfind] at hattach
    obtain ⟨hapEvents, hadd, hatt⟩ := attachAgain_succeeded (hid (by simp [hfind])) hattach hret
    have hnew := find_setHostapEvents hapEvents hfind
    rw [hatt] at hwithin ⊢
    rw [hostapComplete_iff hlen hnew (opCode_ne_none hadd) hwithin
      (named_addEventsLoop (hexact hapAttch hfind) hadd).2]
    exact and_congr_right fun _ => allServed_addEvents (hexact hapAttch hfind) hadd

/-! Events of the driver. -/

/-- The message carries an event of the driver with the `nl_id`. -/
structure CarriesDrvEvent (eventData : List UInt8) (hdr : DwpaldHeader) (nlId : UInt32) : Prop where
  ifnameLen_le : hdr.header2.toNat ≤ ifnamsiz
  nlId_eq : UInt32.ofNat (le32 eventData) = nlId
  length_eq : eventData.length =
    4 + hdr.header2.toNat + (hdr.header3.toNat + 256 * hdr.header4.toNat)

def DriverComplete (drvNlAttch : Option DwpaldDrvNlAttachment) (events : List DwpaldDriverNlEvent) :
    Prop :=
  ∀ event ∈ events, ∀ clb, event.drvClb = some clb → ∀ eventData hdr,
    CarriesDrvEvent eventData hdr event.nlId →
      ∃ call ∈ (dwpaldReceiveDrvEvent drvNlAttch eventData hdr).2, call.clb = some clb

/-- No more callbacks are registered for an event of the list than can be called. -/
def DriverWithin (drvNlAttch : Option DwpaldDrvNlAttachment) (events : List DwpaldDriverNlEvent) :
    Prop :=
  ∀ attch, drvNlAttch = some attch → ∀ event ∈ events,
    ((attch.drvEvents.filter fun drvEvent => drvEvent.key = event.nlId).map
      EventWithId.clbIdList).flatten.length ≤ maxNumCbEvents

/-- As `HostapInTime`, without a common handler. -/
def DriverInTime (drvNlAttch : Option DwpaldDrvNlAttachment) (events : List DwpaldDriverNlEvent)
    (id : UInt32) : Prop :=
  match drvNlAttch with
  | none => driverNaming.LastOfName (fun _ => True) events
  | some attch =>
    driverNaming.Rounds id (driverEventKind.NotStale fun _ => True) false attch.drvEvents events

theorem receiveDrvEvent_calls {attch : DwpaldDrvNlAttachment} {eventData : List UInt8}
    {hdr : DwpaldHeader} {nlId : UInt32} (hevent : CarriesDrvEvent eventData hdr nlId) :
    (dwpaldReceiveDrvEvent (some attch) eventData hdr).2.map DriverCall.clb =
      match entryOf (fun key => key) attch.drvEvents nlId with
      | some drvEvent => (drvEvent.clbIdList.take maxNumCbEvents).map ClbId.clb
      | none => [] := by
  have hne : eventData.length ≠ 0 := by
    rw [hevent.length_eq]
    omega
  have hfirst : attch.drvEvents.find? (fun drvEvent => drvEvent.key == nlId) =
      entryOf (fun key => key) attch.drvEvents nlId := rfl
  rw [dwpaldReceiveDrvEvent]
  simp only
  rw [if_neg hne, if_neg (not_not.mpr hevent.length_eq),
    if_neg (Nat.not_lt.mpr hevent.ifnameLen_le), hevent.nlId_eq, hfirst]
  cases entryOf (fun key => key) attch.drvEvents nlId with
  | some drvEvent => simp [Function.comp_def]
  | none => rfl

theorem driverComplete_iff {attch : DwpaldDrvNlAttachment} {events : List DwpaldDriverNlEvent}
    (hwithin : DriverWithin (some attch) events) :
    DriverComplete (some attch) events ↔
      driverNaming.AllServed (fun _ => True) attch.drvEvents events := by
  -- the calls for a message that carries an event of the list
  have hcalls : ∀ event ∈ events, ∀ clb eventData hdr, CarriesDrvEvent eventData hdr event.nlId →
      ((∃ call ∈ (dwpaldReceiveDrvEvent (some attch) eventData hdr).2, call.clb = some clb) ↔
        Serves (fun key => key) attch.drvEvents event.nlId clb) := by
    intro event hevent clb eventData hdr hcarries
    have hmem : (∃ call ∈ (dwpaldReceiveDrvEvent (some attch) eventData hdr).2,
        call.clb = some clb) ↔ some clb ∈ (dwpaldReceiveDrvEvent (some attch) eventData hdr).2.map
          DriverCall.clb := List.mem_map.symm
    rw [hmem, receiveDrvEvent_calls hcarries, Serves]
    cases hentry : entryOf (fun key => key) attch.drvEvents event.nlId with
    | none => simp
    | some drvEvent =>
      have hkey := List.find?_some hentry
      have hfilter : drvEvent ∈ attch.drvEvents.filter fun drvEvent => drvEvent.key = event.nlId :=
        List.mem_filter.mpr ⟨List.mem_of_find?_eq_some hentry, hkey⟩
      have hsub : drvEvent.clbIdList ∈ (attch.drvEvents.filter fun drvEvent =>
          drvEvent.key = event.nlId).map EventWithId.clbIdList := List.mem_map_of_mem hfilter
      have hle := (List.sublist_flatten_of_mem hsub).length_le
      have hw := hwithin attch rfl event hevent
      simp only
      rw [List.take_of_length_le (Nat.le_trans hle hw)]
      simp
  constructor
  · intro hcomplete event hevent clb hclb _
    have hcarries : CarriesDrvEvent (nlIdBytes event.nlId)
        ⟨dwpaldEvent, 2, 0, 0, 0, 0⟩ event.nlId := by
      refine ⟨by simp, ?_, rfl⟩
      rw [le32_nlIdBytes, UInt32.ofNat_toNat]
    exact (hcalls event hevent clb _ _ hcarries).mp (hcomplete event hevent clb hclb _ _ hcarries)
  · intro hserved event hevent clb hclb eventData hdr hcarries
    exact (hcalls event hevent clb eventData hdr hcarries).mpr
      (hserved event hevent clb hclb trivial)

/-- The rounds of a merge of driver events compare whole names. -/
theorem driver_allExact (events : List DwpaldDriverNlEventWithId) (added : List DwpaldDriverNlEvent)
    (id : UInt32) : driverNaming.AllExact id events added := by
  have hexact : ∀ clbFound (added : List DwpaldDriverNlEvent) events, driverNaming.Rounds id
      (fun _ events event => driverNaming.Exact events event) clbFound events added := by
    intro clbFound added
    induction added generalizing clbFound with
    | nil => exact fun events => trivial
    | cons event added ih =>
      intro events
      refine ⟨fun known hknown => ?_, ?_⟩
      · have := List.find?_some hknown
        exact (beq_iff_eq.mp this).symm
      · split
        · exact ih _ _
        · split
          · exact ih _ _
          · trivial
  exact hexact false added events

theorem driverAttach_complete {requests : DrvRequests}
    {drvNlAttch drvNlAttch' : Option DwpaldDrvNlAttachment} {events : List DwpaldDriverNlEvent}
    {nlEventCb : Option Clb} {id : UInt32} (hid : drvNlAttch.isSome → id ≠ defaultAttachId)
    (hattach : dwpaldNlDrvAttachWithId requests drvNlAttch (some events) nlEventCb id =
      (.success, drvNlAttch'))
    (hwithin : DriverWithin drvNlAttch' events) :
    DriverComplete drvNlAttch' events ↔ DriverInTime drvNlAttch events id := by
  cases drvNlAttch with
  | none =>
    rw [dwpaldNlDrvAttachWithId] at hattach
    generalize hcopy : dwpaldCopyDriverEvents [] id events = copy at hattach
    obtain ⟨err, drvEvents⟩ := copy
    match err with
    | 0 =>
      simp only at hattach
      cases hsend : requests.sendDrvNlAttach drvEvents <;> rw [hsend] at hattach
      case success =>
        obtain rfl : some _ = drvNlAttch' := (Prod.mk.inj hattach).2
        rw [driverComplete_iff hwithin]
        exact allServed_copyEvents hcopy
      all_goals cases hattach
    | err + 1 => cases hattach
  | some attch =>
    rw [dwpaldNlDrvAttachWithId] at hattach
    simp only [if_neg (hid rfl)] at hattach
    generalize hadd : dwpaldAddDriverEvents attch.drvEvents events id = add at hattach
    -- the attachment holds the merged list, whatever becomes of the callback for kernel events
    have hmerged : ∃ drvEvents nlEventCb', add = some (0, drvEvents) ∧
        drvNlAttch' = some ⟨drvEvents, nlEventCb'⟩ := by
      split at hattach
      · next drvEvents =>
        generalize (if attch.drvEvents.length ≠ drvEvents.length then
          requests.sendDrvNlUpdateEvent drvEvents else DwpaldRet.success) = ret at hattach
        split_ifs at hattach with hret hnull
        · exact absurd (congrArg Prod.fst hattach) hret
        · exact ⟨drvEvents, _, rfl, (congrArg Prod.snd hattach).symm⟩
        · exact ⟨drvEvents, _, rfl, (congrArg Prod.snd hattach).symm⟩
      · cases hattach
      · cases hattach
    obtain ⟨drvEvents, nlEventCb', rfl, rfl⟩ := hmerged
    rw [driverComplete_iff hwithin]
    exact allServed_addEvents (driver_allExact attch.drvEvents events id) hadd

/-- An attach that succeeds is complete if and only if no callback comes too late, and for hostap
the op_codes fit; the merge of hostap events has to find the entries of its op_codes. -/
theorem attachComplete (requests : Requests) (attachments : List DwpaldHostapAttachment)
    (ifname : List UInt8) (events : List DwpaldHostapEvent) (commonEvent : Option Clb)
    (failOnIfaceDown : Bool) (id : UInt32) (drvRequests : DrvRequests)
    (drvNlAttch : Option DwpaldDrvNlAttachment) (drvEvents : List DwpaldDriverNlEvent)
    (nlEventCb : Option Clb) (drvId : UInt32) :
    (∀ attached, (cstr ifname).length ≤ ifnamsiz →
      ((attachments.find? (·.named ifname)).isSome → id ≠ defaultAttachId) →
      dwpaldHostapAttachExWithId requests false attachments (some ifname) (some events) commonEvent
        failOnIfaceDown id = some attached →
      AttachSucceeded attachments ifname failOnIfaceDown attached.ret →
      HostapWithin attached.attachments ifname events →
      HostapExact attachments ifname events id →
      (HostapComplete attached.attachments ifname events ↔
        ShortOpCodes events ∧ HostapInTime attachments ifname events commonEvent id)) ∧
    (∀ drvNlAttch', (drvNlAttch.isSome → drvId ≠ defaultAttachId) →
      dwpaldNlDrvAttachWithId drvRequests drvNlAttch (some drvEvents) nlEventCb drvId =
        (.success, drvNlAttch') →
      DriverWithin drvNlAttch' drvEvents →
      (DriverComplete drvNlAttch' drvEvents ↔ DriverInTime drvNlAttch drvEvents drvId)) :=
  ⟨fun _ => hostapAttach_complete, fun _ => driverAttach_complete⟩

def apRequest (opCode : String) (clb : Clb) (h : 0 < (ascii opCode).length)
    (h' : (ascii opCode).length < 256) : DwpaldHostapEvent :=
  Request.event ⟨ascii opCode, clb, h, h'⟩

/-- `wlan0` with a callback for `AP-ENABLED`. -/
def attachedWlan0 : List DwpaldHostapAttachment :=
  [{ newAttachment (ascii "wlan0") none
      [⟨copyOpCode (ascii "AP-ENABLED") 10, [⟨some 0x400, 1⟩]⟩] with
    state := interfaceDwpalStateConnected }]

/-- A second id asks for `AP-ENABLED` and `AP-DISABLED`. -/
def moreEvents : List DwpaldHostapEvent :=
  [apRequest "AP-ENABLED" 0x500 apEnabled_pos apEnabled_lt,
    apRequest "AP-DISABLED" 0x600 (by decide) (by decide)]

/-- The requests for driver events are served. -/
def servedDrvRequests : DrvRequests := ⟨fun _ => .success, fun _ => .success⟩

theorem attachComplete_moreEvents :
    (∃ attached, dwpaldHostapAttachExWithId servedRequests false attachedWlan0
        (some (ascii "wlan0")) (some moreEvents) none false 2 = some attached ∧
      HostapComplete attached.attachments (ascii "wlan0") moreEvents) ∧
    (∃ drvNlAttch, dwpaldNlDrvAttachWithId servedDrvRequests none (some [⟨7, some 0x400⟩]) none 1 =
        (.success, drvNlAttch) ∧
      DriverComplete drvNlAttch [⟨7, some 0x400⟩]) := by
  have hcomplete := attachComplete servedRequests attachedWlan0 (ascii "wlan0") moreEvents none
    false 2 servedDrvRequests none [⟨7, some 0x400⟩] none 1
  refine ⟨⟨_, rfl, (hcomplete.1 _ (by decide) (fun _ => by decide) rfl (Or.inl rfl) ?_ ?_).mpr
    ⟨?_, ?_⟩⟩, ⟨_, rfl, (hcomplete.2 _ (fun h => by cases h) rfl ?_).mpr ?_⟩⟩
  · intro hapAttch hfind event hevent
    cases hfind
    simp only [moreEvents, List.mem_cons, List.not_mem_nil, or_false] at hevent
    rcases hevent with rfl | rfl <;> decide
  · intro hapAttch hfind
    cases hfind
    refine ⟨fun known hknown => ?_, fun known hknown => ?_, trivial⟩
    · cases hknown
      rfl
    · cases hknown
  · intro event hevent _ _
    simp only [moreEvents, List.mem_cons, List.not_mem_nil, or_false] at hevent
    rcases hevent with rfl | rfl <;> decide
  · refine ⟨fun known hknown hflag => ?_, fun known hknown => ?_, trivial⟩
    · cases hflag
    · cases hknown
  · intro attch hattch event hevent
    cases hattch
    rw [List.mem_singleton.mp hevent]
    decide
  · intro event hevent clb hclb _
    rw [List.mem_singleton.mp hevent] at hclb ⊢
    exact ⟨_, rfl, hclb⟩

/-- Two callbacks for one op_code in the first attach. -/
def twoCallbacks : List DwpaldHostapEvent :=
  [apRequest "AP-ENABLED" 0x400 (by decide) (by decide),
    apRequest "AP-ENABLED" 0x500 (by decide) (by decide)]

/-- Only the callback that is listed last is called. -/
theorem twoCallbacks_incomplete :
    ∃ attached, dwpaldHostapAttachExWithId servedRequests false [] (some (ascii "wlan0"))
        (some twoCallbacks) none false 1 = some attached ∧
      attached.ret = .success ∧ HostapWithin attached.attachments (ascii "wlan0") twoCallbacks ∧
      ¬ HostapComplete attached.attachments (ascii "wlan0") twoCallbacks := by
  have hwithin : ∀ attached, dwpaldHostapAttachExWithId servedRequests false []
      (some (ascii "wlan0")) (some twoCallbacks) none false 1 = some attached →
      HostapWithin attached.attachments (ascii "wlan0") twoCallbacks := by
    intro attached hattach hapAttch hfind event hevent
    cases hattach
    cases hfind
    simp only [twoCallbacks, List.mem_cons, List.not_mem_nil, or_false] at hevent
    rcases hevent with rfl | rfl <;> decide
  refine ⟨_, rfl, rfl, hwithin _ rfl, fun hcomplete => ?_⟩
  have hid : (([] : List DwpaldHostapAttachment).find? (·.named (ascii "wlan0"))).isSome →
      (1 : UInt32) ≠ defaultAttachId := fun _ => by decide
  have hin := ((hostapAttach_complete (by decide) hid rfl (Or.inl rfl) (hwithin _ rfl)
    (fun hapAttch hfind => by cases hfind)).mp hcomplete).2
  obtain ⟨last, hlast, hclb⟩ := hin _ List.mem_cons_self 0x400 rfl (by decide)
  cases hlast
  cases hclb

end Dwpal.Client
