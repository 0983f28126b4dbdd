import Dwpal.Client.Registration

/-! The hostap attachments of a connected client in `daemon/dwpald_client.c`: attaching and
detaching with an id, and the dispatch of a received event to the callbacks that are registered to
it. Allocations succeed. -/

namespace Dwpal.Client

open Ipc Daemon

/-- `DEFAULT_ATTACH_ID`. -/
def defaultAttachId : UInt32 := 0

/-- What the requests of one call to the daemon end with; an attach also tells the state of the
interface. -/
structure Requests where
  sendHostapAttach : DwpaldHostapAttachment → DwpaldRet × UInt8
  sendHostapUpdateEvent : List UInt8 → List DwpaldHostapEventWithId → DwpaldRet
  sendHostapDetach : List UInt8 → DwpaldRet
  attach_ne : ∀ hapAttach, (sendHostapAttach hapAttach).1 ≠ .dwpalIfaceIsDown

theorem regCmdResult_ne (respType ifType : UInt8) (result : WvIpcRet × List WvIpcMsg × Dwpald) :
    (regCmdResult respType ifType result).1 ≠ .dwpalIfaceIsDown := by
  obtain ⟨ret, reply, d⟩ := result
  cases ret <;> cases reply <;> simp only [regCmdResult, ne_eq, reduceCtorEq, not_false_eq_true]
  split
  · split <;> simp
  · simp

/-- The requests to the daemon `d` over the path `p`. -/
def Requests.over (p : Path) (d : Dwpald) : Requests where
  sendHostapAttach hapAttach :=
    let (ret, hapAttach, _) := dwpaldSendHostapAttach p d hapAttach
    (ret, hapAttach.state)
  sendHostapUpdateEvent ifname hapEvents := (dwpaldSendHostapUpdateEvent p d ifname hapEvents).1
  sendHostapDetach ifname := (dwpaldSendHostapDetach p d ifname).1
  attach_ne hapAttach := by
    show (dwpaldSendHostapAttach p d hapAttach).1 ≠ _
    rw [(dwpaldSendHostapAttach_eq p d hapAttach).1]
    exact regCmdResult_ne _ _ _

/-- Every request succeeds, and every interface is up. -/
def servedRequests : Requests where
  sendHostapAttach _ := (.success, interfaceDwpalStateConnected)
  sendHostapUpdateEvent _ _ := .success
  sendHostapDetach _ := .success
  attach_ne _ := by simp

/-- `!strncmp(ifname, hap_attch->ifname, sizeof(hap_attch->ifname))`. -/
def DwpaldHostapAttachment.named (ifname : List UInt8) (hapAttch : DwpaldHostapAttachment) : Bool :=
  strncmpEq ifname hapAttch.ifname.bytes (ifnamsiz + 1)

/-- The loop over the attachments, which changes the first one with the name, or removes it, and
stops. -/
def changeAttachment (ifname : List UInt8)
    (change : DwpaldHostapAttachment → Option DwpaldHostapAttachment) :
    List DwpaldHostapAttachment → List DwpaldHostapAttachment
  | [] => []
  | hapAttch :: attachments =>
    if hapAttch.named ifname then (change hapAttch).toList ++ attachments
    else hapAttch :: changeAttachment ifname change attachments

/-- The first attachment with the name has the list `events`. -/
def setHostapEvents (attachments : List DwpaldHostapAttachment) (ifname : List UInt8)
    (events : List DwpaldHostapEventWithId) : List DwpaldHostapAttachment :=
  changeAttachment ifname (fun hapAttch => some { hapAttch with hostapEvents := events })
    attachments

/-- A request to the daemon about an interface of hostapd. -/
inductive HostapRequest where
  | attach (hapAttachment : DwpaldHostapAttachment)
  | update (ifname : List UInt8) (hapEvents : List DwpaldHostapEventWithId)
  | detach (ifname : List UInt8)

/-- What an attach returns, the attachments after it, whether it has `INTERFACE_CONNECTED_OK`
emulated, and the requests it has sent, in order. -/
structure Attached where
  ret : DwpaldRet
  attachments : List DwpaldHostapAttachment
  emulated : Bool
  sent : List HostapRequest

/-- An attach of an interface that is attached. -/
def attachAgain (requests : Requests) (attachments : List DwpaldHostapAttachment)
    (hapAttch : DwpaldHostapAttachment) (ifname : List UInt8)
    (hostapEvents : List DwpaldHostapEvent) (id : UInt32) : Option Attached :=
  let ret : DwpaldRet :=
    if hapAttch.state = interfaceDwpalStateConnected then .success else .dwpalIfaceIsDown
  if id = defaultAttachId then some ⟨ret, attachments, false, []⟩
  else
    (dwpaldAddHostapEvents hapAttch.hostapEvents hostapEvents id).map fun (err, events) =>
      let attachments := setHostapEvents attachments ifname events
      if err ≠ 0 then ⟨.error, attachments, false, []⟩
      else if hapAttch.hostapEvents.length ≠ events.length then
        if requests.sendHostapUpdateEvent ifname events ≠ .success then
          ⟨.error, attachments, false, [.update ifname events]⟩
        else ⟨ret, attachments, false, [.update ifname events]⟩
      else ⟨ret, attachments, false, []⟩

/-- The first attach of an interface. -/
def attachFirst (requests : Requests) (attachments : List DwpaldHostapAttachment)
    (ifname : List UInt8) (hostapEvents : List DwpaldHostapEvent) (commonEvent : Option Clb)
    (failOnIfaceDown : Bool) (id : UInt32) : Attached :=
  match dwpaldCopyHostapEvents [] id hostapEvents with
  | (0, events) =>
    let hapAttachment := newAttachment ifname commonEvent events
    let attachRequest := HostapRequest.attach hapAttachment
    match requests.sendHostapAttach hapAttachment with
    | (.success, state) =>
      let hapAttachment := { hapAttachment with state := state }
      if state = interfaceDwpalStateDisconnected then
        -- with the flag the daemon is sent a detach, and the new attachment is freed
        if failOnIfaceDown then
          ⟨.dwpalIfaceIsDown, attachments, false, [attachRequest, .detach ifname]⟩
        else ⟨.dwpalIfaceIsDown, attachments ++ [hapAttachment], false, [attachRequest]⟩
      else
        ⟨.success, attachments ++ [hapAttachment], state == interfaceDwpalStateConnected,
          [attachRequest]⟩
    | (ret, _) => ⟨ret, attachments, false, [attachRequest]⟩
  | _ => ⟨.error, attachments, false, []⟩

/-- `dwpald_hostap_attach_ex_with_id`, in the thread of the events (`eventThread`) or another one;
`hostapEvents` is `none` for a `NULL` with a number of events. The call is `none` when it reads
through a null pointer. -/
def dwpaldHostapAttachExWithId (requests : Requests) (eventThread : Bool)
    (attachments : List DwpaldHostapAttachment) (ifname : Option (List UInt8))
    (hostapEvents : Option (List DwpaldHostapEvent)) (commonEvent : Option Clb)
    (failOnIfaceDown : Bool) (id : UInt32) : Option Attached :=
  match ifname, hostapEvents with
  | some ifname, some hostapEvents =>
    if eventThread then some ⟨.failed, attachments, false, []⟩
    else
      match attachments.find? (·.named ifname) with
      | some hapAttch => attachAgain requests attachments hapAttch ifname hostapEvents id
      | none => some (attachFirst requests attachments ifname hostapEvents commonEvent
          failOnIfaceDown id)
  | _, _ => some ⟨.error, attachments, false, []⟩

/-- An attach that returns `ret` is in effect: with the flag, an attach that finds the interface
down has been undone, unless the interface was attached before. -/
def AttachSucceeded (attachments : List DwpaldHostapAttachment) (ifname : List UInt8)
    (failOnIfaceDown : Bool) (ret : DwpaldRet) : Prop :=
  ret = .success ∨ ret = .dwpalIfaceIsDown ∧
    (failOnIfaceDown = false ∨ (attachments.find? (·.named ifname)).isSome)

instance (attachments : List DwpaldHostapAttachment) (ifname : List UInt8) (failOnIfaceDown : Bool)
    (ret : DwpaldRet) : Decidable (AttachSucceeded attachments ifname failOnIfaceDown ret) :=
  inferInstanceAs (Decidable (_ ∨ _))

/-- `dwpald_hostap_attach_with_id`. -/
def dwpaldHostapAttachWithId (requests : Requests) (eventThread : Bool)
    (attachments : List DwpaldHostapAttachment) (ifname : Option (List UInt8))
    (hostapEvents : Option (List DwpaldHostapEvent)) (failOnIfaceDown : Bool) (id : UInt32) :
    Option Attached :=
  if id = defaultAttachId then some ⟨.error, attachments, false, []⟩
  else dwpaldHostapAttachExWithId requests eventThread attachments ifname hostapEvents none
    failOnIfaceDown id

/-- `dwpald_hostap_detach_with_id`, with the requests it has sent. -/
def dwpaldHostapDetachWithId (requests : Requests) (eventThread : Bool)
    (attachments : List DwpaldHostapAttachment) (ifname : Option (List UInt8)) (id : UInt32) :
    DwpaldRet × List DwpaldHostapAttachment × List HostapRequest :=
  match ifname with
  | none => (.error, attachments, [])
  | some ifname =>
    if eventThread then (.failed, attachments, [])
    else
      match attachments.find? (·.named ifname) with
      | none => (.success, attachments, [])
      | some hapAttch =>
        let events := dwpaldFreeHostapEventsWithId hapAttch.hostapEvents id
        let kept := setHostapEvents attachments ifname events
        if events.length = hapAttch.hostapEvents.length then (.success, kept, [])
        else
          let (ret, attachments, sent) :=
            if events.length = 0 then (requests.sendHostapDetach ifname,
              changeAttachment ifname (fun _ => none) attachments, [HostapRequest.detach ifname])
            else (requests.sendHostapUpdateEvent ifname events, kept, [.update ifname events])
          (if ret = .disconnected then .success else ret, attachments, sent)

/-! The dispatch of a received event. -/

/-- `OPCODE_SIZE`. -/
def opcodeSize : Nat := 64

/-- `MAX_NUM_CB_EVENTS`. -/
def maxNumCbEvents : Nat := 64

/-- A call of a callback, with the bytes at `event_msg`. -/
structure HostapCall where
  clb : Clb
  ifname : List UInt8
  opCode : List UInt8
  eventMsg : Option (List UInt8)
  eventMsgLen : Nat

/-- `copy_hostap_event`, for a positive number of events: the common handler in front of the
callbacks that are not `NULL`. -/
def copyHostapEvent (hapAttach : DwpaldHostapAttachment) (event : DwpaldHostapEventWithId)
    (maxNumEvents : Nat) : List Clb :=
  (hapAttach.commonEvent.toList ++ event.clbIdList.filterMap ClbId.clb).take maxNumEvents

/-- The state that an event tells of, if it is one of the three about the interface. -/
def intfEventState (opCode : List UInt8) : Option UInt8 :=
  let starts (name : List UInt8) : Bool := strncmpEq opCode name name.length
  if starts (ascii "INTERFACE_CONNECTED_OK") then some interfaceDwpalStateConnected
  else if starts (ascii "INTERFACE_RECONNECTED_OK") then some interfaceDwpalStateConnected
  else if starts (ascii "INTERFACE_DISCONNECTED") then some interfaceDwpalStateDisconnected
  else none

/-- `dwpald_receive_hostap_event` for the payload of the message and its header: what it returns,
the callbacks it calls, in order, and the attachments. -/
def dwpaldReceiveHostapEvent (attachments : List DwpaldHostapAttachment) (eventData : List UInt8)
    (hdr : DwpaldHeader) : Nat × List HostapCall × List DwpaldHostapAttachment :=
  let ifnameLen := hdr.header2.toNat
  let opCodeLen := hdr.header3.toNat
  let eventMsgLen := hdr.header4.toNat + 256 * hdr.header5.toNat
  if eventData.length ≠ ifnameLen + opCodeLen + eventMsgLen then (1, [], attachments)
  else if ifnameLen > ifnamsiz then (1, [], attachments)
  else if opCodeLen = 0 ∨ opCodeLen > opcodeSize - 1 then (1, [], attachments)
  else
    let ifname := cstr (eventData.take ifnameLen)
    let opCode := cstr ((eventData.drop ifnameLen).take opCodeLen)
    let eventMsg :=
      if eventMsgLen = 0 then none else some (eventData.drop (ifnameLen + opCodeLen))
    match attachments.find? (·.named ifname) with
    | none => (1, [], attachments)
    | some hapAttch =>
      let attachments :=
        match intfEventState opCode with
        | some state => changeAttachment ifname
            (fun hapAttch => some { hapAttch with state := state }) attachments
        | none => attachments
      match hapAttch.hostapEvents.find? (fun hapEvent =>
          strncmpEq hapEvent.opCode opCode opcodeSize) with
      | some hapEvent =>
        (0, (copyHostapEvent hapAttch hapEvent maxNumCbEvents).map fun clb =>
          ⟨clb, ifname, opCode, eventMsg, eventMsgLen - 1⟩, attachments)
      | none => (if (intfEventState opCode).isSome then 0 else 1, [], attachments)

/-! The attachment that a name finds. -/

theorem named_iff_bytes {ifname : List UInt8} {hapAttch : DwpaldHostapAttachment} :
    hapAttch.named ifname = true ↔ hapAttch.ifname.bytes = cstr ifname := by
  have hlt := hapAttch.ifname.length_lt
  rw [DwpaldHostapAttachment.named, strncmpEq_iff, CString.cstr_bytes,
    List.take_of_length_le (show hapAttch.ifname.bytes.length ≤ ifnamsiz + 1 by
      rw [ifnamsiz]; omega)]
  constructor
  · intro h
    have hlen := congrArg List.length h
    rw [List.length_take, ifnamsiz] at hlen
    rw [← h]
    exact List.take_of_length_le (by rw [ifnamsiz]; omega)
  · intro h
    rw [← h]
    exact List.take_of_length_le (by rw [ifnamsiz]; omega)

variable {attachments : List DwpaldHostapAttachment} {hapAttch : DwpaldHostapAttachment}
  {ifname : List UInt8}

theorem changeAttachment_eq (change : DwpaldHostapAttachment → Option DwpaldHostapAttachment)
    (hfind : attachments.find? (·.named ifname) = some hapAttch) :
    ∃ pre post, attachments = pre ++ hapAttch :: post ∧
      hapAttch.ifname.bytes = cstr ifname ∧
      changeAttachment ifname change attachments = pre ++ (change hapAttch).toList ++ post := by
  induction attachments with
  | nil => cases hfind
  | cons other attachments ih =>
    rw [List.find?_cons] at hfind
    cases hnamed : other.named ifname with
    | true =>
      simp only [hnamed, Option.some.injEq] at hfind
      subst hfind
      exact ⟨[], attachments, rfl, named_iff_bytes.mp hnamed, by simp [changeAttachment, hnamed]⟩
    | false =>
      simp only [hnamed] at hfind
      obtain ⟨pre, post, rfl, hbytes, hchange⟩ := ih hfind
      refine ⟨other :: pre, post, rfl, hbytes, ?_⟩
      simp [changeAttachment, hnamed, hchange]

end Dwpal.Client
