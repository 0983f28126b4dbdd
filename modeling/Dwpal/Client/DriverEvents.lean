import Dwpal.Client.HostapAttach

/-! The attachment of a connected client to the driver and the kernel in `daemon/dwpald_client.c`,
and the dispatch of a received driver event. Allocations succeed. -/

namespace Dwpal.Client

open Ipc Daemon

/-- `dwpald_driver_nl_event`. -/
structure DwpaldDriverNlEvent where
  nlId : UInt32
  drvClb : Option Clb

/-- `dwpald_driver_nl_event_with_id`; the key is the `nl_id`. -/
abbrev DwpaldDriverNlEventWithId := EventWithId UInt32

/-- The events of the driver. -/
def driverEventKind : EventKind DwpaldDriverNlEvent UInt32 where
  found nlId event := event.nlId == nlId
  unreadable _ := false
  clb event := event.drvClb
  pushesNull := false
  copyKey event := if event.drvClb.isNone then none else some event.nlId

/-- The name of a driver event is its `nl_id`. -/
def driverNaming : driverEventKind.Naming UInt32 where
  name nlId := nlId
  nameOf event := event.nlId
  found_of_eq {key event} h := by simpa [driverEventKind] using h.symm
  name_copyKey {event key} h := by
    simp only [driverEventKind] at h
    split at h <;> cases h
    rfl
  clb_copyKey {event key} h := by
    simp only [driverEventKind] at h
    split at h
    · cases h
    · next hclb =>
      simpa [driverEventKind, Option.isNone_iff_eq_none] using hclb
  readable_copyKey _ := rfl

/-- `dwpald_copy_driver_events`. -/
def dwpaldCopyDriverEvents (dst : List DwpaldDriverNlEventWithId) (id : UInt32)
    (driverEvents : List DwpaldDriverNlEvent) : Nat × List DwpaldDriverNlEventWithId :=
  driverEventKind.copyEvents dst id driverEvents

/-- `dwpald_add_driver_events`. -/
def dwpaldAddDriverEvents (events : List DwpaldDriverNlEventWithId)
    (drvEvents : List DwpaldDriverNlEvent) (id : UInt32) :
    Option (Int × List DwpaldDriverNlEventWithId) :=
  driverEventKind.addEvents events drvEvents id

/-- `dwpald_drv_nl_attachment`. -/
structure DwpaldDrvNlAttachment where
  drvEvents : List DwpaldDriverNlEventWithId
  nlEventCb : List ClbId

/-- `dwpald_push_kernel_callback`. -/
def dwpaldPushKernelCallback (l : List ClbId) (clb : Option Clb) (id : UInt32) : List ClbId :=
  if clb.isNone then l else l ++ [⟨clb, id⟩]

/-- `dwpald_add_kernel_events`. -/
def dwpaldAddKernelEvents (kernelClb : List ClbId) (kernelEvent : Option Clb) (id : UInt32) :
    List ClbId :=
  if kernelClb.any fun clb => clb.clb == kernelEvent then kernelClb
  else dwpaldPushKernelCallback kernelClb kernelEvent id

/-- What the requests of one call to the daemon end with. -/
structure DrvRequests where
  sendDrvNlAttach : List DwpaldDriverNlEventWithId → DwpaldRet
  sendDrvNlUpdateEvent : List DwpaldDriverNlEventWithId → DwpaldRet

/-- `dwpald_nl_drv_attach_with_id`: what it returns, and the attachment. `driverEvents` is `none`
for a `NULL` with a number of events. -/
def dwpaldNlDrvAttachWithId (requests : DrvRequests) (drvNlAttch : Option DwpaldDrvNlAttachment)
    (driverEvents : Option (List DwpaldDriverNlEvent)) (nlEventCb : Option Clb) (id : UInt32) :
    DwpaldRet × Option DwpaldDrvNlAttachment :=
  match driverEvents, drvNlAttch with
  | none, _ => (.error, drvNlAttch)
  | some driverEvents, some attch =>
    if id = defaultAttachId then (.success, some attch)
    else
      match dwpaldAddDriverEvents attch.drvEvents driverEvents id with
      | some (0, drvEvents) =>
        let ret :=
          if attch.drvEvents.length ≠ drvEvents.length then requests.sendDrvNlUpdateEvent drvEvents
          else .success
        let attch := { attch with drvEvents := drvEvents }
        if ret ≠ .success then (ret, some attch)
        else if nlEventCb.isNone then (.success, some attch)
        else (.success, some { attch with
          nlEventCb := dwpaldAddKernelEvents attch.nlEventCb nlEventCb id })
      | some (_, drvEvents) => (.error, some { attch with drvEvents := drvEvents })
      | none => (.error, some attch)
  | some driverEvents, none =>
    match dwpaldCopyDriverEvents [] id driverEvents with
    | (0, drvEvents) =>
      match requests.sendDrvNlAttach drvEvents with
      | .success => (.success, some ⟨drvEvents, dwpaldPushKernelCallback [] nlEventCb id⟩)
      | ret => (ret, none)
    | _ => (.error, none)

/-- A call of a callback of the driver; calling `none` would be a crash. -/
structure DriverCall where
  clb : Option Clb
  ifname : List UInt8
  event : UInt32
  data : List UInt8
  len : Nat

/-- `dwpald_receive_drv_event` for the payload of the message and its header: what it returns, and
the callbacks it calls, in order. -/
def dwpaldReceiveDrvEvent (drvNlAttch : Option DwpaldDrvNlAttachment) (eventData : List UInt8)
    (hdr : DwpaldHeader) : Nat × List DriverCall :=
  let ifnameLen := hdr.header2.toNat
  let dataSize := hdr.header3.toNat + 256 * hdr.header4.toNat
  if eventData.length = 0 then (1, [])
  else if eventData.length ≠ 4 + ifnameLen + dataSize then (1, [])
  else if ifnameLen > ifnamsiz then (1, [])
  else
    let eventId := UInt32.ofNat (le32 eventData)
    let ifname := cstr ((eventData.drop 4).take ifnameLen)
    match drvNlAttch with
    | none => (1, [])
    | some attch =>
      match attch.drvEvents.find? (fun drvEvent => drvEvent.key == eventId) with
      | some drvEvent =>
        (0, (drvEvent.clbIdList.take maxNumCbEvents).map fun drvClb =>
          ⟨drvClb.clb, ifname, eventId, eventData.drop (4 + ifnameLen), dataSize⟩)
      | none => (1, [])

end Dwpal.Client
