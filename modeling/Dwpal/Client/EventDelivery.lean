import Dwpal.Client.EventCodec

/-! The codecs of events over the whole way: what an encoder hands on is delivered to the registered
callbacks with the name, the op_code and the text that it was given. -/

namespace Dwpal.Client

open Ipc Daemon Frames

/-- What `dwpald_event` dispatches: the header of an event and its payload. -/
def eventOf (msg : WvIpcMsg) : Option (DwpaldHeader × List UInt8) :=
  match dwpaldHeaderPop msg with
  | .popped hdr msg => if hdr.header0 = dwpaldEvent then some (hdr, msg.payload) else none
  | _ => none

/-- What it dispatches after the message went over the socket into an object that holds `stale`. -/
def eventReceived (event : WvIpcMsg) (stale : Buffer waveIpcBuffSize) :
    Option (DwpaldHeader × List UInt8) :=
  match ipcHeaderPop (waveIpcTransfer event stale) with
  | .popped hdr msg => if hdr.header0 = waveIpcMsgEvent then eventOf msg else none
  | _ => none

theorem eventOf_headers {msg : WvIpcMsg} {hdr : DwpaldHeader} (hmsg : msg.Headers [hdr.bytes])
    (hevent : hdr.header0 = dwpaldEvent) : eventOf msg = some (hdr, msg.payload) := by
  obtain ⟨popped, hpop, -, hdata, hlen⟩ := dwpaldHeaderPop_last hmsg
  rw [eventOf, hpop]
  simp only
  rw [if_pos hevent, payload_eq_of_same hdata hlen]

theorem eventReceived_headers {msg : WvIpcMsg} {hdr : DwpaldHeader} (hmsg : msg.Headers [hdr.bytes])
    (hevent : hdr.header0 = dwpaldEvent) (stale : Buffer waveIpcBuffSize) :
    eventReceived (ipcHeaderPush msg ⟨waveIpcMsgEvent, 0, 0, 0⟩).2 stale =
      some (hdr, msg.payload) := by
  obtain ⟨pushed, hpush, hheaders, hdata, hlen⟩ :=
    ipcHeaderPush_top hmsg (by simp [encode_cons]) ⟨waveIpcMsgEvent, 0, 0, 0⟩
  obtain ⟨popped, hpop, hrest, hdata', hlen'⟩ := ipcHeaderPop_top (headers_transfer hheaders stale)
  rw [hpush, eventReceived, hpop]
  simp only [if_true]
  rw [eventOf_headers hrest hevent, payload_eq_of_same hdata' hlen', payload_transfer,
    payload_eq_of_same hdata hlen]

/-- The payload and the header are the encoding of an event of the interface. -/
structure HostapEncoding (ifname opCode text : List UInt8) (eventData : List UInt8)
    (hdr : DwpaldHeader) : Prop where
  ifname_notMem : 0 ∉ ifname
  ifname_le : ifname.length ≤ ifnamsiz
  opCode_notMem : 0 ∉ opCode
  opCode_pos : 0 < opCode.length
  opCode_lt : opCode.length < opcodeSize
  ifnameLen : hdr.header2.toNat = ifname.length
  opCodeLen : hdr.header3.toNat = opCode.length
  eventMsgLen : hdr.header4.toNat + 256 * hdr.header5.toNat = (eventText text).length
  eventData_eq : eventData = ifname ++ opCode ++ eventText text

def IsHostapEvent (eventData : List UInt8) (hdr : DwpaldHeader) : Prop :=
  ∃ ifname opCode text, HostapEncoding ifname opCode text eventData hdr

/-- A received event calls the callbacks that are registered for the op_code on the interface, each
with the name, the op_code, the text with its terminator, and the length of the text. -/
def HostapDelivers (attachments : List DwpaldHostapAttachment)
    (received : Option (DwpaldHeader × List UInt8)) (ifname opCode text : List UInt8) : Prop :=
  ∃ hdr eventData, received = some (hdr, eventData) ∧ hdr.header1 = dwpaldIfTypeHostap ∧
    ∀ hapAttch hapEvent, attachments.find? (·.named ifname) = some hapAttch →
      entryOf OpCode.opCode hapAttch.hostapEvents opCode = some hapEvent →
        (dwpaldReceiveHostapEvent attachments eventData hdr).1 = 0 ∧
          (dwpaldReceiveHostapEvent attachments eventData hdr).2.1 =
            (copyHostapEvent hapAttch hapEvent maxNumCbEvents).map fun clb =>
              ⟨clb, ifname, opCode, if text = [] then none else some (text ++ [0]), text.length⟩

theorem HostapEncoding.lengths {ifname opCode text eventData : List UInt8} {hdr : DwpaldHeader}
    (h : HostapEncoding ifname opCode text eventData hdr) : HostapLengths eventData hdr := by
  refine ⟨?_, ?_, ?_, ?_⟩
  · rw [h.ifnameLen, h.opCodeLen, h.eventMsgLen, h.eventData_eq]
    simp only [List.length_append]
  · rw [h.ifnameLen]
    exact h.ifname_le
  · rw [h.opCodeLen]
    exact h.opCode_pos
  · rw [h.opCodeLen]
    exact h.opCode_lt

theorem eventText_nil {text : List UInt8} (h : (eventText text).length = 0) : text = [] := by
  rw [length_eventText] at h
  split at h
  · assumption
  · cases h

theorem HostapEncoding.delivers {attachments : List DwpaldHostapAttachment}
    {ifname opCode text eventData : List UInt8} {hdr : DwpaldHeader}
    (h : HostapEncoding ifname opCode text eventData hdr)
    (htype : hdr.header1 = dwpaldIfTypeHostap) :
    HostapDelivers attachments (some (hdr, eventData)) ifname opCode text := by
  refine ⟨hdr, eventData, rfl, htype, fun hapAttch hapEvent hfind hentry => ?_⟩
  have hname : eventData.take hdr.header2.toNat = ifname := by
    rw [h.ifnameLen, h.eventData_eq, List.append_assoc, List.take_left' rfl]
  have hcode : (eventData.drop hdr.header2.toNat).take hdr.header3.toNat = opCode := by
    rw [h.ifnameLen, h.opCodeLen, h.eventData_eq, List.append_assoc, List.drop_left' rfl,
      List.take_left' rfl]
  have htext : eventData.drop (hdr.header2.toNat + hdr.header3.toNat) = eventText text := by
    rw [h.ifnameLen, h.opCodeLen, h.eventData_eq]
    exact List.drop_left' (List.length_append ..)
  have hevent : hapAttch.hostapEvents.find? (fun hapEvent =>
      strncmpEq hapEvent.opCode opCode opcodeSize) = some hapEvent := by
    rw [← hentry, entryOf]
    congr 1
    funext other
    rw [Bool.eq_iff_iff, decide_eq_true_iff]
    exact strncmpEq_opCode other.key.zero_notMem h.opCode_lt h.opCode_notMem
  rw [receiveHostapEvent_accepts h.lengths, hname, hcode, htext, h.eventMsgLen,
    cstr_of_notMem h.ifname_notMem, cstr_of_notMem h.opCode_notMem, dispatchHostap, hfind]
  simp only [hevent, true_and]
  by_cases hnil : text = []
  · subst hnil
    rfl
  · have htext' : eventText text = text ++ [0] := if_neg hnil
    rw [if_neg (fun hzero => hnil (eventText_nil hzero)), if_neg hnil, htext', List.length_append]
    rfl

/-- The length of a string that is short enough survives the cast to `uint8_t`. -/
theorem toNat_length8 {s : List UInt8} {n : Nat} (h : (cstr s).length ≤ n) (hn : n < 256) :
    (UInt8.ofNat (cstr s).length).toNat = (cstr s).length := by
  rw [UInt8.toNat_ofNat']
  exact Nat.mod_eq_of_lt (by omega)

theorem isPrefix_cstr (s : List UInt8) : cstr s <+: s := List.takeWhile_prefix _

theorem take_length_cstr (s : List UInt8) : s.take (cstr s).length = cstr s :=
  (List.prefix_iff_eq_take.mp (isPrefix_cstr s)).symm

/-- The message that the shared part of the encoders makes of a name, an op_code and a text. -/
theorem encoded_isHostapEvent {stale : Buffer waveIpcBuffSize} {ifname opCode : List UInt8}
    {msg : Option (List UInt8)} {msgLen : UInt64} (hname : (cstr ifname).length ≤ ifnamsiz)
    (hpos : 0 < (cstr opCode).length) (hcode : (cstr opCode).length < opcodeSize)
    (hmsg : (msg.getD []).length = msgLen.toNat)
    (hfit : (cstr ifname).length + (cstr opCode).length + (eventText (msg.getD [])).length ≤
      waveIpcBuffSize) :
    ∃ eMsg hdr, encodeHostapEvent stale ifname (UInt8.ofNat (cstr ifname).length) opCode
        (UInt8.ofNat (cstr opCode).length) msg msgLen = .handedOn eMsg ∧
      eMsg.Headers [hdr.bytes] ∧ hdr.header0 = dwpaldEvent ∧ hdr.header1 = dwpaldIfTypeHostap ∧
      HostapEncoding (cstr ifname) (cstr opCode) (msg.getD []) eMsg.payload hdr := by
  have hname8 := toNat_length8 hname (by decide)
  have hcode8 := toNat_length8 hcode.le (by decide)
  have hname' : (UInt8.ofNat (cstr ifname).length).toNat ≤ ifname.length :=
    hname8.trans_le (isPrefix_cstr ifname).length_le
  have hcode' : (UInt8.ofNat (cstr opCode).length).toNat ≤ opCode.length :=
    hcode8.trans_le (isPrefix_cstr opCode).length_le
  obtain ⟨eMsg, hencode, hheaders, hpayload⟩ := encodeHostapEvent_fits hname'
    hcode' (by rw [hcode8]; exact hpos) hmsg (by rw [hname8, hcode8]; exact hfit)
  rw [hname8, hcode8, take_length_cstr, take_length_cstr] at hpayload
  refine ⟨eMsg, _, hencode, hheaders, rfl, rfl, cstr_zero_notMem ifname, hname,
    cstr_zero_notMem opCode, hpos, hcode, hname8, hcode8, ?_, hpayload⟩
  rw [hostapEventHdr]
  simp only [wvAligned16BitAssign_fetch, UInt16.toNat_ofNat']
  exact Nat.mod_eq_of_lt (by rw [waveIpcBuffSize] at hfit; omega)

/-! Events of the driver. -/

/-- The payload and the header are the encoding of an event of the driver. -/
structure DrvEncoding (ifname : List UInt8) (event : UInt32) (data eventData : List UInt8)
    (hdr : DwpaldHeader) : Prop where
  ifname_notMem : 0 ∉ ifname
  ifname_le : ifname.length ≤ ifnamsiz
  ifnameLen : hdr.header2.toNat = ifname.length
  dataSize : hdr.header3.toNat + 256 * hdr.header4.toNat = data.length
  eventData_eq : eventData = nlIdBytes event ++ ifname ++ data

def IsDrvEvent (eventData : List UInt8) (hdr : DwpaldHeader) : Prop :=
  ∃ ifname event data, DrvEncoding ifname event data eventData hdr

/-- A received event calls the callbacks that are registered for the event of the driver, each with
the name of the interface, the event, the data and its length. -/
def DrvDelivers (drvNlAttch : Option DwpaldDrvNlAttachment)
    (received : Option (DwpaldHeader × List UInt8)) (ifname : List UInt8) (event : UInt32)
    (data : List UInt8) : Prop :=
  ∃ hdr eventData, received = some (hdr, eventData) ∧ hdr.header1 = dwpaldIfTypeDriver ∧
    ∀ attch drvEvent, drvNlAttch = some attch →
      attch.drvEvents.find? (fun drvEvent => drvEvent.key == event) = some drvEvent →
        dwpaldReceiveDrvEvent drvNlAttch eventData hdr =
          (0, (drvEvent.clbIdList.take maxNumCbEvents).map fun drvClb =>
            ⟨drvClb.clb, ifname, event, data, data.length⟩)

theorem DrvEncoding.lengths {ifname data eventData : List UInt8} {event : UInt32}
    {hdr : DwpaldHeader} (h : DrvEncoding ifname event data eventData hdr) :
    DrvLengths eventData hdr := by
  refine ⟨?_, ?_⟩
  · rw [h.ifnameLen, h.dataSize, h.eventData_eq]
    simp only [List.length_append]
    rfl
  · rw [h.ifnameLen]
    exact h.ifname_le

theorem DrvEncoding.delivers {drvNlAttch : Option DwpaldDrvNlAttachment}
    {ifname data eventData : List UInt8} {event : UInt32} {hdr : DwpaldHeader}
    (h : DrvEncoding ifname event data eventData hdr) (htype : hdr.header1 = dwpaldIfTypeDriver) :
    DrvDelivers drvNlAttch (some (hdr, eventData)) ifname event data := by
  refine ⟨hdr, eventData, rfl, htype, fun attch drvEvent hattch hfind => ?_⟩
  have hdrop : eventData.drop 4 = ifname ++ data := by
    rw [h.eventData_eq, List.append_assoc]
    exact List.drop_left' rfl
  have hname : (eventData.drop 4).take hdr.header2.toNat = ifname := by
    rw [hdrop, h.ifnameLen, List.take_left' rfl]
  have hdata : eventData.drop (4 + hdr.header2.toNat) = data := by
    rw [← List.drop_drop, hdrop, h.ifnameLen, List.drop_left' rfl]
  have hevent : UInt32.ofNat (le32 eventData) = event := by
    rw [h.eventData_eq, List.append_assoc, le32_nlIdBytes_append]
    exact UInt32.ofNat_toNat
  rw [receiveDrvEvent_accepts h.lengths, hname, hdata, hevent, h.dataSize,
    cstr_of_notMem h.ifname_notMem, hattch]
  simp only [dispatchDrv, hfind]

/-- The message that the encoder of the daemon makes of an event that fits. -/
theorem vendorEvent_isDrvEvent (clientStale : Buffer waveIpcBuffSize)
    {stale : Buffer waveIpcBuffSize} {ifname data : List UInt8} {subevent : UInt32} {len : UInt64}
    (hname : (cstr ifname).length ≤ ifnamsiz) (hdata : data.length = len.toNat)
    (hfit : 4 + (cstr ifname).length + data.length ≤ waveIpcBuffSize) :
    ∃ work hdr eventData,
      dwpalNlVendorEventCallback stale ifname nl80211CmdVendor subevent len data =
        (.success, .handedOn work) ∧
      eventReceived work.event clientStale = some (hdr, eventData) ∧
      hdr.header1 = dwpaldIfTypeDriver ∧
      DrvEncoding (cstr ifname) subevent data eventData hdr := by
  have hname8 := toNat_length8 hname (by decide)
  have hlen16 : len.toUInt16.toNat = data.length := by
    rw [UInt64.toNat_toUInt16, ← hdata]
    exact Nat.mod_eq_of_lt (by rw [waveIpcBuffSize] at hfit; omega)
  have hwide : len.toUInt16.toUInt64 = len := by
    rw [toUInt16_toUInt64_eq, ← hdata]
    rw [waveIpcBuffSize] at hfit
    omega
  let hdr : DwpaldHeader := ⟨dwpaldEvent, dwpaldIfTypeDriver, UInt8.ofNat (cstr ifname).length,
    (wvAligned16BitAssign len.toUInt16).1, (wvAligned16BitAssign len.toUInt16).2, 0⟩
  obtain ⟨eMsg, hheaders, -, -, hpush, hreserve⟩ := reserve_fresh stale hdr
    (4 + (cstr ifname).length + data.length) (by omega)
  have hthree := take_write_three eMsg.data (a := nlIdBytes subevent) (b := cstr ifname) (c := data)
    hfit
  have hget : waveIpcMsgGetData { eMsg with
      dataLen := 4 + (cstr ifname).length + data.length
      dataLen_le := hfit } = some eMsg.data.bytes := if_neg (by simp only; omega)
  let filled : WvIpcMsg := { eMsg with
    dataLen := 4 + (cstr ifname).length + data.length
    dataLen_le := hfit
    data := ((eMsg.data.write 0 (nlIdBytes subevent)).write 4 (cstr ifname)).write
      (4 + (cstr ifname).length) data }
  have hfilled : filled.Headers [hdr.bytes] := ⟨hheaders.fits, hheaders.room, hheaders.area⟩
  refine ⟨⟨(ipcHeaderPush filled ⟨waveIpcMsgEvent, 0, 0, 0⟩).2,
    .copyFrom (ascii "nl_drv") 6 (by decide), subevent⟩, hdr, filled.payload, ?_,
    eventReceived_headers hfilled rfl clientStale, rfl, cstr_zero_notMem ifname, hname, hname8, ?_,
    hthree⟩
  · rw [dwpalNlVendorEventCallback]
    simp only
    rw [if_neg (not_not.mpr rfl), if_neg (not_not.mpr hwide)]
    simp only [hdr] at hpush
    rw [hpush, hname8, hlen16, hreserve (Nat.not_lt.mpr hfit)]
    simp only [hget, take_length_cstr, List.take_length]
    rfl
  · rw [← hlen16]
    exact wvAligned16BitAssign_fetch _

theorem vendorEvent_tooLong {stale : Buffer waveIpcBuffSize} {ifname data : List UInt8}
    {subevent : UInt32} {len : UInt64} (hname : (cstr ifname).length ≤ ifnamsiz)
    (hdata : data.length = len.toNat)
    (hlong : waveIpcBuffSize < 4 + (cstr ifname).length + data.length) :
    dwpalNlVendorEventCallback stale ifname nl80211CmdVendor subevent len data = (.failure, .put) ∨
      dwpalNlVendorEventCallback stale ifname nl80211CmdVendor subevent len data =
        (.failure, .notAllocated) := by
  rw [dwpalNlVendorEventCallback]
  simp only
  rw [if_neg (not_not.mpr rfl)]
  by_cases hwide : len.toUInt16.toUInt64 = len
  · have hname8 := toNat_length8 hname (by decide)
    have hlen16 : len.toUInt16.toNat = data.length := by
      rw [UInt64.toNat_toUInt16, ← hdata]
      rw [toUInt16_toUInt64_eq, ← hdata] at hwide
      exact Nat.mod_eq_of_lt hwide
    left
    rw [if_neg (not_not.mpr hwide), waveIpcMsgReserveData, hname8, hlen16, if_neg (by omega),
      dif_pos hlong]
  · right
    rw [if_pos hwide]

/-! The whole way. -/

/-- The encoder of the daemon and the decoder of hostap events. -/
def DaemonCodec (attachments : List DwpaldHostapAttachment)
    (stale clientStale : Buffer waveIpcBuffSize) (vapName opCode : List UInt8)
    (msg : Option (List UInt8)) (msgLen : UInt64) : Prop :=
  let size := (cstr vapName).length + (cstr opCode).length + (eventText (msg.getD [])).length
  let out := dwpalExtHostapEventCallback stale (some vapName) (some opCode) msg msgLen
  (size ≤ waveIpcBuffSize → ∃ work, out = (.success, .handedOn work) ∧
    HostapDelivers attachments (eventReceived work.event clientStale) (cstr vapName) (cstr opCode)
      (msg.getD [])) ∧
  (waveIpcBuffSize < size → out.1 ≠ .success ∧ out.2 = .put)

/-- The encoder of the client and the decoder of hostap events. -/
def ClientCodec (attachments : List DwpaldHostapAttachment) (stale : Buffer waveIpcBuffSize)
    (ifname opCode : List UInt8) (msg : Option (List UInt8)) (msgLen : UInt64)
    (emulated : WvIpcRet) : Prop :=
  let size := (cstr ifname).length + (cstr opCode).length + (eventText (msg.getD [])).length
  let out := dwpaldEmulateEvent stale (some ifname) (some opCode) msg msgLen emulated
  (size ≤ waveIpcBuffSize → ∃ eMsg,
    out = (if emulated = .success then 0 else 1, .handedOn eMsg) ∧
    HostapDelivers attachments (eventOf eMsg) (cstr ifname) (cstr opCode) (msg.getD [])) ∧
  (waveIpcBuffSize < size → out.1 ≠ 0 ∧ out.2 = .put)

/-- The encoder and the decoder of driver events. -/
def DriverCodec (drvNlAttch : Option DwpaldDrvNlAttachment)
    (stale clientStale : Buffer waveIpcBuffSize) (ifname : List UInt8) (subevent : UInt32)
    (len : UInt64) (data : List UInt8) : Prop :=
  let size := 4 + (cstr ifname).length + data.length
  let out := dwpalNlVendorEventCallback stale ifname nl80211CmdVendor subevent len data
  (size ≤ waveIpcBuffSize → ∃ work, out = (.success, .handedOn work) ∧
    DrvDelivers drvNlAttch (eventReceived work.event clientStale) (cstr ifname) subevent data) ∧
  (waveIpcBuffSize < size → out.1 ≠ .success ∧ (out.2 = .put ∨ out.2 = .notAllocated))

/-- Whatever is not the encoding of a hostap event is rejected, and nothing outside the payload is
read. -/
def HostapDecoder (attachments : List DwpaldHostapAttachment) (eventData : List UInt8)
    (hdr : DwpaldHeader) : Prop :=
  (∀ read ∈ hostapEventReads eventData.length hdr, read.1 + read.2 ≤ eventData.length) ∧
  (¬ IsHostapEvent eventData hdr →
    dwpaldReceiveHostapEvent attachments eventData hdr = (1, [], attachments))

/-- The same of driver events. -/
def DrvDecoder (drvNlAttch : Option DwpaldDrvNlAttachment) (eventData : List UInt8)
    (hdr : DwpaldHeader) : Prop :=
  (∀ read ∈ drvEventReads eventData.length hdr, read.1 + read.2 ≤ eventData.length) ∧
  (¬ IsDrvEvent eventData hdr → dwpaldReceiveDrvEvent drvNlAttch eventData hdr = (1, []))

/-- The op_code of an event, as the decoder reads it. -/
def receivedOpCode (eventData : List UInt8) (hdr : DwpaldHeader) : List UInt8 :=
  cstr ((eventData.drop hdr.header2.toNat).take hdr.header3.toNat)

/-- The text is passed whenever there is one. -/
theorem msg_given {msg : Option (List UInt8)} {msgLen : UInt64}
    (hmsg : (msg.getD []).length = msgLen.toNat) : ¬ (msg.isNone ∧ msgLen ≠ 0) := by
  rintro ⟨hnone, hne⟩
  rw [Option.isNone_iff_eq_none] at hnone
  subst hnone
  exact hne (UInt64.toNat_inj.mp hmsg.symm)

theorem lt_length_eventText {msg : Option (List UInt8)} {msgLen : UInt64}
    (hmsg : (msg.getD []).length = msgLen.toNat) (hhuge : 65535 ≤ msgLen.toNat) :
    waveIpcBuffSize < (eventText (msg.getD [])).length := by
  rw [length_eventText, waveIpcBuffSize]
  split
  · next hnil =>
    rw [hnil, List.length_nil] at hmsg
    omega
  · omega

section Hostap

variable {attachments : List DwpaldHostapAttachment} {stale clientStale : Buffer waveIpcBuffSize}
  {ifname opCode : List UInt8} {msg : Option (List UInt8)} {msgLen : UInt64}

/-- The message that cannot be sent is put back unless its length with the terminator is not a
`uint16_t`. -/
theorem daemonCodec_iff (hname : (cstr ifname).length ≤ ifnamsiz) (hpos : 0 < (cstr opCode).length)
    (hcode : (cstr opCode).length < opcodeSize) (hmsg : (msg.getD []).length = msgLen.toNat) :
    DaemonCodec attachments stale clientStale ifname opCode msg msgLen ↔ msgLen.toNat < 65535 := by
  have hname8 := toNat_length8 hname (by decide)
  have hcode8 := toNat_length8 hcode.le (by decide)
  unfold DaemonCodec dwpalExtHostapEventCallback
  simp only
  rw [if_neg (msg_given hmsg)]
  constructor
  · rintro ⟨-, hlong⟩
    by_contra hhuge
    have hsize := lt_length_eventText hmsg (Nat.le_of_not_lt hhuge)
    obtain ⟨-, hput⟩ := hlong (by omega)
    rcases encodeHostapEvent_huge (hcode8 ▸ hpos) hmsg (Nat.le_of_not_lt hhuge) with
      hlost | ⟨eMsg, hon⟩
    · rw [hlost] at hput
      cases hput
    · rw [hon] at hput
      cases hput
  · intro hshort
    refine ⟨fun hfit => ?_, fun hlong => ?_⟩
    · obtain ⟨eMsg, hdr, hencode, hheaders, hevent, htype, hencoding⟩ :=
        encoded_isHostapEvent hname hpos hcode hmsg hfit
      rw [hencode]
      refine ⟨_, rfl, ?_⟩
      simp only
      rw [eventReceived_headers hheaders hevent]
      exact hencoding.delivers htype
    · rw [encodeHostapEvent_tooLong hmsg hshort (by rw [hname8, hcode8]; exact hlong)]
      exact ⟨DwpalRet.noConfusion, rfl⟩

theorem clientCodec_iff {emulated : WvIpcRet} (hname : (cstr ifname).length ≤ ifnamsiz)
    (hpos : 0 < (cstr opCode).length) (hcode : (cstr opCode).length < opcodeSize)
    (hmsg : (msg.getD []).length = msgLen.toNat) :
    ClientCodec attachments stale ifname opCode msg msgLen emulated ↔ msgLen.toNat < 65535 := by
  have hname8 := toNat_length8 hname (by decide)
  have hcode8 := toNat_length8 hcode.le (by decide)
  unfold ClientCodec dwpaldEmulateEvent strnlenS
  simp only
  rw [if_neg (msg_given hmsg), Nat.min_eq_left hname, Nat.min_eq_left hcode.le]
  constructor
  · rintro ⟨-, hlong⟩
    by_contra hhuge
    have hsize := lt_length_eventText hmsg (Nat.le_of_not_lt hhuge)
    obtain ⟨-, hput⟩ := hlong (by omega)
    rcases encodeHostapEvent_huge (hcode8 ▸ hpos) hmsg (Nat.le_of_not_lt hhuge) with
      hlost | ⟨eMsg, hon⟩
    · rw [hlost] at hput
      cases hput
    · rw [hon] at hput
      cases hput
  · intro hshort
    refine ⟨fun hfit => ?_, fun hlong => ?_⟩
    · obtain ⟨eMsg, hdr, hencode, hheaders, hevent, htype, hencoding⟩ :=
        encoded_isHostapEvent hname hpos hcode hmsg hfit
      rw [hencode]
      refine ⟨eMsg, rfl, ?_⟩
      rw [eventOf_headers hheaders hevent]
      exact hencoding.delivers htype
    · rw [encodeHostapEvent_tooLong hmsg hshort (by rw [hname8, hcode8]; exact hlong)]
      exact ⟨Int.one_ne_zero, rfl⟩

/-- The decoder checks the lengths only: a payload with the right lengths that no encoder makes is
dispatched if somebody listens to it. -/
theorem hostapDecoder_iff {eventData : List UInt8} {hdr : DwpaldHeader} :
    HostapDecoder attachments eventData hdr ↔
      IsHostapEvent eventData hdr ∨ ¬ HostapLengths eventData hdr ∨
        Unheard attachments (cstr (eventData.take hdr.header2.toNat))
          (receivedOpCode eventData hdr) := by
  unfold HostapDecoder receivedOpCode
  rw [and_iff_right hostapEventReads_inside]
  by_cases hevent : IsHostapEvent eventData hdr
  · simp [hevent]
  · simp only [hevent, not_false_eq_true, true_implies, false_or]
    by_cases hlengths : HostapLengths eventData hdr
    · rw [receiveHostapEvent_accepts hlengths, dispatchHostap_rejects]
      simp only [hlengths, not_true_eq_false, false_or]
    · simp only [hlengths, not_false_eq_true, true_or, receiveHostapEvent_rejects]

end Hostap

section Driver

variable {drvNlAttch : Option DwpaldDrvNlAttachment}

theorem driverCodec {stale clientStale : Buffer waveIpcBuffSize} {ifname data : List UInt8}
    {subevent : UInt32} {len : UInt64} (hname : (cstr ifname).length ≤ ifnamsiz)
    (hdata : data.length = len.toNat) :
    DriverCodec drvNlAttch stale clientStale ifname subevent len data := by
  refine ⟨fun hfit => ?_, fun hlong => ?_⟩
  · obtain ⟨work, hdr, eventData, hwork, hreceived, htype, hencoding⟩ :=
      vendorEvent_isDrvEvent clientStale hname hdata hfit
    refine ⟨work, hwork, ?_⟩
    rw [hreceived]
    exact hencoding.delivers htype
  · rcases vendorEvent_tooLong hname hdata hlong with hput | hnone
    · rw [hput]
      exact ⟨DwpalRet.noConfusion, .inl rfl⟩
    · rw [hnone]
      exact ⟨DwpalRet.noConfusion, .inr rfl⟩

theorem drvDecoder_iff {eventData : List UInt8} {hdr : DwpaldHeader} :
    DrvDecoder drvNlAttch eventData hdr ↔
      IsDrvEvent eventData hdr ∨ ¬ DrvLengths eventData hdr ∨
        DrvUnheard drvNlAttch (UInt32.ofNat (le32 eventData)) := by
  unfold DrvDecoder
  rw [and_iff_right drvEventReads_inside]
  by_cases hevent : IsDrvEvent eventData hdr
  · simp [hevent]
  · simp only [hevent, not_false_eq_true, true_implies, false_or]
    by_cases hlengths : DrvLengths eventData hdr
    · rw [receiveDrvEvent_accepts hlengths, dispatchDrv_rejects]
      simp only [hlengths, not_true_eq_false, false_or]
    · simp only [hlengths, not_false_eq_true, true_or, receiveDrvEvent_rejects]

end Driver

/-- What the codecs of events do for every name, op_code, text, driver event and received
payload. -/
theorem eventCodecs (attachments : List DwpaldHostapAttachment)
    (drvNlAttch : Option DwpaldDrvNlAttachment) (stale clientStale : Buffer waveIpcBuffSize)
    (ifname opCode : List UInt8) (msg : Option (List UInt8)) (msgLen : UInt64) (emulated : WvIpcRet)
    (subevent : UInt32) (len : UInt64) (data eventData : List UInt8) (hdr : DwpaldHeader)
    (hname : (cstr ifname).length ≤ ifnamsiz) (hpos : 0 < (cstr opCode).length)
    (hcode : (cstr opCode).length < opcodeSize) (hmsg : (msg.getD []).length = msgLen.toNat)
    (hdata : data.length = len.toNat) :
    (DaemonCodec attachments stale clientStale ifname opCode msg msgLen ↔ msgLen.toNat < 65535) ∧
    (ClientCodec attachments stale ifname opCode msg msgLen emulated ↔ msgLen.toNat < 65535) ∧
    DriverCodec drvNlAttch stale clientStale ifname subevent len data ∧
    (HostapDecoder attachments eventData hdr ↔
      IsHostapEvent eventData hdr ∨ ¬ HostapLengths eventData hdr ∨
        Unheard attachments (cstr (eventData.take hdr.header2.toNat))
          (receivedOpCode eventData hdr)) ∧
    (DrvDecoder drvNlAttch eventData hdr ↔
      IsDrvEvent eventData hdr ∨ ¬ DrvLengths eventData hdr ∨
        DrvUnheard drvNlAttch (UInt32.ofNat (le32 eventData))) := by
  refine ⟨?_, ?_, ?_, ?_, ?_⟩
  · exact daemonCodec_iff hname hpos hcode hmsg
  · exact clientCodec_iff hname hpos hcode hmsg
  · exact driverCodec hname hdata
  · exact hostapDecoder_iff
  · exact drvDecoder_iff

/-- One callback for `AP-ENABLED` on `wlan0`. -/
def listening : List DwpaldHostapAttachment :=
  [newAttachment (ascii "wlan0") none [⟨copyOpCode (ascii "AP-ENABLED") 10, [⟨some 0x400, 1⟩]⟩]]

theorem eventCodecs_apEnabled :
    DaemonCodec listening (Buffer.fill waveIpcBuffSize 7) (Buffer.fill waveIpcBuffSize 9)
        (ascii "wlan0") (ascii "AP-ENABLED") (some (ascii "up")) 2 ∧
      DrvDecoder none [1, 2, 3] ⟨dwpaldEvent, dwpaldIfTypeDriver, 0, 0, 0, 0⟩ := by
  obtain ⟨hdaemon, -, -, -, hdriver⟩ := eventCodecs listening none (Buffer.fill waveIpcBuffSize 7)
    (Buffer.fill waveIpcBuffSize 9) (ascii "wlan0") (ascii "AP-ENABLED") (some (ascii "up")) 2
    .success 0 0 [] [1, 2, 3] ⟨dwpaldEvent, dwpaldIfTypeDriver, 0, 0, 0, 0⟩ (by decide) (by decide)
    (by decide) (by decide) (by decide)
  refine ⟨hdaemon.mpr (by decide), hdriver.mpr (.inr (.inl ?_))⟩
  rintro ⟨h, -⟩
  exact absurd h (by decide)

/-- A text of 65535 bytes, in the daemon and in the client; and an event of `wlan0` with the text
`x` that has no terminator. -/
theorem longText_breaks_codec :
    ¬ DaemonCodec listening (Buffer.fill waveIpcBuffSize 0) (Buffer.fill waveIpcBuffSize 0)
        (ascii "wlan0") (ascii "AP-ENABLED") (some (List.replicate 65535 120)) 65535 ∧
      ¬ ClientCodec listening (Buffer.fill waveIpcBuffSize 0) (ascii "wlan0") (ascii "AP-ENABLED")
        (some (List.replicate 65535 120)) 65535 .success ∧
      ¬ HostapDecoder listening (ascii "wlan0AP-ENABLEDx")
        ⟨dwpaldEvent, dwpaldIfTypeHostap, 5, 10, 1, 0⟩ := by
  have hmsg : ((some (List.replicate 65535 (120 : UInt8))).getD []).length =
      (65535 : UInt64).toNat := by
    rw [Option.getD_some, List.length_replicate]
    rfl
  refine ⟨?_, ?_, ?_⟩
  · exact (daemonCodec_iff (by decide) (by decide) (by decide) hmsg).not.mpr (by decide)
  · exact (clientCodec_iff (by decide) (by decide) (by decide) hmsg).not.mpr (by decide)
  · rintro ⟨-, hrejected⟩
    have hno : ¬ IsHostapEvent (ascii "wlan0AP-ENABLEDx")
        ⟨dwpaldEvent, dwpaldIfTypeHostap, 5, 10, 1, 0⟩ := by
      rintro ⟨ifname, opCode, text, h⟩
      by_cases hnil : text = []
      · have hlen := h.eventMsgLen
        rw [hnil] at hlen
        exact absurd hlen (by decide)
      · have hdata := congrArg List.getLast? h.eventData_eq
        have htext : eventText text = text ++ [0] := if_neg hnil
        rw [htext, ← List.append_assoc, List.getLast?_concat] at hdata
        exact absurd hdata (by decide)
    have hret := congrArg Prod.fst (hrejected hno)
    exact absurd hret (by decide)

end Dwpal.Client
