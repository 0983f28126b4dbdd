import Dwpal.Client.AttachComplete
import Dwpal.Daemon.Events

/-! The codecs of events: what the two encoders of hostap events and the encoder of driver events
put into a message, and what `dwpald_receive_hostap_event` and `dwpald_receive_drv_event` make of it
and of every other payload. -/

namespace Dwpal.Client

open Ipc Daemon

/-- `strnlen_s`. -/
def strnlenS (s : List UInt8) (smax : Nat) : Nat := min (cstr s).length smax

/-- `dwpald_emulate_event`, where `wave_ipcc_emulate_event` ends with `emulated`. -/
def dwpaldEmulateEvent (stale : Buffer waveIpcBuffSize) (ifname opCode msg : Option (List UInt8))
    (msgLen : UInt64) (emulated : WvIpcRet) : Int × Encoded WvIpcMsg :=
  match ifname, opCode with
  | some ifname, some opCode =>
    if msg.isNone ∧ msgLen ≠ 0 then (1, .notAllocated)
    else
      match encodeHostapEvent stale ifname (UInt8.ofNat (strnlenS ifname ifnamsiz)) opCode
        (UInt8.ofNat (strnlenS opCode opcodeSize)) msg msgLen with
      | .handedOn eMsg => (if emulated = .success then 0 else 1, .handedOn eMsg)
      | .put => (1, .put)
      | .lost => (DwpalRet.failure.toInt, .lost)
      | .notAllocated => (1, .notAllocated)
  | _, _ => (1, .notAllocated)

/-! The encoders. -/

/-- The text of an event in the payload: with a terminator, or nothing. -/
def eventText (text : List UInt8) : List UInt8 := if text = [] then [] else text ++ [0]

theorem toUInt16_toUInt64_eq {n : UInt64} : n.toUInt16.toUInt64 = n ↔ n.toNat < 65536 := by
  rw [← UInt64.toNat_inj, UInt16.toNat_toUInt64, UInt64.toNat_toUInt16]
  omega

theorem wvAligned16BitAssign_fetch (num : UInt16) :
    (wvAligned16BitAssign num).1.toNat + 256 * (wvAligned16BitAssign num).2.toNat = num.toNat := by
  have hlt := num.toNat_lt
  simp only [wvAligned16BitAssign, UInt8.toNat_ofNat']
  omega

/-- The length that the encoders announce for a text. -/
theorem announced_text {msg : Option (List UInt8)} {msgLen : UInt64}
    (hmsg : (msg.getD []).length = msgLen.toNat) (hshort : msgLen.toNat < 65535) :
    (if msg.isSome ∧ msgLen ≠ 0 then msgLen + 1 else msgLen).toNat =
      (eventText (msg.getD [])).length := by
  by_cases hzero : msgLen = 0
  · have hnil : msg.getD [] = [] := List.eq_nil_of_length_eq_zero (by rw [hmsg, hzero]; rfl)
    rw [if_neg (fun h => h.2 hzero), hnil, hzero]
    rfl
  · have hpos : msgLen.toNat ≠ 0 := fun h => hzero (UInt64.toNat_inj.mp h)
    have hne : msg.getD [] ≠ [] := by
      intro hnil
      rw [hnil] at hmsg
      exact hpos hmsg.symm
    have hsome : msg.isSome := by
      cases msg with
      | none => exact absurd rfl hne
      | some text => rfl
    rw [if_pos ⟨hsome, hzero⟩, eventText, if_neg hne, List.length_append, hmsg, UInt64.toNat_add]
    simp only [List.length_singleton, UInt64.toNat_one]
    omega

/-- Three pieces written one behind the other. -/
theorem take_write_three {n : Nat} (buf : Buffer n) {a b c : List UInt8}
    (hfit : a.length + b.length + c.length ≤ n) :
    (((buf.write 0 a).write a.length b).write (a.length + b.length) c).bytes.take
      (a.length + b.length + c.length) = a ++ b ++ c := by
  have ha : (buf.write 0 a).bytes.take (0 + a.length) = buf.bytes.take 0 ++ a :=
    Buffer.take_write (by omega)
  have hb : ((buf.write 0 a).write a.length b).bytes.take (a.length + b.length) =
      (buf.write 0 a).bytes.take a.length ++ b := Buffer.take_write (by omega)
  rw [Nat.zero_add, List.take_zero, List.nil_append] at ha
  rw [Buffer.take_write hfit, hb, ha]

theorem write_nil {n : Nat} (buf : Buffer n) (off : Nat) : buf.write off [] = buf := by
  apply Buffer.ext
  simp [Buffer.write]

/-- The header of a hostap event. -/
def hostapEventHdr (ifnameLen opCodeLen : UInt8) (msgLen16 : UInt16) : DwpaldHeader :=
  ⟨dwpaldEvent, dwpaldIfTypeHostap, ifnameLen, opCodeLen, (wvAligned16BitAssign msgLen16).1,
    (wvAligned16BitAssign msgLen16).2⟩

/-- Reserving room in a message that was just allocated and got its header. -/
theorem reserve_fresh (stale : Buffer waveIpcBuffSize) (hdr : DwpaldHeader) (len : Nat)
    (hpos : len ≠ 0) :
    ∃ msg : WvIpcMsg, msg.Headers [hdr.bytes] ∧ msg.data = stale ∧ msg.dataLen = 0 ∧
      (dwpaldHeaderPush (waveIpcMsgAlloc stale) hdr).2 = msg ∧
      ∀ hlen : ¬ len > waveIpcBuffSize, waveIpcMsgReserveData msg len =
        (.success, { msg with dataLen := len, dataLen_le := Nat.le_of_not_gt hlen }) := by
  obtain ⟨msg, hpush, hheaders, hdata, hlen⟩ := dwpaldHeaderPush_first (headers_alloc stale) hdr
  refine ⟨msg, hheaders, hdata, hlen, by rw [hpush], fun hfit => ?_⟩
  have hempty : ¬ msg.dataLen ≠ 0 := not_not.mpr hlen
  rw [waveIpcMsgReserveData, if_neg hpos, dif_neg hfit, if_neg hempty]

variable {stale : Buffer waveIpcBuffSize} {ifname opCode : List UInt8} {ifnameLen opCodeLen : UInt8}
  {msg : Option (List UInt8)} {msgLen : UInt64}

/-- The length that the encoders write into the header. -/
theorem announced_toUInt16 (hmsg : (msg.getD []).length = msgLen.toNat)
    (hfit : (eventText (msg.getD [])).length < 65536) (hshort : msgLen.toNat < 65535) :
    ∃ announced : UInt64, (if msg.isSome ∧ msgLen ≠ 0 then msgLen + 1 else msgLen) = announced ∧
      announced.toUInt16.toUInt64 = announced ∧
      announced.toUInt16 = UInt16.ofNat (eventText (msg.getD [])).length ∧
      announced.toUInt16.toNat = (eventText (msg.getD [])).length := by
  have hlen := announced_text hmsg hshort
  refine ⟨_, rfl, ?_, ?_, ?_⟩
  · rw [toUInt16_toUInt64_eq, hlen]
    exact hfit
  · apply UInt16.toNat_inj.mp
    rw [UInt64.toNat_toUInt16, hlen, UInt16.toNat_ofNat']
  · rw [UInt64.toNat_toUInt16, hlen]
    exact Nat.mod_eq_of_lt hfit

theorem length_eventText (text : List UInt8) :
    (eventText text).length = if text = [] then 0 else text.length + 1 := by
  unfold eventText
  split <;> simp

theorem lt_of_eventText {n : Nat} (hmsg : (msg.getD []).length = msgLen.toNat)
    (hfit : (eventText (msg.getD [])).length ≤ n) (hn : n ≤ 65535) : msgLen.toNat < 65535 := by
  rw [length_eventText] at hfit
  split at hfit
  · next hnil =>
    rw [hnil, List.length_nil] at hmsg
    omega
  · omega

/-- An encoding that fits: the message with its header and its payload. -/
theorem encodeHostapEvent_fits (hname : ifnameLen.toNat ≤ ifname.length)
    (hcode : opCodeLen.toNat ≤ opCode.length) (hpos : 0 < opCodeLen.toNat)
    (hmsg : (msg.getD []).length = msgLen.toNat)
    (hfit : ifnameLen.toNat + opCodeLen.toNat + (eventText (msg.getD [])).length ≤
      waveIpcBuffSize) :
    ∃ eMsg, encodeHostapEvent stale ifname ifnameLen opCode opCodeLen msg msgLen =
        .handedOn eMsg ∧
      eMsg.Headers [(hostapEventHdr ifnameLen opCodeLen
        (UInt16.ofNat (eventText (msg.getD [])).length)).bytes] ∧
      eMsg.payload = ifname.take ifnameLen.toNat ++ opCode.take opCodeLen.toNat ++
        eventText (msg.getD []) := by
  have hroom : waveIpcBuffSize ≤ 65535 := by decide
  obtain ⟨announced, hannounced, hwide, h16, hlen⟩ := announced_toUInt16 hmsg (by omega)
    (lt_of_eventText hmsg (by omega) hroom)
  obtain ⟨eMsg, hheaders, -, -, hpush, hreserve⟩ := reserve_fresh stale
    (hostapEventHdr ifnameLen opCodeLen announced.toUInt16)
    (ifnameLen.toNat + opCodeLen.toNat + announced.toUInt16.toNat) (by omega)
  have htake : ∀ (bytes : List UInt8) {n : Nat}, n ≤ bytes.length → (bytes.take n).length = n :=
    fun bytes n hn => by rw [List.length_take]; omega
  have hthree := take_write_three eMsg.data (a := ifname.take ifnameLen.toNat)
    (b := opCode.take opCodeLen.toNat) (c := eventText (msg.getD []))
    (by rw [htake ifname hname, htake opCode hcode]; exact hfit)
  rw [htake ifname hname, htake opCode hcode] at hthree
  have hdata : waveIpcMsgGetData { eMsg with
      dataLen := ifnameLen.toNat + opCodeLen.toNat + announced.toUInt16.toNat
      dataLen_le := by omega } = some eMsg.data.bytes := if_neg (by simp only; omega)
  rw [hostapEventHdr] at hpush
  rw [encodeHostapEvent]
  simp only [hannounced]
  rw [if_neg (not_not.mpr hwide), hpush, hreserve (by omega)]
  simp only [hdata]
  rw [h16] at hheaders
  by_cases hnil : msg.getD [] = []
  · have hzero : announced.toUInt16 = 0 := by
      rw [h16, hnil]
      rfl
    rw [hnil, eventText, if_pos rfl, write_nil] at hthree
    refine ⟨{ eMsg with
      dataLen := ifnameLen.toNat + opCodeLen.toNat + announced.toUInt16.toNat
      dataLen_le := by omega
      data := (eMsg.data.write 0 (ifname.take ifnameLen.toNat)).write ifnameLen.toNat
        (opCode.take opCodeLen.toNat) }, ?_, ⟨hheaders.fits, hheaders.room, hheaders.area⟩, ?_⟩
    · cases msg with
      | none => rfl
      | some text => exact if_pos hzero
    · rw [WvIpcMsg.payload]
      simp only [hlen, hnil, eventText, if_true, List.length_nil]
      exact hthree
  · obtain ⟨text, rfl⟩ : ∃ text, msg = some text := by
      cases msg with
      | none => exact absurd rfl hnil
      | some text => exact ⟨text, rfl⟩
    have htext : eventText text = text ++ [0] := if_neg hnil
    have hnonzero : announced.toUInt16 ≠ 0 := by
      intro hzero
      rw [hzero, Option.getD_some, htext, List.length_append] at hlen
      simp at hlen
    refine ⟨{ eMsg with
      dataLen := ifnameLen.toNat + opCodeLen.toNat + announced.toUInt16.toNat
      dataLen_le := by omega
      data := ((eMsg.data.write 0 (ifname.take ifnameLen.toNat)).write ifnameLen.toNat
        (opCode.take opCodeLen.toNat)).write (ifnameLen.toNat + opCodeLen.toNat)
        (text.take (announced.toUInt16.toNat - 1) ++ [0]) },
      if_neg hnonzero, ⟨hheaders.fits, hheaders.room, hheaders.area⟩, ?_⟩
    rw [WvIpcMsg.payload]
    simp only [hlen, Option.getD_some, htext, List.length_append, List.length_singleton,
      Nat.add_sub_cancel, List.take_length]
    simpa only [Option.getD_some, htext, List.length_append, List.length_singleton] using hthree

/-- An encoding that does not fit. -/
theorem encodeHostapEvent_tooLong (hmsg : (msg.getD []).length = msgLen.toNat)
    (hshort : msgLen.toNat < 65535) (hlong : waveIpcBuffSize <
      ifnameLen.toNat + opCodeLen.toNat + (eventText (msg.getD [])).length) :
    encodeHostapEvent stale ifname ifnameLen opCode opCodeLen msg msgLen = .put := by
  have htext : (eventText (msg.getD [])).length < 65536 := by
    rw [length_eventText]
    split <;> omega
  obtain ⟨announced, hannounced, hwide, -, hlen⟩ := announced_toUInt16 hmsg htext hshort
  rw [encodeHostapEvent]
  simp only [hannounced]
  rw [if_neg (not_not.mpr hwide), waveIpcMsgReserveData, if_neg (by omega), dif_pos (by omega)]

/-- A text whose length with the terminator is not a `uint16_t`: the message is not put back, and it
is handed on only if that length overflows. -/
theorem encodeHostapEvent_huge (hpos : 0 < opCodeLen.toNat)
    (hmsg : (msg.getD []).length = msgLen.toNat) (hlong : 65535 ≤ msgLen.toNat) :
    encodeHostapEvent stale ifname ifnameLen opCode opCodeLen msg msgLen = .lost ∨
      ∃ eMsg, encodeHostapEvent stale ifname ifnameLen opCode opCodeLen msg msgLen =
        .handedOn eMsg := by
  obtain ⟨text, rfl⟩ : ∃ text, msg = some text := by
    cases msg with
    | none =>
      rw [Option.getD_none, List.length_nil] at hmsg
      omega
    | some text => exact ⟨text, rfl⟩
  have hnonzero : msgLen ≠ 0 := by
    rintro rfl
    simp at hlong
  rw [encodeHostapEvent]
  simp only [Option.isSome_some, true_and, if_pos hnonzero]
  by_cases hwide : (msgLen + 1).toUInt16.toUInt64 = msgLen + 1
  · have hover : (msgLen + 1).toUInt16.toNat = 0 := by
      have hlt := toUInt16_toUInt64_eq.mp hwide
      have hmax := msgLen.toNat_lt
      rw [UInt64.toNat_toUInt16]
      rw [UInt64.toNat_add, UInt64.toNat_one] at hlt ⊢
      omega
    have hname := ifnameLen.toNat_lt
    have hcode := opCodeLen.toNat_lt
    have hroom : 510 < waveIpcBuffSize := by decide
    obtain ⟨eMsg, -, -, -, hpush, hreserve⟩ := reserve_fresh stale
      (hostapEventHdr ifnameLen opCodeLen (msgLen + 1).toUInt16)
      (ifnameLen.toNat + opCodeLen.toNat + (msgLen + 1).toUInt16.toNat) (by omega)
    have hdata : waveIpcMsgGetData { eMsg with
        dataLen := ifnameLen.toNat + opCodeLen.toNat + (msgLen + 1).toUInt16.toNat
        dataLen_le := by omega } = some eMsg.data.bytes := if_neg (by simp only; omega)
    rw [hostapEventHdr] at hpush
    rw [if_neg (not_not.mpr hwide), hpush, hreserve (by omega)]
    simp only [hdata]
    refine .inr ⟨_, if_pos ?_⟩
    exact UInt16.toNat_inj.mp hover
  · exact .inl (if_pos hwide)

/-! The decoders. -/

/-- The lengths in the header are those of the parts of the payload. -/
def HostapLengths (eventData : List UInt8) (hdr : DwpaldHeader) : Prop :=
  eventData.length =
      hdr.header2.toNat + hdr.header3.toNat + (hdr.header4.toNat + 256 * hdr.header5.toNat) ∧
    hdr.header2.toNat ≤ ifnamsiz ∧ 0 < hdr.header3.toNat ∧ hdr.header3.toNat < opcodeSize

/-- What the client does with an event of an interface: the callbacks that are registered for the
op_code are called, and an event about the interface sets the state of the attachment. -/
def dispatchHostap (attachments : List DwpaldHostapAttachment) (ifname opCode : List UInt8)
    (eventMsg : Option (List UInt8)) (eventMsgLen : Nat) :
    Nat × List HostapCall × List DwpaldHostapAttachment :=
  match attachments.find? (·.named ifname) with
  | none => (1, [], attachments)
  | some hapAttch =>
    let kept :=
      match intfEventState opCode with
      | some state => changeAttachment ifname
          (fun hapAttch => some { hapAttch with state := state }) attachments
      | none => attachments
    match hapAttch.hostapEvents.find? (fun hapEvent =>
        strncmpEq hapEvent.opCode opCode opcodeSize) with
    | some hapEvent =>
      (0, (copyHostapEvent hapAttch hapEvent maxNumCbEvents).map fun clb =>
        ⟨clb, ifname, opCode, eventMsg, eventMsgLen⟩, kept)
    | none => (if (intfEventState opCode).isSome then 0 else 1, [], kept)

theorem receiveHostapEvent_rejects {attachments : List DwpaldHostapAttachment}
    {eventData : List UInt8} {hdr : DwpaldHeader} (h : ¬ HostapLengths eventData hdr) :
    dwpaldReceiveHostapEvent attachments eventData hdr = (1, [], attachments) := by
  rw [dwpaldReceiveHostapEvent]
  simp only
  by_cases hlen : eventData.length =
      hdr.header2.toNat + hdr.header3.toNat + (hdr.header4.toNat + 256 * hdr.header5.toNat)
  · rw [if_neg (not_not.mpr hlen)]
    by_cases hname : hdr.header2.toNat > ifnamsiz
    · rw [if_pos hname]
    · have hcode : hdr.header3.toNat = 0 ∨ hdr.header3.toNat > opcodeSize - 1 := by
        by_contra hcon
        exact h ⟨hlen, by omega, by omega, by omega⟩
      rw [if_neg hname, if_pos hcode]
  · rw [if_pos hlen]

theorem receiveHostapEvent_accepts {attachments : List DwpaldHostapAttachment}
    {eventData : List UInt8} {hdr : DwpaldHeader} (h : HostapLengths eventData hdr) :
    dwpaldReceiveHostapEvent attachments eventData hdr = dispatchHostap attachments
      (cstr (eventData.take hdr.header2.toNat))
      (cstr ((eventData.drop hdr.header2.toNat).take hdr.header3.toNat))
      (if hdr.header4.toNat + 256 * hdr.header5.toNat = 0 then none
        else some (eventData.drop (hdr.header2.toNat + hdr.header3.toNat)))
      (hdr.header4.toNat + 256 * hdr.header5.toNat - 1) := by
  obtain ⟨hlen, hname, hpos, hcode⟩ := h
  have hcode' : ¬ (hdr.header3.toNat = 0 ∨ hdr.header3.toNat > opcodeSize - 1) := by omega
  rw [dwpaldReceiveHostapEvent]
  simp only
  rw [if_neg (not_not.mpr hlen), if_neg (Nat.not_lt.mpr hname), if_neg hcode']
  rfl

/-- An event for which no callback is registered and that does not tell of an interface either. -/
def Unheard (attachments : List DwpaldHostapAttachment) (ifname opCode : List UInt8) : Prop :=
  ∀ hapAttch, attachments.find? (·.named ifname) = some hapAttch →
    (hapAttch.hostapEvents.find? fun hapEvent => strncmpEq hapEvent.opCode opCode opcodeSize) =
      none ∧ intfEventState opCode = none

theorem dispatchHostap_rejects {attachments : List DwpaldHostapAttachment}
    {ifname opCode : List UInt8} {eventMsg : Option (List UInt8)} {eventMsgLen : Nat} :
    dispatchHostap attachments ifname opCode eventMsg eventMsgLen = (1, [], attachments) ↔
      Unheard attachments ifname opCode := by
  unfold dispatchHostap Unheard
  cases hfind : attachments.find? (·.named ifname) with
  | none => simp
  | some hapAttch =>
    simp only [Option.some.injEq, forall_eq']
    cases hevent : hapAttch.hostapEvents.find? (fun hapEvent =>
        strncmpEq hapEvent.opCode opCode opcodeSize) with
    | some hapEvent => simp
    | none =>
      cases hstate : intfEventState opCode with
      | none => simp
      | some state => simp

/-- The bytes of the payload that `dwpald_receive_hostap_event` reads or hands to the callbacks, as
offsets and lengths. -/
def hostapEventReads (eventDataSize : Nat) (hdr : DwpaldHeader) : List (Nat × Nat) :=
  let ifnameLen := hdr.header2.toNat
  let opCodeLen := hdr.header3.toNat
  let eventMsgLen := hdr.header4.toNat + 256 * hdr.header5.toNat
  if eventDataSize ≠ ifnameLen + opCodeLen + eventMsgLen then []
  else if ifnameLen > ifnamsiz then []
  else if opCodeLen = 0 ∨ opCodeLen > opcodeSize - 1 then []
  else [(0, ifnameLen), (ifnameLen, opCodeLen), (ifnameLen + opCodeLen, eventMsgLen)]

/-- The same of `dwpald_receive_drv_event`. -/
def drvEventReads (eventDataSize : Nat) (hdr : DwpaldHeader) : List (Nat × Nat) :=
  let ifnameLen := hdr.header2.toNat
  let dataSize := hdr.header3.toNat + 256 * hdr.header4.toNat
  if eventDataSize = 0 then []
  else if eventDataSize ≠ 4 + ifnameLen + dataSize then []
  else if ifnameLen > ifnamsiz then []
  else [(0, 4), (4, ifnameLen), (4 + ifnameLen, dataSize)]

theorem hostapEventReads_inside {size : Nat} {hdr : DwpaldHeader} :
    ∀ read ∈ hostapEventReads size hdr, read.1 + read.2 ≤ size := by
  intro read hread
  unfold hostapEventReads at hread
  simp only at hread
  split_ifs at hread
  · cases hread
  · cases hread
  · cases hread
  · simp only [List.mem_cons, List.not_mem_nil, or_false] at hread
    rcases hread with rfl | rfl | rfl <;> simp only <;> omega

theorem drvEventReads_inside {size : Nat} {hdr : DwpaldHeader} :
    ∀ read ∈ drvEventReads size hdr, read.1 + read.2 ≤ size := by
  intro read hread
  unfold drvEventReads at hread
  simp only at hread
  split_ifs at hread
  · cases hread
  · cases hread
  · cases hread
  · simp only [List.mem_cons, List.not_mem_nil, or_false] at hread
    rcases hread with rfl | rfl | rfl <;> simp only <;> omega

/-- The lengths in the header of a driver event are those of the parts of the payload. -/
def DrvLengths (eventData : List UInt8) (hdr : DwpaldHeader) : Prop :=
  eventData.length =
      4 + hdr.header2.toNat + (hdr.header3.toNat + 256 * hdr.header4.toNat) ∧
    hdr.header2.toNat ≤ ifnamsiz

/-- What the client does with an event of the driver. -/
def dispatchDrv (drvNlAttch : Option DwpaldDrvNlAttachment) (ifname : List UInt8) (event : UInt32)
    (data : List UInt8) (len : Nat) : Nat × List DriverCall :=
  match drvNlAttch with
  | none => (1, [])
  | some attch =>
    match attch.drvEvents.find? (fun drvEvent => drvEvent.key == event) with
    | some drvEvent =>
      (0, (drvEvent.clbIdList.take maxNumCbEvents).map fun drvClb =>
        ⟨drvClb.clb, ifname, event, data, len⟩)
    | none => (1, [])

theorem receiveDrvEvent_rejects {drvNlAttch : Option DwpaldDrvNlAttachment}
    {eventData : List UInt8} {hdr : DwpaldHeader} (h : ¬ DrvLengths eventData hdr) :
    dwpaldReceiveDrvEvent drvNlAttch eventData hdr = (1, []) := by
  rw [dwpaldReceiveDrvEvent]
  simp only
  by_cases hnil : eventData.length = 0
  · rw [if_pos hnil]
  · rw [if_neg hnil]
    by_cases hlen : eventData.length =
        4 + hdr.header2.toNat + (hdr.header3.toNat + 256 * hdr.header4.toNat)
    · have hname : hdr.header2.toNat > ifnamsiz := by
        by_contra hcon
        exact h ⟨hlen, by omega⟩
      rw [if_neg (not_not.mpr hlen), if_pos hname]
    · rw [if_pos hlen]

theorem receiveDrvEvent_accepts {drvNlAttch : Option DwpaldDrvNlAttachment}
    {eventData : List UInt8} {hdr : DwpaldHeader} (h : DrvLengths eventData hdr) :
    dwpaldReceiveDrvEvent drvNlAttch eventData hdr = dispatchDrv drvNlAttch
      (cstr ((eventData.drop 4).take hdr.header2.toNat)) (UInt32.ofNat (le32 eventData))
      (eventData.drop (4 + hdr.header2.toNat))
      (hdr.header3.toNat + 256 * hdr.header4.toNat) := by
  obtain ⟨hlen, hname⟩ := h
  rw [dwpaldReceiveDrvEvent]
  simp only
  rw [if_neg (by omega), if_neg (not_not.mpr hlen), if_neg (Nat.not_lt.mpr hname)]
  rfl

/-- No callback is registered for the event. -/
def DrvUnheard (drvNlAttch : Option DwpaldDrvNlAttachment) (event : UInt32) : Prop :=
  ∀ attch, drvNlAttch = some attch →
    (attch.drvEvents.find? fun drvEvent => drvEvent.key == event) = none

theorem dispatchDrv_rejects {drvNlAttch : Option DwpaldDrvNlAttachment} {ifname : List UInt8}
    {event : UInt32} {data : List UInt8} {len : Nat} :
    dispatchDrv drvNlAttch ifname event data len = (1, []) ↔ DrvUnheard drvNlAttch event := by
  unfold dispatchDrv DrvUnheard
  cases drvNlAttch with
  | none => simp
  | some attch =>
    simp only [Option.some.injEq, forall_eq']
    cases attch.drvEvents.find? (fun drvEvent => drvEvent.key == event) <;> simp

end Dwpal.Client
