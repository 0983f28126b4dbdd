import Dwpal.Daemon.IfaceManager

/-! The encoders of events: `dwpal_ext_hostap_event_callback` of `daemon/hostap_iface.c`, and
`dwpal_nlVendorEventCallback` and `dwpal_nlNonVendorEventCallback` of `daemon/nl_iface.c`, up to the
work that the manager of the interfaces is given. -/

namespace Dwpal.Daemon

open Ipc

def dwpaldIfTypeDriver : UInt8 := 2

/-- `NL80211_CMD_VENDOR`. -/
def nl80211CmdVendor : Int := 103

/-- What an encoder does with the pooled message: it takes none, it puts it back, it forgets it, or
it hands it on. -/
inductive Encoded (α : Type) where
  | notAllocated
  | put
  | lost
  | handedOn (event : α)

/-- `event_work`, with the extra information of the module that received the event. -/
structure EventWork (ι : Type) where
  event : WvIpcMsg
  ifname : IfName
  info : ι

/-- `hostap_extra_info`: the two strings in `data`, and the lengths that tell where they are. -/
structure HostapExtraInfo where
  msgOfs : UInt16
  msgLen : UInt16
  opCode : List UInt8
  msg : List UInt8

/-- The two bytes that `wv_aligned_16_bit_assign` writes. -/
def wvAligned16BitAssign (num : UInt16) : UInt8 × UInt8 :=
  (UInt8.ofNat num.toNat, UInt8.ofNat (num.toNat / 256))

/-- What both encoders of hostap events do once they have a message from the pool, whose object
holds `stale`: the header, the room for the payload, and the copies of the name, of the op_code and
of the text with a terminator. -/
def encodeHostapEvent (stale : Buffer waveIpcBuffSize) (ifname : List UInt8) (ifnameLen : UInt8)
    (opCode : List UInt8) (opCodeLen : UInt8) (msg : Option (List UInt8)) (msgLen : UInt64) :
    Encoded WvIpcMsg :=
  let msgLen := if msg.isSome ∧ msgLen ≠ 0 then msgLen + 1 else msgLen
  let msgLen16 := msgLen.toUInt16
  if msgLen16.toUInt64 ≠ msgLen then .lost
  else
    let (low, high) := wvAligned16BitAssign msgLen16
    let eMsg := (dwpaldHeaderPush (waveIpcMsgAlloc stale)
      ⟨dwpaldEvent, dwpaldIfTypeHostap, ifnameLen, opCodeLen, low, high⟩).2
    let textOfs := ifnameLen.toNat + opCodeLen.toNat
    match waveIpcMsgReserveData eMsg (textOfs + msgLen16.toNat) with
    | (.success, eMsg) =>
      match waveIpcMsgGetData eMsg with
      | none => .put
      | some _ =>
        let data := (eMsg.data.write 0 (ifname.take ifnameLen.toNat)).write ifnameLen.toNat
          (opCode.take opCodeLen.toNat)
        match msg with
        | some text =>
          if msgLen16 = 0 then .handedOn { eMsg with data := data }
          else .handedOn { eMsg with
            data := data.write textOfs (text.take (msgLen16.toNat - 1) ++ [0]) }
        | none => .handedOn { eMsg with data := data }
    | _ => .put

/-- `dwpal_ext_hostap_event_callback`; a string is the memory at its pointer, `none` for `NULL`. -/
def dwpalExtHostapEventCallback (stale : Buffer waveIpcBuffSize)
    (vapName opCode msg : Option (List UInt8)) (msgLen : UInt64) :
    DwpalRet × Encoded (EventWork HostapExtraInfo) :=
  match vapName, opCode with
  | some vapName, some opCode =>
    if msg.isNone ∧ msgLen ≠ 0 then (.failure, .notAllocated)
    else
      let opCodeLen := UInt8.ofNat (cstr opCode).length
      match encodeHostapEvent stale vapName (UInt8.ofNat (cstr vapName).length) opCode opCodeLen msg
        msgLen with
      | .handedOn eMsg =>
        let eMsg := (ipcHeaderPush eMsg ⟨waveIpcMsgEvent, 0, 0, 0⟩).2
        let msgLen16 := (if msg.isSome ∧ msgLen ≠ 0 then msgLen + 1 else msgLen).toUInt16
        let info : HostapExtraInfo :=
          { msgOfs := UInt16.ofNat (opCodeLen.toNat + 1)
            msgLen := msgLen16
            opCode := strncpyS (opCodeLen.toNat + 1) opCode opCodeLen.toNat
            msg := if msgLen16 = 0 then []
              else strncpyS (msgLen16.toNat + 1) (msg.getD []) msgLen16.toNat }
        (.success, .handedOn ⟨eMsg, .copyFrom vapName ifnamsiz ifName_pos, info⟩)
      | .put => (.failure, .put)
      | .lost => (.failure, .lost)
      | .notAllocated => (.failure, .notAllocated)
  | _, _ => (.failure, .notAllocated)

/-- `dwpal_nlVendorEventCallback`; `subevent` is an `int`. -/
def dwpalNlVendorEventCallback (stale : Buffer waveIpcBuffSize) (ifname : List UInt8) (event : Int)
    (subevent : UInt32) (len : UInt64) (data : List UInt8) :
    DwpalRet × Encoded (EventWork UInt32) :=
  let dataSize := len.toUInt16
  if event ≠ nl80211CmdVendor then (.failure, .notAllocated)
  else if dataSize.toUInt64 ≠ len then (.failure, .notAllocated)
  else
    let ifnameLen := UInt8.ofNat (cstr ifname).length
    let (low, high) := wvAligned16BitAssign dataSize
    let eMsg := (dwpaldHeaderPush (waveIpcMsgAlloc stale)
      ⟨dwpaldEvent, dwpaldIfTypeDriver, ifnameLen, low, high, 0⟩).2
    match waveIpcMsgReserveData eMsg (4 + ifnameLen.toNat + dataSize.toNat) with
    | (.success, eMsg) =>
      match waveIpcMsgGetData eMsg with
      | none => (.failure, .put)
      | some _ =>
        let eMsg := { eMsg with
          data := ((eMsg.data.write 0 (nlIdBytes subevent)).write 4
            (ifname.take ifnameLen.toNat)).write (4 + ifnameLen.toNat) (data.take dataSize.toNat) }
        let eMsg := (ipcHeaderPush eMsg ⟨waveIpcMsgEvent, 0, 0, 0⟩).2
        (.success, .handedOn ⟨eMsg, .copyFrom (ascii "nl_drv") 6 ifName_pos, subevent⟩)
    | _ => (.failure, .put)

/-- `dwpal_nlNonVendorEventCallback`. It does not look at whether the message fits. -/
def dwpalNlNonVendorEventCallback (libnl : Libnl) (stale : Buffer waveIpcBuffSize) (msg : NlMsg) :
    DwpalRet × Encoded (EventWork Unit) :=
  match dwpaldHeaderPush (dwpaldIpcMsgFromNlMsg libnl msg stale)
      ⟨dwpaldEvent, dwpaldIfTypeKernel, 0, 0, 0, 0⟩ with
  | (0, eMsg) =>
    let eMsg := (ipcHeaderPush eMsg ⟨waveIpcMsgEvent, 0, 0, 0⟩).2
    (.success, .handedOn ⟨eMsg, .copyFrom (ascii "nl_drv") 6 ifName_pos, ()⟩)
  | _ => (.noPendingMessages, .put)

end Dwpal.Daemon
