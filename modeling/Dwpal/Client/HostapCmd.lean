import Dwpal.Client.EventCodec
import Dwpal.Client.RoundTrip
import Dwpal.Ipc.PayloadBytes

/-! `dwpald_hostap_cmd` from end to end: the message that carries the command of the caller, the
command that the daemon executes of it, and what the caller gets. -/

namespace Dwpal.Client

open Ipc Daemon Frames

/-- The command of a caller: the memory at `cmd`, which has `len` bytes at least, and the byte in
front of it. -/
structure CmdArg where
  before : UInt8
  bytes : List UInt8
  len : UInt64
  readable : len.toNat ≤ bytes.length

/-- `cmd[len - 1]`. -/
def CmdArg.last (arg : CmdArg) : UInt8 :=
  if arg.len = 0 then arg.before else arg.bytes.getD (arg.len.toNat - 1) 0

/-- The command that the caller means, as a C string. -/
def CmdArg.text (arg : CmdArg) : List UInt8 := cstr (arg.bytes.take arg.len.toNat)

/-- The message of `dwpald_hostap_cmd`. It does not look at what filling in and appending return. -/
def hostapCmdMsg (pool : Buffer waveIpcBuffSize) (ifname : IfName) (arg : CmdArg) : WvIpcMsg :=
  let header2 := UInt8.ofNat (strnlenS ifname.bytes ifnamsiz)
  let msg := (dwpaldHeaderPush (waveIpcMsgAlloc pool)
    ⟨dwpaldCmd, dwpaldIfTypeHostap, header2, 0, 0, 0⟩).2
  let msg := (waveIpcMsgFillData msg (some ifname.bytes) header2.toNat).2
  let msg := (waveIpcMsgAppendData msg (some arg.bytes) arg.len.toNat).2
  if arg.last ≠ 0 then (waveIpcMsgAppendData msg (some [0]) 1).2 else msg

/-- `dwpald_ret_from_dwpal_ret`. -/
def dwpaldRetFromDwpalRet (dpalRet : Int) : DwpaldRet :=
  if dpalRet = DwpalRet.failure.toInt then .dwpalFailure
  else if dpalRet = DwpalRet.interfaceIsDown.toInt then .dwpalIfaceIsDown
  else .error

/-- `dwpald_hostap_cmd` from the answer on, for a buffer of `replyLen` bytes: the status, what is
copied to the buffer, and the daemon. -/
def hostapCmdResult (replyLen : Nat) :
    WvIpcRet × List WvIpcMsg × Dwpald → DwpaldRet × List UInt8 × Dwpald
  | (.success, response :: _, d) =>
    match dwpaldHeaderPop response with
    | .popped respHdr response =>
      if respHdr.header0 ≠ dwpaldCmdResp ∨ respHdr.header1 ≠ dwpaldIfTypeHostap then (.error, [], d)
      else if respHdr.header2.toInt8.toInt ≠ DwpalRet.success.toInt then
        (dwpaldRetFromDwpalRet respHdr.header2.toInt8.toInt, [], d)
      else if waveIpcMsgGetSize response > replyLen then (.error, [], d)
      else
        match waveIpcMsgGetData response with
        | none => (.error, [], d)
        | some respData => (.success, respData.take (waveIpcMsgGetSize response), d)
    | _ => (.error, [], d)
  | (.disconnected, _, d) => (.disconnected, [], d)
  | (_, _, d) => (.error, [], d)

/-- `dwpald_hostap_cmd` of a connected client. -/
def dwpaldHostapCmd (p : Path) (d : Dwpald) (ifname : IfName) (arg : CmdArg) (replyLen : Nat) :
    DwpaldRet × List UInt8 × Dwpald :=
  hostapCmdResult replyLen (waveIpccSendCmd p.link p.ipsta (Dwpald.serve p.world p.ipsta) d
    (hostapCmdMsg p.pool ifname arg))

/-- The interface and the command with which `hostap_execute_command` comes to call
`dwpal_ext_hostap_cmd_send`. -/
def hostapExecutes (w : World) (cmd : WvIpcMsg) : Option (List UInt8 × List UInt8) :=
  match dwpaldHeaderPop cmd with
  | .diverges | .failed _ => none
  | .popped cmdHdr cmd =>
    (hostapCommandOf w cmdHdr cmd).map fun (vapName, cmdData) => (vapName, cstr cmdData)

/-- The interface and the command that the daemon executes for a message of a station. -/
def executes (w : World) (ipsta : Station) (msg : WvIpcMsg) : Option (List UInt8 × List UInt8) :=
  match waveIpcsHandleStationMsg ipsta msg with
  | .work .hostap (.cmd work) => hostapExecutes w work.cmd
  | _ => none

/-- What the daemon executes of the call. -/
def executed (p : Path) (ifname : IfName) (arg : CmdArg) : Option (List UInt8 × List UInt8) :=
  match ipcHeaderPush (hostapCmdMsg p.pool ifname arg) ⟨waveIpcMsgCmd, p.link.seqNum, 0, 0⟩ with
  | (0, msg) => executes p.world p.ipsta (waveIpcTransfer msg p.link.serverPool)
  | _ => none

/-- Whatever the pooled buffers and the memory behind them hold: the daemon executes nothing but the
command of the caller on the interface of the caller, and that if the call succeeds. -/
structure CmdRoundTrip (ifname : IfName) (arg : CmdArg) : Prop where
  executed : ∀ p call, executed p ifname arg = some call → call = (ifname.bytes, arg.text)
  succeeded : ∀ p d replyLen, (dwpaldHostapCmd p d ifname arg replyLen).1 = .success →
    Client.executed p ifname arg = some (ifname.bytes, arg.text)

/-- A command that is carried over: the message has room for it and for a terminator behind it, if
it has none itself. -/
def CmdCarried (ifname : IfName) (arg : CmdArg) : Prop :=
  if ifname.bytes = [] then True
  else if arg.len = 0 then arg.before ≠ 0
  else if 2 ^ 64 ≤ ifname.bytes.length + arg.len.toNat then
    arg.last = 0 ∨ arg.len.toNat + 1 ≠ 2 ^ 64
  else if ifname.bytes.length + arg.len.toNat ≤ waveIpcBuffSize then
    0 ∈ arg.bytes.take arg.len.toNat ∨ ifname.bytes.length + arg.len.toNat < waveIpcBuffSize
  else arg.last ≠ 0 ∧ arg.text = []

section Message

variable {msg : WvIpcMsg} {ifname : IfName} {arg : CmdArg} {pool : Buffer waveIpcBuffSize}

/-- The header of the message. -/
def cmdHeader (ifname : IfName) : DwpaldHeader :=
  ⟨dwpaldCmd, dwpaldIfTypeHostap, UInt8.ofNat ifname.bytes.length, 0, 0, 0⟩

theorem toNat_header2 (ifname : IfName) :
    (cmdHeader ifname).header2.toNat = ifname.bytes.length := by
  have hlen := ifname.length_lt
  rw [cmdHeader, UInt8.toNat_ofNat']
  omega

theorem strnlenS_ifname (ifname : IfName) :
    strnlenS ifname.bytes ifnamsiz = ifname.bytes.length := by
  have hlen := ifname.length_lt
  rw [strnlenS, CString.cstr_bytes, ifnamsiz]
  omega

@[simp] theorem appendData_hdr (msg : WvIpcMsg) (data : Option (List UInt8)) (len : Nat) :
    (waveIpcMsgAppendData msg data len).2.hdr = msg.hdr := by
  cases data with
  | none => rfl
  | some bytes =>
    simp only [waveIpcMsgAppendData]
    split_ifs <;> rfl

/-- What is appended to a payload is behind it, if it fits. -/
theorem appendData_payload {mem : List UInt8} {n : Nat} (hread : n ≤ mem.length)
    (hwrap : msg.payload.length + n < 2 ^ 64) :
    (waveIpcMsgAppendData msg (some mem) n).2.payload =
      if msg.payload.length + n ≤ waveIpcBuffSize then msg.payload ++ mem.take n
        else msg.payload := by
  have hlen : (UInt64.ofNat n).toNat = n := by
    rw [UInt64.toNat_ofNat']
    omega
  let arg : DataArg := ⟨some mem, UInt64.ofNat n, fun _ hmem _ => by
    cases hmem
    rwa [hlen]⟩
  have hrefines := @append_refines msg arg fun _ => by
    rw [shownPayload_eq, hlen, Nat.add_comm]
    exact hwrap
  have hcall : payloadCall msg (.append arg) = waveIpcMsgAppendData msg (some mem) n := by
    rw [payloadCall, hlen]
  obtain ⟨-, hsucceeds, hmakes, hfails⟩ := hrefines
  rw [hcall] at hsucceeds hmakes hfails
  rw [Succeeds, shownPayload_eq, hlen, and_iff_right (Option.some_ne_none mem)] at hsucceeds
  simp only [Makes, shownPayload_eq, DataArg.data, hlen, Option.getD_some, arg] at hmakes
  by_cases hok : n ≠ 0 ∧ msg.payload.length + n ≤ waveIpcBuffSize
  · rw [if_pos hok.2, hmakes (hsucceeds.mpr hok)]
  · rw [(hfails fun h => hok (hsucceeds.mp h)).2]
    split_ifs with hfit
    · rw [not_not.mp fun h => hok ⟨h, hfit⟩, List.take_zero, List.append_nil]
    · rfl

theorem appendData_terminator (msg : WvIpcMsg) : (waveIpcMsgAppendData msg (some [0]) 1).2.payload =
    if msg.payload.length < waveIpcBuffSize then msg.payload ++ [0] else msg.payload := by
  have hle := WvIpcMsg.length_payload msg ▸ msg.dataLen_le
  have hsmall : waveIpcBuffSize + 1 < 2 ^ 64 := by decide
  have hread : 1 ≤ [(0 : UInt8)].length := Nat.le_refl _
  rw [appendData_payload hread (by omega)]
  rfl

/-- The message with the name of the interface, to which the command is appended. -/
theorem hostapCmdMsg_eq (pool : Buffer waveIpcBuffSize) (ifname : IfName) :
    ∃ msg : WvIpcMsg, msg.Headers [(cmdHeader ifname).bytes] ∧ msg.payload = ifname.bytes ∧
      ∀ arg, hostapCmdMsg pool ifname arg =
        if arg.last ≠ 0 then
          (waveIpcMsgAppendData (waveIpcMsgAppendData msg (some arg.bytes) arg.len.toNat).2
            (some [0]) 1).2
        else (waveIpcMsgAppendData msg (some arg.bytes) arg.len.toNat).2 := by
  obtain ⟨pushed, hpush, hheaders, -, hlen⟩ :=
    dwpaldHeaderPush_first (headers_alloc pool) (cmdHeader ifname)
  have hempty : pushed.dataLen = 0 := hlen
  have hfit : ifname.bytes.length ≤ waveIpcBuffSize := by
    have hlt := ifname.length_lt
    rw [waveIpcBuffSize]
    omega
  refine ⟨(waveIpcMsgFillData pushed (some ifname.bytes) ifname.bytes.length).2, ?_,
    (fillData_payload hempty hfit).2, fun arg => ?_⟩
  · exact headers_of_hdr hheaders (fillData_hdr _ _ _)
  · have hpush' : (dwpaldHeaderPush (waveIpcMsgAlloc pool) ⟨dwpaldCmd, dwpaldIfTypeHostap,
        UInt8.ofNat ifname.bytes.length, 0, 0, 0⟩).2 = pushed := congrArg Prod.snd hpush
    have hname := toNat_header2 ifname
    rw [cmdHeader] at hname
    simp only [hostapCmdMsg, strnlenS_ifname, hpush', hname]

theorem hostapCmdMsg_headers :
    (hostapCmdMsg pool ifname arg).Headers [(cmdHeader ifname).bytes] := by
  obtain ⟨named, hheaders, -, hmsg⟩ := hostapCmdMsg_eq pool ifname
  refine headers_of_hdr hheaders ?_
  rw [hmsg]
  split_ifs <;> simp only [appendData_hdr]

/-- The message reaches the manager of the hostap interfaces as a work, in an object that holds what
it held before behind the payload. -/
theorem executed_eq (p : Path) (ifname : IfName) (arg : CmdArg) :
    ∃ received : WvIpcMsg, received.Headers [(cmdHeader ifname).bytes] ∧
      received.data = p.link.serverPool.write 0 (hostapCmdMsg p.pool ifname arg).payload ∧
      received.dataLen = (hostapCmdMsg p.pool ifname arg).payload.length ∧
      executed p ifname arg = hostapExecutes p.world received ∧
      ∀ d, waveIpccSendCmd p.link p.ipsta (Dwpald.serve p.world p.ipsta) d
          (hostapCmdMsg p.pool ifname arg) =
        p.link.finish p.ipsta
          (d.execWork p.world .hostap (.cmd ⟨received, p.link.seqNum, p.ipsta⟩)) := by
  obtain ⟨pushed, hpush, hheaders, hdata, hlen⟩ := ipcHeaderPush_top
    (@hostapCmdMsg_headers ifname arg p.pool) (by simp [encode_cons])
    ⟨waveIpcMsgCmd, p.link.seqNum, 0, 0⟩
  obtain ⟨cmd, hcmd, hdata', hlen', hhandle⟩ :=
    @handleStationMsg_cmd p.ipsta _ _ _ (headers_transfer hheaders p.link.serverPool)
  obtain ⟨received, hreceived, hdata'', hlen'', hmake⟩ :=
    @ifaceManagerStaCmdAsync_eq p.ipsta p.link.seqNum _ _ hcmd
  have hwork : dispatchCmd (cmdHeader ifname) p.ipsta p.link.seqNum cmd =
      some (.hostap, .cmd ⟨received, p.link.seqNum, p.ipsta⟩) := by
    rw [dispatchCmd, if_pos (.inl rfl), if_pos (by rfl), hmake, makeWork, if_pos (by rfl)]
    rfl
  rw [hwork] at hhandle
  refine ⟨received, hreceived, ?_, ?_, ?_, fun d => ?_⟩
  · rw [hdata'', hdata', waveIpcTransfer, payload_eq_of_same hdata hlen]
  · rw [hlen'', hlen', WvIpcMsg.length_payload]
    exact hlen
  · simp only [executed, hpush, executes, hhandle]
  · simp only [waveIpccSendCmd, hpush, Link.finish, Dwpald.serve, hhandle]

/-- What `hostap_execute_command` executes of a payload. -/
theorem hostapExecutes_eq {w : World} {received : WvIpcMsg}
    (hreceived : received.Headers [(cmdHeader ifname).bytes]) :
    hostapExecutes w received =
      if received.dataLen < ifname.bytes.length ∨ ifname.bytes = [] then none
      else some (cstr (received.data.bytes.take ifname.bytes.length),
        cstr ((received.data.bytes ++ w.beyond).drop ifname.bytes.length)) := by
  obtain ⟨popped, hpop, -, hdata, hlen⟩ := dwpaldHeaderPop_last hreceived
  have hlt := ifname.length_lt
  simp only [hostapExecutes, hpop, hostapCommandOf, toNat_header2, waveIpcMsgGetData,
    waveIpcMsgGetSize, hdata, hlen]
  simp only [← List.length_eq_zero_iff]
  by_cases hempty : received.dataLen = 0
  · rw [if_pos hempty, if_pos (by omega)]
    rfl
  rw [if_neg hempty]
  dsimp only
  by_cases hrefused : received.dataLen < ifname.bytes.length ∨ ifname.bytes.length = 0
  · rw [if_pos (by omega), if_pos hrefused]
    rfl
  · rw [if_neg (by omega), if_neg hrefused]
    rfl

/-- The daemon executes what it has of the payload behind the name, up to a terminator, which it may
come to find only behind the payload. -/
theorem executed_payload {p : Path} {payload : List UInt8}
    (hpayload : (hostapCmdMsg p.pool ifname arg).payload = payload) :
    executed p ifname arg =
      if payload.length < ifname.bytes.length ∨ ifname.bytes = [] then none
      else some (cstr (payload.take ifname.bytes.length), cstr (payload.drop ifname.bytes.length ++
        p.link.serverPool.bytes.drop payload.length ++ p.world.beyond)) := by
  obtain ⟨received, hreceived, hdata, hlen, hexecuted, -⟩ := executed_eq p ifname arg
  have hroom : 0 + payload.length ≤ waveIpcBuffSize := by
    rw [← hpayload, WvIpcMsg.length_payload, Nat.zero_add]
    exact WvIpcMsg.dataLen_le _
  rw [hpayload] at hdata hlen
  rw [hexecuted, hostapExecutes_eq hreceived, hdata, hlen, Buffer.write_bytes hroom, Nat.zero_add,
    List.take_zero, List.nil_append]
  split_ifs with hrefused
  · rfl
  · rw [List.take_append_of_le_length (by omega), List.append_assoc,
      List.drop_append_of_le_length (by omega), List.append_assoc]

/-- What the message has behind the name, if the lengths do not wrap. -/
def cmdText (ifname : IfName) (arg : CmdArg) : List UInt8 :=
  let text := if ifname.bytes.length + arg.len.toNat ≤ waveIpcBuffSize then
    arg.bytes.take arg.len.toNat
    else []
  text ++ if arg.last ≠ 0 ∧ ifname.bytes.length + text.length < waveIpcBuffSize then [0] else []

theorem hostapCmdMsg_payload (hwrap : ifname.bytes.length + arg.len.toNat < 2 ^ 64) :
    (hostapCmdMsg pool ifname arg).payload = ifname.bytes ++ cmdText ifname arg := by
  obtain ⟨named, -, hname, hmsg⟩ := hostapCmdMsg_eq pool ifname
  have happended := @appendData_payload named _ _ arg.readable (by rwa [hname])
  rw [hname] at happended
  have hbase : (waveIpcMsgAppendData named (some arg.bytes) arg.len.toNat).2.payload =
      ifname.bytes ++
      if ifname.bytes.length + arg.len.toNat ≤ waveIpcBuffSize then arg.bytes.take arg.len.toNat
      else [] := by
    rw [happended]
    split_ifs
    · rfl
    · rw [List.append_nil]
  simp only [hmsg, cmdText]
  generalize (if ifname.bytes.length + arg.len.toNat ≤ waveIpcBuffSize then
    arg.bytes.take arg.len.toNat else []) = text at hbase ⊢
  by_cases hlast : arg.last ≠ 0
  · rw [if_pos hlast, appendData_terminator, hbase, List.length_append]
    by_cases hroom : ifname.bytes.length + text.length < waveIpcBuffSize
    · rw [if_pos hroom, if_pos ⟨hlast, hroom⟩, List.append_assoc]
    · rw [if_neg hroom, if_neg fun h => hroom h.2, List.append_nil]
  · rw [if_neg hlast, hbase, if_neg fun h => hlast h.1, List.append_nil]

/-- Where the lengths wrap, the message has less than the name, but for a terminator. -/
theorem hostapCmdMsg_wrapped (hwrap : 2 ^ 64 ≤ ifname.bytes.length + arg.len.toNat) :
    (arg.last = 0 ∨ arg.len.toNat + 1 ≠ 2 ^ 64 →
      (hostapCmdMsg pool ifname arg).payload.length < ifname.bytes.length) ∧
    (¬(arg.last = 0 ∨ arg.len.toNat + 1 ≠ 2 ^ 64) →
      (hostapCmdMsg pool ifname arg).payload.length = ifname.bytes.length ∧
        0 ∈ (hostapCmdMsg pool ifname arg).payload) := by
  obtain ⟨named, -, hname, hmsg⟩ := hostapCmdMsg_eq pool ifname
  have hlt := ifname.length_lt
  have hlen := arg.len.toNat_lt
  have hnamed : named.dataLen = ifname.bytes.length := by rw [← hname, WvIpcMsg.length_payload]
  have hbase : (waveIpcMsgAppendData named (some arg.bytes) arg.len.toNat).2.payload.length =
      ifname.bytes.length + arg.len.toNat - 2 ^ 64 := by
    rw [WvIpcMsg.length_payload, waveIpcMsgAppendData]
    rw [if_neg (by omega), dif_neg (by rw [hnamed, waveIpcBuffSize]; omega)]
    change (named.dataLen + arg.len.toNat) % 2 ^ 16 = _
    omega
  have hsmall : 18 ≤ waveIpcBuffSize := by decide
  rw [hmsg]
  by_cases hlast : arg.last = 0
  · rw [if_neg (not_not.mpr hlast), hbase]
    exact ⟨fun _ => by omega, fun h => absurd (.inl hlast) h⟩
  · rw [if_pos hlast, appendData_terminator, if_pos (by omega), List.length_append, hbase]
    refine ⟨fun h => ?_, fun h => ⟨?_, List.mem_append_right _ List.mem_cons_self⟩⟩
    · have hne := h.resolve_left hlast
      simp only [List.length_singleton]
      omega
    · rw [not_or, not_not] at h
      simp only [List.length_singleton]
      omega

/-- What the daemon finds behind the name is the command of the caller exactly if the message has it
with a terminator. -/
theorem cstr_stale_iff {text command : List UInt8} {k : Nat} :
    (∀ (stale : Buffer waveIpcBuffSize) (beyond : List UInt8),
      cstr (text ++ stale.bytes.drop k ++ beyond) = command) ↔ 0 ∈ text ∧ cstr text = command := by
  constructor
  · intro h
    have hzero : 0 ∈ text := by
      by_contra hzero
      have hshort := h (Buffer.fill waveIpcBuffSize 1) []
      have hlong := h (Buffer.fill waveIpcBuffSize 1) [1]
      rw [← hshort, cstr_of_notMem, cstr_of_notMem] at hlong
      · exact absurd (congrArg List.length hlong) (by simp)
      all_goals
        simp [Buffer.fill, hzero]
    refine ⟨hzero, ?_⟩
    have hstale := h (Buffer.fill waveIpcBuffSize 1) []
    rwa [List.append_assoc, cstr_append_of_mem hzero] at hstale
  · rintro ⟨hzero, rfl⟩ stale beyond
    rw [List.append_assoc, cstr_append_of_mem hzero]

end Message

section Exact

variable {ifname : IfName} {arg : CmdArg}

theorem executed_iff (hname : ifname.bytes ≠ [])
    (hwrap : ifname.bytes.length + arg.len.toNat < 2 ^ 64) :
    (∀ p call, executed p ifname arg = some call → call = (ifname.bytes, arg.text)) ↔
      0 ∈ cmdText ifname arg ∧ cstr (cmdText ifname arg) = arg.text := by
  have hcall : ∀ p, executed p ifname arg = some (ifname.bytes, cstr (cmdText ifname arg ++
      p.link.serverPool.bytes.drop (ifname.bytes ++ cmdText ifname arg).length ++
      p.world.beyond)) := by
    intro p
    rw [executed_payload (hostapCmdMsg_payload hwrap), if_neg, List.take_left, List.drop_left,
      CString.cstr_bytes]
    rw [not_or, List.length_append]
    exact ⟨by omega, hname⟩
  rw [← @cstr_stale_iff _ _ (ifname.bytes ++ cmdText ifname arg).length]
  constructor
  · intro h stale beyond
    have hpath := h { quietPath with
      link := { quietPath.link with serverPool := stale }
      world := { deliveringWorld [] with beyond := beyond } } _ (hcall _)
    exact congrArg Prod.snd hpath
  · intro h p call hsome
    rw [hcall] at hsome
    rw [← Option.some.inj hsome, h]

theorem last_ne_zero (hlen : arg.len ≠ 0) (hzero : 0 ∉ arg.bytes.take arg.len.toNat) :
    arg.last ≠ 0 := by
  have hpos : arg.len.toNat ≠ 0 := fun h => hlen (UInt64.toNat_inj.mp h)
  have hread := arg.readable
  rw [CmdArg.last, if_neg hlen, List.getD_eq_getElem?_getD, List.getElem?_eq_getElem (by omega),
    Option.getD_some]
  intro hlast
  exact hzero (hlast ▸ List.mem_take_iff_getElem.mpr ⟨arg.len.toNat - 1, by omega, rfl⟩)

theorem last_concat {bytes : List UInt8} {b : UInt8} (hbytes : arg.bytes = bytes ++ [b])
    (hlen : arg.len.toNat = bytes.length + 1) : arg.last = b := by
  have hne : arg.len ≠ 0 := by
    intro hzero
    rw [hzero] at hlen
    cases hlen
  rw [CmdArg.last, if_neg hne, hlen, hbytes, Nat.add_sub_cancel]
  exact getD_area bytes [] b

/-- The message has the command with a terminator behind the name. -/
theorem cmdText_iff :
    0 ∈ cmdText ifname arg ∧ cstr (cmdText ifname arg) = arg.text ↔
      if arg.len = 0 then arg.before ≠ 0
      else if ifname.bytes.length + arg.len.toNat ≤ waveIpcBuffSize then
        0 ∈ arg.bytes.take arg.len.toNat ∨ ifname.bytes.length + arg.len.toNat < waveIpcBuffSize
      else arg.last ≠ 0 ∧ arg.text = [] := by
  have hlt := ifname.length_lt
  have hbuffer : ifname.bytes.length + 0 < waveIpcBuffSize := by
    rw [waveIpcBuffSize]
    omega
  have hempty :
      (0 ∈ ([] : List UInt8) ++
          if arg.last ≠ 0 ∧ ifname.bytes.length + 0 < waveIpcBuffSize then [0] else []) ∧
        cstr ([] ++ if arg.last ≠ 0 ∧ ifname.bytes.length + 0 < waveIpcBuffSize then [0] else []) =
          arg.text ↔
        arg.last ≠ 0 ∧ arg.text = [] := by
    by_cases hlast : arg.last ≠ 0
    · rw [if_pos ⟨hlast, hbuffer⟩, and_iff_right hlast]
      exact ⟨fun h => h.2.symm, fun h => ⟨List.mem_cons_self, h.symm⟩⟩
    · rw [if_neg fun h => hlast h.1]
      exact iff_of_false (fun h => List.not_mem_nil h.1) fun h => hlast h.1
  simp only [cmdText]
  by_cases hne : arg.len = 0
  · have hlast : arg.last = arg.before := if_pos hne
    have htext : arg.text = [] := by
      rw [CmdArg.text, hne]
      rfl
    have htake : arg.bytes.take arg.len.toNat = [] := by
      rw [hne]
      rfl
    rw [if_pos hne, htake, ite_self, List.length_nil, hempty, htext, hlast, and_iff_left rfl]
  rw [if_neg hne]
  by_cases hfits : ifname.bytes.length + arg.len.toNat ≤ waveIpcBuffSize
  · rw [if_pos hfits, if_pos hfits, List.length_take, Nat.min_eq_left arg.readable, CmdArg.text]
    by_cases hzero : 0 ∈ arg.bytes.take arg.len.toNat
    · exact iff_of_true ⟨List.mem_append_left _ hzero, cstr_append_of_mem hzero _⟩ (.inl hzero)
    rw [or_iff_right hzero]
    by_cases hroom : ifname.bytes.length + arg.len.toNat < waveIpcBuffSize
    · rw [if_pos ⟨last_ne_zero hne hzero, hroom⟩, cstr_append_zero hzero, cstr_of_notMem hzero]
      exact iff_of_true ⟨List.mem_append_right _ List.mem_cons_self, rfl⟩ hroom
    · rw [if_neg fun h => hroom h.2, List.append_nil]
      exact iff_of_false (fun h => hzero h.1) hroom
  · rw [if_neg hfits, if_neg hfits, List.length_nil]
    exact hempty

/-- A command that the daemon refuses. -/
theorem hostapExecuteCommand_none {w : World} {cmd : WvIpcMsg} {ipsta : Station} {seqNum : UInt8}
    (h : hostapExecutes w cmd = none) : hostapExecuteCommand w cmd ipsta seqNum = (1, []) := by
  rw [hostapExecutes] at h
  rw [hostapExecuteCommand]
  cases hpop : dwpaldHeaderPop cmd with
  | diverges => rfl
  | failed msg => rfl
  | popped cmdHdr msg =>
    rw [hpop, Option.map_eq_none_iff] at h
    dsimp only
    rw [h]

/-- A request that has failed fails for the caller. -/
theorem hostapCmdResult_reqFailed {ε β : Type} (p : Path) (m : IfaceManager ε β) (d : Dwpald)
    (replyLen : Nat) :
    (hostapCmdResult replyLen (p.link.finish p.ipsta
      (d, (requestFailed p.world m p.ipsta p.link.seqNum).2.2))).1 ≠ .success := by
  obtain ⟨x, hsent, hx⟩ := requestFailed_answers p.world m p.ipsta p.link.seqNum
  rw [hsent, Link.finish]
  cases p.link.failure with
  | some ret => cases ret <;> exact fun h => by cases h
  | none =>
    obtain ⟨msg, hawait⟩ := awaitReply_reqFail hx (p.link.clientPool 0) []
    simp only [Link.receive_single p.link hx.ipsta_eq, hawait]
    exact fun h => by cases h

/-- A call that succeeds has had a command executed. -/
theorem executed_of_success {p : Path} {d : Dwpald} {replyLen : Nat}
    (h : (dwpaldHostapCmd p d ifname arg replyLen).1 = .success) :
    executed p ifname arg ≠ none := by
  intro hnone
  obtain ⟨received, -, -, -, hexecuted, hsend⟩ := executed_eq p ifname arg
  rw [hnone] at hexecuted
  rw [dwpaldHostapCmd, hsend] at h
  have hwork : d.execWork p.world .hostap (.cmd ⟨received, p.link.seqNum, p.ipsta⟩) =
      (d, (requestFailed p.world d.hapMan p.ipsta p.link.seqNum).2.2) := by
    simp only [Dwpald.execWork, workFunc, executeCmdWork, hapInit, hostapManApis,
      hostapExecuteCommand_none hexecuted.symm, List.nil_append]
    rfl
  rw [hwork] at h
  exact hostapCmdResult_reqFailed p d.hapMan d replyLen h

/-- The daemon executes the command of the caller and no other one if and only if the message
carries the command with a terminator, or the daemon refuses it. -/
theorem hostapCmd_roundTrip : CmdRoundTrip ifname arg ↔ CmdCarried ifname arg := by
  have hroundTrip : CmdRoundTrip ifname arg ↔
      ∀ p call, executed p ifname arg = some call → call = (ifname.bytes, arg.text) := by
    refine ⟨CmdRoundTrip.executed, fun h => ⟨h, fun p d replyLen hsuccess => ?_⟩⟩
    obtain ⟨call, hcall⟩ := Option.ne_none_iff_exists'.mp (executed_of_success hsuccess)
    rw [hcall, h p call hcall]
  rw [hroundTrip, CmdCarried]
  by_cases hname : ifname.bytes = []
  · rw [if_pos hname]
    refine iff_of_true (fun p call hcall => ?_) trivial
    rw [executed_payload rfl, if_pos (.inr hname)] at hcall
    cases hcall
  rw [if_neg hname]
  by_cases hwrap : 2 ^ 64 ≤ ifname.bytes.length + arg.len.toNat
  · have hlt := ifname.length_lt
    rw [if_neg fun hzero => absurd hwrap (by rw [hzero]; simp; omega), if_pos hwrap]
    refine ⟨fun h => ?_, fun h p call hcall => ?_⟩
    · by_contra hnot
      obtain ⟨hlen, hzero⟩ := (@hostapCmdMsg_wrapped _ _ quietPath.pool hwrap).2 hnot
      have hcall := @executed_payload ifname arg quietPath _ rfl
      rw [if_neg (not_or.mpr ⟨by omega, hname⟩), ← hlen, List.take_length] at hcall
      have hsame : cstr (hostapCmdMsg quietPath.pool ifname arg).payload = ifname.bytes :=
        congrArg Prod.fst (h _ _ hcall)
      have heq := (List.takeWhile_prefix (· != 0)).eq_of_length (hsame ▸ hlen.symm)
      exact cstr_zero_notMem _ (heq.symm ▸ hzero)
    · rw [executed_payload rfl,
        if_pos (.inl ((@hostapCmdMsg_wrapped _ _ p.pool hwrap).1 h))] at hcall
      cases hcall
  · rw [executed_iff hname (by omega), cmdText_iff]
    simp only [hwrap, if_false]

/-- A name, and a command that does not fit into the message behind it: the daemon executes what the
buffer has held before. -/
theorem longCommand_stale : ¬CmdRoundTrip ⟨ascii "wlan0", by decide, by decide⟩
    ⟨0, List.replicate 20479 0x41 ++ [0], 20480, by
      rw [List.length_append, List.length_replicate]
      decide⟩ := by
  intro h
  have hlen : (20480 : UInt64).toNat = 20480 := by decide
  have hname : (ascii "wlan0").length = 5 := by decide
  have hcarried :=
    cmdText_iff.mp ((executed_iff (by decide) (by rw [hname, hlen]; decide)).mp h.executed)
  rw [if_neg (by decide), if_neg (by rw [hname, hlen]; decide)] at hcarried
  apply hcarried.1
  have hsize : 20480 = (List.replicate 20479 (0x41 : UInt8)).length + 1 := by
    rw [List.length_replicate]
  exact last_concat rfl (hlen.trans hsize)

end Exact

end Dwpal.Client
