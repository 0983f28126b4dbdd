import Dwpal.Client.NlTransport

/-! The status of a command, from what the daemon obtains for it to what the functions of the client
return. The checks of the arguments and the building of the messages by libnl are left out. -/

namespace Dwpal.Client

open Ipc Daemon Frames

/-- What a function of the client returns, and what it stores in `*cmd_res`. -/
structure CmdStatus where
  ret : DwpaldRet
  cmdRes : Option Int

/-- The status and `*cmd_res` of a response without a message. The byte of the result is read as it
is, and the one of `*cmd_res` as an `int8_t`. -/
def resultStatus (respHdr : DwpaldHeader) : CmdStatus :=
  let dpalRet : Int := respHdr.header4.toNat
  if dpalRet ≠ DwpalRet.success.toInt then ⟨dwpaldRetFromDwpalRet dpalRet, none⟩
  else ⟨.success, some respHdr.header3.toInt8.toInt⟩

/-- `dwpald_drv_set` from the reply on. A reply of the daemon has a header. -/
def drvSetResult : DwpaldRet × List WvIpcMsg × Dwpald → CmdStatus
  | (.success, ipcReply :: _, _) =>
    match dwpaldHeaderPop ipcReply with
    | .popped respHdr _ => resultStatus respHdr
    | _ => ⟨.error, none⟩
  | (ret, _, _) => ⟨ret, none⟩

/-- `dwpald_drv_set` for the message that libnl has built. -/
def dwpaldDrvSet (p : Path) (d : Dwpald) (msg : NlMsg) : CmdStatus :=
  drvSetResult (dwpaldSendNlCommandToDaemon p d msg)

/-- What the caller of `dwpald_drv_get` gives: what `nla_find` finds as the vendor data of a
message, the size of `out_data`, and what the client has in memory behind the data area of the
reply. -/
structure DrvGetArg where
  vendorData : List UInt8 → Option (List UInt8)
  outDataSize : Nat
  beyond : List UInt8

/-- `dwpald_drv_get` from the reply on, with what it copies to `out_data`. -/
def drvGetResult (libnl : Libnl) (arg : DrvGetArg) :
    DwpaldRet × List WvIpcMsg × Dwpald → CmdStatus × Option (List UInt8)
  | (.success, ipcReply :: _, _) =>
    match dwpaldHeaderPop ipcReply with
    | .popped respHdr ipcReply =>
      if respHdr.header2 = 0 then (resultStatus respHdr, none)
      else
        match dwpaldNlMsgFromIpcMsg libnl ipcReply arg.beyond with
        | none => (⟨.error, some 0⟩, none)
        | some reply =>
          match arg.vendorData reply.bytes with
          | none => (⟨.error, some 0⟩, none)
          | some attr =>
            if attr.length > arg.outDataSize then (⟨.error, some 0⟩, none)
            else (⟨.success, some 0⟩, some attr)
    | _ => (⟨.error, none⟩, none)
  | (ret, _, _) => (⟨ret, none⟩, none)

/-- `dwpald_drv_get` for the message that libnl has built. -/
def dwpaldDrvGet (p : Path) (d : Dwpald) (msg : NlMsg) (arg : DrvGetArg) :
    CmdStatus × Option (List UInt8) :=
  drvGetResult p.world.libnl arg (dwpaldSendNlCommandToDaemon p d msg)

/-- The loop of `dwpald_nl80211_cmd_send` over the parts of a reply, with the messages that it calls
`cmd_cb` with; `filledRes` is `*cmd_res` once it is filled. -/
def cmdSendParts (libnl : Libnl) (beyond : List UInt8) :
    Option Int → List WvIpcMsg → CmdStatus × List NlMsg
  | none, [] => (⟨.error, none⟩, [])
  | some res, [] => (⟨.success, some res⟩, [])
  | filledRes, next :: parts =>
    match dwpaldHeaderPop next with
    | .popped respHdr next =>
      if respHdr.header2 ≠ 0 then
        match dwpaldNlMsgFromIpcMsg libnl next beyond with
        | some resMsg =>
          let (status, called) := cmdSendParts libnl beyond filledRes parts
          (status, resMsg :: called)
        | none => (⟨.error, filledRes⟩, [])
      else
        match resultStatus respHdr with
        | ⟨.success, cmdRes⟩ => cmdSendParts libnl beyond cmdRes parts
        | ⟨ret, _⟩ => (⟨ret, filledRes⟩, [])
    | _ => (⟨.error, filledRes⟩, [])

/-- `dwpald_nl80211_cmd_send` from the reply on, with the messages that it calls `cmd_cb` with, if
it is given one. -/
def cmdSendResult (libnl : Libnl) (cmdCb : Bool) (beyond : List UInt8) :
    DwpaldRet × List WvIpcMsg × Dwpald → CmdStatus × List NlMsg
  | (.success, ipcReply :: parts, _) =>
    if parts ≠ [] then
      if cmdCb then cmdSendParts libnl beyond none (ipcReply :: parts) else (⟨.error, none⟩, [])
    else
      match dwpaldHeaderPop ipcReply with
      | .popped respHdr ipcReply =>
        if respHdr.header2 = 0 then (resultStatus respHdr, [])
        else if cmdCb then
          match dwpaldNlMsgFromIpcMsg libnl ipcReply beyond with
          | some resMsg => (⟨.success, some 0⟩, [resMsg])
          | none => (⟨.error, none⟩, [])
        else (⟨.error, none⟩, [])
      | _ => (resultStatus ⟨0, 0, 0, 0, 0, 0⟩, [])
  | (ret, _, _) => (⟨ret, none⟩, [])

/-- `dwpald_nl80211_cmd_send`. -/
def dwpaldNl80211CmdSend (p : Path) (d : Dwpald) (msg : NlMsg) (cmdCb : Bool)
    (beyond : List UInt8) : CmdStatus × List NlMsg :=
  cmdSendResult p.world.libnl cmdCb beyond (dwpaldSendNlCommandToDaemon p d msg)

/-! What the daemon obtains, and what is left of it. -/

/-- What the daemon obtains for a netlink command: the result, `*cmd_res`, the messages that libnl
calls the callback with, and whether the command is a dump. -/
structure NlOutcome where
  dpalRet : DwpalRet
  res : Int
  msgs : List NlMsg
  dump : Bool

/-- What the daemon obtains for the command of a call, if the link carries the answer back. -/
def obtained (p : Path) (msg : NlMsg) : Option NlOutcome :=
  if p.link.failure = none then
    (commandReceived p msg).map fun received =>
      let answer := p.world.nl80211CmdSend received
      ⟨answer.1, answer.2.1, answer.2.2, isMultiMsg received⟩
  else none

/-- The same of a command for hostapd: the result and the reply. -/
def hostapObtained (p : Path) (ifname : IfName) (arg : CmdArg) : Option (DwpalRet × List UInt8) :=
  if p.link.failure = none then
    (executed p ifname arg).map fun (vapName, cmd) => p.world.hostapCmdSend vapName cmd
  else none

/-- The status that stands for a result. -/
def statusOf (dpalRet : DwpalRet) : DwpaldRet :=
  if dpalRet = .success then .success else dwpaldRetFromDwpalRet dpalRet.toInt

/-- The status stands for the result, and a successful command has its `*cmd_res`. -/
def StatusKept (out : NlOutcome) (status : CmdStatus) : Prop :=
  status.ret = statusOf out.dpalRet ∧ (out.dpalRet = .success → status.cmdRes = some out.res)

/-- The result and `*cmd_res` survive the byte that each has in a header. -/
def ResultFits (out : NlOutcome) : Prop :=
  out.dpalRet ≠ .failure ∧ (out.dpalRet = .success → -128 ≤ out.res ∧ out.res ≤ 127)

/-- What the client reports once it has a message: success, and no result. -/
def PlainOutcome (out : NlOutcome) : Prop := out.dpalRet = .success ∧ out.res = 0

/-- When `dwpald_drv_set` reports what the daemon has obtained. -/
def DrvSetReports (out : NlOutcome) : Prop :=
  if out.msgs = [] then ResultFits out else PlainOutcome out

/-- The message arrives with vendor data that fit into `out_data`. -/
def VendorDataFits (arg : DrvGetArg) (msg : NlMsg) : Prop :=
  FitsMsg msg ∧ ∃ attr, arg.vendorData msg.bytes = some attr ∧ attr.length ≤ arg.outDataSize

/-- When `dwpald_drv_get` reports what the daemon has obtained. -/
def DrvGetReports (arg : DrvGetArg) (out : NlOutcome) : Prop :=
  match out.msgs with
  | [] => ResultFits out
  | msg :: _ =>
    (VendorDataFits arg msg → PlainOutcome out) ∧
      (¬VendorDataFits arg msg → statusOf out.dpalRet = .error)

/-- The messages of which the client makes use: all of a dump, else the first one. -/
def NlOutcome.shown (out : NlOutcome) : List NlMsg := if out.dump then out.msgs else out.msgs.take 1

/-- When `dwpald_nl80211_cmd_send` reports what the daemon has obtained. -/
def CmdSendReports (cmdCb : Bool) (out : NlOutcome) : Prop :=
  if out.msgs = [] then ResultFits out
  else if cmdCb = true ∧ ∀ msg ∈ out.shown, FitsMsg msg then
    if out.dump then ResultFits out else PlainOutcome out
  else statusOf out.dpalRet = .error

/-- When `dwpald_hostap_cmd` reports what the daemon has obtained: there is room for the reply and
its terminator. -/
def HostapReports (replyLen : Nat) (dpalRet : DwpalRet) (reply : List UInt8) : Prop :=
  dpalRet = .success → min reply.length (4096 * 4) + 1 ≤ replyLen

/-! The reply at the client. -/

/-- A part of the reply forwards a message of libnl. -/
def CarriesMsg (msg : NlMsg) (part : WvIpcMsg) : Prop :=
  ∃ popped, dwpaldHeaderPop part = .popped forwardHeader popped ∧ popped.payload = msg.payload

/-- A part of the reply has the result of the command. -/
def CarriesResult (out : NlOutcome) (part : WvIpcMsg) : Prop :=
  ∃ popped, dwpaldHeaderPop part = .popped (resultHeader out.dpalRet out.res) popped

/-- The parts of a reply: the messages and the result, or the first message of a command that is no
dump. -/
inductive Reply (out : NlOutcome) : List WvIpcMsg → Prop where
  | result {fwds : List WvIpcMsg} {final : WvIpcMsg} (hresult : out.dump = true ∨ out.msgs = [])
      (hfwds : List.Forall₂ CarriesMsg out.msgs fwds) (hfinal : CarriesResult out final) :
      Reply out (fwds ++ [final])
  | first {msg : NlMsg} {msgs : List NlMsg} {part : WvIpcMsg} (hdump : out.dump = false)
      (hmsgs : out.msgs = msg :: msgs) (hpart : CarriesMsg msg part) : Reply out [part]

section Replies

variable {ipsta : Station} {seqNum : UInt8}

theorem Forwards.carries {multi : UInt8} {msg : NlMsg} {x : Sent}
    (h : Forwards ipsta seqNum multi msg x) (stale : Buffer waveIpcBuffSize) :
    ∃ part, ipcHeaderPop (waveIpcTransfer x.msg stale) =
        .popped ⟨waveIpcMsgResp, seqNum, multi, 0⟩ part ∧ CarriesMsg msg part := by
  obtain ⟨part, hpop, hheaders, hpayload⟩ := Answers.receive h stale
  obtain ⟨popped, hpop', -, hdata, hlen⟩ := dwpaldHeaderPop_last hheaders
  exact ⟨part, hpop, popped, hpop', (payload_eq_of_same hdata hlen).trans hpayload⟩

/-- The parts of a dump are collected, one after the other. -/
theorem awaitReply_parts {msgs : List NlMsg} {xs : List Sent}
    (h : List.Forall₂ (Forwards ipsta seqNum 1) msgs xs) (incoming : List WvIpcMsg) :
    ∀ (pool : Nat → Buffer waveIpcBuffSize) (multiOut : List WvIpcMsg),
      ∃ parts, List.Forall₂ CarriesMsg msgs parts ∧
        awaitReply seqNum multiOut
            ((xs.mapIdx fun i x => waveIpcTransfer x.msg (pool i)) ++ incoming) =
          awaitReply seqNum (multiOut ++ parts) incoming := by
  induction h with
  | nil => exact fun _ multiOut => ⟨[], .nil, by simp⟩
  | @cons msg x msgs xs hx _ ih =>
    intro pool multiOut
    obtain ⟨part, hpop, hpart⟩ := Forwards.carries hx (pool 0)
    obtain ⟨parts, hparts, hawait⟩ := ih (fun i => pool (i + 1)) (multiOut ++ [part])
    refine ⟨part :: parts, .cons hpart hparts, ?_⟩
    rw [List.append_assoc, List.singleton_append] at hawait
    rw [← hawait, List.mapIdx_cons, List.cons_append, awaitReply, hpop]
    simp [waveIpcMsgResp, waveIpcMsgReqFail]

/-- The result ends the reply. -/
theorem awaitReply_result {msgs : List NlMsg} {xs : List Sent} {x : Sent} {hdr : DwpaldHeader}
    {bytes : List UInt8} (hxs : List.Forall₂ (Forwards ipsta seqNum 1) msgs xs)
    (hx : Answers x ipsta ⟨waveIpcMsgResp, seqNum, 0, 0⟩ [hdr.bytes] bytes)
    (pool : Nat → Buffer waveIpcBuffSize) :
    ∃ fwds final popped, List.Forall₂ CarriesMsg msgs fwds ∧
      dwpaldHeaderPop final = .popped hdr popped ∧
      awaitReply seqNum [] ((xs ++ [x]).mapIdx fun i x => waveIpcTransfer x.msg (pool i)) =
        (.success, fwds ++ [final]) := by
  obtain ⟨fwds, hfwds, hparts⟩ :=
    awaitReply_parts hxs [waveIpcTransfer x.msg (pool xs.length)] pool []
  obtain ⟨final, hfinal, hheaders, -⟩ := awaitReply_final hx (pool xs.length) ([] ++ fwds) []
  obtain ⟨popped, hpop, -⟩ := dwpaldHeaderPop_last hheaders
  refine ⟨fwds, final, popped, hfwds, hpop, ?_⟩
  rw [List.mapIdx_concat, hparts, hfinal, List.nil_append]

/-- A message of a command that is no dump ends the reply. -/
theorem awaitReply_first {msg : NlMsg} {x : Sent} (hx : Forwards ipsta seqNum 0 msg x)
    (stale : Buffer waveIpcBuffSize) (incoming : List WvIpcMsg) :
    ∃ part, CarriesMsg msg part ∧
      awaitReply seqNum [] (waveIpcTransfer x.msg stale :: incoming) = (.success, [part]) := by
  obtain ⟨part, hpop, hpart⟩ := Forwards.carries hx stale
  refine ⟨part, hpart, ?_⟩
  simp [awaitReply, hpop, waveIpcMsgResp, waveIpcMsgReqFail]

theorem receive_all (link : Link) {sent : List Sent} (h : ∀ x ∈ sent, x.ipsta = ipsta) :
    link.receive ipsta sent = sent.mapIdx fun i x => waveIpcTransfer x.msg (link.clientPool i) := by
  rw [Link.receive, List.filter_eq_self.mpr fun x hx => decide_eq_true (h x hx)]

/-- The client has what it makes of the messages that the daemon sends while it executes the
command. -/
theorem sendNlCommand_answered {p : Path} {d : Dwpald} {msg : NlMsg} {pushed received : WvIpcMsg}
    {sent : List Sent} {part : WvIpcMsg} {parts : List WvIpcMsg} (hlink : p.link.failure = none)
    (hpush : nlCmdMsg p.world.libnl p.pool msg = (0, pushed))
    (hsend : waveIpccSendCmd p.link p.ipsta (Dwpald.serve p.world p.ipsta) d pushed =
      p.link.finish p.ipsta (d.execWork p.world .kernel (.cmd ⟨received, p.link.seqNum, p.ipsta⟩)))
    (hexec : nlExecuteCommand p.world received p.ipsta p.link.seqNum = (0, sent))
    (hipsta : ∀ x ∈ sent, x.ipsta = p.ipsta)
    (hawait : awaitReply p.link.seqNum []
        (sent.mapIdx fun i x => waveIpcTransfer x.msg (p.link.clientPool i)) =
      (.success, part :: parts)) :
    dwpaldSendNlCommandToDaemon p d msg = (.success, part :: parts, d) := by
  have hwork : d.execWork p.world .kernel (.cmd ⟨received, p.link.seqNum, p.ipsta⟩) =
      (d, sent) := by
    simp only [Dwpald.execWork, workFunc, executeCmdWork, nlInit, nlManApis, hexec]
  have hfinish : p.link.finish p.ipsta (d, sent) = (.success, part :: parts, d) := by
    simp only [Link.finish, hlink, receive_all p.link hipsta, hawait]
  simp only [dwpaldSendNlCommandToDaemon, hpush, hsend, hwork, hfinish]

theorem forwarded_ipsta {w : World} {multi : UInt8} {msgs : List NlMsg} :
    ∀ x ∈ forwarded w ipsta seqNum multi msgs, x.ipsta = ipsta := by
  intro x hx
  obtain ⟨_, _, hanswers⟩ := forwarded_answers w ipsta seqNum multi msgs x hx
  exact hanswers.ipsta_eq

/-- What the client has of the replies to a command. -/
theorem reply_of_command {p : Path} {d : Dwpald} {msg : NlMsg} {out : NlOutcome}
    (h : obtained p msg = some out) :
    ∃ part parts, dwpaldSendNlCommandToDaemon p d msg = (.success, part :: parts, d) ∧
      Reply out (part :: parts) := by
  rw [obtained, Option.ite_none_right_eq_some, Option.map_eq_some_iff] at h
  obtain ⟨hlink, other, hother, rfl⟩ := h
  obtain ⟨pushed, received, hpush, -, hreceived, hsend⟩ := commandReceived_eq p msg
  have hmsg := hreceived.symm.trans hother
  by_cases hresult : isMultiMsg other = true ∨ (p.world.nl80211CmdSend other).2.2 = []
  · obtain ⟨x, hexec, bytes, hx⟩ := nlExecuteCommand_result p.ipsta p.link.seqNum hmsg hresult
    obtain ⟨fwds, final, popped, hfwds, hfinal, hawait⟩ := awaitReply_result
      (forwarded_forwards p.world p.ipsta p.link.seqNum 1 _) hx p.link.clientPool
    obtain ⟨part, parts, hparts⟩ :=
      List.exists_cons_of_ne_nil
        (List.append_ne_nil_of_right_ne_nil fwds (List.cons_ne_nil final []))
    have hipsta : ∀ y ∈ forwarded p.world p.ipsta p.link.seqNum 1
        (p.world.nl80211CmdSend other).2.2 ++ [x], y.ipsta = p.ipsta := by
      rw [List.forall_mem_append, List.forall_mem_singleton]
      exact ⟨forwarded_ipsta, hx.ipsta_eq⟩
    refine ⟨part, parts, sendNlCommand_answered hlink hpush (hsend d) hexec hipsta
      (hparts ▸ hawait), ?_⟩
    rw [← hparts]
    exact .result hresult hfwds ⟨popped, hfinal⟩
  · have hexec := nlExecuteCommand_some p.ipsta p.link.seqNum hmsg hresult
    have hforwards := forwarded_forwards p.world p.ipsta p.link.seqNum 0
      (p.world.nl80211CmdSend other).2.2
    have hipsta : ∀ y ∈ forwarded p.world p.ipsta p.link.seqNum 0
        (p.world.nl80211CmdSend other).2.2, y.ipsta = p.ipsta := forwarded_ipsta
    rw [not_or, Bool.not_eq_true] at hresult
    obtain ⟨first, rest, hmsgs⟩ := List.exists_cons_of_ne_nil hresult.2
    rw [hmsgs] at hforwards hexec hipsta
    obtain ⟨x, xs, hx, -, hsent⟩ := List.forall₂_cons_left_iff.mp hforwards
    rw [hsent] at hexec hipsta
    obtain ⟨part, hpart, hawait⟩ := awaitReply_first hx (p.link.clientPool 0)
      (xs.mapIdx fun i x => waveIpcTransfer x.msg (p.link.clientPool (i + 1)))
    refine ⟨part, [], sendNlCommand_answered hlink hpush (hsend d) hexec hipsta ?_, ?_⟩
    · rw [List.mapIdx_cons, hawait]
    · exact .first hresult.1 hmsgs hpart

end Replies

/-! What the functions report. -/

section Status

variable {out : NlOutcome}

theorem statusOf_success (dpalRet : DwpalRet) :
    statusOf dpalRet = .success ↔ dpalRet = .success := by
  cases dpalRet <;> decide

theorem int8_ofInt (res : Int) : (UInt8.ofInt res).toInt8.toInt = res ↔ -128 ≤ res ∧ res ≤ 127 := by
  have hsigned : (UInt8.ofInt res).toInt8.toInt = Int.bmod (UInt8.ofInt res).toNat 256 :=
    BitVec.toInt_eq_toNat_bmod _
  have hbyte : ((UInt8.ofInt res).toNat : Int) = res % 256 := by
    rw [UInt8.ofInt, UInt8.toNat_ofNat']
    omega
  rw [hsigned, hbyte, Int.bmod_def]
  omega

/-- Of the results only `DWPAL_FAILURE` changes its status with the missing cast. -/
theorem resultStatus_eq (dpalRet : DwpalRet) (res : Int) : resultStatus (resultHeader dpalRet res) =
    if dpalRet = .success then ⟨.success, some (UInt8.ofInt res).toInt8.toInt⟩
    else ⟨if dpalRet = .failure then .error else statusOf dpalRet, none⟩ := by
  cases dpalRet <;> rfl

theorem result_kept : StatusKept out (resultStatus (resultHeader out.dpalRet out.res)) ↔
    ResultFits out := by
  rw [resultStatus_eq, StatusKept, ResultFits]
  by_cases hsuccess : out.dpalRet = .success
  · rw [if_pos hsuccess, hsuccess, ← int8_ofInt]
    simp [statusOf]
  · rw [if_neg hsuccess]
    cases hret : out.dpalRet <;> simp_all [statusOf, dwpaldRetFromDwpalRet, DwpalRet.toInt]

theorem plain_kept : StatusKept out ⟨.success, some 0⟩ ↔ PlainOutcome out := by
  rw [StatusKept, PlainOutcome]
  constructor
  · rintro ⟨hret, hres⟩
    have hsuccess := (statusOf_success _).mp hret.symm
    exact ⟨hsuccess, (Option.some.inj (hres hsuccess)).symm⟩
  · rintro ⟨hret, hres⟩
    exact ⟨((statusOf_success _).mpr hret).symm, fun _ => congrArg some hres.symm⟩

theorem error_kept (cmdRes : Option Int) :
    StatusKept out ⟨.error, cmdRes⟩ ↔ statusOf out.dpalRet = .error := by
  rw [StatusKept]
  constructor
  · exact fun h => h.1.symm
  · intro h
    refine ⟨h.symm, fun hsuccess => ?_⟩
    rw [(statusOf_success _).mpr hsuccess] at h
    cases h

/-- What the first part of a reply says. -/
theorem Reply.head {part : WvIpcMsg} {parts : List WvIpcMsg} (h : Reply out (part :: parts)) :
    match out.msgs with
    | [] => CarriesResult out part
    | msg :: _ => CarriesMsg msg part := by
  generalize hall : part :: parts = all at h
  cases h with
  | result _ hfwds hfinal =>
    cases hmsgs : out.msgs with
    | nil =>
      rw [hmsgs, List.forall₂_nil_left_iff] at hfwds
      rw [hfwds, List.nil_append, List.cons.injEq] at hall
      rw [hall.1]
      exact hfinal
    | cons msg msgs =>
      rw [hmsgs, List.forall₂_cons_left_iff] at hfwds
      obtain ⟨first, rest, hfirst, -, hfwds⟩ := hfwds
      rw [hfwds, List.cons_append, List.cons.injEq] at hall
      rw [hall.1]
      exact hfirst
  | first _ hmsgs hpart =>
    rw [hmsgs]
    rw [List.cons.injEq] at hall
    rw [hall.1]
    exact hpart

theorem resultHeader_header2 (dpalRet : DwpalRet) (res : Int) :
    (resultHeader dpalRet res).header2 = 0 :=
  rfl

theorem drvSet_reports {p : Path} {d : Dwpald} {msg : NlMsg} (h : obtained p msg = some out) :
    StatusKept out (dwpaldDrvSet p d msg) ↔ DrvSetReports out := by
  obtain ⟨part, parts, hsend, hreply⟩ := @reply_of_command p d msg out h
  have hhead := hreply.head
  rw [dwpaldDrvSet, hsend, DrvSetReports]
  cases hmsgs : out.msgs with
  | nil =>
    rw [hmsgs] at hhead
    obtain ⟨popped, hpop⟩ := hhead
    rw [if_pos rfl, ← result_kept]
    simp only [drvSetResult, hpop]
  | cons first rest =>
    rw [hmsgs] at hhead
    obtain ⟨popped, hpop, -⟩ := hhead
    rw [if_neg (List.cons_ne_nil first rest), ← plain_kept]
    simp only [drvSetResult, hpop]
    rfl

theorem drvGet_reports {p : Path} {d : Dwpald} {msg : NlMsg} (arg : DrvGetArg)
    (h : obtained p msg = some out) :
    StatusKept out (dwpaldDrvGet p d msg arg).1 ↔ DrvGetReports arg out := by
  obtain ⟨part, parts, hsend, hreply⟩ := @reply_of_command p d msg out h
  have hhead := hreply.head
  rw [dwpaldDrvGet, hsend, DrvGetReports]
  cases hmsgs : out.msgs with
  | nil =>
    rw [hmsgs] at hhead
    obtain ⟨popped, hpop⟩ := hhead
    simp only [drvGetResult, hpop, resultHeader_header2, if_true]
    exact result_kept
  | cons first rest =>
    rw [hmsgs] at hhead
    obtain ⟨popped, hpop, hpayload⟩ := hhead
    have hheader2 : forwardHeader.header2 ≠ 0 := by decide
    simp only [drvGetResult, hpop, if_neg hheader2]
    by_cases hfit : FitsMsg first
    · obtain ⟨reply, hreceived, hbytes⟩ := received_same p.world.libnl hpayload arg.beyond hfit
      rw [hreceived]
      simp only [hbytes, VendorDataFits, hfit, true_and]
      cases hattr : arg.vendorData first.bytes with
      | none =>
        simp only [error_kept]
        simp
      | some attr =>
        by_cases hroom : attr.length ≤ arg.outDataSize
        · simp only [if_neg (Nat.not_lt.mpr hroom), plain_kept]
          simp [hroom]
        · simp only [if_pos (Nat.not_le.mp hroom), error_kept]
          simp [hroom]
    · rw [received_none p.world.libnl hpayload arg.beyond hfit]
      simp only [error_kept, VendorDataFits, hfit, false_and]
      simp

/-- The loop over the parts of a dump ends with the result, if it comes that far. -/
theorem cmdSendParts_forwards {msgs : List NlMsg} {fwds : List WvIpcMsg} {final : WvIpcMsg}
    (hfwds : List.Forall₂ CarriesMsg msgs fwds) (hfinal : CarriesResult out final)
    (libnl : Libnl) (beyond : List UInt8) :
    (cmdSendParts libnl beyond none (fwds ++ [final])).1 =
      if ∀ msg ∈ msgs, FitsMsg msg then resultStatus (resultHeader out.dpalRet out.res)
      else ⟨.error, none⟩ := by
  induction hfwds with
  | nil =>
    obtain ⟨popped, hpop⟩ := hfinal
    rw [if_pos (List.forall_mem_nil _), List.nil_append, cmdSendParts, hpop]
    simp only [resultHeader_header2, ne_eq, not_true_eq_false, if_false, resultStatus_eq]
    by_cases hsuccess : out.dpalRet = .success
    · simp only [hsuccess, if_true, cmdSendParts]
    · rw [if_neg hsuccess]
      cases hret : out.dpalRet <;> first | rfl | exact absurd hret hsuccess
  | @cons msg part msgs fwds hpart _ ih =>
    obtain ⟨popped, hpop, hpayload⟩ := hpart
    have hheader2 : forwardHeader.header2 ≠ 0 := by decide
    rw [List.cons_append, cmdSendParts, hpop]
    simp only [if_pos hheader2]
    by_cases hfit : FitsMsg msg
    · obtain ⟨resMsg, hreceived, -⟩ := received_same libnl hpayload beyond hfit
      simp only [hreceived, ih, List.forall_mem_cons, hfit, true_and]
    · simp only [received_none libnl hpayload beyond hfit, List.forall_mem_cons, hfit, false_and,
        if_false]

theorem cmdSend_reports {p : Path} {d : Dwpald} {msg : NlMsg} (cmdCb : Bool) (beyond : List UInt8)
    (h : obtained p msg = some out) :
    StatusKept out (dwpaldNl80211CmdSend p d msg cmdCb beyond).1 ↔ CmdSendReports cmdCb out := by
  obtain ⟨part, parts, hsend, hreply⟩ := @reply_of_command p d msg out h
  have hheader2 : forwardHeader.header2 ≠ 0 := by decide
  rw [dwpaldNl80211CmdSend, hsend, CmdSendReports]
  simp only [cmdSendResult]
  obtain ⟨all, hall⟩ : ∃ all, part :: parts = all := ⟨_, rfl⟩
  rw [hall] at hreply
  cases hreply with
  | @result fwds final hresult hfwds hfinal =>
    by_cases hnone : out.msgs = []
    · rw [hnone, List.forall₂_nil_left_iff] at hfwds
      rw [hfwds, List.nil_append, List.cons.injEq] at hall
      obtain ⟨rfl, rfl⟩ := hall
      obtain ⟨popped, hpop⟩ := hfinal
      rw [if_pos hnone, ← result_kept]
      simp only [ne_eq, not_true_eq_false, if_false, hpop, resultHeader_header2, if_true]
    · have hdump := hresult.resolve_right hnone
      have hparts : parts ≠ [] := by
        rintro rfl
        have hlen := congrArg List.length hall
        rw [List.length_append, ← hfwds.length_eq] at hlen
        exact hnone (List.length_eq_zero_iff.mp (Nat.succ.inj hlen).symm)
      rw [if_neg hnone, NlOutcome.shown, if_pos hdump, if_pos hdump]
      rw [if_pos hparts]
      cases cmdCb with
      | false =>
        rw [if_neg nofun, if_neg fun h => nomatch h.1]
        exact error_kept none
      | true =>
        rw [if_pos rfl, hall, cmdSendParts_forwards hfwds hfinal]
        simp only [true_and]
        split_ifs
        · exact result_kept
        · exact error_kept none
  | @first first rest part' hdump hmsgs hpart =>
    rw [List.cons.injEq] at hall
    obtain ⟨rfl, rfl⟩ := hall
    obtain ⟨popped, hpop, hpayload⟩ := hpart
    have hshown : out.shown = [first] := by
      rw [NlOutcome.shown, hdump, hmsgs]
      rfl
    have hsome : out.msgs ≠ [] := hmsgs ▸ List.cons_ne_nil first rest
    simp only [ne_eq, not_true_eq_false, if_false, hpop, if_neg hheader2, if_neg hsome, hshown,
      List.forall_mem_singleton, hdump]
    cases cmdCb with
    | false =>
      rw [if_neg nofun, if_neg fun h => nomatch h.1]
      exact error_kept none
    | true =>
      by_cases hfit : FitsMsg first
      · obtain ⟨resMsg, hreceived, -⟩ := received_same p.world.libnl hpayload beyond hfit
        rw [if_pos rfl, hreceived, if_pos ⟨rfl, hfit⟩, if_neg nofun]
        exact plain_kept
      · rw [if_pos rfl, received_none p.world.libnl hpayload beyond hfit, if_neg fun h => hfit h.2]
        exact error_kept none

end Status

section Hostap

variable {p : Path} {ifname : IfName} {arg : CmdArg} {dpalRet : DwpalRet} {reply : List UInt8}

/-- The header of the response with the result of a command for hostapd. -/
def hostapHeader (dpalRet : DwpalRet) : DwpaldHeader :=
  ⟨dwpaldCmdResp, dwpaldIfTypeHostap, UInt8.ofInt dpalRet.toInt, 0, 0, 0⟩

theorem hostapResponse_dataLen (w : World) (hreply : reply.length ≤ 4096 * 4) :
    (hostapResponse w dpalRet reply).dataLen =
      if dpalRet = .success then reply.length + 1 else 0 := by
  have hreserve : waveIpcMsgReserveData (waveIpcMsgAlloc (w.pool 0)) (4096 * 4 + 1) =
      (.success, ⟨4096 * 4 + 1, by decide, Buffer.fill ipcMsgHdrSize 0, w.pool 0⟩) := rfl
  have hpush : ∀ msg : WvIpcMsg, (dwpaldHeaderPush msg (hostapHeader dpalRet)).2.dataLen =
      msg.dataLen := by
    intro msg
    rw [dwpaldHeaderPush, headerPush]
    split <;> next hpush => rw [← pushHdr_dataLen msg (hostapHeader dpalRet).bytes, hpush]
  rw [hostapHeader] at hpush
  rw [hostapResponse, hpush, hreserve]
  by_cases hsuccess : dpalRet = .success
  · rw [if_pos hsuccess, if_pos hsuccess, waveIpcMsgShrinkData, dif_neg (by dsimp only; omega)]
  · rw [if_neg hsuccess, if_neg hsuccess]
    rfl

/-- What the daemon does with a command that it executes. -/
theorem hostapExecuteCommand_some {w : World} {cmd : WvIpcMsg} {ipsta : Station} {seqNum : UInt8}
    {call : List UInt8 × List UInt8} (h : hostapExecutes w cmd = some call) :
    ∃ x bytes, hostapExecuteCommand w cmd ipsta seqNum = (0, [x]) ∧
      Answers x ipsta ⟨waveIpcMsgResp, seqNum, 0, 0⟩
        [(hostapHeader (w.hostapCmdSend call.1 call.2).1).bytes] bytes ∧
      bytes.length = if (w.hostapCmdSend call.1 call.2).1 = .success then
        min (w.hostapCmdSend call.1 call.2).2.length (4096 * 4) + 1 else 0 := by
  rw [hostapExecutes] at h
  rw [hostapExecuteCommand]
  cases hpop : dwpaldHeaderPop cmd with
  | diverges =>
    rw [hpop] at h
    cases h
  | failed msg =>
    rw [hpop] at h
    cases h
  | popped cmdHdr msg =>
    rw [hpop, Option.map_eq_some_iff] at h
    obtain ⟨⟨vapName, cmdData⟩, hcommand, rfl⟩ := h
    obtain ⟨x, hsend, hanswers⟩ := sendResponseTo_answers
      (hostapResponse_headers w (w.hostapCmdSend vapName (cstr cmdData)).1
        ((w.hostapCmdSend vapName (cstr cmdData)).2.take (4096 * 4))) (by simp [encode_cons]) ipsta
      seqNum 0
    refine ⟨x, _, ?_, hanswers, ?_⟩
    · simp only [hcommand, hsend]
    · rw [WvIpcMsg.length_payload, hostapResponse_dataLen w (List.length_take_le ..),
        List.length_take, Nat.min_comm]

/-- The byte of the result is cast, so the status is right, but for a reply without room for it. -/
theorem hostapCmd_reports {d : Dwpald} {replyLen : Nat}
    (h : hostapObtained p ifname arg = some (dpalRet, reply)) :
    (dwpaldHostapCmd p d ifname arg replyLen).1 = statusOf dpalRet ↔
      HostapReports replyLen dpalRet reply := by
  rw [hostapObtained, Option.ite_none_right_eq_some, Option.map_eq_some_iff] at h
  obtain ⟨hlink, call, hcall, hsent⟩ := h
  obtain ⟨received, -, -, -, hexecuted, hsend⟩ := executed_eq p ifname arg
  obtain ⟨x, bytes, hexec, hx, hlen⟩ :=
    @hostapExecuteCommand_some _ _ p.ipsta p.link.seqNum _ (hexecuted.symm.trans hcall)
  dsimp only at hsent
  rw [hsent] at hx hlen
  have hwork : d.execWork p.world .hostap (.cmd ⟨received, p.link.seqNum, p.ipsta⟩) = (d, [x]) := by
    simp only [Dwpald.execWork, workFunc, executeCmdWork, hapInit, hostapManApis, hexec]
  obtain ⟨response, hawait, hheaders, hpayload⟩ := awaitReply_final hx (p.link.clientPool 0) [] []
  obtain ⟨popped, hpop, -, hdata, hlen'⟩ := dwpaldHeaderPop_last hheaders
  have hsize : popped.dataLen = bytes.length := by
    rw [hlen', ← WvIpcMsg.length_payload, hpayload]
  have hfinish : p.link.finish p.ipsta (d, [x]) = (.success, [response], d) := by
    simp only [Link.finish, hlink, Link.receive_single p.link hx.ipsta_eq, hawait, List.nil_append]
  have hcast : (hostapHeader dpalRet).header2.toInt8.toInt = dpalRet.toInt := by
    rw [hostapHeader, int8_ofInt]
    cases dpalRet <;> decide
  have htype : ¬((hostapHeader dpalRet).header0 ≠ dwpaldCmdResp ∨
      (hostapHeader dpalRet).header1 ≠ dwpaldIfTypeHostap) :=
        not_or.mpr ⟨not_not.mpr rfl, not_not.mpr rfl⟩
  rw [dwpaldHostapCmd, hsend, hwork, hfinish, HostapReports]
  simp only [hostapCmdResult, hpop, if_neg htype, hcast, waveIpcMsgGetSize, waveIpcMsgGetData,
    hsize, hlen]
  generalize min reply.length (4096 * 4) = size
  by_cases hsuccess : dpalRet = .success
  · simp only [hsuccess, ne_eq, not_true_eq_false, if_false, if_true, true_implies]
    by_cases hroom : size + 1 ≤ replyLen
    · rw [if_neg (Nat.not_lt.mpr hroom), if_neg (Nat.succ_ne_zero size)]
      exact iff_of_true rfl hroom
    · rw [if_pos (Nat.not_le.mp hroom)]
      exact iff_of_false (fun h => by cases h) hroom
  · have hint : dpalRet.toInt ≠ DwpalRet.success.toInt := by
      cases hret : dpalRet <;> first | decide | exact absurd hret hsuccess
    simp [hint, hsuccess, statusOf]

end Hostap

/-- When the functions report what the daemon has obtained for a command. -/
theorem commandStatus (p : Path) (d : Dwpald) :
    (∀ ifname arg replyLen dpalRet reply, hostapObtained p ifname arg = some (dpalRet, reply) →
      ((dwpaldHostapCmd p d ifname arg replyLen).1 = statusOf dpalRet ↔
        HostapReports replyLen dpalRet reply)) ∧
    ∀ msg out, obtained p msg = some out →
      (∀ arg, StatusKept out (dwpaldDrvGet p d msg arg).1 ↔ DrvGetReports arg out) ∧
      (StatusKept out (dwpaldDrvSet p d msg) ↔ DrvSetReports out) ∧
      ∀ cmdCb beyond, StatusKept out (dwpaldNl80211CmdSend p d msg cmdCb beyond).1 ↔
        CmdSendReports cmdCb out :=
  ⟨fun _ _ _ _ _ h => hostapCmd_reports h, fun _ _ h =>
    ⟨fun arg => drvGet_reports arg h, drvSet_reports h,
      fun cmdCb beyond => cmdSend_reports cmdCb beyond h⟩⟩

/-- The path of a command that the daemon answers with a result, `*cmd_res`, and messages. -/
def answeringPath (answer : DwpalRet × Int × List NlMsg) : Path :=
  { quietPath with world := { deliveringWorld [] with nl80211CmdSend := fun _ => answer } }

theorem obtained_bare (answer : DwpalRet × Int × List NlMsg) :
    ∃ dump, obtained (answeringPath answer) bareNlMsg =
      some ⟨answer.1, answer.2.1, answer.2.2, dump⟩ := by
  obtain ⟨pushed, received, -, hpayload, hreceived, -⟩ :=
    commandReceived_eq (answeringPath answer) bareNlMsg
  obtain ⟨other, hother, -⟩ :=
    received_same (answeringPath answer).world.libnl hpayload (answeringPath answer).world.beyond
      (by decide)
  refine ⟨isMultiMsg other, ?_⟩
  rw [obtained, if_pos (by rfl), hreceived, hother]
  rfl

theorem commandStatus_five :
    ∃ out, obtained (answeringPath (.success, 5, [])) bareNlMsg = some out ∧
      StatusKept out (dwpaldDrvSet (answeringPath (.success, 5, [])) startedDwpald bareNlMsg) := by
  obtain ⟨dump, hobtained⟩ := obtained_bare (.success, 5, [])
  refine ⟨_, hobtained, ?_⟩
  obtain ⟨-, hset, -⟩ :=
    (commandStatus (answeringPath (.success, 5, [])) startedDwpald).2 _ _ hobtained
  have hfits : (-128 : Int) ≤ 5 ∧ (5 : Int) ≤ 127 := by decide
  exact hset.mpr ⟨nofun, fun _ => hfits⟩

/-- A command that fails with `DWPAL_FAILURE`; and one that succeeds with 200 as its `*cmd_res`. -/
theorem failure_reported_as_error :
    (∃ out, obtained (answeringPath (.failure, 0, [])) bareNlMsg = some out ∧
      ¬StatusKept out (dwpaldDrvSet (answeringPath (.failure, 0, [])) startedDwpald bareNlMsg)) ∧
    ∃ out, obtained (answeringPath (.success, 200, [])) bareNlMsg = some out ∧
      ¬StatusKept out
        (dwpaldDrvSet (answeringPath (.success, 200, [])) startedDwpald bareNlMsg) := by
  obtain ⟨dump, hfailure⟩ := obtained_bare (.failure, 0, [])
  obtain ⟨dump', hlarge⟩ := obtained_bare (.success, 200, [])
  refine ⟨⟨_, hfailure, fun h => ?_⟩, _, hlarge, fun h => ?_⟩
  · have hfits := (drvSet_reports hfailure).mp h
    exact hfits.1 rfl
  · have hfits := (drvSet_reports hlarge).mp h
    have hle : (200 : Int) ≤ 127 := (hfits.2 rfl).2
    exact absurd hle (by decide)

end Dwpal.Client
