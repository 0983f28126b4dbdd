import Dwpal.Client.DriverRequests

/-! The re-attach of everything that a client has registered, after its connection to the daemon
came back: `dwpald_reconnected` of `daemon/dwpald_client.c`. -/

namespace Dwpal.Client

open Ipc Daemon Frames

/-- The registrations of a `dwpald_connection`, and the id of the kernel family. -/
structure DwpaldConnection where
  hostapAttachments : List DwpaldHostapAttachment
  drvNlAttch : Option DwpaldDrvNlAttachment
  nl80211Id : Int

section

attribute [local irreducible] dwpaldSendHostapAttach

/-- The loop of `dwpald_reconnected` over the attachments to hostapd: the status, the attachments,
the interfaces that `INTERFACE_RECONNECTED_OK` is emulated for, and the daemon. The request for an
interface takes the path that `ps` names. -/
def reattach (ps : IfName → Path) : Dwpald → List DwpaldHostapAttachment →
    Nat × List DwpaldHostapAttachment × List IfName × Dwpald
  | d, [] => (0, [], [], d)
  | d, hapAttch :: hapAttchs =>
    match dwpaldSendHostapAttach (ps hapAttch.ifname) d hapAttch with
    | (.success, hapAttch, d) =>
      let (ret, kept, emulated, d) := reattach ps d hapAttchs
      (ret, hapAttch :: kept,
        if hapAttch.state = interfaceDwpalStateConnected then hapAttch.ifname :: emulated
        else emulated, d)
    | (_, hapAttch, d) => (1, hapAttch :: hapAttchs, [], d)

end

/-- `dwpald_reconnected`: the status, the connection, the emulated events, and the daemon. -/
def dwpaldReconnected (ps : IfName → Path) (drvPath : Path) (conn : DwpaldConnection) (d : Dwpald) :
    Nat × DwpaldConnection × List IfName × Dwpald :=
  match reattach ps d conn.hostapAttachments with
  | (0, hapAttchs, emulated, d) =>
    match conn.drvNlAttch with
    | none => (0, { conn with hostapAttachments := hapAttchs }, emulated, d)
    | some attch =>
      let (ret, nl80211Id, d) := dwpaldSendDrvNlAttach drvPath d conn.nl80211Id attch.drvEvents
      (if ret = .success then 0 else 1,
        { conn with hostapAttachments := hapAttchs, nl80211Id := nl80211Id }, emulated, d)
  | (ret, hapAttchs, emulated, d) =>
    (ret, { conn with hostapAttachments := hapAttchs }, emulated, d)

/-! The request for one interface. -/

/-- The op_codes that are registered locally. -/
def localOpCodes (hapEvents : List DwpaldHostapEventWithId) : Set (List UInt8) :=
  {op | ∃ hapEvent ∈ hapEvents, hapEvent.opCode = op}

/-- The op_codes that the daemon reads from the request. -/
def sentOpCodes (hapEvents : List DwpaldHostapEventWithId) : List (List UInt8) :=
  requested (reqEvents hapEvents) (reqEvents hapEvents).length

/-- The daemon attaches the interface for the request. -/
def HostapAccepted (p : Path) (hapAttch : DwpaldHostapAttachment) : Prop :=
  reqLen hapAttch.hostapEvents ≤ waveIpcBuffSize ∧ AllShort (reqEvents hapAttch.hostapEvents) ∧
    p.world.hostapInterfaceAttach hapAttch.ifname.bytes ≠ .failure

theorem ifName_eq (ifname : IfName) : ifName ifname.bytes = ifname := by
  rw [CString.ext_iff, ifName, CString.copyFrom_bytes_eq (by decide) (by decide),
    CString.cstr_bytes]
  exact List.take_of_length_le (Nat.le_of_lt_succ ifname.length_lt)

theorem scan_zero (fuel : Nat) (bytes : List UInt8) : scan fuel 0 bytes = [] := by
  cases fuel with
  | zero => rfl
  | succ fuel => rw [scan, if_pos (.inl rfl)]

/-- A reader of a request that ends with a zero byte does not look behind it. -/
theorem cstr_scan_append (rest : List UInt8) : ∀ {fuel left : Nat} {bytes : List UInt8},
    left ≤ bytes.length → (bytes ≠ [] → bytes.getLast? = some 0) →
      (scan fuel left (bytes ++ rest)).map (fun x => cstr x.2) =
        (scan fuel left bytes).map fun x => cstr x.2 := by
  intro fuel
  induction fuel with
  | zero =>
    intro left bytes _ _
    rfl
  | succ fuel ih =>
    intro left bytes hleft hlast
    cases bytes with
    | nil =>
      obtain rfl : left = 0 := Nat.le_zero.mp hleft
      rw [scan, scan, if_pos (.inl rfl), if_pos (.inl rfl)]
    | cons b bytes =>
      have hhead : (b :: bytes ++ rest).headD 0 = b := rfl
      rw [scan, scan, hhead, List.headD_cons]
      by_cases hend : left = 0 ∨ b = 0
      · rw [if_pos hend, if_pos hend]
      · have hb : b ≠ 0 := fun h => hend (.inr h)
        have hne : bytes ≠ [] := by
          rintro rfl
          have hzero := hlast (by simp)
          rw [List.getLast?_singleton, Option.some.injEq] at hzero
          exact hb hzero
        have hlast' : bytes.getLast? = some 0 := by
          rw [← hlast (by simp), List.getLast?_cons_of_ne_nil hne]
        rw [List.length_cons] at hleft
        rw [if_neg hend, if_neg hend, List.map_cons, List.map_cons, Nat.add_comm 1]
        simp only [List.cons_append, List.drop_succ_cons, List.drop_zero]
        by_cases hcut : b.toNat ≤ bytes.length
        · rw [List.take_append_of_le_length hcut, List.drop_append_of_le_length hcut, ih]
          · rw [List.length_drop]
            omega
          · intro hdrop
            rw [List.getLast?_drop, if_neg, hlast']
            exact fun hle => hdrop (List.drop_of_length_le hle)
        · have hmem : 0 ∈ bytes := List.mem_of_getLast? hlast'
          rw [List.take_append, cstr_append_of_mem, List.take_of_length_le (by omega),
            show left - (b.toNat + 1) = 0 by omega, scan_zero, scan_zero]
          rw [List.take_of_length_le (by omega)]
          exact hmem

theorem requested_append (hapEvents : List DwpaldHostapEventWithId) (tail : List UInt8) :
    requested (reqEvents hapEvents ++ tail) (reqEvents hapEvents).length =
      sentOpCodes hapEvents := by
  refine cstr_scan_append tail (Nat.le_refl _) fun _ => ?_
  have hlt := length_eventFrames_lt hapEvents
  have hpos : reqLen hapEvents - (ifnamsiz + 1) - (eventFrames hapEvents).length ≠ 0 := by omega
  rw [reqEvents, List.getLast?_append, List.getLast?_replicate, if_neg hpos]
  rfl

/-- What the daemon makes of the attach request. -/
theorem attachWork_hap {p : Path} {d : Dwpald} {hapAttch : DwpaldHostapAttachment} {cmd : WvIpcMsg}
    (hdata : cmd.data = p.link.serverPool.write 0
      (carried (regRequest hapAttch.ifname.bytes hapAttch.hostapEvents).bytes))
    (hlen : cmd.dataLen =
      (carried (regRequest hapAttch.ifname.bytes hapAttch.hostapEvents).bytes).length) :
    ∃ ret m' sent, ifaceAttachWork p.world hapInit d.hapMan ⟨cmd, p.link.seqNum, p.ipsta⟩ =
        (ret, m', sent) ∧
      (∀ other, other ≠ hapAttch.ifname → m'.find other = d.hapMan.find other) ∧
      (¬ HostapAccepted p hapAttch → ∃ m'' : IfaceManager HostapEvent Unit,
        sent = (requestFailed p.world m'' p.ipsta p.link.seqNum).2.2) ∧
      (HostapAccepted p hapAttch →
        (∃ state, sent = sendResponse p.world hapInit p.ipsta p.link.seqNum dwpaldAttachResp
          state) ∧
        (∃ iface, m'.find hapAttch.ifname = some iface ∧ p.ipsta ∈ iface.attachedClients) ∧
        registeredOpCodes m' hapAttch.ifname p.ipsta =
          registeredOpCodes d.hapMan hapAttch.ifname p.ipsta ∪
            {op | op ∈ sentOpCodes hapAttch.hostapEvents} ∪
            forced (sentOpCodes hapAttch.hostapEvents)) := by
  by_cases hfit : reqLen hapAttch.hostapEvents ≤ waveIpcBuffSize
  · have hreq : RequestFor p.world cmd (ifName hapAttch.ifname.bytes)
        (reqEvents hapAttch.hostapEvents) := requestFor hfit hdata hlen
    rw [ifName_eq] at hreq
    obtain ⟨hno, hyes⟩ := ifaceAttachWork_hap hreq p.link.seqNum p.ipsta d.hapMan
    obtain ⟨tail, hwith⟩ := withIfname_request hreq p.link.seqNum p.ipsta d.hapMan
      (attachTo p.world hapInit d.hapMan)
    have hframe := attachTo_find_ne p.world hapInit d.hapMan ⟨cmd, p.link.seqNum, p.ipsta⟩
      hapAttch.ifname (reqEvents hapAttch.hostapEvents ++ tail)
      (reqEvents hapAttch.hostapEvents).length
    have hattached := attachTo_attached p.world hapInit d.hapMan ⟨cmd, p.link.seqNum, p.ipsta⟩
      hapAttch.ifname (reqEvents hapAttch.hostapEvents ++ tail)
      (reqEvents hapAttch.hostapEvents).length
    rw [ifaceAttachWork, hwith] at hno hyes ⊢
    generalize attachTo p.world hapInit d.hapMan ⟨cmd, p.link.seqNum, p.ipsta⟩ hapAttch.ifname
      (reqEvents hapAttch.hostapEvents ++ tail) (reqEvents hapAttch.hostapEvents).length = r
      at hno hyes hframe hattached ⊢
    obtain ⟨ret, m', sent⟩ := r
    refine ⟨ret, m', sent, rfl, hframe, ?_, ?_⟩
    · intro hnot
      have hrefused : p.world.hostapInterfaceAttach hapAttch.ifname.bytes = .failure ∨
          ¬ AllShort (reqEvents hapAttch.hostapEvents) := by
        by_contra hcon
        push Not at hcon
        exact hnot ⟨hfit, hcon.2, hcon.1⟩
      obtain ⟨m'', hm⟩ := hno hrefused
      exact ⟨m'', congrArg (fun r => r.2.2) hm⟩
    · rintro ⟨-, hshort, hok⟩
      obtain ⟨tail', state, hsent, hset⟩ := hyes hok hshort
      refine ⟨⟨state, hsent⟩, hattached fun state => ?_, ?_⟩
      · exact (hostapIfaceAttach_ok p.world hapAttch.ifname state).mpr hok
      · rw [requested_append] at hset
        exact hset
  · have hnone := getData_tooLong (Nat.not_le.mp hfit) hlen
    refine ⟨1, d.hapMan, (requestFailed p.world d.hapMan p.ipsta p.link.seqNum).2.2, ?_,
      fun _ _ => rfl, fun _ => ⟨d.hapMan, rfl⟩, fun h => absurd h.1 hfit⟩
    simp only [ifaceAttachWork, withIfname, hnone]
    rfl

/-- `dwpald_send_hostap_attach`: when it succeeds, and what the daemon leaves registered. -/
theorem sendHostapAttach_spec (p : Path) (d : Dwpald) (hapAttch : DwpaldHostapAttachment) :
    ∃ ret state hapMan, (ret = DwpaldRet.success ↔ HostapAccepted p hapAttch ∧
        p.link.failure = none) ∧
      dwpaldSendHostapAttach p d hapAttch =
        (ret, { hapAttch with state := state }, { d with hapMan := hapMan }) ∧
      (∀ other, other ≠ hapAttch.ifname → hapMan.find other = d.hapMan.find other) ∧
      (HostapAccepted p hapAttch →
        (∃ iface, hapMan.find hapAttch.ifname = some iface ∧ p.ipsta ∈ iface.attachedClients) ∧
        registeredOpCodes hapMan hapAttch.ifname p.ipsta =
          registeredOpCodes d.hapMan hapAttch.ifname p.ipsta ∪
            {op | op ∈ sentOpCodes hapAttch.hostapEvents} ∪
            forced (sentOpCodes hapAttch.hostapEvents)) := by
  obtain ⟨cmd, hdata, hlen, hsend⟩ := sendRegCmd_eq p d
    (regRequest hapAttch.ifname.bytes hapAttch.hostapEvents).bytes dwpaldAttachResp
    (show dwpaldAttachReq = dwpaldCmd ∨ dwpaldAttachReq = dwpaldAttachReq ∨
      dwpaldAttachReq = dwpaldDetachReq ∨ dwpaldAttachReq = dwpaldUpdateEventReq from
        .inr (.inl rfl))
    (show dwpaldIfTypeHostap = IfType.hostap.byte from rfl)
  have hwork := hsend (.attach ⟨cmd, p.link.seqNum, p.ipsta⟩) rfl
  obtain ⟨r, m', sent, heq, hframe, hno, hyes⟩ := attachWork_hap (d := d) hdata hlen
  rw [Dwpald.execWork, workFunc, heq] at hwork
  simp only at hwork
  rw [dwpaldSendHostapAttach, dwpaldSendAttachCmd, hwork]
  by_cases haccepted : HostapAccepted p hapAttch
  · obtain ⟨⟨state, rfl⟩, hattached, hset⟩ := hyes haccepted
    obtain ⟨hanswered, hfailed⟩ :=
      regCmdResult_response p hapInit dwpaldAttachResp state { d with hapMan := m' }
    rw [show dwpaldIfTypeHostap = hapInit.iftype from rfl]
    by_cases hlink : p.link.failure = none
    · rw [hanswered hlink]
      exact ⟨.success, state, m', iff_of_true rfl ⟨haccepted, hlink⟩, rfl, hframe,
        fun _ => ⟨hattached, hset⟩⟩
    · obtain ⟨ret, hret, hresult⟩ := hfailed hlink
      rw [hresult]
      exact ⟨ret, hapAttch.state, m', iff_of_false hret fun h => hlink h.2, rfl, hframe,
        fun _ => ⟨hattached, hset⟩⟩
  · obtain ⟨m'', rfl⟩ := hno haccepted
    obtain ⟨ret, hret, hresult⟩ := regCmdResult_reqFailed p m'' dwpaldAttachResp dwpaldIfTypeHostap
      { d with hapMan := m' }
    rw [hresult]
    exact ⟨ret, hapAttch.state, m', iff_of_false hret fun h => haccepted h.1, rfl, hframe,
      fun h => absurd h haccepted⟩

/-! The loop over the interfaces. -/

/-- The request for the interface is granted, and the client gets to know it. -/
def Granted (ps : IfName → Path) (hapAttch : DwpaldHostapAttachment) : Prop :=
  HostapAccepted (ps hapAttch.ifname) hapAttch ∧ (ps hapAttch.ifname).link.failure = none

/-- One round of the loop. -/
theorem reattach_cons (ps : IfName → Path) (d : Dwpald) (hapAttch : DwpaldHostapAttachment)
    (hapAttchs : List DwpaldHostapAttachment) :
    ∃ d', d'.nlMan = d.nlMan ∧
      (∀ other, other ≠ hapAttch.ifname → d'.hapMan.find other = d.hapMan.find other) ∧
      (HostapAccepted (ps hapAttch.ifname) hapAttch →
        (∃ iface, d'.hapMan.find hapAttch.ifname = some iface ∧
          (ps hapAttch.ifname).ipsta ∈ iface.attachedClients) ∧
        registeredOpCodes d'.hapMan hapAttch.ifname (ps hapAttch.ifname).ipsta =
          registeredOpCodes d.hapMan hapAttch.ifname (ps hapAttch.ifname).ipsta ∪
            {op | op ∈ sentOpCodes hapAttch.hostapEvents} ∪
            forced (sentOpCodes hapAttch.hostapEvents)) ∧
      (Granted ps hapAttch →
        (reattach ps d (hapAttch :: hapAttchs)).1 = (reattach ps d' hapAttchs).1 ∧
        (reattach ps d (hapAttch :: hapAttchs)).2.2.2 = (reattach ps d' hapAttchs).2.2.2) ∧
      (¬ Granted ps hapAttch →
        (reattach ps d (hapAttch :: hapAttchs)).1 = 1 ∧
        (reattach ps d (hapAttch :: hapAttchs)).2.2.2 = d') := by
  obtain ⟨ret, state, hapMan, hret, hsend, hframe, hyes⟩ :=
    sendHostapAttach_spec (ps hapAttch.ifname) d hapAttch
  refine ⟨{ d with hapMan := hapMan }, rfl, hframe, hyes, ?_, ?_⟩
  · intro hgranted
    obtain rfl := hret.mpr hgranted
    rw [reattach, hsend]
    exact ⟨rfl, rfl⟩
  · intro hnot
    have hne : ret ≠ .success := fun h => hnot (hret.mp h)
    rw [reattach, hsend]
    cases ret with
    | success => exact absurd rfl hne
    | _ => exact ⟨rfl, rfl⟩

/-- The loop goes through if and only if every request is granted. -/
theorem reattach_ret (ps : IfName → Path) (d : Dwpald) (hapAttchs : List DwpaldHostapAttachment) :
    (reattach ps d hapAttchs).1 = 0 ↔ ∀ hapAttch ∈ hapAttchs, Granted ps hapAttch := by
  induction hapAttchs generalizing d with
  | nil => simp [reattach]
  | cons hapAttch hapAttchs ih =>
    obtain ⟨d', -, -, -, hgo, hstop⟩ := reattach_cons ps d hapAttch hapAttchs
    rw [List.forall_mem_cons]
    by_cases hgranted : Granted ps hapAttch
    · rw [(hgo hgranted).1, ih, and_iff_right hgranted]
    · rw [(hstop hgranted).1]
      exact iff_of_false Nat.one_ne_zero fun h => hgranted h.1

/-- It does not touch the manager of the kernel interfaces, nor interfaces that it has no request
for. -/
theorem reattach_frame (ps : IfName → Path) (d : Dwpald)
    (hapAttchs : List DwpaldHostapAttachment) :
    (reattach ps d hapAttchs).2.2.2.nlMan = d.nlMan ∧
      ∀ other, (∀ hapAttch ∈ hapAttchs, hapAttch.ifname ≠ other) →
        (reattach ps d hapAttchs).2.2.2.hapMan.find other = d.hapMan.find other := by
  induction hapAttchs generalizing d with
  | nil => exact ⟨rfl, fun _ _ => rfl⟩
  | cons hapAttch hapAttchs ih =>
    obtain ⟨d', hnl, hframe, -, hgo, hstop⟩ := reattach_cons ps d hapAttch hapAttchs
    by_cases hgranted : Granted ps hapAttch
    · rw [(hgo hgranted).2]
      refine ⟨(ih d').1.trans hnl, fun other hother => ?_⟩
      rw [List.forall_mem_cons] at hother
      rw [(ih d').2 other hother.2, hframe other fun h => hother.1 h.symm]
    · rw [(hstop hgranted).2]
      refine ⟨hnl, fun other hother => ?_⟩
      exact hframe other fun h => hother _ List.mem_cons_self h.symm

/-- What becomes of one attachment: it is asked for if the requests before it are granted, and then
its registrations are those of the request. -/
theorem reattach_at (ps : IfName → Path) (hapAttch : DwpaldHostapAttachment)
    (post : List DwpaldHostapAttachment) :
    ∀ (pre : List DwpaldHostapAttachment) (d : Dwpald),
      ((pre ++ hapAttch :: post).map DwpaldHostapAttachment.ifname).Nodup →
      (¬ (∀ before ∈ pre, Granted ps before) →
        (reattach ps d (pre ++ hapAttch :: post)).2.2.2.hapMan.find hapAttch.ifname =
          d.hapMan.find hapAttch.ifname) ∧
      ((∀ before ∈ pre, Granted ps before) → HostapAccepted (ps hapAttch.ifname) hapAttch →
        (∃ iface, (reattach ps d (pre ++ hapAttch :: post)).2.2.2.hapMan.find hapAttch.ifname =
            some iface ∧ (ps hapAttch.ifname).ipsta ∈ iface.attachedClients) ∧
          registeredOpCodes (reattach ps d (pre ++ hapAttch :: post)).2.2.2.hapMan
              hapAttch.ifname (ps hapAttch.ifname).ipsta =
            registeredOpCodes d.hapMan hapAttch.ifname (ps hapAttch.ifname).ipsta ∪
              {op | op ∈ sentOpCodes hapAttch.hostapEvents} ∪
              forced (sentOpCodes hapAttch.hostapEvents)) := by
  intro pre
  induction pre with
  | nil =>
    intro d hdistinct
    obtain ⟨d', -, -, hyes, hgo, hstop⟩ := reattach_cons ps d hapAttch post
    rw [List.nil_append, List.map_cons, List.nodup_cons] at hdistinct
    rw [List.nil_append]
    refine ⟨fun h => absurd (by simp) h, fun _ haccepted => ?_⟩
    have hfind : (reattach ps d (hapAttch :: post)).2.2.2.hapMan.find hapAttch.ifname =
        d'.hapMan.find hapAttch.ifname := by
      by_cases hgranted : Granted ps hapAttch
      · rw [(hgo hgranted).2]
        refine (reattach_frame ps d' post).2 _ fun other hother heq => hdistinct.1 ?_
        exact heq ▸ List.mem_map_of_mem hother
      · rw [(hstop hgranted).2]
    obtain ⟨hattached, hset⟩ := hyes haccepted
    rw [hfind, ← hset]
    refine ⟨hattached, ?_⟩
    simp only [registeredOpCodes, hfind]
  | cons first pre ih =>
    intro d hdistinct
    obtain ⟨d', -, hframe, -, hgo, hstop⟩ := reattach_cons ps d first (pre ++ hapAttch :: post)
    rw [List.cons_append, List.map_cons, List.nodup_cons] at hdistinct
    have hne : hapAttch.ifname ≠ first.ifname := by
      intro heq
      refine hdistinct.1 (heq ▸ List.mem_map_of_mem ?_)
      exact List.mem_append_right _ List.mem_cons_self
    rw [List.cons_append, List.forall_mem_cons]
    by_cases hgranted : Granted ps first
    · obtain ⟨hskipped, hasked⟩ := ih d' hdistinct.2
      have hsame : registeredOpCodes d'.hapMan hapAttch.ifname (ps hapAttch.ifname).ipsta =
          registeredOpCodes d.hapMan hapAttch.ifname (ps hapAttch.ifname).ipsta := by
        simp only [registeredOpCodes, hframe _ hne]
      rw [(hgo hgranted).2, and_iff_right hgranted, ← hframe _ hne, ← hsame]
      exact ⟨hskipped, hasked⟩
    · rw [(hstop hgranted).2]
      exact ⟨fun _ => hframe _ hne, fun h => absurd h.1 hgranted⟩

/-! What is restored. -/

/-- The daemon knows nothing of the station yet. -/
def NewStation (d : Dwpald) (ipsta : Station) : Prop :=
  (∀ ifname iface, d.hapMan.find ifname = some iface →
    ipsta ∉ iface.attachedClients ∧ registeredOpCodes d.hapMan ifname ipsta = ∅) ∧
  ∀ ifname iface, d.nlMan.find ifname = some iface →
    ipsta ∉ iface.attachedClients ∧ registeredNlIds d.nlMan ifname ipsta = ∅

/-- The station is attached to the interface, with exactly the events that are registered locally
and those that the daemon adds to every registration. -/
def HostapRestored (d : Dwpald) (ipsta : Station) (hapAttch : DwpaldHostapAttachment) : Prop :=
  (∃ iface, d.hapMan.find hapAttch.ifname = some iface ∧ ipsta ∈ iface.attachedClients) ∧
    registeredOpCodes d.hapMan hapAttch.ifname ipsta =
      localOpCodes hapAttch.hostapEvents ∪ intfEvents

def DrvRestored (d : Dwpald) (ipsta : Station) (attch : DwpaldDrvNlAttachment) : Prop :=
  AttachedTo d.nlMan (ifName dwpaldNlDrvIfname) ipsta {nlId | nlId ∈ localNlIds attch.drvEvents}

/-- After `dwpald_reconnected` every attachment is restored whose request the daemon accepts. -/
def Restores (ps : IfName → Path) (drvPath : Path) (conn : DwpaldConnection) (d : Dwpald)
    (ipsta : Station) : Prop :=
  let after := (dwpaldReconnected ps drvPath conn d).2.2.2
  (∀ hapAttch ∈ conn.hostapAttachments, HostapAccepted (ps hapAttch.ifname) hapAttch →
    HostapRestored after ipsta hapAttch) ∧
  ∀ attch, conn.drvNlAttch = some attch → DrvAccepted drvPath d attch.drvEvents →
    DrvRestored after ipsta attch

/-- What the daemon reads from the request for a list of events are the events of the list, up to
the ones that it adds. -/
def ReadsBack (hapEvents : List DwpaldHostapEventWithId) : Prop :=
  {op | op ∈ sentOpCodes hapEvents} ∪ forced (sentOpCodes hapEvents) =
    localOpCodes hapEvents ∪ intfEvents

/-- No attachment that the daemon accepts comes behind one whose request fails, and the events of
the accepted ones survive their encoding. -/
def NoneBehindFailure (ps : IfName → Path) (drvPath : Path) (conn : DwpaldConnection)
    (d : Dwpald) : Prop :=
  (∀ pre hapAttch post, conn.hostapAttachments = pre ++ hapAttch :: post →
    HostapAccepted (ps hapAttch.ifname) hapAttch →
      (∀ before ∈ pre, Granted ps before) ∧ ReadsBack hapAttch.hostapEvents) ∧
  ∀ attch, conn.drvNlAttch = some attch → DrvAccepted drvPath d attch.drvEvents →
    ∀ hapAttch ∈ conn.hostapAttachments, Granted ps hapAttch

theorem reconnected_hapMan (ps : IfName → Path) (drvPath : Path) (conn : DwpaldConnection)
    (d : Dwpald) :
    (dwpaldReconnected ps drvPath conn d).2.2.2.hapMan =
      (reattach ps d conn.hostapAttachments).2.2.2.hapMan := by
  rw [dwpaldReconnected]
  generalize reattach ps d conn.hostapAttachments = r
  obtain ⟨ret, hapAttchs, emulated, d'⟩ := r
  cases ret with
  | zero =>
    cases hattch : conn.drvNlAttch with
    | none => rfl
    | some attch =>
      obtain ⟨ret, nlMan, -, hsend, -⟩ :=
        sendDrvNlAttach_spec drvPath d' conn.nl80211Id attch.drvEvents
      simp only [hsend]
  | succ ret => rfl

theorem reconnected_nlMan (ps : IfName → Path) (drvPath : Path) (conn : DwpaldConnection)
    (d : Dwpald) {attch : DwpaldDrvNlAttachment} (hattch : conn.drvNlAttch = some attch) :
    ((∀ hapAttch ∈ conn.hostapAttachments, Granted ps hapAttch) →
      DrvAccepted drvPath d attch.drvEvents →
      AttachedTo (dwpaldReconnected ps drvPath conn d).2.2.2.nlMan (ifName dwpaldNlDrvIfname)
        drvPath.ipsta (registeredNlIds d.nlMan (ifName dwpaldNlDrvIfname) drvPath.ipsta ∪
          {nlId | nlId ∈ localNlIds attch.drvEvents})) ∧
    (¬ (∀ hapAttch ∈ conn.hostapAttachments, Granted ps hapAttch) →
      (dwpaldReconnected ps drvPath conn d).2.2.2.nlMan = d.nlMan) := by
  have hnl := (reattach_frame ps d conn.hostapAttachments).1
  rw [dwpaldReconnected, ← reattach_ret ps d]
  generalize reattach ps d conn.hostapAttachments = r at hnl ⊢
  obtain ⟨ret, hapAttchs, emulated, d'⟩ := r
  cases ret with
  | zero =>
    refine ⟨fun _ haccepted => ?_, fun h => absurd rfl h⟩
    obtain ⟨ret, nlMan, -, hsend, -, hyes⟩ :=
      sendDrvNlAttach_spec drvPath d' conn.nl80211Id attch.drvEvents
    simp only [hattch, hsend]
    rw [DrvAccepted, hnl] at hyes
    exact hyes haccepted
  | succ ret => exact ⟨fun h => absurd h (Nat.succ_ne_zero ret), fun _ => hnl⟩

/-- The op_code of the event is as long as it is said to be. -/
def Plain (hapEvent : DwpaldHostapEventWithId) : Prop :=
  hapEvent.opCode.length = hapEvent.opCodeLen.toNat ∧ hapEvent.opCode ≠ []

theorem sentOpCodes_plain {hapEvents : List DwpaldHostapEventWithId}
    (hplain : ∀ hapEvent ∈ hapEvents, Plain hapEvent) :
    sentOpCodes hapEvents = hapEvents.map DwpaldHostapEventWithId.opCode := by
  have hframes : eventFrames hapEvents =
      encode (hapEvents.map DwpaldHostapEventWithId.opCode) := by
    rw [eventFrames, encode, List.flatMap_map]
    refine List.flatMap_congr fun hapEvent hmem => ?_
    rw [(hplain hapEvent hmem).1, UInt8.ofNat_toNat]
  have hfits : ∀ f ∈ hapEvents.map DwpaldHostapEventWithId.opCode, Fits f := by
    intro f hf
    obtain ⟨hapEvent, hmem, rfl⟩ := List.mem_map.mp hf
    obtain ⟨hlen, hne⟩ := hplain hapEvent hmem
    exact ⟨List.length_pos_iff.mpr hne, hlen ▸ hapEvent.opCodeLen.toNat_lt⟩
  have hlt := length_eventFrames_lt hapEvents
  have hreqLen := length_reqEvents hapEvents
  obtain ⟨k, hk⟩ : ∃ k, reqLen hapEvents - (ifnamsiz + 1) - (eventFrames hapEvents).length =
      k + 1 := ⟨_, (Nat.succ_pred (by omega)).symm⟩
  have hcount := length_le_encode (hapEvents.map DwpaldHostapEventWithId.opCode)
  have hbytes : reqEvents hapEvents =
      encode (hapEvents.map DwpaldHostapEventWithId.opCode) ++ 0 :: List.replicate k 0 := by
    rw [reqEvents, hk, hframes, List.replicate_succ]
  have hsize : (eventFrames hapEvents).length < (reqEvents hapEvents).length := by
    rw [reqEvents, hk, List.length_append, List.length_replicate]
    omega
  rw [sentOpCodes, requested]
  rw [hframes] at hsize
  generalize (reqEvents hapEvents).length = n at hsize
  rw [hbytes, scan_encode hfits _ (by omega) hsize, List.map_map]
  refine (List.map_congr_left fun f hf => ?_).trans (List.map_id _)
  obtain ⟨hapEvent, -, rfl⟩ := List.mem_map.mp hf
  exact cstr_of_notMem hapEvent.key.zero_notMem

/-- Plain op_codes are read back if each interface event that one of them starts with is listed. -/
theorem readsBack_plain {hapEvents : List DwpaldHostapEventWithId}
    (hplain : ∀ hapEvent ∈ hapEvents, Plain hapEvent) :
    ReadsBack hapEvents ↔ ∀ name ∈ gIntfEvents,
      (∃ op ∈ localOpCodes hapEvents, StartsWith op name) → name ∈ localOpCodes hapEvents := by
  have hlocal : localOpCodes hapEvents =
      {op | op ∈ hapEvents.map DwpaldHostapEventWithId.opCode} := by
    ext op
    simp [localOpCodes]
  rw [ReadsBack, sentOpCodes_plain hplain, hlocal]
  generalize hapEvents.map DwpaldHostapEventWithId.opCode = ops
  constructor
  · rintro heq name hname ⟨op, hop, hstarts⟩
    have hmem : name ∈ {op | op ∈ ops} ∪ intfEvents := .inr hname
    rw [← heq] at hmem
    exact hmem.resolve_right fun hforced => hforced.2 op hop hstarts
  · intro hlisted
    ext op
    constructor
    · rintro (hop | hop)
      · exact .inl hop
      · exact .inr hop.1
    · rintro (hop | hop)
      · exact .inl hop
      · by_cases hstarts : ∃ o ∈ ops, StartsWith o op
        · exact .inl (hlisted op hop hstarts)
        · exact .inr ⟨hop, fun o ho h => hstarts ⟨o, ho, h⟩⟩

section Restored

variable {ps : IfName → Path} {drvPath : Path} {conn : DwpaldConnection} {d : Dwpald}
  {ipsta : Station}

theorem registeredOpCodes_new (hnew : NewStation d ipsta) (ifname : IfName) :
    registeredOpCodes d.hapMan ifname ipsta = ∅ := by
  cases hfind : d.hapMan.find ifname with
  | none => exact registeredOpCodes_none hfind
  | some iface => exact (hnew.1 ifname iface hfind).2

theorem registeredNlIds_new (hnew : NewStation d ipsta) (ifname : IfName) :
    registeredNlIds d.nlMan ifname ipsta = ∅ := by
  cases hfind : d.nlMan.find ifname with
  | none =>
    ext nlId
    simp [registeredNlIds, hfind]
  | some iface => exact (hnew.2 ifname iface hfind).2

/-- An accepted attachment is restored if the loop comes to it and its events survive. -/
theorem hostapRestored_iff
    (hdistinct : (conn.hostapAttachments.map DwpaldHostapAttachment.ifname).Nodup)
    (hps : ∀ hapAttch ∈ conn.hostapAttachments, (ps hapAttch.ifname).ipsta = ipsta)
    (hnew : NewStation d ipsta) {pre post : List DwpaldHostapAttachment}
    {hapAttch : DwpaldHostapAttachment} (heq : conn.hostapAttachments = pre ++ hapAttch :: post)
    (haccepted : HostapAccepted (ps hapAttch.ifname) hapAttch) :
    HostapRestored (dwpaldReconnected ps drvPath conn d).2.2.2 ipsta hapAttch ↔
      (∀ before ∈ pre, Granted ps before) ∧ ReadsBack hapAttch.hostapEvents := by
  have hsta : (ps hapAttch.ifname).ipsta = ipsta := hps hapAttch (heq ▸ by simp)
  rw [heq] at hdistinct
  obtain ⟨hskipped, hasked⟩ := reattach_at ps hapAttch post pre d hdistinct
  rw [HostapRestored, reconnected_hapMan, heq]
  rw [hsta] at hasked
  by_cases hgranted : ∀ before ∈ pre, Granted ps before
  · obtain ⟨hattached, hset⟩ := hasked hgranted haccepted
    rw [registeredOpCodes_new hnew, Set.empty_union] at hset
    rw [hset, and_iff_right hattached, and_iff_right hgranted, ReadsBack]
  · refine iff_of_false ?_ fun h => hgranted h.1
    rintro ⟨⟨iface, hfind, hmem⟩, -⟩
    rw [hskipped hgranted] at hfind
    exact (hnew.1 _ iface hfind).1 hmem

/-- The driver is restored if the loop over the interfaces goes through. -/
theorem drvRestored_iff (hdrv : drvPath.ipsta = ipsta) (hnew : NewStation d ipsta)
    {attch : DwpaldDrvNlAttachment} (hattch : conn.drvNlAttch = some attch)
    (haccepted : DrvAccepted drvPath d attch.drvEvents) :
    DrvRestored (dwpaldReconnected ps drvPath conn d).2.2.2 ipsta attch ↔
      ∀ hapAttch ∈ conn.hostapAttachments, Granted ps hapAttch := by
  obtain ⟨hasked, hskipped⟩ := reconnected_nlMan ps drvPath conn d hattch
  rw [hdrv, registeredNlIds_new hnew, Set.empty_union] at hasked
  constructor
  · rintro ⟨-, iface, hfind, hmem⟩
    by_contra hgranted
    rw [hskipped hgranted] at hfind
    exact (hnew.2 _ iface hfind).1 hmem
  · intro hgranted
    exact hasked hgranted haccepted

end Restored

/-- When a client has reconnected and every request reaches the daemon, which does not know the
station of the new connection yet, every attachment that the daemon accepts is restored if and only
if none comes behind a failure. -/
theorem reconnectRestores (ps : IfName → Path) (drvPath : Path) (conn : DwpaldConnection)
    (d : Dwpald) (ipsta : Station)
    (hdistinct : (conn.hostapAttachments.map DwpaldHostapAttachment.ifname).Nodup)
    (hps : ∀ hapAttch ∈ conn.hostapAttachments, (ps hapAttch.ifname).ipsta = ipsta)
    (hdrv : drvPath.ipsta = ipsta)
    (hnew : NewStation d ipsta) :
    (Restores ps drvPath conn d ipsta ↔ NoneBehindFailure ps drvPath conn d) ∧
    ∀ hapAttch ∈ conn.hostapAttachments,
      (∀ hapEvent ∈ hapAttch.hostapEvents, Plain hapEvent) →
        (ReadsBack hapAttch.hostapEvents ↔ ∀ name ∈ gIntfEvents,
          (∃ op ∈ localOpCodes hapAttch.hostapEvents, StartsWith op name) →
            name ∈ localOpCodes hapAttch.hostapEvents) := by
  refine ⟨?_, fun hapAttch _ hplain => readsBack_plain hplain⟩
  rw [Restores, NoneBehindFailure]
  refine and_congr ⟨?_, ?_⟩ ?_
  · intro hrestores pre hapAttch post heq haccepted
    have hmem : hapAttch ∈ conn.hostapAttachments := heq ▸ by simp
    exact (hostapRestored_iff hdistinct hps hnew heq haccepted).mp
      (hrestores hapAttch hmem haccepted)
  · intro hnone hapAttch hmem haccepted
    obtain ⟨pre, post, heq⟩ := List.append_of_mem hmem
    exact (hostapRestored_iff hdistinct hps hnew heq haccepted).mpr
      (hnone pre hapAttch post heq haccepted)
  · exact forall₃_congr fun attch hattch haccepted => drvRestored_iff hdrv hnew hattch haccepted

/-- An attachment with one callback for `AP-ENABLED`. -/
def apEnabledOn (ifname : List UInt8) : DwpaldHostapAttachment :=
  newAttachment ifname none (copied [apEnabledRequest] 1)

/-- Two interfaces and one event of the driver. -/
def twoInterfaces : DwpaldConnection where
  hostapAttachments := [apEnabledOn (ascii "wlan0"), apEnabledOn (ascii "wlan1")]
  drvNlAttch := some ⟨[⟨0x67, [⟨some 0x500, 1⟩]⟩], []⟩
  nl80211Id := 28

/-- Every request is answered; `refused` are the interfaces that cannot be attached. -/
def answeredPaths (refused : List UInt8 → Bool) (_ : IfName) : Path :=
  { quietPath with world := { deliveringWorld [] with
    hostapInterfaceAttach := fun ifname => if refused ifname then .failure else .success } }

theorem newStation_started (ipsta : Station) : NewStation startedDwpald ipsta :=
  ⟨fun _ _ h => (by cases h), fun _ _ h => (by cases h)⟩

theorem allShort_apEnabled : AllShort (reqEvents (copied [apEnabledRequest] 1)) := by
  have hlengths : lengths (reqEvents (copied [apEnabledRequest] 1)) = [10] := rfl
  rw [AllShort, hlengths]
  simp

theorem reconnectRestores_twoInterfaces :
    Restores (answeredPaths fun _ => false) quietPath twoInterfaces startedDwpald 7 := by
  have hlocal : ∀ op, op ∈ localOpCodes (copied [apEnabledRequest] 1) →
      op = ascii "AP-ENABLED" := by
    rintro op ⟨hapEvent, hmem, rfl⟩
    obtain rfl := List.mem_singleton.mp hmem
    rfl
  have hplain : ∀ hapEvent ∈ copied [apEnabledRequest] 1, Plain hapEvent := by
    intro hapEvent hmem
    obtain rfl := List.mem_singleton.mp hmem
    exact ⟨rfl, by decide⟩
  obtain ⟨hiff, hreads⟩ := reconnectRestores (answeredPaths fun _ => false) quietPath twoInterfaces
    startedDwpald 7 (by decide) (fun _ _ => rfl) rfl (newStation_started 7)
  have hgranted : ∀ hapAttch ∈ twoInterfaces.hostapAttachments,
      Granted (answeredPaths fun _ => false) hapAttch ∧ ReadsBack hapAttch.hostapEvents := by
    intro hapAttch hmem
    have hevents : hapAttch.hostapEvents = copied [apEnabledRequest] 1 := by
      rcases List.mem_cons.mp hmem with rfl | hmem
      · rfl
      · obtain rfl := List.mem_singleton.mp hmem
        rfl
    refine ⟨⟨⟨?_, ?_, DwpalRet.noConfusion⟩, rfl⟩, ?_⟩
    · rw [hevents]
      decide
    · rw [hevents]
      exact allShort_apEnabled
    · refine (hreads hapAttch hmem (hevents ▸ hplain)).mpr ?_
      rintro name hname ⟨op, hop, hstarts⟩
      rw [hevents] at hop
      rw [hlocal op hop] at hstarts
      have hno : ∀ name ∈ gIntfEvents, ¬ name <+: ascii "AP-ENABLED" := by decide
      exact absurd hstarts (hno name hname)
  refine hiff.mpr ⟨fun pre hapAttch post heq _ => ⟨fun before hbefore => ?_, ?_⟩, ?_⟩
  · exact (hgranted before (heq ▸ List.mem_append_left _ hbefore)).1
  · exact (hgranted hapAttch (heq ▸ by simp)).2
  · exact fun _ _ _ hapAttch hmem => (hgranted hapAttch hmem).1

/-- The daemon refuses `wlan0`, and neither `wlan1` nor the driver are attached again, although it
would accept both. -/
theorem refusedInterface_breaks_restore :
    ¬ Restores (answeredPaths fun ifname => ifname = ascii "wlan0") quietPath twoInterfaces
      startedDwpald 7 := by
  intro h
  have haccepted : HostapAccepted (answeredPaths (fun ifname => ifname = ascii "wlan0")
      (apEnabledOn (ascii "wlan1")).ifname) (apEnabledOn (ascii "wlan1")) :=
    ⟨by decide, allShort_apEnabled, by decide⟩
  have hrestored := h.1 (apEnabledOn (ascii "wlan1")) (by simp [twoInterfaces]) haccepted
  have hsplit : twoInterfaces.hostapAttachments =
      [apEnabledOn (ascii "wlan0")] ++ apEnabledOn (ascii "wlan1") :: [] := rfl
  rw [hostapRestored_iff (by decide) (fun _ _ => rfl) (newStation_started 7) hsplit haccepted]
    at hrestored
  have hgranted := hrestored.1 _ (List.mem_singleton_self _)
  exact hgranted.1.2.2 (by decide)

end Dwpal.Client
