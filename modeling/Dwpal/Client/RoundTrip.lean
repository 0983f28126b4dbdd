import Dwpal.Client.Registration
import Dwpal.Daemon.HostapRegistration

/-! The registration round trip: when an attach or an update of a client that succeeds leaves the
station registered to the op_codes of the list and the forced ones, and to nothing else. -/

namespace Dwpal.Client

open Ipc Daemon Frames

/-- The op_codes of a list of registrations. -/
def listed (events : List DwpaldHostapEvent) : Set (List UInt8) :=
  {op | ∃ event ∈ events, event.opCode = some op}

/-- The op_codes that every station is to be registered to. -/
def intfEvents : Set (List UInt8) := {name | name ∈ gIntfEvents}

/-- The call has failed, or the station is registered to exactly the listed and the forced
op_codes. -/
def RoundTrips (ifname : List UInt8) (ipsta : Station) (events : List DwpaldHostapEvent)
    (ret : DwpaldRet) (d : Dwpald) : Prop :=
  ret ≠ .success ∨
    registeredOpCodes d.hapMan (ifName ifname) ipsta = listed events ∪ intfEvents

/-- The length of the request for the events. -/
def requestLen (events : List DwpaldHostapEvent) : Nat :=
  18 + (events.map fun event => event.opCodeLen.toNat + 1).sum

/-- The events as they stand in the request, the last one first: the announced length, and the
op_code up to its first zero byte. -/
def announced (events : List DwpaldHostapEvent) : List UInt8 :=
  events.reverse.flatMap fun event => event.opCodeLen :: cstr (event.opCode.getD [])

/-- The request fits into a message, and no length byte that a reader of it meets is above 63. -/
def Readable (events : List DwpaldHostapEvent) : Prop :=
  requestLen events ≤ waveIpcBuffSize ∧ AllShort (announced events)

/-- No op_code has a zero byte, every interface event that the daemon takes for listed because an
op_code starts with its name is listed or registered already, and the station is registered to no
other op_code yet. -/
def Registrable (listed prior : Set (List UInt8)) : Prop :=
  (∀ op ∈ listed, 0 ∉ op) ∧
    (∀ name ∈ gIntfEvents, (∃ op ∈ listed, StartsWith op name) → name ∈ listed ∪ prior) ∧
    prior ⊆ listed ∪ intfEvents

theorem listed_requests (rs : List Request) (op : List UInt8) :
    op ∈ listed (rs.map Request.event) ↔ ∃ r ∈ rs, r.opCode = op := by
  simp [listed, Request.event]

theorem requestLen_requests (rs : List Request) (id : UInt32) :
    reqLen (rs.map fun r => r.entry id).reverse = requestLen (rs.map Request.event) := by
  rw [reqLen, requestLen, List.map_reverse, List.sum_reverse, List.map_map, List.map_map, ifnamsiz]
  simp only [Function.comp_def, Request.entry_opCodeLen, Request.event]
  omega

theorem announced_requests (rs : List Request) (id : UInt32) :
    eventFrames (rs.map fun r => r.entry id).reverse = announced (rs.map Request.event) := by
  rw [eventFrames, announced, ← List.map_reverse, ← List.map_reverse, List.flatMap_map,
    List.flatMap_map]
  simp [Request.event]

/-- Without zero bytes the events stand in the request as frames. -/
theorem announced_encode {rs : List Request} (h0 : ∀ r ∈ rs, 0 ∉ r.opCode) :
    announced (rs.map Request.event) = encode (rs.map Request.opCode).reverse := by
  rw [announced, encode, ← List.map_reverse, ← List.map_reverse, List.flatMap_map, List.flatMap_map]
  refine List.flatMap_congr fun r hr => ?_
  simp only [Request.event, Option.getD_some]
  rw [cstr_of_notMem (h0 r (List.mem_reverse.mp hr))]

theorem reqEvents_eq (rs : List Request) (id : UInt32) :
    ∃ k, reqEvents (rs.map fun r => r.entry id).reverse =
      announced (rs.map Request.event) ++ List.replicate (k + 1) 0 := by
  have hlt := length_eventFrames_lt (rs.map fun r => r.entry id).reverse
  refine ⟨reqLen (rs.map fun r => r.entry id).reverse - (ifnamsiz + 1) -
    (eventFrames (rs.map fun r => r.entry id).reverse).length - 1, ?_⟩
  rw [reqEvents, announced_requests]
  rw [announced_requests] at hlt
  congr 2
  omega

theorem allShort_reqEvents (rs : List Request) (id : UInt32) :
    AllShort (reqEvents (rs.map fun r => r.entry id).reverse) ↔
      AllShort (announced (rs.map Request.event)) := by
  obtain ⟨k, hk⟩ := reqEvents_eq rs id
  rw [hk, AllShort, lengths_append_zeros]
  rfl

/-- What the daemon reads from a request without zero bytes in its op_codes. -/
theorem requested_reqEvents {rs : List Request} (h0 : ∀ r ∈ rs, 0 ∉ r.opCode) (id : UInt32)
    (tail : List UInt8) :
    requested (reqEvents (rs.map fun r => r.entry id).reverse ++ tail)
        (reqEvents (rs.map fun r => r.entry id).reverse).length =
      (rs.map Request.opCode).reverse := by
  obtain ⟨k, hk⟩ := reqEvents_eq rs id
  have hfits : ∀ f ∈ (rs.map Request.opCode).reverse, Fits f := by
    intro f hf
    obtain ⟨r, -, rfl⟩ := List.mem_map.mp (List.mem_reverse.mp hf)
    exact ⟨r.length_pos, r.length_lt⟩
  have hlen := length_le_encode (rs.map Request.opCode).reverse
  rw [hk, announced_encode h0, requested, List.replicate_succ, List.append_assoc, List.cons_append,
    scan_encode hfits _ (by simp at hlen ⊢; omega) (by simp)]
  rw [List.map_map]
  refine (List.map_congr_left fun f hf => ?_).trans (List.map_id _)
  obtain ⟨r, hr, rfl⟩ := List.mem_map.mp (List.mem_reverse.mp hf)
  exact cstr_of_notMem (h0 r hr)

/-- Registering the listed op_codes and those that are forced. -/
theorem registered_iff {rs : List Request} (h0 : ∀ r ∈ rs, 0 ∉ r.opCode)
    (prior : Set (List UInt8)) :
    prior ∪ {op | op ∈ (rs.map Request.opCode).reverse} ∪ forced (rs.map Request.opCode).reverse =
        listed (rs.map Request.event) ∪ intfEvents ↔
      Registrable (listed (rs.map Request.event)) prior := by
  have hlisted : {op | op ∈ (rs.map Request.opCode).reverse} = listed (rs.map Request.event) := by
    ext op
    rw [listed_requests]
    simp
  have hforced : ∀ name, name ∈ forced (rs.map Request.opCode).reverse ↔
      name ∈ gIntfEvents ∧ ¬ ∃ op ∈ listed (rs.map Request.event), StartsWith op name := by
    intro name
    rw [← hlisted]
    simp [forced]
  have hzero : ∀ op ∈ listed (rs.map Request.event), 0 ∉ op := by
    intro op hop
    obtain ⟨r, hr, rfl⟩ := (listed_requests rs op).mp hop
    exact h0 r hr
  rw [hlisted]
  constructor
  · intro heq
    refine ⟨hzero, ?_, ?_⟩
    · intro name hname hstarts
      have hmem : name ∈ listed (rs.map Request.event) ∪ intfEvents := Or.inr hname
      rw [← heq] at hmem
      rcases hmem with (hprior | hlist) | hforce
      · exact Or.inr hprior
      · exact Or.inl hlist
      · exact absurd hstarts ((hforced name).mp hforce).2
    · intro op hop
      rw [← heq]
      exact Or.inl (Or.inl hop)
  · rintro ⟨-, hstarts, hprior⟩
    ext op
    constructor
    · rintro ((hop | hop) | hop)
      · exact hprior hop
      · exact Or.inl hop
      · exact Or.inr ((hforced op).mp hop).1
    · rintro (hop | hop)
      · exact Or.inl (Or.inr hop)
      · by_cases h : ∃ o ∈ listed (rs.map Request.event), StartsWith o op
        · exact Or.inl ((hstarts op hop h).symm)
        · exact Or.inr ((hforced op).mpr ⟨hop, h⟩)

/-! The exchange with the daemon. -/

variable {p : Path} {ifname : List UInt8} {hapEvents : List DwpaldHostapEventWithId}
  {cmd : WvIpcMsg}

theorem cstr_reqIfname (ifname rest : List UInt8) :
    cstr (reqIfname ifname ++ rest) = (cstr ifname).take ifnamsiz := by
  have hle : ((cstr ifname).take ifnamsiz).length ≤ ifnamsiz := List.length_take_le ..
  have hzero : 0 ∉ (cstr ifname).take ifnamsiz := fun h =>
    cstr_zero_notMem ifname (List.mem_of_mem_take h)
  obtain ⟨k, hk⟩ : ∃ k, ifnamsiz + 1 - ((cstr ifname).take ifnamsiz).length = k + 1 :=
    ⟨ifnamsiz - ((cstr ifname).take ifnamsiz).length, by omega⟩
  rw [reqIfname, hk, List.replicate_succ, List.append_assoc, List.cons_append]
  exact cstr_append_zero hzero _

/-- A request that fits into a message arrives in front of what the daemon's object held. -/
theorem requestFor (hfit : reqLen hapEvents ≤ waveIpcBuffSize)
    (hdata : cmd.data = p.link.serverPool.write 0 (carried (regRequest ifname hapEvents).bytes))
    (hlen : cmd.dataLen = (carried (regRequest ifname hapEvents).bytes).length) :
    RequestFor p.world cmd (ifName ifname) (reqEvents hapEvents) := by
  have hreqLen := length_reqEvents hapEvents
  have hframes := length_eventFrames_lt hapEvents
  have hcarried : carried (regRequest ifname hapEvents).bytes =
      reqIfname ifname ++ reqEvents hapEvents := by
    rw [carried, if_pos (by rw [(regRequest ifname hapEvents).length_eq]; exact hfit),
      regRequest_bytes]
  have hbytes : cmd.data.bytes = reqIfname ifname ++ reqEvents hapEvents ++
      p.link.serverPool.bytes.drop (reqLen hapEvents) := by
    rw [hdata, hcarried, Buffer.write_bytes]
    · simp only [List.take_zero, List.nil_append, Nat.zero_add, List.length_append,
        length_reqIfname]
      rw [Nat.add_comm, hreqLen]
    · rw [List.length_append, length_reqIfname]
      omega
  constructor
  · intro h
    rw [h] at hreqLen
    simp only [ifnamsiz, List.length_nil] at hreqLen hframes
    omega
  · rw [hlen, hcarried, List.length_append, length_reqIfname, Nat.add_comm]
  · rw [ifName, CString.ext_iff, CString.copyFrom_bytes_eq (by decide) (by decide),
      CString.copyFrom_bytes_eq (by decide) (by decide), hbytes, List.append_assoc, cstr_reqIfname,
      ifnamsiz, List.take_take, Nat.min_self]
  · refine ⟨p.link.serverPool.bytes.drop (reqLen hapEvents) ++ p.world.beyond, ?_⟩
    rw [hbytes, List.append_assoc, List.append_assoc, List.drop_left' (length_reqIfname ifname)]

/-- A request that does not fit arrives empty. -/
theorem getData_tooLong (hlong : waveIpcBuffSize < reqLen hapEvents)
    (hlen : cmd.dataLen = (carried (regRequest ifname hapEvents).bytes).length) :
    waveIpcMsgGetData cmd = none := by
  rw [carried, if_neg (by rw [(regRequest ifname hapEvents).length_eq]; omega)] at hlen
  exact if_pos hlen

/-- The client sees that its request has failed. -/
theorem result_refused {r : Nat × IfaceManager HostapEvent Unit × List Sent} (respType : UInt8)
    (hr : Refused p.world p.ipsta p.link.seqNum r) (d : Dwpald) :
    (regCmdResult respType dwpaldIfTypeHostap (p.link.finish p.ipsta (d, r.2.2))).1 ≠ .success := by
  obtain ⟨m', rfl⟩ := hr
  obtain ⟨ret, hret, heq⟩ := regCmdResult_reqFailed p m' respType dwpaldIfTypeHostap d
  rw [heq]
  exact hret

/-- The client takes the response, unless the link fails it. -/
theorem result_registers {r : Nat × IfaceManager HostapEvent Unit × List Sent} {respType : UInt8}
    {state : UInt8}
    (hr : r.2.2 = sendResponse p.world hapInit p.ipsta p.link.seqNum respType state) (d : Dwpald) :
    (regCmdResult respType dwpaldIfTypeHostap (p.link.finish p.ipsta (d, r.2.2))).1 = .success ↔
      p.link.failure = none := by
  obtain ⟨hanswered, hfailed⟩ := regCmdResult_response p hapInit respType state d
  rw [hr]
  constructor
  · intro hret
    by_contra hfailure
    obtain ⟨ret, hne, heq⟩ := hfailed hfailure
    rw [show dwpaldIfTypeHostap = hapInit.iftype from rfl, heq] at hret
    exact hne hret
  · intro hfailure
    rw [show dwpaldIfTypeHostap = hapInit.iftype from rfl, hanswered hfailure]

/-- The round trip of a request that the daemon refuses or registers. -/
theorem roundTrips_iff {r : Nat × IfaceManager HostapEvent Unit × List Sent} {respType : UInt8}
    {d : Dwpald} {rs : List Request} {id : UInt32} {prior : Set (List UInt8)} (accepted : Prop)
    (hevents : hapEvents = (rs.map fun r => r.entry id).reverse)
    (hrefused : ¬ accepted → Refused p.world p.ipsta p.link.seqNum r)
    (hregisters : accepted → Registers p.world p.ipsta p.link.seqNum respType (ifName ifname)
      (reqEvents hapEvents) prior r) :
    RoundTrips ifname p.ipsta (rs.map Request.event)
        (regCmdResult respType dwpaldIfTypeHostap
          (p.link.finish p.ipsta ({ d with hapMan := r.2.1 }, r.2.2))).1
        { d with hapMan := r.2.1 } ↔
      ¬ (p.link.failure = none ∧ accepted) ∨
        Registrable (listed (rs.map Request.event)) prior := by
  by_cases haccepted : accepted
  · obtain ⟨tail, state, hsent, hset⟩ := hregisters haccepted
    rw [RoundTrips, ne_eq, result_registers hsent, hset, hevents]
    by_cases h0 : ∀ r ∈ rs, 0 ∉ r.opCode
    · rw [requested_reqEvents h0, registered_iff h0]
      tauto
    · have hlist : ¬ ∀ op ∈ listed (rs.map Request.event), 0 ∉ op := by
        intro h
        exact h0 fun r hr => h _ ((listed_requests rs _).mpr ⟨r, hr, rfl⟩)
      have hset' : registeredOpCodes r.2.1 (ifName ifname) p.ipsta ≠
          listed (rs.map Request.event) ∪ intfEvents := by
        intro heq
        refine hlist fun op hop => ?_
        have hmem : op ∈ registeredOpCodes r.2.1 (ifName ifname) p.ipsta := heq ▸ Or.inl hop
        obtain ⟨iface, -, hop'⟩ := hmem
        exact zero_notMem_of_mem_opCodesOf hop'
      rw [← hevents, ← hset]
      simp only [hset', or_false, haccepted, and_true]
      exact (or_iff_left fun h => hlist h.1).symm
  · have hfails := result_refused respType (hrefused haccepted) { d with hapMan := r.2.1 }
    exact iff_of_true (Or.inl hfails) (Or.inl fun h => haccepted h.2)

theorem ifName_bytes (ifname : List UInt8) : ifName (ifName ifname).bytes = ifName ifname := by
  rw [ifName, ifName, CString.ext_iff, CString.copyFrom_bytes_eq (by decide) (by decide),
    CString.copyFrom_bytes_eq (by decide) (by decide), cstr_take, List.take_take, Nat.min_self]

/-- An attach or an update of the registrations `rs`, of which the daemon makes a work that `work`
makes of the message. -/
theorem sendRegCmd_roundTrips (p : Path) (d : Dwpald) (ifname : List UInt8)
    (reqType respType : UInt8) (work : CmdWork → Work) (prior : Set (List UInt8)) (ok : Prop)
    {rs : List Request} {id : UInt32}
    (hevents : hapEvents = (rs.map fun r => r.entry id).reverse)
    (hreq : reqType = dwpaldCmd ∨ reqType = dwpaldAttachReq ∨ reqType = dwpaldDetachReq ∨
      reqType = dwpaldUpdateEventReq)
    (hwork : ∀ cmd, makeWork ⟨reqType, dwpaldIfTypeHostap, 0, 0, 0, 0⟩ p.ipsta p.link.seqNum cmd =
      some (work ⟨cmd, p.link.seqNum, p.ipsta⟩))
    (hempty : ∀ cmd, waveIpcMsgGetData cmd = none → Refused p.world p.ipsta p.link.seqNum
      (workFunc p.world hapInit d.hapMan (work ⟨cmd, p.link.seqNum, p.ipsta⟩)))
    (hrequest : ∀ cmd, RequestFor p.world cmd (ifName ifname) (reqEvents hapEvents) →
      (¬ ok ∨ ¬ AllShort (reqEvents hapEvents) → Refused p.world p.ipsta p.link.seqNum
        (workFunc p.world hapInit d.hapMan (work ⟨cmd, p.link.seqNum, p.ipsta⟩))) ∧
      (ok → AllShort (reqEvents hapEvents) → Registers p.world p.ipsta p.link.seqNum respType
        (ifName ifname) (reqEvents hapEvents) prior
        (workFunc p.world hapInit d.hapMan (work ⟨cmd, p.link.seqNum, p.ipsta⟩)))) :
    RoundTrips ifname p.ipsta (rs.map Request.event)
        (sendRegCmd reqType respType p d (regRequest ifname hapEvents).bytes dwpaldIfTypeHostap).1
        (sendRegCmd reqType respType p d (regRequest ifname hapEvents).bytes
          dwpaldIfTypeHostap).2.2 ↔
      ¬ (p.link.failure = none ∧ Readable (rs.map Request.event) ∧ ok) ∨
        Registrable (listed (rs.map Request.event)) prior := by
  obtain ⟨cmd, hdata, hlen, hsend⟩ := sendRegCmd_eq p d
    (regRequest ifname hapEvents).bytes respType hreq
    (show dwpaldIfTypeHostap = IfType.hostap.byte from rfl)
  have hfit : reqLen hapEvents = requestLen (rs.map Request.event) := by
    rw [hevents, requestLen_requests]
  have hshort : AllShort (reqEvents hapEvents) ↔ AllShort (announced (rs.map Request.event)) := by
    rw [hevents, allShort_reqEvents]
  rw [hsend _ (hwork cmd), regCmdResult_daemon]
  refine roundTrips_iff (Readable (rs.map Request.event) ∧ ok) hevents ?_ ?_
  · intro hno
    by_cases hle : reqLen hapEvents ≤ waveIpcBuffSize
    · refine (hrequest cmd (requestFor hle hdata hlen)).1 ?_
      rw [Readable, ← hfit, ← hshort] at hno
      tauto
    · exact hempty cmd (getData_tooLong (Nat.not_le.mp hle) hlen)
  · rintro ⟨⟨hle, hall⟩, hok⟩
    exact (hrequest cmd (requestFor (hfit ▸ hle) hdata hlen)).2 hok (hshort.mpr hall)

/-- A message without data is refused by both works. -/
theorem withIfname_noData (p : Path) (m : IfaceManager HostapEvent Unit) {cmd : WvIpcMsg}
    (hnone : waveIpcMsgGetData cmd = none)
    (rest : CmdWork → IfName → List UInt8 → Nat →
      Nat × IfaceManager HostapEvent Unit × List Sent) :
    Refused p.world p.ipsta p.link.seqNum
      (withIfname p.world m ⟨cmd, p.link.seqNum, p.ipsta⟩ rest) :=
  ⟨m, by simp only [withIfname, hnone]⟩

/-- The list that `dwpald_copy_hostap_events` makes of the registrations. -/
def copied (rs : List Request) (id : UInt32) : List DwpaldHostapEventWithId :=
  (rs.map fun r => r.entry id).reverse

theorem copyHostapEvents_copied (rs : List Request) (id : UInt32) :
    dwpaldCopyHostapEvents [] id (rs.map Request.event) = (0, copied rs id) := by
  rw [copyHostapEvents_requests, List.append_nil, copied]

/-- `dwpald_send_hostap_attach` for the first attach of an interface. -/
theorem hostapAttach_roundTrips (p : Path) (d : Dwpald) (ifname : List UInt8)
    (commonEvent : Option Clb) (rs : List Request) (id : UInt32) :
    RoundTrips ifname p.ipsta (rs.map Request.event)
        (dwpaldSendHostapAttach p d (newAttachment ifname commonEvent (copied rs id))).1
        (dwpaldSendHostapAttach p d (newAttachment ifname commonEvent (copied rs id))).2.2 ↔
      ¬ (p.link.failure = none ∧ Readable (rs.map Request.event) ∧
          p.world.hostapInterfaceAttach (ifName ifname).bytes ≠ .failure) ∨
        Registrable (listed (rs.map Request.event))
          (registeredOpCodes d.hapMan (ifName ifname) p.ipsta) := by
  obtain ⟨hret, hdaemon⟩ :=
    dwpaldSendHostapAttach_eq p d (newAttachment ifname commonEvent (copied rs id))
  have hcore := sendRegCmd_roundTrips p d (ifName ifname).bytes dwpaldAttachReq dwpaldAttachResp
    .attach (registeredOpCodes d.hapMan (ifName ifname) p.ipsta)
    (p.world.hostapInterfaceAttach (ifName ifname).bytes ≠ .failure)
    (show copied rs id = _ from rfl) (by simp) (fun _ => rfl)
    (fun _ hnone => withIfname_noData p d.hapMan hnone _)
  simp only [RoundTrips, ifName_bytes, not_not, workFunc] at hcore ⊢
  rw [hret, hdaemon]
  simp only [newAttachment]
  exact hcore fun cmd hreq => ifaceAttachWork_hap hreq p.link.seqNum p.ipsta d.hapMan

/-- `dwpald_send_hostap_update_event`. -/
theorem hostapUpdateEvent_roundTrips (p : Path) (d : Dwpald) (ifname : List UInt8)
    (rs : List Request) (id : UInt32) :
    RoundTrips ifname p.ipsta (rs.map Request.event)
        (dwpaldSendHostapUpdateEvent p d ifname (copied rs id)).1
        (dwpaldSendHostapUpdateEvent p d ifname (copied rs id)).2 ↔
      ¬ (p.link.failure = none ∧ Readable (rs.map Request.event) ∧
          d.hapMan.find (ifName ifname) ≠ none) ∨
        Registrable (listed (rs.map Request.event)) ∅ := by
  have hcore := sendRegCmd_roundTrips p d ifname dwpaldUpdateEventReq dwpaldUpdateEventResp
    .updateEvent ∅ (d.hapMan.find (ifName ifname) ≠ none) (show copied rs id = _ from rfl)
    (by simp) (fun _ => rfl) (fun _ hnone => withIfname_noData p d.hapMan hnone _)
  simp only [RoundTrips, dwpaldSendHostapUpdateEvent_eq, not_not, workFunc] at hcore ⊢
  exact hcore fun cmd hreq => ifaceUpdateEventWork_hap hreq p.link.seqNum p.ipsta d.hapMan

/-- An attach or an update either fails or leaves the station registered to exactly the listed and
the forced op_codes, if and only if it fails (the link fails it, the request does not fit, one of
the length bytes it is read with is above 63, the interface cannot be attached or is unknown) or the
list is registrable. -/
theorem registrationRoundTrip (p : Path) (d : Dwpald) (ifname : List UInt8)
    (commonEvent : Option Clb) (events : List DwpaldHostapEvent) (id : UInt32)
    (hapEvents : List DwpaldHostapEventWithId)
    (hcopy : dwpaldCopyHostapEvents [] id events = (0, hapEvents)) :
    (RoundTrips ifname p.ipsta events
        (dwpaldSendHostapAttach p d (newAttachment ifname commonEvent hapEvents)).1
        (dwpaldSendHostapAttach p d (newAttachment ifname commonEvent hapEvents)).2.2 ↔
      ¬ (p.link.failure = none ∧ Readable events ∧
          p.world.hostapInterfaceAttach (ifName ifname).bytes ≠ .failure) ∨
        Registrable (listed events) (registeredOpCodes d.hapMan (ifName ifname) p.ipsta)) ∧
    (RoundTrips ifname p.ipsta events (dwpaldSendHostapUpdateEvent p d ifname hapEvents).1
        (dwpaldSendHostapUpdateEvent p d ifname hapEvents).2 ↔
      ¬ (p.link.failure = none ∧ Readable events ∧ d.hapMan.find (ifName ifname) ≠ none) ∨
        Registrable (listed events) ∅) := by
  obtain ⟨rs, rfl⟩ := requests_of_copyHostapEvents hcopy
  rw [copyHostapEvents_copied] at hcopy
  obtain rfl : copied rs id = hapEvents := congrArg Prod.snd hcopy
  exact ⟨hostapAttach_roundTrips p d ifname commonEvent rs id,
    hostapUpdateEvent_roundTrips p d ifname rs id⟩

/-- Everything works, and every buffer is zeroed. -/
def quietPath : Path where
  link := ⟨1, Buffer.fill waveIpcBuffSize 0, fun _ => Buffer.fill waveIpcBuffSize 0, none⟩
  ipsta := 7
  world := deliveringWorld []
  pool := Buffer.fill waveIpcBuffSize 0

theorem registeredOpCodes_started (ifname : IfName) (ipsta : Station) :
    registeredOpCodes startedDwpald.hapMan ifname ipsta = ∅ :=
  registeredOpCodes_none rfl

def apEnabledRequest : Request := ⟨ascii "AP-ENABLED", 0x400, apEnabled_pos, apEnabled_lt⟩

def apRequests : List Request :=
  [apEnabledRequest, ⟨ascii "AP-DISABLED", 0x500, apDisabled_pos, apDisabled_lt⟩]

theorem registrationRoundTrip_apRequests :
    RoundTrips (ascii "wlan0") quietPath.ipsta (apRequests.map Request.event)
      (dwpaldSendHostapAttach quietPath startedDwpald
        (newAttachment (ascii "wlan0") none (copied apRequests 1))).1
      (dwpaldSendHostapAttach quietPath startedDwpald
        (newAttachment (ascii "wlan0") none (copied apRequests 1))).2.2 := by
  refine (registrationRoundTrip quietPath startedDwpald (ascii "wlan0") none
    (apRequests.map Request.event) 1 (copied apRequests 1)
    (copyHostapEvents_copied apRequests 1)).1.mpr (Or.inr ?_)
  have hlisted : ∀ op, op ∈ listed (apRequests.map Request.event) →
      op = ascii "AP-ENABLED" ∨ op = ascii "AP-DISABLED" := by
    intro op hop
    obtain ⟨r, hr, rfl⟩ := (listed_requests apRequests op).mp hop
    rcases List.mem_cons.mp hr with rfl | hr
    · exact .inl rfl
    · exact .inr (List.mem_singleton.mp hr ▸ rfl)
  refine ⟨fun op hop => ?_, ?_, ?_⟩
  · rcases hlisted op hop with rfl | rfl <;> decide
  · rintro name hname ⟨op, hop, hstarts⟩
    have hno : ∀ name ∈ gIntfEvents, ¬ name <+: ascii "AP-ENABLED" ∧
        ¬ name <+: ascii "AP-DISABLED" := by
      decide
    rcases hlisted op hop with rfl | rfl
    · exact absurd hstarts (hno name hname).1
    · exact absurd hstarts (hno name hname).2
  · rw [registeredOpCodes_started]
    exact Set.empty_subset _

/-- The length of the second op_code counts its terminator. -/
def terminatedRequests : List Request :=
  [⟨ascii "5G", 0x500, by decide, by decide⟩, ⟨ascii "AP" ++ [0], 0x400, by decide, by decide⟩]

/-- The station is registered to other op_codes than those of the list. -/
theorem terminatedOpCode_breaks_roundTrip :
    dwpaldCopyHostapEvents [] 1 (terminatedRequests.map Request.event) =
        (0, copied terminatedRequests 1) ∧
      ¬ RoundTrips (ascii "wlan0") quietPath.ipsta (terminatedRequests.map Request.event)
        (dwpaldSendHostapAttach quietPath startedDwpald
          (newAttachment (ascii "wlan0") none (copied terminatedRequests 1))).1
        (dwpaldSendHostapAttach quietPath startedDwpald
          (newAttachment (ascii "wlan0") none (copied terminatedRequests 1))).2.2 := by
  refine ⟨copyHostapEvents_copied terminatedRequests 1, ?_⟩
  rw [hostapAttach_roundTrips quietPath startedDwpald (ascii "wlan0") none terminatedRequests 1]
  have hreadable : Readable (terminatedRequests.map Request.event) := by
    have hlengths : lengths (announced (terminatedRequests.map Request.event)) = [3, 53] := rfl
    refine ⟨by decide, ?_⟩
    rw [AllShort, hlengths]
    simp
  have hzero : ascii "AP" ++ [0] ∈ listed (terminatedRequests.map Request.event) :=
    (listed_requests _ _).mpr ⟨_, List.mem_cons_of_mem _ List.mem_cons_self, rfl⟩
  rintro (h | h)
  · exact h ⟨rfl, hreadable, fun h => by cases h⟩
  · exact h.1 _ hzero (by decide)

end Dwpal.Client
