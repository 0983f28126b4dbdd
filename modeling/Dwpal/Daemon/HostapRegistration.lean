import Dwpal.Daemon.DwpalDaemon

/-! What the attach and the update of the hostap manager leave registered, and what they answer. -/

namespace Dwpal.Daemon

open Ipc

/-- The op_codes that station `ipsta` is registered to on the interface `ifname`. -/
def registeredOpCodes (m : IfaceManager HostapEvent Unit) (ifname : IfName) (ipsta : Station) :
    Set (List UInt8) :=
  {op | ∃ iface, m.find ifname = some iface ∧ op ∈ opCodesOf iface.events ipsta}

theorem registeredOpCodes_some {m : IfaceManager HostapEvent Unit} {ifname : IfName}
    {ipsta : Station} {iface : AttachedInterface HostapEvent} (h : m.find ifname = some iface) :
    registeredOpCodes m ifname ipsta = opCodesOf iface.events ipsta := by
  ext op
  simp [registeredOpCodes, h]

theorem registeredOpCodes_none {m : IfaceManager HostapEvent Unit} {ifname : IfName}
    {ipsta : Station} (h : m.find ifname = none) : registeredOpCodes m ifname ipsta = ∅ := by
  ext op
  simp [registeredOpCodes, h]

theorem registeredOpCodes_store (m : IfaceManager HostapEvent Unit)
    (iface : AttachedInterface HostapEvent) (ipsta : Station) {ifname : IfName}
    (h : iface.ifname = ifname) :
    registeredOpCodes (m.store iface) ifname ipsta = opCodesOf iface.events ipsta :=
  registeredOpCodes_some (h ▸ IfaceManager.find_store m iface)

theorem opCodesOf_nil (ipsta : Station) : opCodesOf [] ipsta = ∅ := by
  ext op
  simp [opCodesOf]

/-- The events that `iface_attach_work` starts from are those of the interface, if there is one. -/
theorem opCodesOf_find_getD (m : IfaceManager HostapEvent Unit) (ifname : IfName)
    (ipsta : Station) :
    opCodesOf ((m.find ifname).getD ⟨ifname, 0, [], [], false⟩).events ipsta =
      registeredOpCodes m ifname ipsta := by
  cases h : m.find ifname with
  | none => rw [registeredOpCodes_none h, Option.getD_none, opCodesOf_nil]
  | some iface => rw [registeredOpCodes_some h, Option.getD_some]

/-- A request for the interface `ifname`, behind whose name the bytes `events` stand. -/
structure RequestFor (w : World) (cmd : WvIpcMsg) (ifname : IfName) (events : List UInt8) :
    Prop where
  nonempty : events ≠ []
  size : cmd.dataLen = events.length + 17
  name : CString.copyFrom cmd.data.bytes 16 (by decide) = ifname
  memory : ∃ rest, (cmd.data.bytes ++ w.beyond).drop 17 = events ++ rest

/-- No op_code that the request announces is too long. -/
def AllShort (events : List UInt8) : Prop := ∀ len ∈ Frames.lengths events, len.toNat < 64

variable {w : World} {m : IfaceManager HostapEvent Unit} {cmd : WvIpcMsg} {seqNum : UInt8}
  {ipsta : Station} {ifname : IfName} {events : List UInt8}

theorem requestFailed_answers {ε β : Type} (w : World) (m : IfaceManager ε β) (ipsta : Station)
    (seqNum : UInt8) :
    ∃ x, (requestFailed w m ipsta seqNum).2.2 = [x] ∧
      Answers x ipsta ⟨waveIpcMsgReqFail, seqNum, 0, 0⟩ [] [] := by
  obtain ⟨x, hsend, hx⟩ := sendReqFailedTo_answers ipsta seqNum (w.pool 0)
  exact ⟨x, by rw [requestFailed, hsend], hx⟩

theorem sendResponse_answers {ε β : Type} (w : World) (init : ManagerInit ε β) (ipsta : Station)
    (seqNum type state : UInt8) :
    ∃ x, sendResponse w init ipsta seqNum type state = [x] ∧
      Answers x ipsta ⟨waveIpcMsgResp, seqNum, 0, 0⟩
        [DwpaldHeader.bytes ⟨type, init.iftype, state, 0, 0, 0⟩] [] := by
  obtain ⟨resp, hpush, hheaders, hdata, hlen⟩ := dwpaldHeaderPush_first (headers_alloc (w.pool 0))
    ⟨type, init.iftype, state, 0, 0, 0⟩
  have hempty : resp.payload = [] := by
    rw [payload_eq_of_same hdata hlen]
    rfl
  obtain ⟨x, hsend, hx⟩ := sendResponseTo_answers hheaders (by simp [Frames.encode_cons]) ipsta
    seqNum 0
  rw [hempty] at hx
  refine ⟨x, ?_, hx⟩
  simp only [sendResponse, hpush, hsend]

/-- The answer to a request that the daemon refuses. -/
def Refused (w : World) (ipsta : Station) (seqNum : UInt8)
    (r : Nat × IfaceManager HostapEvent Unit × List Sent) : Prop :=
  ∃ m', r = requestFailed w m' ipsta seqNum

/-- The answer to a request that registers the op_codes in `events` and those that are forced, next
to the op_codes `kept`. -/
def Registers (w : World) (ipsta : Station) (seqNum type : UInt8) (ifname : IfName)
    (events : List UInt8) (kept : Set (List UInt8))
    (r : Nat × IfaceManager HostapEvent Unit × List Sent) : Prop :=
  ∃ tail state, r.2.2 = sendResponse w hapInit ipsta seqNum type state ∧
    registeredOpCodes r.2.1 ifname ipsta =
      kept ∪ {op | op ∈ requested (events ++ tail) events.length} ∪
        forced (requested (events ++ tail) events.length)

theorem withIfname_request (hreq : RequestFor w cmd ifname events) (seqNum : UInt8)
    (ipsta : Station) (m : IfaceManager HostapEvent Unit)
    (rest : CmdWork → IfName → List UInt8 → Nat →
      Nat × IfaceManager HostapEvent Unit × List Sent) :
    ∃ tail, withIfname w m ⟨cmd, seqNum, ipsta⟩ rest =
      rest ⟨cmd, seqNum, ipsta⟩ ifname (events ++ tail) events.length := by
  have hsize := hreq.size
  obtain ⟨tail, hmem⟩ := hreq.memory
  have hdata : waveIpcMsgGetData cmd = some cmd.data.bytes := if_neg (by omega)
  refine ⟨tail, ?_⟩
  simp only [withIfname, hdata, waveIpcMsgGetSize, hreq.name, hmem]
  rw [if_neg (by omega), hsize, Nat.add_sub_cancel]

theorem allShort_iff (events tail : List UInt8) :
    AllShort events ↔
      ∀ l ∈ (Frames.scan events.length events.length (events ++ tail)).map Prod.fst,
        l.toNat < 64 := by
  rw [Frames.scan_append_lengths tail (Nat.le_refl _)]
  rfl

theorem hostapIfaceAttach_ok (w : World) (ifname : IfName) (state : UInt8) :
    (hostapIfaceAttach w ifname state).1 = 0 ↔ w.hostapInterfaceAttach ifname.bytes ≠ .failure := by
  rw [hostapIfaceAttach]
  split <;> simp_all

/-- `iface_attach_work` of the hostap manager. -/
theorem ifaceAttachWork_hap (hreq : RequestFor w cmd ifname events) (seqNum : UInt8)
    (ipsta : Station) (m : IfaceManager HostapEvent Unit) :
    (w.hostapInterfaceAttach ifname.bytes = .failure ∨ ¬ AllShort events →
      Refused w ipsta seqNum (ifaceAttachWork w hapInit m ⟨cmd, seqNum, ipsta⟩)) ∧
    (w.hostapInterfaceAttach ifname.bytes ≠ .failure → AllShort events →
      Registers w ipsta seqNum dwpaldAttachResp ifname events (registeredOpCodes m ifname ipsta)
        (ifaceAttachWork w hapInit m ⟨cmd, seqNum, ipsta⟩)) := by
  obtain ⟨tail, hwith⟩ := withIfname_request hreq seqNum ipsta m (attachTo w hapInit m)
  have hpos : events.length ≠ 0 := fun h => hreq.nonempty (List.length_eq_zero_iff.mp h)
  have hname := ifname_attaching m ifname
  have hkept := opCodesOf_find_getD m ifname ipsta
  rw [ifaceAttachWork, hwith, attachTo]
  generalize (m.find ifname).getD ⟨ifname, 0, [], [], false⟩ = iface at hname hkept ⊢
  have hattach := hostapIfaceAttach_ok w ifname iface.state
  simp only [hapInit, hostapManApis, hpos, ne_eq, not_false_eq_true, if_true]
  constructor
  · intro hrefused
    by_cases hok : (hostapIfaceAttach w ifname iface.state).1 = 0
    · have hlong : ¬ AllShort events := hrefused.resolve_left (hattach.mp hok)
      rw [allShort_iff events tail] at hlong
      rw [if_neg (not_not_intro hok), if_pos (hostapRegisterStaToEvents_fails hlong _ _)]
      exact ⟨_, rfl⟩
    · rw [if_pos hok]
      exact ⟨_, rfl⟩
  · intro hok hshort
    obtain ⟨hret, hops⟩ := hostapRegisterStaToEvents_spec ((allShort_iff events tail).mp hshort)
      iface.events ipsta
    rw [if_neg (not_not_intro (hattach.mpr hok)), if_neg (not_not_intro hret)]
    refine ⟨tail, _, rfl, ?_⟩
    rw [← hkept, ← hops]
    exact registeredOpCodes_store _ _ _ hname

/-- `iface_update_event_work` of the hostap manager. -/
theorem ifaceUpdateEventWork_hap (hreq : RequestFor w cmd ifname events) (seqNum : UInt8)
    (ipsta : Station) (m : IfaceManager HostapEvent Unit) :
    (m.find ifname = none ∨ ¬ AllShort events →
      Refused w ipsta seqNum (ifaceUpdateEventWork w hapInit m ⟨cmd, seqNum, ipsta⟩)) ∧
    (m.find ifname ≠ none → AllShort events →
      Registers w ipsta seqNum dwpaldUpdateEventResp ifname events ∅
        (ifaceUpdateEventWork w hapInit m ⟨cmd, seqNum, ipsta⟩)) := by
  obtain ⟨tail, hwith⟩ := withIfname_request hreq seqNum ipsta m (updateEventsOf w hapInit m)
  have hpos : events.length ≠ 0 := fun h => hreq.nonempty (List.length_eq_zero_iff.mp h)
  rw [ifaceUpdateEventWork, hwith, updateEventsOf]
  cases hfind : m.find ifname with
  | none => exact ⟨fun _ => ⟨_, rfl⟩, fun h => absurd rfl h⟩
  | some iface =>
    have hname := IfaceManager.ifname_of_find hfind
    have hnone := opCodesOf_unregister iface.events ipsta
    simp only [hapInit, hostapManApis, hpos, if_false, hostapUnregisterStaFromEvents, ne_eq,
      not_true_eq_false] at hnone ⊢
    constructor
    · intro hrefused
      have hlong : ¬ AllShort events := hrefused.resolve_left (by simp)
      rw [allShort_iff events tail] at hlong
      rw [if_pos (hostapRegisterStaToEvents_fails hlong _ _)]
      exact ⟨_, rfl⟩
    · intro _ hshort
      obtain ⟨hret, hops⟩ := hostapRegisterStaToEvents_spec ((allShort_iff events tail).mp hshort)
        (Registry.withdrawAll ipsta iface.events) ipsta
      rw [if_neg (not_not_intro hret)]
      refine ⟨tail, _, rfl, ?_⟩
      rw [← hnone, ← hops]
      exact registeredOpCodes_store _ _ _ hname

end Dwpal.Daemon
