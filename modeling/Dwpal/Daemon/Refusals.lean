import Dwpal.Daemon.HostapRegistration

/-! What an attach of the hostap manager that is refused leaves behind: when the clients of the
interfaces and the registrations of the station are what they were. -/

namespace Dwpal.Daemon

open Registry Ipc

section Registries

variable {κ β α : Type}

/-- The clients that are attached to the interfaces. -/
def clientsOf (m : IfaceManager (Entry κ Station) β) : List (IfName × List Station) :=
  m.attachedIfaces.map fun iface => (iface.ifname, iface.attachedClients)

/-- The clients of the interfaces and what the station is registered to are the same. -/
structure SameRegistry (registered : IfaceManager (Entry κ Station) β → IfName → Station → Set α)
    (ipsta : Station) (m m' : IfaceManager (Entry κ Station) β) : Prop where
  clients : clientsOf m' = clientsOf m
  events : ∀ ifname, registered m' ifname ipsta = registered m ifname ipsta

variable {m : IfaceManager (Entry κ Station) β} {stored : AttachedInterface (Entry κ Station)}

theorem clientsOf_replace : ∀ {ifaces : List (AttachedInterface (Entry κ Station))}
    {found : AttachedInterface (Entry κ Station)},
    ifaces.find? (AttachedInterface.named stored.ifname) = some found →
      ((IfaceManager.replace stored ifaces).map
        (fun iface => (iface.ifname, iface.attachedClients)) =
          ifaces.map (fun iface => (iface.ifname, iface.attachedClients)) ↔
        stored.attachedClients = found.attachedClients) := by
  intro ifaces
  induction ifaces with
  | nil =>
    intro found h
    cases h
  | cons tmp ifaces ih =>
    intro found h
    rw [IfaceManager.replace]
    by_cases htmp : tmp.named stored.ifname = true
    · rw [List.find?_cons_of_pos htmp] at h
      cases h
      rw [if_pos htmp, List.map_cons, List.map_cons, List.cons.injEq, Prod.mk.injEq,
        IfaceManager.named_iff.mp htmp]
      simp
    · rw [List.find?_cons_of_neg htmp] at h
      rw [if_neg htmp, List.map_cons, List.map_cons, List.cons.injEq, and_iff_right rfl, ih h]

/-- Storing an interface leaves the clients alone if it has those of the one that it replaces. -/
theorem clientsOf_store : clientsOf (m.store stored) = clientsOf m ↔
    ∃ found, m.find stored.ifname = some found ∧
      stored.attachedClients = found.attachedClients := by
  rw [clientsOf, clientsOf, IfaceManager.store]
  cases hfind : m.find stored.ifname with
  | some found =>
    simp only [Option.isSome_some, if_true, Option.some.injEq, exists_eq_left']
    exact clientsOf_replace hfind
  | none => simp

end Registries

/-- The op_codes that a walk over the bytes registers in front of one that is too long. -/
def opCodesBefore (events : List UInt8) : List (List UInt8) :=
  ((Frames.scan events.length events.length events).takeWhile fun x => x.1.toNat < 64).map
    fun x => cstr x.2

theorem hostapRegisterWalk_until (ipsta : Station) : ∀ (fuel left : Nat) (regStr : List UInt8)
    (events : List HostapEvent) (intfFlags : List (List UInt8 × Bool)),
    (hostapRegisterWalk ipsta fuel left regStr events intfFlags).2.1 =
      (((Frames.scan fuel left regStr).takeWhile fun x => x.1.toNat < 64).map
        fun x => cstr x.2).foldl (fun events op => hostapRegisterStaToEvent events ipsta op)
          events := by
  intro fuel
  induction fuel with
  | zero => simp [hostapRegisterWalk, Frames.scan]
  | succ fuel ih =>
    intro left regStr events intfFlags
    rw [hostapRegisterWalk, Frames.scan]
    by_cases hend : left = 0 ∨ regStr.headD 0 = 0
    · rw [if_pos hend, if_pos hend]
      rfl
    · rw [if_neg hend, if_neg hend]
      by_cases hlen : (regStr.headD 0).toNat ≥ 64
      · rw [if_pos hlen, List.takeWhile_cons_of_neg (by simpa using hlen)]
        rfl
      · rw [if_neg hlen, List.takeWhile_cons_of_pos (by simpa using hlen), ih]
        rfl

/-- A request with an op_code that is too long leaves those in front of it registered. -/
theorem hostapRegisterStaToEvents_until {events tail : List UInt8} (hlong : ¬ AllShort events)
    (registered : List HostapEvent) (ipsta : Station) :
    opCodesOf (hostapRegisterStaToEvents registered ipsta (events ++ tail) events.length).2 ipsta =
      opCodesOf registered ipsta ∪ {op | op ∈ opCodesBefore events} := by
  have hlens := (allShort_iff events tail).not.mp hlong
  have hret := (hostapRegisterWalk_ret ipsta events.length events.length (events ++ tail) registered
    (gIntfEvents.map fun name => (name, false))).not.mpr hlens
  have hwalk := hostapRegisterWalk_until ipsta events.length events.length (events ++ tail)
    registered (gIntfEvents.map fun name => (name, false))
  have hstop : ∃ x ∈ Frames.scan events.length events.length events, decide (x.1.toNat < 64) =
      false := by
    rw [AllShort] at hlong
    push Not at hlong
    obtain ⟨len, hlen, hbad⟩ := hlong
    obtain ⟨x, hx, rfl⟩ := List.mem_map.mp hlen
    exact ⟨x, hx, by simpa using hbad⟩
  rw [Frames.scan_append_until (fun len => decide (len.toNat < 64)) tail (Nat.le_refl _) hstop]
    at hwalk
  have heq : (hostapRegisterStaToEvents registered ipsta (events ++ tail) events.length).2 =
      (opCodesBefore events).foldl (fun events op => hostapRegisterStaToEvent events ipsta op)
        registered := by
    rw [hostapRegisterStaToEvents]
    generalize hostapRegisterWalk ipsta events.length events.length (events ++ tail) registered
      (gIntfEvents.map fun name => (name, false)) = walk at hret hwalk
    obtain ⟨ret, walked, flags⟩ := walk
    cases ret with
    | zero => exact absurd rfl hret
    | succ ret => exact hwalk
  rw [heq, opCodesOf_foldl]
  intro op hop
  obtain ⟨x, hx, rfl⟩ := List.mem_map.mp hop
  have hshort := List.mem_takeWhile_imp hx
  have hframe := Frames.length_scan (List.takeWhile_sublist _ |>.subset hx)
  have hcstr : (cstr x.2).length ≤ x.2.length := (List.takeWhile_prefix _).length_le
  rw [decide_eq_true_iff] at hshort
  exact ⟨cstr_zero_notMem x.2, by omega⟩

variable {w : World} {m : IfaceManager HostapEvent Unit} {cmd : WvIpcMsg} {seqNum : UInt8}
  {ipsta : Station} {ifname : IfName} {events : List UInt8}

/-- An interface is stored without a trace if it was there with the same clients and registrations
of the station. -/
theorem sameRegistry_store {stored : AttachedInterface HostapEvent} :
    SameRegistry registeredOpCodes ipsta m (m.store stored) ↔
      ∃ found, m.find stored.ifname = some found ∧
        stored.attachedClients = found.attachedClients ∧
        opCodesOf stored.events ipsta = opCodesOf found.events ipsta := by
  have hstored := registeredOpCodes_store m stored ipsta (Eq.refl stored.ifname)
  constructor
  · rintro ⟨hclients, hevents⟩
    obtain ⟨found, hfind, hsame⟩ := clientsOf_store.mp hclients
    refine ⟨found, hfind, hsame, ?_⟩
    rw [← hstored, hevents, registeredOpCodes_some hfind]
  · rintro ⟨found, hfind, hsame, hops⟩
    refine ⟨clientsOf_store.mpr ⟨found, hfind, hsame⟩, fun other => ?_⟩
    by_cases heq : other = stored.ifname
    · rw [heq, hstored, hops, registeredOpCodes_some hfind]
    · ext op
      rw [registeredOpCodes, registeredOpCodes, IfaceManager.find_store_ne m heq]

/-- The station is the last client of the interface, and registered to what a refused request
registers. -/
def Rehearsed (m : IfaceManager HostapEvent Unit) (ifname : IfName) (ipsta : Station)
    (events : List UInt8) : Prop :=
  ∃ iface, m.find ifname = some iface ∧
    iface.attachedClients.erase ipsta ++ [ipsta] = iface.attachedClients ∧
    ∀ op ∈ opCodesBefore events, op ∈ opCodesOf iface.events ipsta

/-- An attach that hostapd refuses leaves everything as it was; one that an op_code is too long for
has attached and registered the station. -/
theorem ifaceAttachWork_refused (hreq : RequestFor w cmd ifname events) (seqNum : UInt8)
    (ipsta : Station) (m : IfaceManager HostapEvent Unit)
    (hrefused : w.hostapInterfaceAttach ifname.bytes = .failure ∨ ¬ AllShort events) :
    SameRegistry registeredOpCodes ipsta m
        (ifaceAttachWork w hapInit m ⟨cmd, seqNum, ipsta⟩).2.1 ↔
      (w.hostapInterfaceAttach ifname.bytes = .failure ∨ Rehearsed m ifname ipsta events) := by
  obtain ⟨tail, hwith⟩ := withIfname_request hreq seqNum ipsta m (attachTo w hapInit m)
  have hpos : events.length ≠ 0 := fun h => hreq.nonempty (List.length_eq_zero_iff.mp h)
  have hname := ifname_attaching m ifname
  have hkept := opCodesOf_find_getD m ifname ipsta
  rw [ifaceAttachWork, hwith, attachTo]
  by_cases hfailure : w.hostapInterfaceAttach ifname.bytes = .failure
  · have hattach := fun state => (hostapIfaceAttach_ok w ifname state).not.mpr
      (not_not_intro hfailure)
    simp only [hapInit, hostapManApis, hattach, ne_eq, not_false_eq_true, if_true]
    exact iff_of_true ⟨rfl, fun _ => rfl⟩ (.inl hfailure)
  · have hlong := hrefused.resolve_left hfailure
    have hattach := fun state => (hostapIfaceAttach_ok w ifname state).mpr hfailure
    have hret := hostapRegisterStaToEvents_fails ((allShort_iff events tail).not.mp hlong)
    have hops := fun registered =>
      @hostapRegisterStaToEvents_until events tail hlong registered ipsta
    simp only [hapInit, hostapManApis, hattach, hpos, hret, ne_eq, not_true_eq_false,
      not_false_eq_true, if_true, if_false, requestFailed]
    generalize hiface : (m.find ifname).getD ⟨ifname, 0, [], [], false⟩ = iface at hname hkept ⊢
    rw [or_iff_right hfailure]
    refine (sameRegistry_store (m := m)).trans ?_
    simp only [hname, hops]
    refine exists_congr fun found => and_congr_right fun hfind => and_congr ?_ ?_
    · rw [show iface = found by rw [← hiface, hfind, Option.getD_some]]
    · rw [show iface = found by rw [← hiface, hfind, Option.getD_some], Set.union_eq_left]
      rfl

end Dwpal.Daemon
