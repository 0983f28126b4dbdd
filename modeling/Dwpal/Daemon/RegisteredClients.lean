import Dwpal.Daemon.EventRegistry

/-! Who is registered to the events of an interface is attached to it: what each work of a manager
keeps of this, and the update of events that does not. -/

namespace Dwpal.Daemon

open Registry Ipc Machine

section Clients

variable {κ β ι : Type} {init : ManagerInit (Entry κ Station) β}
  {sendEvent : SendEvent (Entry κ Station) ι} {m m' : IfaceManager (Entry κ Station) β}

/-- Who is registered to an event is a client. -/
def RegisteredAttached (events : List (Entry κ Station)) (clients : List Station) : Prop :=
  ∀ ipsta, Enrolled events ipsta → ipsta ∈ clients

/-- After the step, who is registered to an event of an interface is attached to the interface. In
the step, events go to clients of their interface, and no entry is destroyed in which somebody is
registered. -/
structure AttachedLawful (init : ManagerInit (Entry κ Station) β)
    (sendEvent : SendEvent (Entry κ Station) ι) (m : IfaceManager (Entry κ Station) β)
    (action : EventedAction ι) (m' : IfaceManager (Entry κ Station) β) : Prop where
  registered : Every RegisteredAttached m'
  sent : ∀ event ifname info, action = .event event ifname info →
    ∀ x ∈ (sendEventWork sendEvent m event ifname info).2,
      ∃ iface, m.find ifname = some iface ∧ x.ipsta ∈ iface.attachedClients
  destroyed : ∀ iface ∈ m.attachedIfaces, iface.ifname ∉ m'.names →
    ∀ ipsta, ¬ Enrolled iface.events ipsta

/-- What is asked of the step `action` from `m`. -/
def KeepsAttached (init : ManagerInit (Entry κ Station) β)
    (sendEvent : SendEvent (Entry κ Station) ι) (m : IfaceManager (Entry κ Station) β)
    (action : EventedAction ι) : Prop :=
  ∀ m', m.eventedStep init sendEvent action = some m' → AttachedLawful init sendEvent m action m'

/-- A client updates its events, or a request of which nothing is registered. -/
def UpdatesOwn (refuses : List UInt8 → Nat → Prop) (clients : List Station) (ipsta : Station)
    (data : List UInt8) (dataSize : Nat) : Prop :=
  ipsta ∈ clients ∨ refuses data dataSize

/-- The registration of a module: it registers the station that asks, unless it refuses the request
at its beginning. -/
structure RegistersUnless (manApis : ManagerApis (Entry κ Station) β)
    (refuses : List UInt8 → Nat → Prop) : Prop where
  refused : ∀ events ipsta data dataSize, dataSize ≠ 0 → refuses data dataSize →
    (manApis.registerStaToEvents events ipsta data dataSize).2 = events
  registers : ∀ events ipsta data dataSize, dataSize ≠ 0 → ¬ refuses data dataSize →
    Enrolled (manApis.registerStaToEvents events ipsta data dataSize).2 ipsta

variable {refuses : List UInt8 → Nat → Prop}

theorem RegistersUnless.keeps (hunless : RegistersUnless init.manApis refuses)
    (hreg : RegistersOnly init.manApis)
    (hret : ∀ events ipsta, (init.manApis.unregisterStaFromEvents events ipsta).1 = 0) :
    Keeps init.manApis (UpdatesOwn refuses) RegisteredAttached where
  new ipsta h := by
    obtain ⟨_, hmem, -⟩ := h
    cases hmem
  attach {events clients} h ipsta data dataSize other hother := by
    have hattached : Enrolled events other ∨ other = ipsta := by
      split_ifs at hother
      · exact hreg.register _ _ _ _ _ hother
      · exact .inl hother
    by_cases hsame : other = ipsta
    · exact List.mem_append_right _ (List.mem_singleton.mpr hsame)
    · have hclient := h other (hattached.resolve_right hsame)
      exact List.mem_append_left _ ((List.mem_erase_of_ne hsame).mpr hclient)
  update {events clients} h ipsta data dataSize hsize hallowed other hother := by
    have hrest : Enrolled (init.manApis.unregisterStaFromEvents events ipsta).2 other →
        other ∈ clients := fun hother => h other (hreg.unregister _ _ _ hother).1
    rcases hallowed with hclient | hrefused
    · rcases hreg.register _ _ _ _ _ hother with hother | rfl
      · exact hrest hother
      · exact hclient
    · rw [hunless.refused _ _ _ _ hsize hrefused] at hother
      exact hrest hother
  detach {events clients} h ipsta other hother := by
    obtain ⟨hother, hne⟩ := hreg.unregister _ _ _ hother
    exact (List.mem_erase_of_ne hne).mpr (h other hother)
  unregister_ret := hret

/-- A step destroys an entry only if nobody is attached to it. -/
theorem eventedStep_destroyed {action : EventedAction ι}
    (hstep : m.eventedStep init sendEvent action = some m')
    {iface : AttachedInterface (Entry κ Station)}
    (hmem : iface ∈ m.attachedIfaces) (hgone : iface.ifname ∉ m'.names) :
    iface.attachedClients = [] := by
  have hname : iface.ifname ∈ m.names := List.mem_map_of_mem hmem
  cases action with
  | event event ifname info =>
    obtain rfl := Option.some.inj hstep
    refine absurd ?_ hgone
    rw [sendEventWork]
    cases m.find ifname with
    | none => exact hname
    | some found =>
      cases info with
      | none => exact hname
      | some info => exact mem_names_store hname
  | manager action =>
    cases action with
    | submitted w work =>
      simp only [IfaceManager.eventedStep] at hstep
      unfold IfaceManager.step at hstep
      split at hstep
      · cases hstep
      · next hwork hsame =>
        cases hsame
        obtain rfl := Option.some.inj hstep
        exact absurd (workFunc_names (fun ifname seqNum => hwork ifname seqNum) hname) hgone
      · next hdelayed => cases hdelayed
    | delayed w ifname =>
      simp only [IfaceManager.eventedStep, IfaceManager.step] at hstep
      rw [Option.ite_none_right_eq_some] at hstep
      obtain ⟨-, hstep⟩ := hstep
      have hfind : IfaceManager.find { m with
          delayedDetach := (m.delayedDetach.erase ifname).filter (· ≠ ifname) } ifname =
            m.find ifname := rfl
      simp only [workFunc, ifaceDetachWork, hfind] at hstep
      cases hfound : m.find ifname with
      | none =>
        rw [hfound] at hstep
        obtain rfl := Option.some.inj hstep
        exact absurd hname hgone
      | some found =>
        rw [hfound] at hstep
        by_cases hunused : (!found.keepAttached) = true ∧ found.attachedClients = []
        · simp only [if_pos hunused] at hstep
          obtain rfl := Option.some.inj hstep
          -- the entry is the one that was found, since its name is gone with it
          obtain ⟨first, before, after, hbefore, hfirst, hlist, herase⟩ :=
            List.exists_of_eraseP (List.mem_of_find?_eq_some hfound) (List.find?_some hfound)
          have hsame : first = found := by
            rw [IfaceManager.find, hlist, List.find?_append,
              List.find?_eq_none.mpr fun x hx => by simpa using hbefore x hx, Option.none_or,
              List.find?_cons_of_pos hfirst] at hfound
            exact Option.some.inj hfound
          have hkept : iface ∉ before ++ after := fun hin => by
            refine hgone (List.mem_map_of_mem ?_)
            rw [herase]
            exact hin
          rw [hlist] at hmem
          have hiface : iface = first := by
            rw [List.mem_append, List.mem_cons] at hmem
            rw [List.mem_append] at hkept
            tauto
          rw [hiface, hsame]
          exact hunused.2
        · simp only [if_neg hunused] at hstep
          obtain rfl := Option.some.inj hstep
          exact absurd hname hgone

/-- The stations that an event of the module goes to are registered. -/
def SendsEnrolled (sendEvent : SendEvent (Entry κ Station) ι) : Prop :=
  ∀ event info events state, ∀ x ∈ (sendEvent event info events state).1, Enrolled events x.ipsta

theorem keepsAttached_of_allowed
    (hkeeps : Keeps init.manApis (UpdatesOwn refuses) RegisteredAttached)
    (hsend : SendsEnrolled sendEvent) (h : Every RegisteredAttached m) {action : EventedAction ι}
    (hallowed : StepAllowed (UpdatesOwn refuses) m action) :
    KeepsAttached init sendEvent m action := by
  intro m' hstep
  refine ⟨hkeeps.step h hallowed hstep, ?_, fun iface hmem hgone ipsta henrolled => ?_⟩
  · rintro event ifname info rfl x hx
    rw [sendEventWork] at hx
    cases hfind : m.find ifname with
    | none =>
      rw [hfind] at hx
      cases hx
    | some iface =>
      rw [hfind] at hx
      refine ⟨iface, rfl, ?_⟩
      cases info with
      | none =>
        obtain ⟨ipsta, hclient, rfl⟩ := List.mem_map.mp hx
        exact hclient
      | some info =>
        exact h iface (List.mem_of_find?_eq_some hfind) _ (hsend event info _ _ x hx)
  · have hclient := h iface hmem ipsta henrolled
    rw [eventedStep_destroyed hstep hmem hgone] at hclient
    cases hclient

/-- The update of a station that is not attached registers it. -/
theorem allowed_of_keepsAttached (hunless : RegistersUnless init.manApis refuses)
    (hret : ∀ events ipsta, (init.manApis.unregisterStaFromEvents events ipsta).1 = 0)
    {action : EventedAction ι} (hkeeps : KeepsAttached init sendEvent m action) :
    StepAllowed (UpdatesOwn refuses) m action := by
  rcases action with (⟨w, work⟩ | ⟨w, ifname⟩) | ⟨event, ifname, info⟩
  · cases work
    case updateEvent cmdW =>
      intro data iface hdata hsize hfind
      by_contra hforeign
      rw [UpdatesOwn, not_or] at hforeign
      have hpos : waveIpcMsgGetSize cmdW.cmd - 17 ≠ 0 := by omega
      have henrolled := hunless.registers
        (init.manApis.unregisterStaFromEvents iface.events cmdW.ipsta).2 cmdW.ipsta _ _ hpos
        hforeign.2
      have hevery := (hkeeps _ rfl).registered
      have hshort : ¬ waveIpcMsgGetSize cmdW.cmd < 17 := by omega
      simp only [workFunc, ifaceUpdateEventWork, withIfname, hdata, if_neg hshort, updateEventsOf,
        hfind, hret, if_neg hpos, ne_eq, not_true_eq_false, if_false] at hevery
      have hclient : ∀ events, Enrolled events cmdW.ipsta →
          Every RegisteredAttached (m.store { iface with events := events }) →
          cmdW.ipsta ∈ iface.attachedClients := fun events henrolled hevery =>
        hevery { iface with events := events }
          (List.mem_of_find?_eq_some (IfaceManager.find_store m _)) _ henrolled
      split_ifs at hevery
      all_goals exact hforeign.1 (hclient _ henrolled hevery)
    all_goals trivial
  · trivial
  · trivial

/-- A run keeps the registered stations attached just when its updates are allowed. -/
theorem along_keepsAttached (hunless : RegistersUnless init.manApis refuses)
    (hreg : RegistersOnly init.manApis) (hsend : SendsEnrolled sendEvent)
    (hret : ∀ events ipsta, (init.manApis.unregisterStaFromEvents events ipsta).1 = 0)
    (h : Every RegisteredAttached m) (actions : List (EventedAction ι)) :
    Along (IfaceManager.eventedStep init sendEvent) (KeepsAttached init sendEvent) m actions ↔
      Along (IfaceManager.eventedStep init sendEvent) (StepAllowed (UpdatesOwn refuses)) m
        actions := by
  have hkeeps := hunless.keeps hreg hret
  refine along_iff (fun h => ⟨?_, ?_⟩) (fun h hkept hstep => (hkept _ hstep).registered) h
  · exact allowed_of_keepsAttached hunless hret
  · exact keepsAttached_of_allowed hkeeps hsend h

end Clients

/-! The two modules. -/

/-- `hostap_register_sta_to_events` refuses the first op_code. -/
def HostapRefuses (data : List UInt8) (_ : Nat) : Prop := 64 ≤ (data.headD 0).toNat

instance (data : List UInt8) (dataSize : Nat) : Decidable (HostapRefuses data dataSize) :=
  inferInstanceAs (Decidable (_ ≤ _))

/-- `nl_register_sta_to_events` refuses the request. -/
def NlRefuses (_ : List UInt8) (dataSize : Nat) : Prop := dataSize % 4 ≠ 0

theorem enrolled_foldl_of {α : Type}
    {register : List (Entry κ Station) → α → List (Entry κ Station)}
    {ipsta : Station} (hstep : ∀ events a, Enrolled events ipsta →
      Enrolled (register events a) ipsta)
    (as : List α) : ∀ {events : List (Entry κ Station)},
      Enrolled events ipsta → Enrolled (as.foldl register events) ipsta := by
  induction as with
  | nil => exact fun h => h
  | cons a as ih => exact fun h => ih (hstep _ a h)

theorem enrolled_forceIntfEvents_of {ipsta : Station} {events : List HostapEvent}
    (h : Enrolled events ipsta) (intfFlags : List (List UInt8 × Bool)) :
    Enrolled (forceIntfEvents ipsta events intfFlags) ipsta := by
  refine enrolled_foldl_of (fun events flag h => ?_) intfFlags h
  dsimp only
  split
  · exact h
  · exact enrolled_register_of (.inl h)

theorem enrolled_forceAll (ipsta : Station) (events : List HostapEvent) :
    Enrolled (forceIntfEvents ipsta events (gIntfEvents.map fun name => (name, false))) ipsta := by
  rw [gIntfEvents, List.map_cons, forceIntfEvents, List.foldl_cons]
  exact enrolled_forceIntfEvents_of (enrolled_register_of (.inr rfl)) _

theorem hostapManApis_registersUnless : RegistersUnless hostapManApis HostapRefuses where
  refused events ipsta data dataSize hsize hrefused := by
    show (hostapRegisterStaToEvents events ipsta data dataSize).2 = events
    obtain ⟨fuel, rfl⟩ := Nat.exists_eq_succ_of_ne_zero hsize
    have hlong : (data.headD 0).toNat ≥ 64 := hrefused
    have hgo : ¬ (fuel + 1 = 0 ∨ data.headD 0 = 0) := by
      rintro (h0 | h0)
      · exact Nat.succ_ne_zero fuel h0
      · rw [h0] at hlong
        exact absurd hlong (by decide)
    rw [hostapRegisterStaToEvents, hostapRegisterWalk, if_neg hgo]
    dsimp only
    rw [if_pos hlong]
    rfl
  registers events ipsta data dataSize hsize hgoes := by
    show Enrolled (hostapRegisterStaToEvents events ipsta data dataSize).2 ipsta
    obtain ⟨fuel, rfl⟩ := Nat.exists_eq_succ_of_ne_zero hsize
    have hshort : ¬ (data.headD 0).toNat ≥ 64 := hgoes
    rw [hostapRegisterStaToEvents, hostapRegisterWalk]
    by_cases hend : fuel + 1 = 0 ∨ data.headD 0 = 0
    · rw [if_pos hend]
      exact enrolled_forceAll ipsta events
    · rw [if_neg hend]
      dsimp only
      rw [if_neg hshort]
      have hwalk : ∀ {left : Nat} {regStr : List UInt8} {intfFlags : List (List UInt8 × Bool)}
          (opCode : List UInt8), Enrolled (hostapRegisterWalk ipsta fuel left regStr
            (hostapRegisterStaToEvent events ipsta opCode) intfFlags).2.1 ipsta := fun opCode =>
        hostapWalk_keeps (P := (Enrolled · ipsta)) (fun _ _ h => enrolled_register_of (.inl h)) fuel
          (enrolled_register_of (.inr rfl))
      specialize @hwalk (fuel.succ - (1 + (data.headD 0).toNat))
        (data.drop (1 + (data.headD 0).toNat))
        (setIntfFlag (cstr ((data.drop 1).take (data.headD 0).toNat))
          (gIntfEvents.map fun name => (name, false)))
        (cstr ((data.drop 1).take (data.headD 0).toNat))
      generalize hostapRegisterWalk ipsta fuel _ _ _ _ = walked at hwalk ⊢
      obtain ⟨ret, walked, intfFlags⟩ := walked
      cases ret with
      | zero => exact enrolled_forceIntfEvents_of hwalk intfFlags
      | succ ret => exact hwalk

theorem nlManApis_registersUnless : RegistersUnless nlManApis NlRefuses where
  refused events ipsta data dataSize hsize hrefused := by
    have hmod : dataSize % 4 ≠ 0 := hrefused
    show (nlRegisterStaToEvents events ipsta data dataSize).2 = events
    rw [nlRegisterStaToEvents, if_neg hsize, if_pos hmod]
  registers events ipsta data dataSize hsize hgoes := by
    have hmod : ¬ dataSize % 4 ≠ 0 := hgoes
    show Enrolled (nlRegisterStaToEvents events ipsta data dataSize).2 ipsta
    obtain ⟨n, hn⟩ := Nat.exists_eq_succ_of_ne_zero (show dataSize / 4 ≠ 0 by omega)
    rw [nlRegisterStaToEvents, if_neg hsize, if_neg hmod, hn, nlIds, List.foldl_cons]
    exact enrolled_foldl_of (fun _ _ h => enrolled_register_of (.inl h)) _
      (enrolled_register_of (.inr rfl))

theorem hostapSendEvent_enrolled : SendsEnrolled hostapSendEvent := by
  have hsent : ∀ {event : WvIpcMsg} {info : HostapExtraInfo} {events : List HostapEvent} {x : Sent},
      x ∈ sendToRegistered (fun tmp => strncmpEq info.opCode tmp.bytes 64) event events →
      Enrolled events x.ipsta := by
    intro event info events x hx
    obtain ⟨ipsta, hmem, rfl⟩ := List.mem_map.mp hx
    exact enrolled_of_mem_membersOf hmem
  intro event info events state x hx
  rw [hostapSendEvent] at hx
  split_ifs at hx
  · exact hsent hx
  · exact hsent hx
  · cases hx
  · exact hsent hx

theorem nlSendDrvEvent_enrolled : SendsEnrolled nlSendDrvEvent := by
  intro event nlId events state x hx
  obtain ⟨ipsta, hmem, rfl⟩ := List.mem_map.mp hx
  exact enrolled_of_mem_membersOf hmem

theorem registeredAttached_init {κ β : Type} {w : World} {init : ManagerInit (Entry κ Station) β}
    {static : β} {seedIfaces : List IfName} {m0 : IfaceManager (Entry κ Station) β}
    (hinit : ifaceManagerInit w init static seedIfaces = some m0) :
    Every RegisteredAttached m0 := by
  intro iface hmem ipsta henrolled
  rw [(ifaceManagerInit_empty hinit iface hmem).2] at henrolled
  obtain ⟨_, hentry, -⟩ := henrolled
  cases hentry

/-- A request for the events of `wlan0` in which no op_code is listed. -/
def requestWlan0 (ipsta : Station) : CmdWork where
  cmd := (waveIpcMsgFillData (waveIpcMsgAlloc (Buffer.fill waveIpcBuffSize 0))
    (some (ascii "wlan0" ++ List.replicate 13 0)) 18).2
  seqNum := 0
  ipsta := ipsta

/-- The manager of a daemon that is started with `wlan0`. -/
def hapManWlan0 : IfaceManager HostapEvent Unit :=
  ⟨[⟨wlan0, interfaceDwpalStateConnected, [], [], true⟩], (), []⟩

theorem init_hapManWlan0 :
    ifaceManagerInit (deliveringWorld []) hapInit () [wlan0] = some hapManWlan0 := rfl

/-- A station attaches to `wlan0`, and updates its events. -/
def attachAndUpdate : List (EventedAction HostapExtraInfo) :=
  [.manager (.submitted (deliveringWorld []) (.attach (requestWlan0 1))),
    .manager (.submitted (deliveringWorld []) (.updateEvent (requestWlan0 1)))]

end Dwpal.Daemon
