import Dwpal.Daemon.IfaceLifetime

/-! The stations that a manager mentions, as attached clients or registered to events: a work adds
none but its own, and the loss of a station takes that one away. -/

namespace Dwpal.Daemon

open Registry Ipc

variable {κ β : Type}

/-- The station that a work is for. -/
def Work.ipsta : Work → Option Station
  | .cmd work | .attach work | .updateEvent work => some work.ipsta
  | .detach work => work.ipsta
  | .disconn ipsta => some ipsta

/-- The station is attached to the interface or registered to one of its events. -/
def AttachedInterface.Mentions (iface : AttachedInterface (Entry κ Station)) (ipsta : Station) :
    Prop :=
  ipsta ∈ iface.attachedClients ∨ Enrolled iface.events ipsta

def IfaceManager.Mentions (m : IfaceManager (Entry κ Station) β) (ipsta : Station) : Prop :=
  ∃ iface ∈ m.attachedIfaces, iface.Mentions ipsta

/-- The functions of a manager's module register nobody but the station they are told to, and
unregister it from everything. -/
structure RegistersOnly (manApis : ManagerApis (Entry κ Station) β) : Prop where
  register : ∀ events ipsta regStr len other,
    Enrolled (manApis.registerStaToEvents events ipsta regStr len).2 other →
      Enrolled events other ∨ other = ipsta
  unregister : ∀ events ipsta other,
    Enrolled (manApis.unregisterStaFromEvents events ipsta).2 other →
      Enrolled events other ∧ other ≠ ipsta

theorem enrolled_hostapWalk (ipsta : Station) (fuel : Nat) :
    ∀ {left : Nat} {regStr : List UInt8} {events : List HostapEvent}
      {intfFlags : List (List UInt8 × Bool)} {other : Station},
      Enrolled (hostapRegisterWalk ipsta fuel left regStr events intfFlags).2.1 other →
        Enrolled events other ∨ other = ipsta := by
  induction fuel with
  | zero => exact fun h => .inl h
  | succ fuel ih =>
    intro left regStr events intfFlags other h
    rw [hostapRegisterWalk] at h
    dsimp only at h
    split_ifs at h
    · exact .inl h
    · exact .inl h
    · rcases ih h with h | h
      · exact enrolled_register h
      · exact .inr h

theorem enrolled_foldl {α : Type} {register : List (Entry κ Station) → α → List (Entry κ Station)}
    {ipsta other : Station}
    (hstep : ∀ events a, Enrolled (register events a) other → Enrolled events other ∨ other = ipsta)
    (as : List α) : ∀ {events : List (Entry κ Station)},
      Enrolled (as.foldl register events) other → Enrolled events other ∨ other = ipsta := by
  induction as with
  | nil => exact fun h => .inl h
  | cons a as ih =>
    intro events h
    rcases ih h with h | h
    · exact hstep events a h
    · exact .inr h

theorem hostapManApis_registersOnly : RegistersOnly hostapManApis where
  register events ipsta regStr len other h := by
    change Enrolled (hostapRegisterStaToEvents events ipsta regStr len).2 other at h
    rw [hostapRegisterStaToEvents] at h
    generalize hwalk : hostapRegisterWalk ipsta len len regStr events
      (gIntfEvents.map fun name => (name, false)) = walked at h
    obtain ⟨ret, walked, intfFlags⟩ := walked
    have hkept : Enrolled walked other → Enrolled events other ∨ other = ipsta := fun h =>
      enrolled_hostapWalk ipsta len (by rwa [hwalk])
    have hforced : Enrolled (forceIntfEvents ipsta walked intfFlags) other →
        Enrolled walked other ∨ other = ipsta := by
      apply enrolled_foldl
      intro events flag h
      dsimp only at h
      split at h
      · exact .inl h
      · exact enrolled_register h
    cases ret with
    | zero =>
      rcases hforced h with h | h
      · exact hkept h
      · exact .inr h
    | succ ret => exact hkept h
  unregister _ _ _ h := enrolled_withdrawAll.mp h

theorem nlManApis_registersOnly : RegistersOnly nlManApis where
  register events ipsta regStr len other h := by
    change Enrolled (nlRegisterStaToEvents events ipsta regStr len).2 other at h
    rw [nlRegisterStaToEvents] at h
    split_ifs at h
    · exact .inl h
    · exact .inl h
    · exact enrolled_foldl (fun _ _ h => enrolled_register h) _ h
  unregister _ _ _ h := enrolled_withdrawAll.mp h

section Works

variable {init : ManagerInit (Entry κ Station) β} {m : IfaceManager (Entry κ Station) β}
  {ipsta other : Station} {w : World}

/-- Nobody is attached to an interface twice. -/
def ClientsNodup (m : IfaceManager (Entry κ Station) β) : Prop :=
  ∀ iface ∈ m.attachedIfaces, iface.attachedClients.Nodup

/-- What a work for `ipsta` makes of the manager: it mentions no other station that was not
mentioned before, and attaches nobody twice. -/
structure MentionsOnly (m m' : IfaceManager (Entry κ Station) β) (ipsta : Station) : Prop where
  mentions : ∀ other, m'.Mentions other → m.Mentions other ∨ other = ipsta
  clients : ClientsNodup m → ClientsNodup m'

theorem MentionsOnly.same {m' : IfaceManager (Entry κ Station) β}
    (h : m'.attachedIfaces = m.attachedIfaces) : MentionsOnly m m' ipsta := by
  constructor
  · rintro other ⟨iface, hmem, hother⟩
    exact .inl ⟨iface, h ▸ hmem, hother⟩
  · intro hclients iface hmem
    exact hclients iface (h ▸ hmem)

/-- An interface of the manager that `iface` was stored in is `iface` or was there before. -/
theorem of_mem_store {iface stored : AttachedInterface (Entry κ Station)}
    (h : iface ∈ (m.store stored).attachedIfaces) :
    iface = stored ∨ iface ∈ m.attachedIfaces := by
  rw [IfaceManager.store] at h
  simp only at h
  split at h
  · exact mem_replace h
  · rcases List.mem_append.mp h with h | h
    · exact .inr h
    · exact .inl (List.mem_singleton.mp h)

/-- An entry is stored that mentions the station and those that were mentioned before. -/
theorem MentionsOnly.store {m' : IfaceManager (Entry κ Station) β}
    {stored : AttachedInterface (Entry κ Station)}
    (hifaces : m'.attachedIfaces = (m.store stored).attachedIfaces)
    (hmentions : ∀ other, stored.Mentions other → m.Mentions other ∨ other = ipsta)
    (hclients : ClientsNodup m → stored.attachedClients.Nodup) : MentionsOnly m m' ipsta := by
  constructor
  · rintro other ⟨iface, hmem, hother⟩
    rw [hifaces] at hmem
    rcases of_mem_store hmem with rfl | hmem
    · exact hmentions other hother
    · exact .inl ⟨iface, hmem, hother⟩
  · intro hbefore iface hmem
    rw [hifaces] at hmem
    rcases of_mem_store hmem with rfl | hmem
    · exact hclients hbefore
    · exact hbefore iface hmem

theorem attachTo_mentions (hreg : RegistersOnly init.manApis) (cmdW : CmdWork) (ifname : IfName)
    (data : List UInt8) (dataSize : Nat) :
    MentionsOnly m (attachTo w init m cmdW ifname data dataSize).2.1 cmdW.ipsta := by
  have hiface : ∀ {iface : AttachedInterface (Entry κ Station)},
      (m.find ifname).getD ⟨ifname, 0, [], [], false⟩ = iface →
      (∀ other, iface.Mentions other → m.Mentions other) ∧
        (ClientsNodup m → iface.attachedClients.Nodup) := by
    rintro iface rfl
    cases hfind : m.find ifname with
    | none =>
      refine ⟨fun other h => ?_, fun _ => List.nodup_nil⟩
      rcases h with h | ⟨_, h, _⟩ <;> cases h
    | some iface =>
      have hmem := List.mem_of_find?_eq_some hfind
      exact ⟨fun other h => ⟨iface, hmem, h⟩, fun hclients => hclients iface hmem⟩
  rw [attachTo]
  generalize (m.find ifname).getD ⟨ifname, 0, [], [], false⟩ = iface at hiface
  obtain ⟨hmentions, hclients⟩ := hiface rfl
  have hattached : ∀ other ∈ iface.attachedClients.erase cmdW.ipsta ++ [cmdW.ipsta],
      m.Mentions other ∨ other = cmdW.ipsta := by
    intro other h
    rcases List.mem_append.mp h with h | h
    · exact .inl (hmentions other (.inl (List.mem_of_mem_erase h)))
    · exact .inr (List.mem_singleton.mp h)
  have hnodup : ClientsNodup m →
      (iface.attachedClients.erase cmdW.ipsta ++ [cmdW.ipsta]).Nodup := by
    intro h
    have hold := hclients h
    rw [List.nodup_append_comm]
    exact List.nodup_cons.mpr ⟨hold.not_mem_erase, hold.erase _⟩
  simp only
  split_ifs
  · exact .same rfl
  all_goals
    refine .store rfl (fun other h => ?_) hnodup
    rcases h with h | h
    · exact hattached other h
    · first
        | exact (hreg.register _ _ _ _ _ h).imp_left fun h => hmentions other (.inr h)
        | exact .inl (hmentions other (.inr h))

theorem updateEventsOf_mentions (hreg : RegistersOnly init.manApis) (cmdW : CmdWork)
    (ifname : IfName) (data : List UInt8) (dataSize : Nat) :
    MentionsOnly m (updateEventsOf w init m cmdW ifname data dataSize).2.1 cmdW.ipsta := by
  rw [updateEventsOf]
  cases hfind : m.find ifname with
  | none => exact .same rfl
  | some iface =>
    have hmem := List.mem_of_find?_eq_some hfind
    have hevents : ∀ other, Enrolled iface.events other → m.Mentions other := fun other h =>
      ⟨iface, hmem, .inr h⟩
    have hrest : ∀ other, Enrolled (init.manApis.unregisterStaFromEvents iface.events
        cmdW.ipsta).2 other → m.Mentions other := fun other h =>
      hevents other (hreg.unregister _ _ _ h).1
    simp only
    split_ifs
    all_goals
      refine .store rfl (fun other h => ?_) fun hclients => hclients iface hmem
      rcases h with h | h
      · exact .inl ⟨iface, hmem, .inl h⟩
      · first
          | exact .inl (hevents other h)
          | exact .inl (hrest other h)
          | exact (hreg.register _ _ _ _ _ h).imp_left (hrest other)

theorem withIfname_mentions (cmdW : CmdWork)
    {rest : CmdWork → IfName → List UInt8 → Nat →
      Nat × IfaceManager (Entry κ Station) β × List Sent}
    (hrest : ∀ ifname data dataSize,
      MentionsOnly m (rest cmdW ifname data dataSize).2.1 cmdW.ipsta) :
    MentionsOnly m (withIfname w m cmdW rest).2.1 cmdW.ipsta := by
  rw [withIfname]
  split
  · exact .same rfl
  · split_ifs
    · exact .same rfl
    · exact hrest _ _ _

/-- A detach mentions nobody anew. -/
theorem ifaceDetachWork_mentions (hreg : RegistersOnly init.manApis) (detachW : DetachWork)
    (ipsta : Station) : MentionsOnly m (ifaceDetachWork w init m detachW).2.1 ipsta := by
  have hfind : IfaceManager.find { m with
      delayedDetach := m.delayedDetach.filter (· ≠ detachW.ifname) } detachW.ifname =
        m.find detachW.ifname := rfl
  simp only [ifaceDetachWork, hfind]
  cases hiface : m.find detachW.ifname with
  | none => cases detachW.ipsta <;> exact .same rfl
  | some iface =>
    have hmem := List.mem_of_find?_eq_some hiface
    cases detachW.ipsta with
    | some sta =>
      have hmentions : ∀ other,
          (other ∈ iface.attachedClients.erase sta ∨
            Enrolled (init.manApis.unregisterStaFromEvents iface.events sta).2 other) →
          m.Mentions other ∨ other = ipsta := by
        rintro other (h | h)
        · exact .inl ⟨iface, hmem, .inl (List.mem_of_mem_erase h)⟩
        · exact .inl ⟨iface, hmem, .inr (hreg.unregister _ _ _ h).1⟩
      simp only
      split_ifs
      all_goals exact .store rfl hmentions fun hclients => (hclients iface hmem).erase sta
    | none =>
      simp only
      split_ifs
      · constructor
        · rintro other ⟨iface', hmem', hother⟩
          exact .inl ⟨iface', List.mem_of_mem_eraseP hmem', hother⟩
        · exact fun hclients iface' hmem' => hclients iface' (List.mem_of_mem_eraseP hmem')
      · exact .same rfl

/-- After the loss of a station nothing mentions it any more. -/
theorem staDisconnectWork_mentions (hreg : RegistersOnly init.manApis) (hclients : ClientsNodup m)
    (h : (staDisconnectWork init m ipsta).2.1.Mentions other) : m.Mentions other ∧
    other ≠ ipsta := by
  obtain ⟨iface', hmem, hother⟩ := h
  obtain ⟨iface, hiface, rfl⟩ := List.mem_map.mp hmem
  rcases hother with hother | hother
  · obtain ⟨hne, hold⟩ := (hclients iface hiface).mem_erase_iff.mp hother
    exact ⟨⟨iface, hiface, .inl hold⟩, hne⟩
  · obtain ⟨hold, hne⟩ := hreg.unregister _ _ _ hother
    exact ⟨⟨iface, hiface, .inr hold⟩, hne⟩

theorem staDisconnectWork_clients (hclients : ClientsNodup m) :
    ClientsNodup (staDisconnectWork init m ipsta).2.1 := by
  intro iface' hmem
  obtain ⟨iface, hiface, rfl⟩ := List.mem_map.mp hmem
  exact (hclients iface hiface).erase ipsta

theorem workFunc_mentions (hreg : RegistersOnly init.manApis) (hclients : ClientsNodup m)
    {work : Work} (hipsta : work.ipsta = some ipsta) :
    MentionsOnly m (workFunc w init m work).2.1 ipsta := by
  cases work with
  | cmd cmdW =>
    rw [workFunc, executeCmdWork]
    split <;> exact .same rfl
  | attach cmdW =>
    cases hipsta
    exact withIfname_mentions cmdW fun ifname data dataSize =>
      attachTo_mentions hreg cmdW ifname data dataSize
  | updateEvent cmdW =>
    cases hipsta
    exact withIfname_mentions cmdW fun ifname data dataSize =>
      updateEventsOf_mentions hreg cmdW ifname data dataSize
  | detach detachW => exact ifaceDetachWork_mentions hreg detachW ipsta
  | disconn sta =>
    exact ⟨fun other h => .inl (staDisconnectWork_mentions hreg hclients h).1,
      fun _ => staDisconnectWork_clients hclients⟩

/-- What a work leaves behind in a manager. -/
theorem workFunc_own (hreg : RegistersOnly init.manApis) (hclients : ClientsNodup m) (w : World)
    (work : Work) :
    (∀ sta, (workFunc w init m work).2.1.Mentions sta → m.Mentions sta ∨ work.ipsta = some sta) ∧
      (∀ sta, work = .disconn sta → ¬ (workFunc w init m work).2.1.Mentions sta) ∧
      ClientsNodup (workFunc w init m work).2.1 := by
  refine ⟨fun sta hmentions => ?_, ?_, ?_⟩
  · cases hfor : work.ipsta with
    | some ipsta =>
      rw [Option.some.injEq, eq_comm]
      exact (workFunc_mentions hreg hclients hfor).mentions sta hmentions
    | none =>
      -- a work for nobody is for no other station
      cases work with
      | detach detachW =>
        refine .inl (((ifaceDetachWork_mentions hreg detachW (sta + 1)).mentions sta
          hmentions).resolve_right (Nat.ne_of_lt (Nat.lt_succ_self sta)))
      | cmd _ | attach _ | updateEvent _ | disconn _ => cases hfor
  · rintro sta rfl hmentions
    exact (staDisconnectWork_mentions hreg hclients hmentions).2 rfl
  · cases hfor : work.ipsta with
    | some ipsta => exact (workFunc_mentions hreg hclients hfor).clients hclients
    | none =>
      cases work with
      | detach detachW => exact (ifaceDetachWork_mentions hreg detachW 0).clients hclients
      | cmd _ | attach _ | updateEvent _ | disconn _ => cases hfor

theorem attachSeeds_kept {static static' : β}
    {seeds ifaces : List (AttachedInterface (Entry κ Station))}
    (h : attachSeeds w init static seeds = some (static', ifaces)) :
    ifaces.map (fun iface => (iface.attachedClients, iface.events)) =
      seeds.map fun iface => (iface.attachedClients, iface.events) := by
  induction seeds generalizing static static' ifaces with
  | nil =>
    cases h
    rfl
  | cons iface seeds ih =>
    simp only [attachSeeds] at h
    rw [Option.ite_none_left_eq_some] at h
    obtain ⟨⟨_, rest⟩, hrest, hpair⟩ := Option.map_eq_some_iff.mp h.2
    cases hpair
    rw [List.map_cons, List.map_cons, ih hrest]

/-- The interfaces that a manager starts with have no clients, and nobody is registered. -/
theorem ifaceManagerInit_empty {static : β} {seedIfaces : List IfName}
    (h : ifaceManagerInit w init static seedIfaces = some m) :
    ∀ iface ∈ m.attachedIfaces, iface.attachedClients = [] ∧ iface.events = [] := by
  obtain ⟨⟨static', ifaces⟩, hseeds, hm⟩ := Option.map_eq_some_iff.mp h
  cases hm
  intro iface hmem
  have hpair := List.mem_map_of_mem
    (f := fun iface : AttachedInterface (Entry κ Station) => (iface.attachedClients, iface.events))
    hmem
  rw [attachSeeds_kept hseeds, List.map_map] at hpair
  obtain ⟨_, -, heq⟩ := List.mem_map.mp hpair
  exact Prod.mk.inj heq.symm

theorem ifaceManagerInit_unmentioned {static : β} {seedIfaces : List IfName}
    (h : ifaceManagerInit w init static seedIfaces = some m) :
    (∀ ipsta, ¬ m.Mentions ipsta) ∧ ClientsNodup m := by
  have hempty := ifaceManagerInit_empty h
  constructor
  · rintro ipsta ⟨iface, hmem, hmentions⟩
    obtain ⟨hclients, hevents⟩ := hempty iface hmem
    rcases hmentions with hclient | ⟨entry, hentry, -⟩
    · rw [hclients] at hclient
      cases hclient
    · rw [hevents] at hentry
      cases hentry
  · intro iface hmem
    rw [(hempty iface hmem).1]
    exact .nil

end Works

end Dwpal.Daemon
