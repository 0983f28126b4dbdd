import Dwpal.Daemon.Events
import Dwpal.Daemon.Mentions
import Mathlib.Data.List.Forall2

/-! The registrations that the managers keep over every run of their works, the works of events
included, and the stations that `hostap_send_event` and `nl_send_drv_event` send an event to. -/

namespace Dwpal.Daemon

open Registry Ipc Machine

/-- The event is sent to the stations that are entered under the first key that `hit` accepts. -/
def sendToRegistered {κ : Type} (hit : κ → Bool) (event : WvIpcMsg)
    (events : List (Entry κ Station)) : List Sent :=
  (membersOf hit events).map fun ipsta => ⟨ipsta, event⟩

/-- `hostap_send_event`: what it sends, and the state of the interface. The client generates the
event `INTERFACE_CONNECTED_OK` itself. -/
def hostapSendEvent (event : WvIpcMsg) (info : HostapExtraInfo) (events : List HostapEvent)
    (state : UInt8) : List Sent × UInt8 :=
  let sent := sendToRegistered (fun tmp => strncmpEq info.opCode tmp.bytes 64) event events
  if strncmpEq info.opCode (ascii "INTERFACE_RECONNECTED_OK") 24 then
    (sent, interfaceDwpalStateConnected)
  else if strncmpEq info.opCode (ascii "INTERFACE_DISCONNECTED") 22 then
    (sent, interfaceDwpalStateDisconnected)
  else if strncmpEq info.opCode (ascii "INTERFACE_CONNECTED_OK") 22 then
    ([], interfaceDwpalStateConnected)
  else (sent, state)

/-- `nl_send_drv_event`; `info` points to the id of the event. -/
def nlSendDrvEvent (event : WvIpcMsg) (nlId : UInt32) (events : List DrvEvent) (state : UInt8) :
    List Sent × UInt8 :=
  (sendToRegistered (fun tmp => tmp == nlId) event events, state)

/-- `send_event` of `manager_apis`, for a module that adds an `ι` to its events. -/
abbrev SendEvent (ε ι : Type) := WvIpcMsg → ι → List ε → UInt8 → List Sent × UInt8

/-- `send_event_work`. An event without information goes to all clients of the interface. -/
def sendEventWork {ε β ι : Type} (sendEvent : SendEvent ε ι) (m : IfaceManager ε β)
    (event : WvIpcMsg) (ifname : IfName) (info : Option ι) : IfaceManager ε β × List Sent :=
  match m.find ifname with
  | none => (m, [])
  | some iface =>
    match info with
    | none => (m, iface.attachedClients.map fun ipsta => ⟨ipsta, event⟩)
    | some info =>
      let (sent, state) := sendEvent event info iface.events iface.state
      (m.store { iface with state }, sent)

/-- What the serializer of a manager executes, the works of events included. -/
inductive EventedAction (ι : Type) where
  | manager (action : ManagerAction)
  | event (event : WvIpcMsg) (ifname : IfName) (info : Option ι)

/-- The manager after the serializer has executed a work. -/
def IfaceManager.eventedStep {ε β ι : Type} (init : ManagerInit ε β) (sendEvent : SendEvent ε ι)
    (m : IfaceManager ε β) : EventedAction ι → Option (IfaceManager ε β)
  | .manager action => m.step init action
  | .event event ifname info => some (sendEventWork sendEvent m event ifname info).1

/-! Invariants of the interfaces of a manager. -/

section Every

variable {ε β ι : Type} {w : World} {init : ManagerInit ε β} {sendEvent : SendEvent ε ι}
  {m m' : IfaceManager ε β}

/-- Every interface of the manager meets `P`, with its events and its clients. -/
def Every (P : List ε → List Station → Prop) (m : IfaceManager ε β) : Prop :=
  ∀ iface ∈ m.attachedIfaces, P iface.events iface.attachedClients

/-- What the works do to the events and the clients of an interface keeps `P`, the update of the
events if it meets `allowed`. -/
structure Keeps (manApis : ManagerApis ε β)
    (allowed : List Station → Station → List UInt8 → Nat → Prop)
    (P : List ε → List Station → Prop) : Prop where
  new : P [] []
  attach : ∀ {events clients}, P events clients → ∀ ipsta data dataSize,
    P (if dataSize ≠ 0 then manApis.registerStaToEvents events ipsta data dataSize
      else (0, events)).2 (clients.erase ipsta ++ [ipsta])
  update : ∀ {events clients}, P events clients → ∀ ipsta data dataSize,
    dataSize ≠ 0 → allowed clients ipsta data dataSize →
    P (manApis.registerStaToEvents (manApis.unregisterStaFromEvents events ipsta).2 ipsta data
      dataSize).2 clients
  detach : ∀ {events clients}, P events clients → ∀ ipsta,
    P (manApis.unregisterStaFromEvents events ipsta).2 (clients.erase ipsta)
  unregister_ret : ∀ events ipsta, (manApis.unregisterStaFromEvents events ipsta).1 = 0

variable {P : List ε → List Station → Prop}
  {allowed : List Station → Station → List UInt8 → Nat → Prop}

theorem Every.store (h : Every P m) {iface : AttachedInterface ε}
    (hifaces : m'.attachedIfaces = (m.store iface).attachedIfaces)
    (hiface : P iface.events iface.attachedClients) : Every P m' := by
  intro other hmem
  rw [hifaces, IfaceManager.store] at hmem
  simp only at hmem
  split at hmem
  · rcases mem_replace hmem with rfl | hmem
    · exact hiface
    · exact h other hmem
  · rcases List.mem_append.mp hmem with hmem | hmem
    · exact h other hmem
    · rw [List.mem_singleton.mp hmem]
      exact hiface

theorem Every.same (h : Every P m) (hifaces : m'.attachedIfaces = m.attachedIfaces) :
    Every P m' := fun iface hmem => h iface (hifaces ▸ hmem)

theorem Keeps.attachTo (hkeeps : Keeps init.manApis allowed P) (h : Every P m) (cmdW : CmdWork)
    (ifname : IfName) (data : List UInt8) (dataSize : Nat) :
    Every P (Daemon.attachTo w init m cmdW ifname data dataSize).2.1 := by
  have hiface : ∀ {iface : AttachedInterface ε},
      (m.find ifname).getD ⟨ifname, 0, [], [], false⟩ = iface →
      P iface.events iface.attachedClients := by
    rintro iface rfl
    cases hfind : m.find ifname with
    | none => exact hkeeps.new
    | some iface => exact h iface (List.mem_of_find?_eq_some hfind)
  rw [Daemon.attachTo]
  generalize (m.find ifname).getD ⟨ifname, 0, [], [], false⟩ = iface at hiface
  have hattached := hkeeps.attach (hiface rfl) cmdW.ipsta data dataSize
  simp only
  split_ifs at hattached ⊢
  · exact h.same rfl
  · exact h.same rfl
  all_goals exact h.store rfl hattached

theorem Every.withIfname (h : Every P m) (cmdW : CmdWork)
    {rest : CmdWork → IfName → List UInt8 → Nat → Nat × IfaceManager ε β × List Sent}
    (hrest : ∀ ifname data dataSize, Every P (rest cmdW ifname data dataSize).2.1) :
    Every P (Daemon.withIfname w m cmdW rest).2.1 := by
  rw [Daemon.withIfname]
  split
  · exact h
  · split_ifs
    · exact h
    · exact hrest _ _ _

/-- The update that an update-event work makes is allowed, if it makes one. -/
def UpdateAllowed (allowed : List Station → Station → List UInt8 → Nat → Prop) (w : World)
    (m : IfaceManager ε β) (cmdW : CmdWork) : Prop :=
  ∀ data iface, waveIpcMsgGetData cmdW.cmd = some data → 17 < waveIpcMsgGetSize cmdW.cmd →
    m.find (CString.copyFrom data 16 ifName_pos) = some iface →
    allowed iface.attachedClients cmdW.ipsta ((data ++ w.beyond).drop 17)
      (waveIpcMsgGetSize cmdW.cmd - 17)

theorem Keeps.updateEventsOf (hkeeps : Keeps init.manApis allowed P) (h : Every P m)
    (cmdW : CmdWork) (ifname : IfName) (data : List UInt8) (dataSize : Nat)
    (hallowed : ∀ iface, m.find ifname = some iface → dataSize ≠ 0 →
      allowed iface.attachedClients cmdW.ipsta data dataSize) :
    Every P (Daemon.updateEventsOf w init m cmdW ifname data dataSize).2.1 := by
  rw [Daemon.updateEventsOf]
  cases hfind : m.find ifname with
  | none => exact h
  | some iface =>
    have hiface := h iface (List.mem_of_find?_eq_some hfind)
    have hret := hkeeps.unregister_ret iface.events cmdW.ipsta
    simp only [hret, ne_eq, not_true_eq_false, if_false]
    by_cases hsize : dataSize = 0
    · simp only [hsize, if_true, not_true_eq_false, if_false]
      exact h.store rfl hiface
    · have hupdated := hkeeps.update hiface cmdW.ipsta data dataSize hsize
        (hallowed iface hfind hsize)
      simp only [hsize, if_false]
      split_ifs
      all_goals exact h.store rfl hupdated

theorem Keeps.ifaceUpdateEventWork (hkeeps : Keeps init.manApis allowed P) (h : Every P m)
    (cmdW : CmdWork) (hallowed : UpdateAllowed allowed w m cmdW) :
    Every P (Daemon.ifaceUpdateEventWork w init m cmdW).2.1 := by
  rw [Daemon.ifaceUpdateEventWork, Daemon.withIfname]
  cases hdata : waveIpcMsgGetData cmdW.cmd with
  | none => exact h
  | some data =>
    simp only
    split_ifs with hsize
    · exact h
    · refine hkeeps.updateEventsOf h cmdW _ _ _ fun iface hfind hne => ?_
      exact hallowed data iface hdata (by omega) hfind

theorem Keeps.ifaceDetachWork (hkeeps : Keeps init.manApis allowed P) (h : Every P m)
    (detachW : DetachWork) : Every P (Daemon.ifaceDetachWork w init m detachW).2.1 := by
  have hfind : IfaceManager.find { m with
      delayedDetach := m.delayedDetach.filter (· ≠ detachW.ifname) } detachW.ifname =
        m.find detachW.ifname := rfl
  simp only [Daemon.ifaceDetachWork, hfind]
  cases hiface : m.find detachW.ifname with
  | none => cases detachW.ipsta <;> exact h.same rfl
  | some iface =>
    have hP := h iface (List.mem_of_find?_eq_some hiface)
    cases detachW.ipsta with
    | some ipsta =>
      have hdetached := hkeeps.detach hP ipsta
      simp only
      split_ifs
      all_goals exact h.store rfl hdetached
    | none =>
      simp only
      split_ifs
      · exact fun other hmem => h other (List.mem_of_mem_eraseP hmem)
      · exact h.same rfl

theorem Keeps.staDisconnectWork (hkeeps : Keeps init.manApis allowed P) (h : Every P m)
    (ipsta : Station) : Every P (Daemon.staDisconnectWork init m ipsta).2.1 := by
  intro iface' hmem
  obtain ⟨iface, hiface, rfl⟩ := List.mem_map.mp hmem
  exact hkeeps.detach (h iface hiface) ipsta

/-- A step that updates the events of an interface is allowed to. -/
def StepAllowed (allowed : List Station → Station → List UInt8 → Nat → Prop)
    (m : IfaceManager ε β) : EventedAction ι → Prop
  | .manager (.submitted w (.updateEvent cmdW)) => UpdateAllowed allowed w m cmdW
  | _ => True

theorem Keeps.workFunc (hkeeps : Keeps init.manApis allowed P) (h : Every P m) (work : Work)
    (hallowed : ∀ cmdW, work = .updateEvent cmdW → UpdateAllowed allowed w m cmdW) :
    Every P (Daemon.workFunc w init m work).2.1 := by
  cases work with
  | cmd cmdW =>
    rw [Daemon.workFunc, executeCmdWork]
    split <;> exact h
  | attach cmdW => exact .withIfname h cmdW (hkeeps.attachTo h cmdW)
  | detach detachW => exact hkeeps.ifaceDetachWork h detachW
  | disconn ipsta => exact hkeeps.staDisconnectWork h ipsta
  | updateEvent cmdW => exact hkeeps.ifaceUpdateEventWork h cmdW (hallowed cmdW rfl)

theorem Every.sendEventWork (h : Every P m) (event : WvIpcMsg) (ifname : IfName)
    (info : Option ι) : Every P (Daemon.sendEventWork sendEvent m event ifname info).1 := by
  rw [Daemon.sendEventWork]
  cases hfind : m.find ifname with
  | none => exact h
  | some iface =>
    cases info with
    | none => exact h
    | some info => exact h.store rfl (h iface (List.mem_of_find?_eq_some hfind))

theorem Keeps.step (hkeeps : Keeps init.manApis allowed P) (h : Every P m)
    {action : EventedAction ι} (hallowed : StepAllowed allowed m action)
    (hstep : m.eventedStep init sendEvent action = some m') : Every P m' := by
  cases action with
  | event event ifname info =>
    obtain rfl := Option.some.inj hstep
    exact h.sendEventWork event ifname info
  | manager action =>
    cases action with
    | delayed w ifname =>
      simp only [IfaceManager.eventedStep, IfaceManager.step] at hstep
      rw [Option.ite_none_right_eq_some] at hstep
      obtain rfl := Option.some.inj hstep.2
      have hm : Every P { m with delayedDetach := m.delayedDetach.erase ifname } := h.same rfl
      exact hkeeps.workFunc hm (.detach ⟨ifname, 0, none⟩) fun _ hwork => by cases hwork
    | submitted w work =>
      have hstep : (Daemon.workFunc w init m work).2.1 = m' := by
        cases work with
        | detach detachW =>
          obtain ⟨ifname, seqNum, ipsta⟩ := detachW
          cases ipsta with
          | none => cases hstep
          | some ipsta => exact Option.some.inj hstep
        | cmd _ | attach _ | disconn _ | updateEvent _ => exact Option.some.inj hstep
      subst hstep
      refine hkeeps.workFunc h work fun cmdW hwork => ?_
      subst hwork
      exact hallowed

theorem Keeps.run (hkeeps : Keeps init.manApis allowed P) (h : Every P m)
    {actions : List (EventedAction ι)}
    (hallowed : Along (IfaceManager.eventedStep init sendEvent) (StepAllowed allowed) m actions)
    (hrun : exec (IfaceManager.eventedStep init sendEvent) m actions = some m') : Every P m' :=
  exec_along (fun h hallowed hstep => hkeeps.step h hallowed hstep) h hallowed hrun

end Every

/-! The registries are tidy. -/

theorem tidy_registerOpCode {events : List HostapEvent} (h : Tidy events) (ipsta : Station)
    {opCode : List UInt8} (h0 : 0 ∉ opCode) (hlen : opCode.length < 64) :
    Tidy (hostapRegisterStaToEvent events ipsta opCode) :=
  h.register (strncmpEq_key h0 hlen) ipsta

section Walk

variable {P : List HostapEvent → Prop} {ipsta : Station} {events : List HostapEvent}

/-- What each registration of a station to an op_code keeps, the walk keeps. -/
theorem hostapWalk_keeps
    (hP : ∀ {events : List HostapEvent} {opCode : List UInt8}, 0 ∉ opCode → opCode.length < 64 →
      P events → P (hostapRegisterStaToEvent events ipsta opCode))
    (fuel : Nat) :
    ∀ {left : Nat} {regStr : List UInt8} {events : List HostapEvent}
      {intfFlags : List (List UInt8 × Bool)}, P events →
      P (hostapRegisterWalk ipsta fuel left regStr events intfFlags).2.1 := by
  induction fuel with
  | zero => exact fun h => h
  | succ fuel ih =>
    intro left regStr events intfFlags h
    rw [hostapRegisterWalk]
    dsimp only
    split_ifs with hend hlong
    · exact h
    · exact h
    · have htake : (cstr ((regStr.drop 1).take (regStr.headD 0).toNat)).length ≤ _ :=
        (List.takeWhile_prefix _).length_le
      rw [List.length_take] at htake
      exact ih (hP (cstr_zero_notMem _) (by omega) h)

theorem forceIntfEvents_keeps
    (hP : ∀ {events : List HostapEvent} {opCode : List UInt8}, 0 ∉ opCode → opCode.length < 64 →
      P events → P (hostapRegisterStaToEvent events ipsta opCode)) :
    ∀ {intfFlags : List (List UInt8 × Bool)} {events : List HostapEvent},
      (∀ name ∈ intfFlags.map Prod.fst, 0 ∉ name ∧ name.length < 64) →
      P events → P (forceIntfEvents ipsta events intfFlags) := by
  intro intfFlags
  induction intfFlags with
  | nil => exact fun _ h => h
  | cons flag intfFlags ih =>
    intro events hnames h
    rw [List.map_cons, List.forall_mem_cons] at hnames
    refine ih hnames.2 ?_
    dsimp only
    split
    · exact h
    · exact hP hnames.1.1 hnames.1.2 h

theorem setIntfFlag_fst (opCode : List UInt8) : ∀ intfFlags : List (List UInt8 × Bool),
    (setIntfFlag opCode intfFlags).map Prod.fst = intfFlags.map Prod.fst
  | [] => rfl
  | (name, flag) :: intfFlags => by
    rw [setIntfFlag]
    split
    · rfl
    · rw [List.map_cons, List.map_cons, setIntfFlag_fst opCode intfFlags]

/-- The walk keeps the names of the flags. -/
theorem hostapWalk_fst (ipsta : Station) (fuel : Nat) :
    ∀ {left : Nat} {regStr : List UInt8} {events : List HostapEvent}
      {intfFlags : List (List UInt8 × Bool)},
      (hostapRegisterWalk ipsta fuel left regStr events intfFlags).2.2.map Prod.fst =
        intfFlags.map Prod.fst := by
  induction fuel with
  | zero => exact rfl
  | succ fuel ih =>
    intro left regStr events intfFlags
    rw [hostapRegisterWalk]
    dsimp only
    split_ifs
    · rfl
    · rfl
    · rw [ih, setIntfFlag_fst]

theorem hostapRegister_keeps (hP : ∀ {events : List HostapEvent} {opCode : List UInt8}, 0 ∉ opCode →
      opCode.length < 64 → P events → P (hostapRegisterStaToEvent events ipsta opCode))
    (h : P events) (regStr : List UInt8) (len : Nat) :
    P (hostapRegisterStaToEvents events ipsta regStr len).2 := by
  have hwalk := @hostapWalk_keeps P ipsta hP len len regStr events
    (gIntfEvents.map fun name => (name, false)) h
  have hnames := @hostapWalk_fst ipsta len len regStr events
    (gIntfEvents.map fun name => (name, false))
  rw [hostapRegisterStaToEvents]
  generalize hostapRegisterWalk ipsta len len regStr events
    (gIntfEvents.map fun name => (name, false)) = walked at hwalk hnames
  obtain ⟨ret, walked, intfFlags⟩ := walked
  cases ret with
  | zero =>
    refine forceIntfEvents_keeps hP (fun name hname => ?_) hwalk
    rw [hnames, List.map_map] at hname
    have hintf : name ∈ gIntfEvents := by simpa using hname
    exact ⟨zero_notMem_gIntfEvents name hintf, length_gIntfEvents name hintf⟩
  | succ ret => exact hwalk

end Walk

/-- What each registration of a station to an id keeps, the registration to several ids keeps. -/
theorem nlRegister_keeps {P : List DrvEvent → Prop} {ipsta : Station}
    (hP : ∀ {events : List DrvEvent} {nlId : UInt32}, P events →
      P (nlManagerRegisterStaToDrvEvent events ipsta nlId))
    {events : List DrvEvent} (h : P events) (regStr : List UInt8) (len : Nat) :
    P (nlRegisterStaToEvents events ipsta regStr len).2 := by
  rw [nlRegisterStaToEvents]
  split_ifs
  · exact h
  · exact h
  · exact List.foldlRecOn _ _ h fun _ h nlId _ => hP h

/-- The functions of a module keep its registries tidy, and unregister a station from all events. -/
structure KeepsTidy {κ β : Type} (manApis : ManagerApis (Entry κ Station) β) : Prop where
  register : ∀ {events}, Tidy events → ∀ ipsta regStr len,
    Tidy (manApis.registerStaToEvents events ipsta regStr len).2
  unregister : ∀ events ipsta,
    manApis.unregisterStaFromEvents events ipsta = (0, withdrawAll ipsta events)

theorem hostapManApis_keepsTidy : KeepsTidy hostapManApis :=
  ⟨fun h ipsta => hostapRegister_keeps (fun h0 hlen h => tidy_registerOpCode h ipsta h0 hlen) h,
    fun _ _ => rfl⟩

theorem nlManApis_keepsTidy : KeepsTidy nlManApis :=
  ⟨fun h ipsta => nlRegister_keeps (fun h => h.register (fun _ => beq_iff_eq) ipsta) h,
    fun _ _ => rfl⟩

theorem KeepsTidy.keeps {κ β : Type} {manApis : ManagerApis (Entry κ Station) β}
    (h : KeepsTidy manApis) : Keeps manApis (fun _ _ _ _ => True) fun events _ => Tidy events where
  new := .nil
  attach hevents ipsta data dataSize := by
    split_ifs
    · exact h.register hevents ipsta data dataSize
    · exact hevents
  update hevents ipsta data dataSize _ _ := by
    rw [h.unregister]
    exact h.register (hevents.withdrawAll ipsta) ipsta data dataSize
  detach hevents ipsta := by
    rw [h.unregister]
    exact hevents.withdrawAll ipsta
  unregister_ret events ipsta := by rw [h.unregister]

/-! What holds of the registries in every run. -/

/-- What the request of a station registers: whether it is accepted, and the keys that it then asks
for. -/
structure Registration (κ : Type) where
  accepted : List UInt8 → Nat → Prop
  asksFor : List UInt8 → Nat → κ → Prop

section Lawful

variable {κ β ι : Type} {init : ManagerInit (Entry κ Station) β}
  {sendEvent : SendEvent (Entry κ Station) ι} {registration : Registration κ} {forwarded : ι → Prop}
  {carries : ι → κ → Prop}

/-- `events'` is `events` without the registrations of the station. -/
def Unregistered (ipsta : Station) (events events' : List (Entry κ Station)) : Prop :=
  ∀ key other, Member events' key other ↔ Member events key other ∧ other ≠ ipsta

/-- A registration succeeds just when the request is accepted, and the station is then registered to
what it asks for besides what it was registered to; nobody else notices. -/
structure RegistersStation (manApis : ManagerApis (Entry κ Station) β)
    (registration : Registration κ) (events : List (Entry κ Station)) : Prop where
  ret : ∀ ipsta regStr len, (manApis.registerStaToEvents events ipsta regStr len).1 = 0 ↔
    registration.accepted regStr len
  own : ∀ ipsta regStr len, (manApis.registerStaToEvents events ipsta regStr len).1 = 0 →
    ∀ key, Member (manApis.registerStaToEvents events ipsta regStr len).2 key ipsta ↔
      Member events key ipsta ∨ registration.asksFor regStr len key
  others : ∀ ipsta regStr len key other, other ≠ ipsta →
    (Member (manApis.registerStaToEvents events ipsta regStr len).2 key other ↔
      Member events key other)

/-- An event is sent once to each station that is registered to a key that it carries, if it is
forwarded, and to nobody else. -/
def SendsToRegistered (sendEvent : SendEvent (Entry κ Station) ι) (forwarded : ι → Prop)
    (carries : ι → κ → Prop) (events : List (Entry κ Station)) : Prop :=
  ∀ event info state, let sent := (sendEvent event info events state).1
    (∀ x ∈ sent, x.msg = event) ∧ (sent.map Sent.ipsta).Nodup ∧
      ∀ ipsta, ipsta ∈ sent.map Sent.ipsta ↔
        forwarded info ∧ ∃ key, carries info key ∧ Member events key ipsta

/-- The registry of an interface: one entry for each key, in which there is a station, and none
twice; a station that registers is in the entries that it asks for, and one that unregisters is gone
from all entries; and events go to those who are registered. -/
structure RegistryLawful (init : ManagerInit (Entry κ Station) β)
    (sendEvent : SendEvent (Entry κ Station) ι) (registration : Registration κ)
    (forwarded : ι → Prop) (carries : ι → κ → Prop) (events : List (Entry κ Station)) : Prop where
  keys : (events.map Entry.key).Nodup
  entries : ∀ entry ∈ events, entry.members.Nodup ∧ entry.members ≠ []
  register : RegistersStation init.manApis registration events
  unregister : ∀ ipsta,
    Unregistered ipsta events (init.manApis.unregisterStaFromEvents events ipsta).2
  send : SendsToRegistered sendEvent forwarded carries events

/-- The loss of a station takes its registrations from every interface. -/
def DisconnectUnregisters (init : ManagerInit (Entry κ Station) β)
    (m : IfaceManager (Entry κ Station) β) : Prop :=
  ∀ ipsta, List.Forall₂ (fun iface iface' => iface'.ifname = iface.ifname ∧
      Unregistered ipsta iface.events iface'.events)
    m.attachedIfaces (staDisconnectWork init m ipsta).2.1.attachedIfaces

/-- What is asked of the registries in every run from `m0`. -/
def RegistriesLawful (init : ManagerInit (Entry κ Station) β)
    (sendEvent : SendEvent (Entry κ Station) ι) (registration : Registration κ)
    (forwarded : ι → Prop) (carries : ι → κ → Prop)
    (m0 : IfaceManager (Entry κ Station) β) : Prop :=
  ∀ actions m, exec (IfaceManager.eventedStep init sendEvent) m0 actions = some m →
    (∀ iface ∈ m.attachedIfaces,
      RegistryLawful init sendEvent registration forwarded carries iface.events) ∧
      DisconnectUnregisters init m

theorem KeepsTidy.registriesLawful (htidy : KeepsTidy init.manApis)
    (hregister : ∀ events, RegistersStation init.manApis registration events)
    (hsend : ∀ events, Tidy events → SendsToRegistered sendEvent forwarded carries events)
    {w : World} {static : β} {seedIfaces : List IfName} {m0 : IfaceManager (Entry κ Station) β}
    (hinit : ifaceManagerInit w init static seedIfaces = some m0) :
    RegistriesLawful init sendEvent registration forwarded carries m0 := by
  have hunregister : ∀ events ipsta,
      Unregistered ipsta events (init.manApis.unregisterStaFromEvents events ipsta).2 := by
    intro events ipsta key other
    rw [htidy.unregister]
    exact member_withdrawAll
  intro actions m hrun
  have hstart : Every (fun events _ => Tidy events) m0 := by
    intro iface hmem
    rw [(ifaceManagerInit_empty hinit iface hmem).2]
    exact .nil
  have hevery : Every (fun events _ => Tidy events) m := by
    refine htidy.keeps.run hstart (along_of_forall (fun m action => ?_) m0 actions) hrun
    rcases action with (⟨w, work⟩ | ⟨w, ifname⟩) | ⟨event, ifname, info⟩
    · cases work
      case updateEvent => exact fun _ _ _ _ _ => trivial
      all_goals trivial
    · trivial
    · trivial
  constructor
  · intro iface hmem
    have hevents := hevery iface hmem
    exact ⟨hevents.keys, fun entry hentry => ⟨entry.nodup, hevents.members entry hentry⟩,
      hregister iface.events, hunregister iface.events, hsend iface.events hevents⟩
  · intro ipsta
    refine List.forall₂_map_right_iff.mpr (List.forall₂_same.mpr fun iface _ => ?_)
    exact ⟨rfl, hunregister iface.events ipsta⟩

end Lawful

/-- The other stations do not notice. -/
def OthersSame (ipsta : Station) {κ : Type} (events events' : List (Entry κ Station)) : Prop :=
  ∀ key other, other ≠ ipsta → (Member events' key other ↔ Member events key other)

theorem OthersSame.register {κ : Type} {ipsta : Station} {hit : κ → Bool} {k : κ}
    {events events' : List (Entry κ Station)} (hhit : ∀ k', hit k' = true ↔ k' = k)
    (h : OthersSame ipsta events events') :
    OthersSame ipsta events (Registry.register hit k ipsta events') := by
  intro key other hne
  rw [member_register hhit, ← h key other hne]
  exact or_iff_left fun hboth => hne hboth.2

/-- `hostap_register_sta_to_events` accepts op_codes that are short enough. It registers the station
to them, and to the interface events that they do not suppress. -/
def hostapRegistration : Registration (CString 64) where
  accepted regStr len := ∀ l ∈ (Frames.scan len len regStr).map Prod.fst, l.toNat < 64
  asksFor regStr len key :=
    key.bytes ∈ requested regStr len ∨ key.bytes ∈ forced (requested regStr len)

theorem member_iff_opCodesOf {events : List HostapEvent} {key : CString 64} {ipsta : Station} :
    Member events key ipsta ↔ key.bytes ∈ opCodesOf events ipsta := by
  constructor
  · exact fun h => ⟨key, rfl, h⟩
  · rintro ⟨key', hbytes, h⟩
    rwa [← CString.ext hbytes]

theorem hostapRegistersStation (events : List HostapEvent) :
    RegistersStation hostapManApis hostapRegistration events := by
  have hret : ∀ ipsta regStr len, (hostapRegisterStaToEvents events ipsta regStr len).1 = 0 ↔
      hostapRegistration.accepted regStr len := fun ipsta regStr len =>
    ⟨fun hret => by_contra fun hlens => hostapRegisterStaToEvents_fails hlens events ipsta hret,
      fun hlens => (hostapRegisterStaToEvents_spec hlens events ipsta).1⟩
  refine ⟨hret, fun ipsta regStr len hok key => ?_, fun ipsta regStr len => ?_⟩
  · have hspec := (hostapRegisterStaToEvents_spec ((hret ipsta regStr len).mp hok) events ipsta).2
    rw [member_iff_opCodesOf, member_iff_opCodesOf, hostapRegistration, ← or_assoc]
    exact Set.ext_iff.mp hspec key.bytes
  · exact hostapRegister_keeps (P := OthersSame ipsta events)
      (fun h0 hlen h => h.register (strncmpEq_key h0 hlen)) (fun _ _ _ => Iff.rfl) regStr len

/-- `nl_register_sta_to_events` accepts one id or more, and registers the station to them. -/
def nlRegistration : Registration UInt32 where
  accepted _ len := len ≠ 0 ∧ len % 4 = 0
  asksFor regStr len key := key ∈ nlIds regStr (len / 4)

theorem member_foldl_register {ipsta : Station} {key : UInt32} (ids : List UInt32) :
    ∀ {events : List DrvEvent},
      Member (ids.foldl (fun events nlId =>
        nlManagerRegisterStaToDrvEvent events ipsta nlId) events)
        key ipsta ↔ Member events key ipsta ∨ key ∈ ids := by
  induction ids with
  | nil => exact fun {events} => (or_iff_left List.not_mem_nil).symm
  | cons nlId ids ih =>
    intro events
    rw [List.foldl_cons, ih, nlManagerRegisterStaToDrvEvent, member_register fun _ => beq_iff_eq,
      and_iff_left rfl, List.mem_cons, or_assoc]

theorem nlRegistersStation (events : List DrvEvent) :
    RegistersStation nlManApis nlRegistration events := by
  have hret : ∀ ipsta regStr len, (nlRegisterStaToEvents events ipsta regStr len).1 = 0 ↔
      nlRegistration.accepted regStr len := fun ipsta regStr len => by
    rw [nlRegisterStaToEvents, nlRegistration]
    split_ifs with hzero halign
    · exact iff_of_false False.elim fun h => h.1 hzero
    · exact iff_of_false False.elim fun h => halign h.2
    · exact iff_of_true rfl ⟨hzero, not_not.mp halign⟩
  refine ⟨hret, fun ipsta regStr len hok key => ?_, fun ipsta regStr len => ?_⟩
  · obtain ⟨hzero, halign⟩ := (hret ipsta regStr len).mp hok
    change Member (nlRegisterStaToEvents events ipsta regStr len).2 key ipsta ↔ _
    rw [nlRegisterStaToEvents, if_neg hzero, if_neg (not_not_intro halign), member_foldl_register]
    rfl
  · exact nlRegister_keeps (P := OthersSame ipsta events)
      (fun h => h.register fun _ => beq_iff_eq) (fun _ _ _ => Iff.rfl) regStr len

theorem sendToRegistered_spec {κ : Type} {hit : κ → Bool} {carried : κ → Prop}
    (hhit : ∀ key, hit key = true ↔ carried key)
    (hone : ∀ key key', carried key → carried key' → key = key')
    {events : List (Entry κ Station)} (h : Tidy events) (event : WvIpcMsg) :
    (∀ x ∈ sendToRegistered hit event events, x.msg = event) ∧
      ((sendToRegistered hit event events).map Sent.ipsta).Nodup ∧
      ∀ ipsta, ipsta ∈ (sendToRegistered hit event events).map Sent.ipsta ↔
        ∃ key, carried key ∧ Member events key ipsta := by
  have hipsta : (sendToRegistered hit event events).map Sent.ipsta = membersOf hit events := by
    rw [sendToRegistered, List.map_map]
    exact List.map_id' _
  refine ⟨fun x hx => ?_, ?_, fun ipsta => ?_⟩
  · obtain ⟨ipsta, -, rfl⟩ := List.mem_map.mp hx
    rfl
  · rw [hipsta]
    exact nodup_membersOf hit events
  · rw [hipsta, mem_membersOf (fun k k' hk hk' => hone k k' ((hhit k).mp hk) ((hhit k').mp hk')) h]
    simp only [hhit]

/-- `hostap_send_event` forwards the event. -/
def HostapForwarded (info : HostapExtraInfo) : Prop :=
  ¬ StartsWith (cstr info.opCode) (ascii "INTERFACE_CONNECTED_OK")

/-- The op_code of the event is the key. -/
def HostapCarries (info : HostapExtraInfo) (key : CString 64) : Prop := key.bytes = cstr info.opCode

theorem hostapCarries_iff (info : HostapExtraInfo) (key : CString 64) :
    strncmpEq info.opCode key.bytes 64 = true ↔ HostapCarries info key := by
  rw [strncmpEq_iff, CString.cstr_bytes, CString.take_bytes, HostapCarries]
  constructor
  · intro h
    have hlen := congrArg List.length h
    have hlt := key.length_lt
    rw [List.length_take] at hlen
    rw [← h, List.take_of_length_le (by omega)]
  · intro h
    rw [← h, CString.take_bytes]

theorem hostapSendEvent_spec (events : List HostapEvent) (h : Tidy events) :
    SendsToRegistered hostapSendEvent HostapForwarded HostapCarries events := by
  intro event info state
  have hname : ∀ name ∈ gIntfEvents, strncmpEq info.opCode name name.length = true ↔
      StartsWith (cstr info.opCode) name := by
    intro name hname
    rw [← strncmpEq_name (cstr_zero_notMem info.opCode) (zero_notMem_gIntfEvents name hname),
      strncmpEq, strncmpEq, cstr_cstr]
  obtain ⟨hmsg, hnodup, hmem⟩ := sendToRegistered_spec (hostapCarries_iff info)
    (fun key key' hkey hkey' => CString.ext (hkey.trans hkey'.symm)) h event
  have hreconnected := hname (ascii "INTERFACE_RECONNECTED_OK") (by decide)
  have hdisconnected := hname (ascii "INTERFACE_DISCONNECTED") (by decide)
  have hconnected := hname (ascii "INTERFACE_CONNECTED_OK") (by decide)
  rw [show (ascii "INTERFACE_RECONNECTED_OK").length = 24 from rfl] at hreconnected
  rw [show (ascii "INTERFACE_DISCONNECTED").length = 22 from rfl] at hdisconnected
  rw [show (ascii "INTERFACE_CONNECTED_OK").length = 22 from rfl] at hconnected
  -- the name that is not forwarded begins like none of the others
  have hforwarded : ∀ {name : List UInt8}, StartsWith (cstr info.opCode) name →
      ¬ name <+: ascii "INTERFACE_CONNECTED_OK" → ¬ ascii "INTERFACE_CONNECTED_OK" <+: name →
      HostapForwarded info := fun hstarts hpre hpre' hnot =>
    (List.prefix_or_prefix_of_prefix hstarts hnot).elim hpre hpre'
  rw [hostapSendEvent]
  by_cases hre : StartsWith (cstr info.opCode) (ascii "INTERFACE_RECONNECTED_OK")
  · have hforward := hforwarded hre (by decide) (by decide)
    simp only [if_pos (hreconnected.mpr hre), hforward, true_and]
    exact ⟨hmsg, hnodup, hmem⟩
  by_cases hdis : StartsWith (cstr info.opCode) (ascii "INTERFACE_DISCONNECTED")
  · have hforward := hforwarded hdis (by decide) (by decide)
    simp only [if_neg (mt hreconnected.mp hre), if_pos (hdisconnected.mpr hdis), hforward, true_and]
    exact ⟨hmsg, hnodup, hmem⟩
  simp only [if_neg (mt hreconnected.mp hre), if_neg (mt hdisconnected.mp hdis)]
  by_cases hcon : StartsWith (cstr info.opCode) (ascii "INTERFACE_CONNECTED_OK")
  · simp [if_pos (hconnected.mpr hcon), HostapForwarded, hcon]
  · have hforward : HostapForwarded info := hcon
    simp only [if_neg (mt hconnected.mp hcon), hforward, true_and]
    exact ⟨hmsg, hnodup, hmem⟩

theorem nlSendDrvEvent_spec (events : List DrvEvent) (h : Tidy events) :
    SendsToRegistered nlSendDrvEvent (fun _ => True) (fun nlId key => key = nlId) events := by
  intro event nlId state
  simp only [nlSendDrvEvent, true_and]
  exact sendToRegistered_spec (fun _ => beq_iff_eq)
    (fun key key' hkey hkey' => hkey.trans hkey'.symm) h event

/-- A request for the event `AP-ENABLED` of `wlan0`. -/
private def apEnabledOf (ipsta : Station) : CmdWork where
  cmd := (waveIpcMsgFillData (waveIpcMsgAlloc (Buffer.fill waveIpcBuffSize 0))
    (some (ascii "wlan0" ++ List.replicate 12 0 ++ 10 :: ascii "AP-ENABLED")) 28).2
  seqNum := 0
  ipsta := ipsta

/-- The event `AP-ENABLED`, and the stations that get it. -/
private def apEnabledTo (m : IfaceManager HostapEvent Unit) : List Station :=
  (sendEventWork hostapSendEvent m (waveIpcMsgAlloc (Buffer.fill waveIpcBuffSize 0)) wlan0
    (some ⟨11, 0, ascii "AP-ENABLED" ++ [0], []⟩)).2.map Sent.ipsta

end Dwpal.Daemon
