import Dwpal.Daemon.FinalReply
import Dwpal.Daemon.Mentions
import Dwpal.Ipc.Output
import Dwpal.Serializer.Model

/-! The references to the stations while the daemon runs: the thread of `wave_ipcs_run` takes and
drops them as stations come, send commands and go, and the two serializers drop those of the works
that they have executed. The lists of the managers hold none. Allocations succeed. -/

namespace Dwpal.Daemon

open Machine Ipc

/-- Where the server's thread is with a station: in `wave_ipcs_accept_new_client`, in
`iface_manager_sta_cmd_async`, or in the removal of the station. `disconnecting` and `cleaning` are
before the reference and before the submission of `iface_manager_sta_disconnected`, `dropping` and
`leaving` before the references of the station db and of the server are dropped. -/
inductive ServerStage where
  | accepted
  | adding
  | added
  | commanded (ifType : IfType) (work : Work)
  | submitting (ifType : IfType) (work : Work)
  | removing
  | disconnecting (ifType : IfType)
  | cleaning (ifType : IfType)
  | dropping
  | leaving
  | left

/-- The managers, the references and who may hold them: the stations of the server, `stadb`, and the
works, which are in a list, with the thread of the serializer, or executed and not freed yet. -/
structure StationRefs where
  dwpald : Dwpald
  created : Nat
  refcnt : Station → Int
  stations : List Station
  staList : List Station
  server : Option (Station × ServerStage)
  workList : IfType → List Work
  taken : IfType → Option Work
  executed : IfType → Option Work

/-- The server's thread accepts a station, handles a message, removes a station or goes on; a
serializer takes a work, executes it, frees it, or executes a delayed one. -/
inductive RefsAction where
  | accept
  | message (ipsta : Station) (msg : WvIpcMsg)
  | remove (ipsta : Station)
  | advance
  | take (ifType : IfType)
  | exec (w : World) (ifType : IfType)
  | free (ifType : IfType)
  | delayed (w : World) (ifType : IfType) (ifname : IfName)

namespace Dwpald

def Mentions (d : Dwpald) : IfType → Station → Prop
  | .hostap => d.hapMan.Mentions
  | .kernel => d.nlMan.Mentions

/-- The serializer of a manager executes a delayed detach. -/
def execDelayed (w : World) (d : Dwpald) (ifname : IfName) : IfType → Option Dwpald
  | .hostap => (d.hapMan.step hapInit (.delayed w ifname)).map fun hapMan => { d with hapMan }
  | .kernel => (d.nlMan.step nlInit (.delayed w ifname)).map fun nlMan => { d with nlMan }

end Dwpald

namespace StationRefs

/-- The daemon before the first station connects. -/
def start (d : Dwpald) : StationRefs where
  dwpald := d
  created := 0
  refcnt _ := 0
  stations := []
  staList := []
  server := none
  workList _ := []
  taken _ := none
  executed _ := none

/-- `wave_ipcs_sta_incref`. -/
def incref (s : StationRefs) (ipsta : Station) : StationRefs :=
  { s with refcnt := Function.update s.refcnt ipsta (s.refcnt ipsta + 1) }

/-- `wave_ipcs_sta_decref`. -/
def decref (s : StationRefs) (ipsta : Station) : StationRefs :=
  { s with refcnt := Function.update s.refcnt ipsta (s.refcnt ipsta - 1) }

/-- `serializer_exec_work_async`, when there is room. -/
def submit (s : StationRefs) (ifType : IfType) (work : Work) : StationRefs :=
  { s with workList := Function.update s.workList ifType (s.workList ifType ++ [work]) }

def serverAt (s : StationRefs) (server : Option (Station × ServerStage)) : StationRefs :=
  { s with server := server }

def hasRoom (s : StationRefs) (ifType : IfType) : Bool :=
  (s.workList ifType).length < Serializer.asyncWorkListMaxSize

/-- The server's thread goes on with `ipsta`. While a list has no room, it tries again. -/
def advance (s : StationRefs) (ipsta : Station) : ServerStage → Option StationRefs
  | .accepted => some ((s.incref ipsta).serverAt (some (ipsta, .adding)))
  | .adding =>
    some { s with staList := ipsta :: s.staList, server := some (ipsta, .added) }
  | .added => some ((s.incref ipsta).serverAt none)
  | .commanded ifType work =>
    some ((s.incref ipsta).serverAt (some (ipsta, .submitting ifType work)))
  | .submitting ifType work =>
    if s.hasRoom ifType then some ((s.submit ifType work).serverAt none) else none
  | .removing =>
    if ipsta ∈ s.staList then
      some { s with
        staList := s.staList.erase ipsta
        server := some (ipsta, .disconnecting .hostap) }
    else some (s.serverAt (some (ipsta, .leaving)))
  | .disconnecting ifType =>
    some ((s.incref ipsta).serverAt (some (ipsta, .cleaning ifType)))
  | .cleaning ifType =>
    let next := match ifType with
      | .hostap => .disconnecting .kernel
      | .kernel => .dropping
    if s.hasRoom ifType then
      some ((s.submit ifType (.disconn ipsta)).serverAt (some (ipsta, next)))
    else none
  | .dropping => some ((s.decref ipsta).serverAt (some (ipsta, .leaving)))
  | .leaving => some ((s.decref ipsta).serverAt (some (ipsta, .left)))
  | .left => some { s with stations := s.stations.erase ipsta, server := none }

/-- The `free_func` of a work. -/
def freeWork (s : StationRefs) (work : Work) : StationRefs :=
  match work.ipsta with
  | some ipsta => s.decref ipsta
  | none => s

theorem freeWork_eq (s : StationRefs) (work : Work) : s.freeWork work =
    { s with refcnt := fun sta => s.refcnt sta - if work.ipsta = some sta then 1 else 0 } := by
  rw [freeWork]
  cases work.ipsta with
  | none => simp
  | some ipsta =>
    refine congrArg (fun refcnt => { s with refcnt }) (funext fun sta => ?_)
    by_cases hsta : sta = ipsta
    · rw [hsta, Function.update_self, if_pos rfl]
    · rw [Function.update_of_ne hsta, if_neg fun h => hsta (Option.some.inj h).symm, Int.sub_zero]

def step (s : StationRefs) : RefsAction → Option StationRefs
  | .accept =>
    if s.server.isNone ∧ s.stations.length < ipcClientArrSize then
      some { s with
        created := s.created + 1
        stations := s.created :: s.stations
        server := some (s.created, .accepted) }
    else none
  | .message ipsta msg =>
    if s.server.isNone ∧ ipsta ∈ s.stations then
      match waveIpcsHandleStationMsg ipsta msg with
      | .work ifType work => some (s.serverAt (some (ipsta, .commanded ifType work)))
      | .disconnect => some (s.serverAt (some (ipsta, .removing)))
      | .refused _ | .response => some s
    else none
  | .remove ipsta =>
    if s.server.isNone ∧ ipsta ∈ s.stations then
      some (s.serverAt (some (ipsta, .removing)))
    else none
  | .advance => s.server.bind fun (ipsta, stage) => s.advance ipsta stage
  | .take ifType =>
    match s.workList ifType with
    | work :: rest =>
      if (s.taken ifType).isNone ∧ (s.executed ifType).isNone then
        some { s with
          workList := Function.update s.workList ifType rest
          taken := Function.update s.taken ifType (some work) }
      else none
    | [] => none
  | .exec w ifType => (s.taken ifType).map fun work => { s with
      dwpald := (s.dwpald.execWork w ifType work).1
      taken := Function.update s.taken ifType none
      executed := Function.update s.executed ifType (some work) }
  | .free ifType => (s.executed ifType).map fun work =>
      { s with executed := Function.update s.executed ifType none }.freeWork work
  | .delayed w ifType ifname =>
    if s.workList ifType = [] ∧ (s.taken ifType).isNone ∧ (s.executed ifType).isNone then
      (s.dwpald.execDelayed w ifname ifType).map fun dwpald => { s with dwpald }
    else none

/-- A station that is attached to an interface or registered to an event, in the station db, or what
a work is for. -/
def Mentioned (s : StationRefs) (ipsta : Station) : Prop :=
  (∃ ifType, s.dwpald.Mentions ifType ipsta) ∨ ipsta ∈ s.staList ∨
    ∃ ifType, ∃ work ∈ s.workList ifType ++ (s.taken ifType).toList ++ (s.executed ifType).toList,
      work.ipsta = some ipsta

end StationRefs

namespace ServerStage

/-- The references that the server's thread answers for. -/
def refs : ServerStage → Int
  | .accepted | .left => 0
  | .adding | .added | .leaving => 1
  | .commanded _ _ | .removing | .disconnecting _ | .dropping => 2
  | .submitting _ _ | .cleaning _ => 3

/-- The station is in the station db. -/
def listed : ServerStage → Bool
  | .added | .commanded _ _ | .submitting _ _ | .removing => true
  | _ => false

/-- The manager is still to be told when the station goes. -/
def due (ifType : IfType) : ServerStage → Bool
  | .accepted | .dropping | .leaving | .left => false
  | .disconnecting next | .cleaning next => next = .hostap ∨ ifType = .kernel
  | _ => true

/-- A work that is to be submitted is for the station, and is none that cleans up after it. -/
def WorkOf (ipsta : Station) : ServerStage → Prop
  | .commanded _ work | .submitting _ work => work.ipsta = some ipsta ∧ work ≠ .disconn ipsta
  | _ => True

/-- Where the server's thread is with `ipsta`. -/
def at? (ipsta : Station) : Option (Station × ServerStage) → Option ServerStage
  | some (current, stage) => if current = ipsta then some stage else none
  | none => none

def refsAt (server : Option (Station × ServerStage)) (ipsta : Station) : Int :=
  ((at? ipsta server).map refs).getD 2

def listedAt (server : Option (Station × ServerStage)) (ipsta : Station) : Bool :=
  ((at? ipsta server).map listed).getD true

def dueAt (server : Option (Station × ServerStage)) (ifType : IfType) (ipsta : Station) : Bool :=
  ((at? ipsta server).map (due ifType)).getD true

@[simp] theorem at?_self (ipsta : Station) (stage : ServerStage) :
    at? ipsta (some (ipsta, stage)) = some stage := if_pos rfl

theorem at?_of_ne {ipsta current : Station} (hne : ipsta ≠ current) (stage : ServerStage) :
    at? ipsta (some (current, stage)) = none := if_neg (Ne.symm hne)

@[simp] theorem at?_none (ipsta : Station) : at? ipsta none = none := rfl

@[simp] theorem refsAt_self (ipsta : Station) (stage : ServerStage) :
    refsAt (some (ipsta, stage)) ipsta = stage.refs := by rw [refsAt, at?_self]; rfl

@[simp] theorem listedAt_self (ipsta : Station) (stage : ServerStage) :
    listedAt (some (ipsta, stage)) ipsta = stage.listed := by rw [listedAt, at?_self]; rfl

@[simp] theorem dueAt_self (ipsta : Station) (stage : ServerStage) (ifType : IfType) :
    dueAt (some (ipsta, stage)) ifType ipsta = stage.due ifType := by rw [dueAt, at?_self]; rfl

@[simp] theorem refsAt_none (ipsta : Station) : refsAt none ipsta = 2 := rfl

@[simp] theorem listedAt_none (ipsta : Station) : listedAt none ipsta = true := rfl

@[simp] theorem dueAt_none (ifType : IfType) (ipsta : Station) :
    dueAt none ifType ipsta = true := rfl

theorem refs_nonneg (stage : ServerStage) : 0 ≤ stage.refs := by
  cases stage <;> simp [refs]

theorem refsAt_nonneg (server : Option (Station × ServerStage)) (ipsta : Station) :
    0 ≤ refsAt server ipsta := by
  rw [refsAt]
  cases at? ipsta server with
  | none => decide
  | some stage => exact stage.refs_nonneg

theorem refsAt_of_listed {server : Option (Station × ServerStage)} {ipsta : Station}
    (h : listedAt server ipsta = true) : 0 < refsAt server ipsta := by
  rw [listedAt] at h
  rw [refsAt]
  cases hstage : at? ipsta server with
  | none => decide
  | some stage =>
    rw [hstage] at h
    cases stage <;> simp_all [refs, listed]

theorem refsAt_of_due {server : Option (Station × ServerStage)} {ifType : IfType}
    {ipsta : Station} (h : dueAt server ifType ipsta = true) : 0 < refsAt server ipsta := by
  rw [dueAt] at h
  rw [refsAt]
  cases hstage : at? ipsta server with
  | none => decide
  | some stage =>
    rw [hstage] at h
    cases stage <;> simp_all [refs, due]

end ServerStage

/-- A command becomes a work for its station, and never the one that cleans up after it. -/
theorem handleStationMsg_work {ipsta : Station} {msg : WvIpcMsg} {ifType : IfType} {work : Work}
    (h : waveIpcsHandleStationMsg ipsta msg = .work ifType work) :
    work.ipsta = some ipsta ∧ work ≠ .disconn ipsta := by
  have hfor : ∃ seqNum, work.ForCommand ipsta seqNum := by
    rw [waveIpcsHandleStationMsg] at h
    split at h
    · cases h
    · cases h
    · split_ifs at h
      split at h
      · cases h
        exact ⟨_, dwpaldCmdAsync_forCommand ‹_›⟩
      · cases h
  obtain ⟨seqNum, hfor⟩ := hfor
  cases work with
  | cmd _ | attach _ | updateEvent _ => exact ⟨congrArg some hfor.1, fun h => by cases h⟩
  | detach _ => exact ⟨hfor.1, fun h => by cases h⟩
  | disconn _ => exact hfor.elim

/-- Every work for a station, but the one that cleans up after it, has that one behind it, unless it
is due to come. -/
def Covered (due : Station → Prop) : List Work → Prop
  | [] => True
  | work :: rest => (∀ ipsta, work.ipsta = some ipsta → work ≠ .disconn ipsta →
      due ipsta ∨ .disconn ipsta ∈ rest) ∧ Covered due rest

/-- The works for the station. -/
def worksFor (ipsta : Station) (works : List Work) : Nat :=
  works.countP fun work => work.ipsta = some ipsta

namespace Covered

variable {due due' : Station → Prop} {works : List Work}

theorem mono (hdue : ∀ ipsta, due ipsta → due' ipsta) :
    ∀ {works : List Work}, Covered due works → Covered due' works
  | [], _ => trivial
  | _ :: _, h => ⟨fun ipsta hwork hne => (h.1 ipsta hwork hne).imp_left (hdue ipsta), h.2.mono hdue⟩

/-- What is not due any more after a submission is what was submitted. -/
theorem submit {work : Work} (hdue : ∀ ipsta, due ipsta → due' ipsta ∨ work = .disconn ipsta)
    (hwork : ∀ ipsta, work.ipsta = some ipsta → work ≠ .disconn ipsta → due' ipsta) :
    ∀ {works : List Work}, Covered due works → Covered due' (works ++ [work])
  | [], _ => ⟨fun ipsta hipsta hne => .inl (hwork ipsta hipsta hne), trivial⟩
  | _ :: rest, h => by
    refine ⟨fun ipsta hipsta hne => ?_, h.2.submit hdue hwork⟩
    rcases h.1 ipsta hipsta hne with hfirst | hrest
    · refine (hdue ipsta hfirst).imp_right fun hdisconn => ?_
      exact List.mem_append_right _ (hdisconn ▸ List.mem_singleton_self _)
    · exact .inr (List.mem_append_left _ hrest)

end Covered

namespace StationRefs

open ServerStage

/-- The works that a serializer has yet to execute. -/
def pending (s : StationRefs) (ifType : IfType) : List Work :=
  (s.taken ifType).toList ++ s.workList ifType

/-- All works of a serializer. -/
def works (s : StationRefs) (ifType : IfType) : List Work :=
  s.pending ifType ++ (s.executed ifType).toList

/-- When the station goes, the manager is still to be told. -/
def Due (s : StationRefs) (ifType : IfType) (ipsta : Station) : Prop :=
  ipsta ∈ s.stations ∧ dueAt s.server ifType ipsta = true

/-- The references that should be there. -/
def owed (s : StationRefs) (ipsta : Station) : Int :=
  worksFor ipsta (s.works .hostap) + worksFor ipsta (s.works .kernel) +
    if ipsta ∈ s.stations then refsAt s.server ipsta else 0

theorem serverRefs_nonneg (s : StationRefs) (ipsta : Station) :
    0 ≤ if ipsta ∈ s.stations then refsAt s.server ipsta else 0 := by
  split
  · exact refsAt_nonneg _ _
  · exact Int.le_refl 0

end StationRefs

open ServerStage

/-- A station that a manager mentions goes only behind the work that cleans up after it. -/
structure RefsInv (s : StationRefs) : Prop where
  ledger : ∀ ipsta, s.refcnt ipsta = s.owed ipsta
  fresh : ∀ ipsta, s.created ≤ ipsta → s.refcnt ipsta = 0
  known : ∀ ipsta ∈ s.stations, ipsta < s.created
  slots : s.stations.Nodup
  about : ∀ ipsta stage, s.server = some (ipsta, stage) → ipsta ∈ s.stations ∧ stage.WorkOf ipsta
  nodup : s.staList.Nodup
  listed : ∀ ipsta, ipsta ∈ s.staList ↔ ipsta ∈ s.stations ∧ listedAt s.server ipsta = true
  oneWork : ∀ ifType, s.taken ifType ≠ none → s.executed ifType = none
  mentioned : ∀ ifType ipsta, s.dwpald.Mentions ifType ipsta →
    s.Due ifType ipsta ∨ .disconn ipsta ∈ s.pending ifType
  covered : ∀ ifType, Covered (s.Due ifType) (s.pending ifType)
  clients : ClientsNodup s.dwpald.hapMan ∧ ClientsNodup s.dwpald.nlMan

theorem worksFor_append (ipsta : Station) (works more : List Work) :
    worksFor ipsta (works ++ more) = worksFor ipsta works + worksFor ipsta more :=
  List.countP_append

theorem worksFor_pos {ipsta : Station} {work : Work} {works : List Work}
    (hipsta : work.ipsta = some ipsta) (hmem : work ∈ works) : 0 < worksFor ipsta works :=
  List.countP_pos_iff.mpr ⟨work, hmem, by simpa using hipsta⟩

namespace Dwpald

variable {d d' : Dwpald}

theorem execWork_own (hclients : ClientsNodup d.hapMan ∧ ClientsNodup d.nlMan) (w : World)
    (ifType : IfType) (work : Work) :
    (∀ t sta, (d.execWork w ifType work).1.Mentions t sta →
      d.Mentions t sta ∨ t = ifType ∧ work.ipsta = some sta) ∧
      (∀ sta, work = .disconn sta → ¬ (d.execWork w ifType work).1.Mentions ifType sta) ∧
      ClientsNodup (d.execWork w ifType work).1.hapMan ∧
      ClientsNodup (d.execWork w ifType work).1.nlMan := by
  cases ifType with
  | hostap =>
    obtain ⟨hmentions, hcleaned, hnodup⟩ :=
      workFunc_own (show RegistersOnly hapInit.manApis from hostapManApis_registersOnly)
        hclients.1 w work
    refine ⟨fun t sta h => ?_, hcleaned, hnodup, hclients.2⟩
    cases t with
    | hostap => exact (hmentions sta h).imp_right fun hfor => ⟨rfl, hfor⟩
    | kernel => exact .inl h
  | kernel =>
    obtain ⟨hmentions, hcleaned, hnodup⟩ :=
      workFunc_own (show RegistersOnly nlInit.manApis from nlManApis_registersOnly)
        hclients.2 w work
    refine ⟨fun t sta h => ?_, hcleaned, hclients.1, hnodup⟩
    cases t with
    | hostap => exact .inl h
    | kernel => exact (hmentions sta h).imp_right fun hfor => ⟨rfl, hfor⟩

/-- A delayed detach is for nobody. -/
theorem execDelayed_own (hclients : ClientsNodup d.hapMan ∧ ClientsNodup d.nlMan) {w : World}
    {ifname : IfName} {ifType : IfType} (h : d.execDelayed w ifname ifType = some d') :
    (∀ t sta, d'.Mentions t sta → d.Mentions t sta) ∧
      ClientsNodup d'.hapMan ∧ ClientsNodup d'.nlMan := by
  cases ifType with
  | hostap =>
    obtain ⟨hapMan, hstep, rfl⟩ := Option.map_eq_some_iff.mp h
    obtain ⟨-, hstep⟩ := Option.ite_none_right_eq_some.mp hstep
    obtain rfl := Option.some.inj hstep
    obtain ⟨hmentions, -, hnodup⟩ :=
      workFunc_own (m := { d.hapMan with delayedDetach := d.hapMan.delayedDetach.erase ifname })
        (show RegistersOnly hapInit.manApis from hostapManApis_registersOnly) hclients.1 w
        (.detach ⟨ifname, 0, none⟩)
    refine ⟨fun t sta h => ?_, hnodup, hclients.2⟩
    cases t with
    | hostap => exact (hmentions sta h).resolve_right nofun
    | kernel => exact h
  | kernel =>
    obtain ⟨nlMan, hstep, rfl⟩ := Option.map_eq_some_iff.mp h
    obtain ⟨-, hstep⟩ := Option.ite_none_right_eq_some.mp hstep
    obtain rfl := Option.some.inj hstep
    obtain ⟨hmentions, -, hnodup⟩ :=
      workFunc_own (m := { d.nlMan with delayedDetach := d.nlMan.delayedDetach.erase ifname })
        (show RegistersOnly nlInit.manApis from nlManApis_registersOnly) hclients.2 w
        (.detach ⟨ifname, 0, none⟩)
    refine ⟨fun t sta h => ?_, hclients.1, hnodup⟩
    cases t with
    | hostap => exact h
    | kernel => exact (hmentions sta h).resolve_right nofun

end Dwpald

namespace RefsInv

variable {s s' : StationRefs} {ipsta : Station}

theorem start {d : Dwpald} (hnone : ∀ ifType ipsta, ¬ d.Mentions ifType ipsta)
    (hclients : ClientsNodup d.hapMan ∧ ClientsNodup d.nlMan) : RefsInv (.start d) where
  ledger _ := rfl
  fresh _ _ := rfl
  known _ h := by cases h
  slots := .nil
  about _ _ h := by cases h
  nodup := .nil
  listed _ := by simp [StationRefs.start]
  oneWork _ _ := rfl
  mentioned ifType ipsta h := absurd h (hnone ifType ipsta)
  covered _ := trivial
  clients := hclients

theorem refcnt_nonneg (h : RefsInv s) (ipsta : Station) : 0 ≤ s.refcnt ipsta := by
  have hserver := s.serverRefs_nonneg ipsta
  rw [h.ledger, StationRefs.owed]
  omega

theorem owed_pos (h : RefsInv s) (ifType : IfType)
    (howed : ipsta ∈ s.stations ∧ 0 < refsAt s.server ipsta ∨
      0 < worksFor ipsta (s.works ifType)) : 0 < s.refcnt ipsta := by
  have hserver := s.serverRefs_nonneg ipsta
  rw [h.ledger, StationRefs.owed]
  rcases howed with ⟨hmem, hpos⟩ | hpos
  · rw [if_pos hmem] at hserver ⊢
    omega
  · cases ifType <;> omega

/-- Every station that is mentioned has a reference. -/
theorem positive (h : RefsInv s) (hmentioned : s.Mentioned ipsta) : 0 < s.refcnt ipsta := by
  rcases hmentioned with ⟨ifType, hlists⟩ | hlist | ⟨ifType, work, hwork, hipsta⟩
  · rcases h.mentioned ifType ipsta hlists with hdue | hpending
    · exact h.owed_pos ifType (.inl ⟨hdue.1, refsAt_of_due hdue.2⟩)
    · exact h.owed_pos ifType (.inr (worksFor_pos rfl (List.mem_append_left _ hpending)))
  · obtain ⟨hmem, hlisted⟩ := (h.listed ipsta).mp hlist
    exact h.owed_pos .hostap (.inl ⟨hmem, refsAt_of_listed hlisted⟩)
  · refine h.owed_pos ifType (.inr (worksFor_pos hipsta ?_))
    simp only [StationRefs.works, StationRefs.pending, List.mem_append] at hwork ⊢
    tauto

theorem owed_of_works (hworks : ∀ ifType, s'.works ifType = s.works ifType) (ipsta : Station) :
    s'.owed ipsta = worksFor ipsta (s.works .hostap) + worksFor ipsta (s.works .kernel) +
      if ipsta ∈ s'.stations then refsAt s'.server ipsta else 0 := by
  rw [StationRefs.owed, hworks, hworks]

/-- The server's thread goes on with a station and does not touch the works. -/
theorem goOn (h : RefsInv s) (hipsta : ipsta ∈ s.stations) (hdwpald : s'.dwpald = s.dwpald)
    (hcreated : s'.created = s.created) (hstations : s'.stations = s.stations)
    (htaken : s'.taken = s.taken) (hworkList : s'.workList = s.workList)
    (hexecuted : s'.executed = s.executed)
    (hothers : ∀ other ≠ ipsta, s'.refcnt other = s.refcnt other ∧
      at? other s'.server = at? other s.server)
    (hrefs : s'.refcnt ipsta + refsAt s.server ipsta = s.refcnt ipsta + refsAt s'.server ipsta)
    (hdue : ∀ ifType, dueAt s.server ifType ipsta = true → dueAt s'.server ifType ipsta = true)
    (hlist : s'.staList.Nodup ∧ ∀ other, other ∈ s'.staList ↔
      other ∈ s.stations ∧ listedAt s'.server other = true)
    (habout : ∀ current stage, s'.server = some (current, stage) →
      current = ipsta ∧ stage.WorkOf ipsta) : RefsInv s' := by
  have hpending : ∀ ifType, s'.pending ifType = s.pending ifType := fun ifType => by
    rw [StationRefs.pending, htaken, hworkList, StationRefs.pending]
  have hworks : ∀ ifType, s'.works ifType = s.works ifType := fun ifType => by
    rw [StationRefs.works, hpending, hexecuted, StationRefs.works]
  have hdue' : ∀ ifType other, s.Due ifType other → s'.Due ifType other := by
    rintro ifType other ⟨hmem, hother⟩
    refine ⟨hstations ▸ hmem, ?_⟩
    by_cases heq : other = ipsta
    · rw [heq] at hother ⊢
      exact hdue ifType hother
    · rwa [dueAt, (hothers other heq).2]
  refine ⟨fun other => ?_, fun other hge => ?_, ?_, hstations ▸ h.slots, ?_, hlist.1, ?_,
    ?_, ?_, ?_, hdwpald ▸ h.clients⟩
  · have hledger := h.ledger other
    rw [owed_of_works hworks, hstations]
    rw [StationRefs.owed] at hledger
    by_cases heq : other = ipsta
    · rw [heq, if_pos hipsta] at hledger ⊢
      omega
    · rw [refsAt, (hothers other heq).2, (hothers other heq).1]
      exact hledger
  · rw [hcreated] at hge
    have hne : other ≠ ipsta := fun heq =>
      absurd (h.known ipsta hipsta) (Nat.not_lt.mpr (heq ▸ hge))
    rw [(hothers other hne).1]
    exact h.fresh other hge
  · rw [hstations, hcreated]
    exact h.known
  · intro current stage hserver
    obtain ⟨rfl, hwork⟩ := habout current stage hserver
    exact ⟨hstations ▸ hipsta, hwork⟩
  · rw [hstations]
    exact hlist.2
  · rw [htaken, hexecuted]
    exact h.oneWork
  · intro ifType other hmentions
    rw [hdwpald] at hmentions
    rw [hpending]
    exact (h.mentioned ifType other hmentions).imp_left (hdue' ifType other)
  · intro ifType
    rw [hpending]
    exact (h.covered ifType).mono (hdue' ifType)

/-- The server's thread submits a work for the station that it is at. -/
theorem submit (h : RefsInv s) (hipsta : ipsta ∈ s.stations) {ifType : IfType} {work : Work}
    (hwork : work.ipsta = some ipsta) {server : Option (Station × ServerStage)}
    (hothers : ∀ other ≠ ipsta, at? other server = at? other s.server)
    (hrefs : refsAt s.server ipsta = refsAt server ipsta + 1)
    (hlisted : listedAt server ipsta = listedAt s.server ipsta)
    (hdue : ∀ other, dueAt s.server other ipsta = true → dueAt server other ipsta = true ∨
      other = ifType ∧ work = .disconn ipsta)
    (hcover : work ≠ .disconn ipsta → dueAt server ifType ipsta = true)
    (habout : ∀ current stage, server = some (current, stage) →
      current = ipsta ∧ stage.WorkOf ipsta) :
    RefsInv ((s.submit ifType work).serverAt server) := by
  generalize hs : (s.submit ifType work).serverAt server = s'
  have hstations : s'.stations = s.stations := hs ▸ rfl
  have hserver : s'.server = server := hs ▸ rfl
  have hself : s'.pending ifType = s.pending ifType ++ [work] := by
    subst hs
    simp [StationRefs.pending, StationRefs.submit, StationRefs.serverAt]
  have hother : ∀ other ≠ ifType, s'.pending other = s.pending other := fun other hne => by
    subst hs
    simp [StationRefs.pending, StationRefs.submit, StationRefs.serverAt, Function.update_of_ne hne]
  have hexecuted : s'.executed = s.executed := hs ▸ rfl
  have hcount : ∀ sta, worksFor sta (s'.works .hostap) + worksFor sta (s'.works .kernel) =
      worksFor sta (s.works .hostap) + worksFor sta (s.works .kernel) + worksFor sta [work] := by
    intro sta
    simp only [StationRefs.works, hexecuted, worksFor_append]
    cases ifType with
    | hostap =>
      rw [hself, hother .kernel (by decide), worksFor_append]
      omega
    | kernel =>
      rw [hself, hother .hostap (by decide), worksFor_append]
      omega
  have hdue' : ∀ t other, s.Due t other → s'.Due t other ∨ t = ifType ∧ work = .disconn other := by
    rintro t other ⟨hmem, hbefore⟩
    by_cases heq : other = ipsta
    · subst heq
      exact (hdue t hbefore).imp_left fun hnow => ⟨hstations ▸ hmem, hserver ▸ hnow⟩
    · refine .inl ⟨hstations ▸ hmem, ?_⟩
      rwa [hserver, dueAt, hothers other heq]
  refine ⟨fun sta => ?_, ?_, ?_, hstations ▸ h.slots, ?_, ?_, fun sta => ?_, ?_, ?_, ?_, ?_⟩
  · have hledger := h.ledger sta
    have hnow := hcount sta
    have hrefcnt : s'.refcnt = s.refcnt := hs ▸ rfl
    rw [StationRefs.owed] at hledger
    rw [StationRefs.owed, hrefcnt, hstations, hserver]
    by_cases heq : sta = ipsta
    · rw [heq, if_pos hipsta] at hledger ⊢
      have hone : worksFor ipsta [work] = 1 := by simp [worksFor, hwork]
      rw [heq] at hnow
      omega
    · have hnone : worksFor sta [work] = 0 := by simp [worksFor, hwork, Ne.symm heq]
      rw [refsAt, hothers sta heq]
      rw [refsAt] at hledger
      omega
  · subst hs
    exact h.fresh
  · subst hs
    exact h.known
  · intro current stage hat
    obtain ⟨rfl, hof⟩ := habout current stage (hserver ▸ hat)
    exact ⟨hstations ▸ hipsta, hof⟩
  · subst hs
    exact h.nodup
  · have hlist : s'.staList = s.staList := hs ▸ rfl
    rw [hlist, hstations, hserver, h.listed]
    by_cases heq : sta = ipsta
    · rw [heq, hlisted]
    · rw [listedAt, listedAt, hothers sta heq]
  · subst hs
    exact h.oneWork
  · intro t other hmentions
    have hbefore : s.dwpald.Mentions t other := by
      subst hs
      exact hmentions
    by_cases ht : t = ifType
    · rw [ht, hself]
      rw [ht] at hbefore
      rcases h.mentioned ifType other hbefore with hdue | hpending
      · rcases hdue' ifType other hdue with hnow | ⟨-, hdisconn⟩
        · exact .inl hnow
        · exact .inr (List.mem_append_right _ (hdisconn ▸ List.mem_singleton_self _))
      · exact .inr (List.mem_append_left _ hpending)
    · rw [hother t ht]
      refine (h.mentioned t other hbefore).imp_left fun hdue => ?_
      exact (hdue' t other hdue).resolve_right fun hsame => ht hsame.1
  · intro t
    by_cases ht : t = ifType
    · rw [ht, hself]
      refine (h.covered ifType).submit (fun other hdue => ?_) fun other hfor hne => ?_
      · exact (hdue' ifType other hdue).imp_right And.right
      · rw [hwork] at hfor
        obtain rfl := Option.some.inj hfor
        exact ⟨hstations ▸ hipsta, hserver ▸ hcover hne⟩
    · rw [hother t ht]
      exact (h.covered t).mono fun other hdue =>
        (hdue' t other hdue).resolve_right fun hsame => ht hsame.1
  · subst hs
    exact h.clients

theorem accept (h : RefsInv s) (hfree : s.server = none) : RefsInv { s with
    created := s.created + 1
    stations := s.created :: s.stations
    server := some (s.created, .accepted) } := by
  have hold : ∀ other ∈ s.stations, other ≠ s.created := fun other hmem =>
    Nat.ne_of_lt (h.known other hmem)
  have hat : ∀ other ≠ s.created,
      at? other (some (s.created, ServerStage.accepted)) = at? other s.server := fun other hne => by
    rw [at?_of_ne hne, hfree, at?_none]
  have hdue : ∀ ifType other, s.Due ifType other →
      other ∈ s.created :: s.stations ∧
        dueAt (some (s.created, .accepted)) ifType other = true := by
    rintro ifType other ⟨hmem, hother⟩
    refine ⟨List.mem_cons_of_mem _ hmem, ?_⟩
    rwa [dueAt, hat other (hold other hmem)]
  refine ⟨fun other => ?_, fun other hge => h.fresh other (Nat.le_of_succ_le hge),
    fun other hmem => ?_, List.nodup_cons.mpr ⟨fun hmem => hold _ hmem rfl, h.slots⟩,
    fun current stage hserver => ?_, h.nodup, fun other => ?_, h.oneWork,
    fun ifType other hmentions => (h.mentioned ifType other hmentions).imp_left (hdue ifType other),
    fun ifType => (h.covered ifType).mono (hdue ifType), h.clients⟩
  · have hledger := h.ledger other
    rw [StationRefs.owed] at hledger
    show s.refcnt other = _ + _ + if other ∈ s.created :: s.stations then
      refsAt (some (s.created, .accepted)) other else 0
    by_cases hnew : other = s.created
    · subst hnew
      rw [if_neg fun hmem => hold _ hmem rfl] at hledger
      rw [if_pos List.mem_cons_self, refsAt, at?_self]
      exact hledger
    · rw [refsAt, hat other hnew]
      simp only [List.mem_cons, hnew, false_or]
      exact hledger
  · rcases List.mem_cons.mp hmem with rfl | hmem
    · exact Nat.lt_succ_self _
    · exact Nat.lt_succ_of_lt (h.known other hmem)
  · cases hserver
    exact ⟨List.mem_cons_self, trivial⟩
  · show other ∈ s.staList ↔ other ∈ s.created :: s.stations ∧
      listedAt (some (s.created, .accepted)) other = true
    rw [h.listed]
    by_cases hnew : other = s.created
    · subst hnew
      have hnot : listedAt (some (s.created, .accepted)) s.created = false := by
        rw [listedAt, at?_self]
        rfl
      rw [hnot]
      exact ⟨fun hmem => absurd rfl (hold _ hmem.1), fun hlisted => absurd hlisted.2 (by decide)⟩
    · rw [listedAt, listedAt, hat other hnew, List.mem_cons]
      simp [hnew]

/-- The slot of a station that is gone is free again. -/
theorem clear (h : RefsInv s) (hserver : s.server = some (ipsta, .left)) :
    RefsInv { s with stations := s.stations.erase ipsta, server := none } := by
  have hgone : ∀ other, other ∈ s.stations.erase ipsta ↔ other ≠ ipsta ∧ other ∈ s.stations :=
    fun other => h.slots.mem_erase_iff
  have hat : ∀ other ≠ ipsta, at? other s.server = none := fun other hne => by
    rw [hserver, at?_of_ne hne]
  have hdue : ∀ ifType other, s.Due ifType other → other ∈ s.stations.erase ipsta ∧
      dueAt none ifType other = true := by
    rintro ifType other ⟨hmem, hother⟩
    have hne : other ≠ ipsta := by
      rintro rfl
      rw [hserver, dueAt, at?_self] at hother
      cases hother
    exact ⟨(hgone other).mpr ⟨hne, hmem⟩, rfl⟩
  refine ⟨fun other => ?_, h.fresh, fun other hmem => h.known other (List.mem_of_mem_erase hmem),
    h.slots.erase ipsta, fun _ _ hnone => (by cases hnone), h.nodup, fun other => ?_, h.oneWork,
    fun ifType other hmentions => (h.mentioned ifType other hmentions).imp_left (hdue ifType other),
    fun ifType => (h.covered ifType).mono (hdue ifType), h.clients⟩
  · have hledger := h.ledger other
    rw [StationRefs.owed] at hledger
    show s.refcnt other = _ + _ + if other ∈ s.stations.erase ipsta then refsAt none other else 0
    by_cases hsame : other = ipsta
    · rw [if_neg fun hmem => ((hgone other).mp hmem).1 hsame]
      have hnone : refsAt s.server other = 0 := by rw [hserver, hsame, refsAt, at?_self]; rfl
      rw [hnone, ite_self] at hledger
      exact hledger
    · rw [refsAt, hat other hsame] at hledger
      simp only [hgone, hsame, ne_eq, not_false_eq_true, true_and]
      exact hledger
  · show other ∈ s.staList ↔ other ∈ s.stations.erase ipsta ∧ listedAt none other = true
    rw [h.listed, hgone]
    by_cases hsame : other = ipsta
    · rw [hsame, hserver, listedAt, at?_self]
      simp [ServerStage.listed]
    · rw [listedAt, hat other hsame]
      simp [hsame, listedAt]

/-- The server's thread goes on with the references and the station db as `advance` says. -/
theorem advance (h : RefsInv s) {stage : ServerStage} (hserver : s.server = some (ipsta, stage))
    (hst : s.advance ipsta stage = some s') : RefsInv s' := by
  obtain ⟨hipsta, hwork⟩ := h.about ipsta stage hserver
  have hmoved : ∀ next, ∀ other ≠ ipsta,
      at? other (some (ipsta, next)) = at? other s.server := fun next other hne => by
    rw [hserver, at?_of_ne hne, at?_of_ne hne]
  have hdone : ∀ other ≠ ipsta, at? other none = at? other s.server := fun other hne => by
    rw [hserver, at?_of_ne hne, at?_none]
  have hlist : ∀ server, (∀ other ≠ ipsta, at? other server = at? other s.server) →
      listedAt server ipsta = stage.listed →
      s.staList.Nodup ∧ ∀ other, other ∈ s.staList ↔
        other ∈ s.stations ∧ listedAt server other = true := by
    intro server hother hsame
    refine ⟨h.nodup, fun other => ?_⟩
    rw [h.listed]
    by_cases heq : other = ipsta
    · rw [heq, hsame, hserver, listedAt, at?_self]
      rfl
    · rw [listedAt, listedAt, hother other heq]
  have hunlisted : stage.listed = false → ipsta ∉ s.staList := by
    intro hnot hmem
    have hlisted := ((h.listed ipsta).mp hmem).2
    rw [hserver, listedAt_self, hnot] at hlisted
    cases hlisted
  have habout : ∀ next : ServerStage, next.WorkOf ipsta → ∀ current later,
      some (ipsta, next) = some (current, later) → current = ipsta ∧ later.WorkOf ipsta := by
    intro next hnext current later hsome
    cases hsome
    exact ⟨rfl, hnext⟩
  have hnobody : ∀ current later, (none : Option (Station × ServerStage)) = some (current, later) →
      current = ipsta ∧ later.WorkOf ipsta := fun _ _ hnone => (by cases hnone)
  have hup : ∀ other ≠ ipsta, (s.incref ipsta).refcnt other = s.refcnt other := fun other hne =>
    Function.update_of_ne hne _ _
  have hdown : ∀ other ≠ ipsta, (s.decref ipsta).refcnt other = s.refcnt other := fun other hne =>
    Function.update_of_ne hne _ _
  cases stage with
  | accepted =>
    cases hst
    refine h.goOn hipsta rfl rfl rfl rfl rfl rfl
      (fun other hne => ⟨hup other hne, hmoved _ other hne⟩) ?_ ?_
      (hlist _ (hmoved _) (listedAt_self _ _)) (habout _ trivial)
    · simp [StationRefs.incref, StationRefs.serverAt, hserver, refs]
    · simp [hserver, due]
  | adding =>
    cases hst
    refine h.goOn hipsta rfl rfl rfl rfl rfl rfl (fun other hne => ⟨rfl, hmoved _ other hne⟩) ?_ ?_
      ⟨List.nodup_cons.mpr ⟨hunlisted rfl, h.nodup⟩, fun other => ?_⟩ (habout _ trivial)
    · simp [hserver, refs]
    · simp [due]
    · by_cases heq : other = ipsta
      · simp [heq, hipsta, ServerStage.listed]
      · rw [List.mem_cons, h.listed, listedAt, listedAt, hmoved _ other heq]
        simp [heq]
  | added =>
    cases hst
    refine h.goOn hipsta rfl rfl rfl rfl rfl rfl (fun other hne => ⟨hup other hne, hdone other hne⟩)
      ?_ ?_ (hlist _ hdone rfl) hnobody
    · simp [StationRefs.incref, StationRefs.serverAt, hserver, refs]
      omega
    · simp [StationRefs.serverAt]
  | commanded ifType work =>
    cases hst
    refine h.goOn hipsta rfl rfl rfl rfl rfl rfl
      (fun other hne => ⟨hup other hne, hmoved _ other hne⟩) ?_ ?_
      (hlist _ (hmoved _) (listedAt_self _ _)) (habout _ hwork)
    · simp [StationRefs.incref, StationRefs.serverAt, hserver, refs]
      omega
    · simp [StationRefs.serverAt, due]
  | submitting ifType work =>
    obtain ⟨-, rfl⟩ := Option.ite_none_right_eq_some.mp hst |>.imp_right Option.some.inj
    refine h.submit hipsta hwork.1 hdone ?_ ?_ (fun other _ => .inl rfl) (fun _ => rfl) hnobody
    · simp [hserver, refs]
    · simp [hserver, ServerStage.listed]
  | removing =>
    have hmem : ipsta ∈ s.staList :=
      (h.listed ipsta).mpr ⟨hipsta, by simp [hserver, ServerStage.listed]⟩
    obtain rfl := Option.some.inj ((if_pos hmem).symm.trans hst)
    refine h.goOn hipsta rfl rfl rfl rfl rfl rfl (fun other hne => ⟨rfl, hmoved _ other hne⟩) ?_ ?_
      ⟨h.nodup.erase _, fun other => ?_⟩ (habout _ trivial)
    · simp [hserver, refs]
    · simp [due]
    · rw [h.nodup.mem_erase_iff, h.listed]
      by_cases heq : other = ipsta
      · simp [heq, ServerStage.listed]
      · rw [listedAt, listedAt, hmoved _ other heq]
        simp [heq]
  | disconnecting ifType =>
    cases hst
    refine h.goOn hipsta rfl rfl rfl rfl rfl rfl
      (fun other hne => ⟨hup other hne, hmoved _ other hne⟩) ?_ ?_
      (hlist _ (hmoved _) (listedAt_self _ _)) (habout _ trivial)
    · simp [StationRefs.incref, StationRefs.serverAt, hserver, refs]
      omega
    · simp [StationRefs.serverAt, hserver, due]
  | cleaning ifType =>
    obtain ⟨-, rfl⟩ := Option.ite_none_right_eq_some.mp hst |>.imp_right Option.some.inj
    refine h.submit hipsta rfl (hmoved _) ?_ ?_ (fun other hbefore => ?_)
      (fun hne => absurd rfl hne) (habout _ (by cases ifType <;> trivial))
    · cases ifType <;> simp [hserver, refs]
    · cases ifType <;> simp [hserver, ServerStage.listed]
    · rw [hserver] at hbefore
      cases ifType <;> cases other <;> simp_all [due]
  | dropping =>
    cases hst
    refine h.goOn hipsta rfl rfl rfl rfl rfl rfl
      (fun other hne => ⟨hdown other hne, hmoved _ other hne⟩) ?_ ?_
      (hlist _ (hmoved _) (listedAt_self _ _)) (habout _ trivial)
    · simp [StationRefs.decref, StationRefs.serverAt, hserver, refs]
      omega
    · simp [hserver, due]
  | leaving =>
    cases hst
    refine h.goOn hipsta rfl rfl rfl rfl rfl rfl
      (fun other hne => ⟨hdown other hne, hmoved _ other hne⟩) ?_ ?_
      (hlist _ (hmoved _) (listedAt_self _ _)) (habout _ trivial)
    · simp [StationRefs.decref, StationRefs.serverAt, hserver, refs]
    · simp [hserver, due]
  | left =>
    cases hst
    exact h.clear hserver

/-- The server's thread turns to a station that is connected. -/
theorem turnTo (h : RefsInv s) (hfree : s.server = none) (hipsta : ipsta ∈ s.stations)
    {stage : ServerStage} (hrefs : stage.refs = 2) (hlisted : stage.listed = true)
    (hdue : ∀ ifType, stage.due ifType = true) (hwork : stage.WorkOf ipsta) :
    RefsInv (s.serverAt (some (ipsta, stage))) := by
  have hothers : ∀ other ≠ ipsta, at? other (some (ipsta, stage)) = at? other s.server :=
    fun other hne => by rw [hfree, at?_of_ne hne, at?_none]
  refine h.goOn hipsta rfl rfl rfl rfl rfl rfl (fun other hne => ⟨rfl, hothers other hne⟩) ?_ ?_
    ⟨h.nodup, fun other => ?_⟩ fun current later hsome => ?_
  · simp [StationRefs.serverAt, hfree, hrefs]
  · simp [StationRefs.serverAt, hdue]
  · refine (h.listed other).trans (and_congr_right fun _ => ?_)
    by_cases heq : other = ipsta
    · simp [StationRefs.serverAt, heq, hfree, hlisted]
    · rw [listedAt, listedAt, StationRefs.serverAt, hothers other heq]
  · cases hsome
    exact ⟨rfl, hwork⟩

theorem message (h : RefsInv s) {msg : WvIpcMsg}
    (hst : s.step (.message ipsta msg) = some s') : RefsInv s' := by
  obtain ⟨⟨hfree, hmem⟩, hst⟩ := Option.ite_none_right_eq_some.mp hst
  have hfree := Option.isNone_iff_eq_none.mp hfree
  cases hhandled : waveIpcsHandleStationMsg ipsta msg with
  | work ifType work =>
    rw [hhandled] at hst
    cases hst
    exact h.turnTo hfree hmem rfl rfl (fun _ => rfl) (handleStationMsg_work hhandled)
  | disconnect =>
    rw [hhandled] at hst
    cases hst
    exact h.turnTo hfree hmem rfl rfl (fun _ => rfl) trivial
  | refused _ | response =>
    rw [hhandled] at hst
    cases hst
    exact h

/-- The serializers have the same works, and their order is the same up to those executed. -/
theorem moveWork (h : RefsInv s) (hserver : s'.server = s.server) (hlist : s'.staList = s.staList)
    (hcreated : s'.created = s.created) (hstations : s'.stations = s.stations)
    (hledger : ∀ sta, s'.refcnt sta = s'.owed sta)
    (hfresh : ∀ sta, s.created ≤ sta → s'.refcnt sta = 0)
    (honeWork : ∀ ifType, s'.taken ifType ≠ none → s'.executed ifType = none)
    (hmentioned : ∀ ifType sta, s'.dwpald.Mentions ifType sta →
      s.Due ifType sta ∨ .disconn sta ∈ s'.pending ifType)
    (hcovered : ∀ ifType, Covered (s.Due ifType) (s'.pending ifType))
    (hclients : ClientsNodup s'.dwpald.hapMan ∧ ClientsNodup s'.dwpald.nlMan) : RefsInv s' := by
  have hdue : ∀ ifType, s'.Due ifType = s.Due ifType := fun ifType => by
    funext sta
    rw [StationRefs.Due, hstations, hserver, StationRefs.Due]
  refine ⟨hledger, hcreated ▸ hfresh, ?_, hstations ▸ h.slots, ?_, hlist ▸ h.nodup, ?_,
    honeWork, ?_, ?_, hclients⟩
  · rw [hstations, hcreated]
    exact h.known
  · rw [hstations, hserver]
    exact h.about
  · rw [hlist, hstations, hserver]
    exact h.listed
  · simpa only [hdue] using hmentioned
  · simpa only [hdue] using hcovered

theorem take (h : RefsInv s) {ifType : IfType} (hst : s.step (.take ifType) = some s') :
    RefsInv s' := by
  rw [StationRefs.step] at hst
  cases hlist : s.workList ifType with
  | nil =>
    rw [hlist] at hst
    cases hst
  | cons work rest =>
    rw [hlist] at hst
    obtain ⟨⟨htaken, hexecuted⟩, hst⟩ := Option.ite_none_right_eq_some.mp hst
    obtain rfl := Option.some.inj hst
    have htaken := Option.isNone_iff_eq_none.mp htaken
    have hpending : ∀ t, StationRefs.pending { s with
        workList := Function.update s.workList ifType rest
        taken := Function.update s.taken ifType (some work) } t = s.pending t := by
      intro t
      by_cases ht : t = ifType
      · subst ht
        simp [StationRefs.pending, htaken, hlist]
      · simp [StationRefs.pending, Function.update_of_ne ht]
    refine h.moveWork rfl rfl rfl rfl (fun sta => ?_) h.fresh (fun t hne => ?_) (fun t sta hm => ?_)
      (fun t => ?_) h.clients
    · rw [owed_of_works (s := s) fun t => by rw [StationRefs.works, hpending]; rfl]
      exact h.ledger sta
    · by_cases ht : t = ifType
      · subst ht
        exact Option.isNone_iff_eq_none.mp hexecuted
      · exact h.oneWork t (by simpa [Function.update_of_ne ht] using hne)
    · rw [hpending]
      exact h.mentioned t sta hm
    · rw [hpending]
      exact h.covered t

theorem exec (h : RefsInv s) {w : World} {ifType : IfType}
    (hst : s.step (.exec w ifType) = some s') : RefsInv s' := by
  obtain ⟨work, htaken, rfl⟩ := Option.map_eq_some_iff.mp hst
  have hexecuted : s.executed ifType = none :=
    h.oneWork ifType fun hnone => by rw [htaken] at hnone; cases hnone
  obtain ⟨hmentions, hcleaned, hclients⟩ := s.dwpald.execWork_own h.clients w ifType work
  generalize hs : StationRefs.mk _ _ _ _ _ _ _ _ _ = s'
  have hself : s.pending ifType = work :: s'.pending ifType := by
    subst hs
    simp [StationRefs.pending, htaken]
  have hother : ∀ t ≠ ifType, s'.pending t = s.pending t := fun t ht => by
    subst hs
    simp [StationRefs.pending, Function.update_of_ne ht]
  have hworks : ∀ sta t, worksFor sta (s'.works t) = worksFor sta (s.works t) := by
    intro sta t
    by_cases ht : t = ifType
    · have hnow : (s'.executed t).toList = [work] := by
        subst hs ht
        simp
      rw [StationRefs.works, hnow, StationRefs.works, ht, hself, hexecuted, Option.toList_none,
        List.append_nil, worksFor_append, Nat.add_comm]
      exact (worksFor_append sta [work] _).symm
    · have hsame : s'.executed t = s.executed t := by
        subst hs
        exact Function.update_of_ne ht _ _
      rw [StationRefs.works, hother t ht, hsame, StationRefs.works]
  refine h.moveWork (by rw [← hs]) (by rw [← hs]) (by rw [← hs]) (by rw [← hs]) (fun sta => ?_)
    (by rw [← hs]; exact h.fresh) (fun t hne => ?_) (fun t sta hm => ?_) (fun t => ?_)
    (by rw [← hs]; exact hclients)
  · have hledger := h.ledger sta
    rw [StationRefs.owed] at hledger ⊢
    rw [hworks, hworks, ← hs]
    exact hledger
  · subst hs
    by_cases ht : t = ifType
    · exact absurd (ht ▸ Function.update_self _ _ _) hne
    · replace hne : Function.update s.taken ifType none t ≠ none := hne
      rw [Function.update_of_ne ht] at hne
      exact (Function.update_of_ne ht _ _).trans (h.oneWork t hne)
  · have hnow : (s.dwpald.execWork w ifType work).1.Mentions t sta := by rwa [← hs] at hm
    have hbefore := hmentions t sta hnow
    by_cases ht : t = ifType
    · subst ht
      have hcovered := h.covered t
      rw [hself] at hcovered
      have hne : work ≠ .disconn sta := fun heq => hcleaned sta heq hnow
      rcases hbefore with hbefore | ⟨-, hfor⟩
      · refine (h.mentioned t sta hbefore).imp_right fun hmem => ?_
        rw [hself] at hmem
        exact (List.mem_cons.mp hmem).resolve_left fun heq => hne heq.symm
      · exact hcovered.1 sta hfor hne
    · rw [hother t ht]
      exact h.mentioned t sta (hbefore.resolve_right fun hsame => ht hsame.1)
  · have hcovered := h.covered t
    by_cases ht : t = ifType
    · subst ht
      rw [hself] at hcovered
      exact hcovered.2
    · rwa [hother t ht]

theorem free (h : RefsInv s) {ifType : IfType} (hst : s.step (.free ifType) = some s') :
    RefsInv s' := by
  obtain ⟨work, hexecuted, rfl⟩ := Option.map_eq_some_iff.mp hst
  rw [StationRefs.freeWork_eq]
  have hgone : ∀ sta, (worksFor sta (s.works ifType) : Int) =
      worksFor sta (s.pending ifType) + if work.ipsta = some sta then 1 else 0 := fun sta => by
    rw [StationRefs.works, hexecuted, Option.toList_some, worksFor_append, Int.natCast_add]
    split <;> simp [worksFor, *]
  generalize hs : StationRefs.mk _ _ _ _ _ _ _ _ _ = s'
  have hpending : s'.pending = s.pending := by rw [← hs]; rfl
  have hrefcnt : ∀ sta, s'.refcnt sta = s.refcnt sta - if work.ipsta = some sta then 1 else 0 :=
    fun sta => by rw [← hs]
  have hself : s'.works ifType = s.pending ifType := by
    rw [StationRefs.works, hpending, ← hs]
    simp
  have hother : ∀ t ≠ ifType, s'.works t = s.works t := fun t ht => by
    rw [StationRefs.works, hpending, ← hs]
    simp [StationRefs.works, Function.update_of_ne ht]
  refine h.moveWork (by rw [← hs]) (by rw [← hs]) (by rw [← hs]) (by rw [← hs]) (fun sta => ?_)
    (fun sta hge => ?_) (fun t hne => ?_) (fun t sta hm => ?_) (fun t => ?_)
    (by rw [← hs]; exact h.clients)
  · have hledger := h.ledger sta
    have hone := hgone sta
    have hserver : s'.stations = s.stations ∧ s'.server = s.server := by
      rw [← hs]
      exact ⟨rfl, rfl⟩
    rw [StationRefs.owed] at hledger
    rw [StationRefs.owed, hserver.1, hserver.2, hrefcnt]
    cases ifType with
    | hostap =>
      rw [hself, hother .kernel (by decide)]
      omega
    | kernel =>
      rw [hself, hother .hostap (by decide)]
      omega
  · have hzero := h.fresh sta hge
    rw [hrefcnt]
    by_cases hfor : work.ipsta = some sta
    · have hone := hgone sta
      rw [if_pos hfor] at hone
      have hpos := h.owed_pos ifType (.inr (by omega : 0 < worksFor sta (s.works ifType)))
      omega
    · rw [if_neg hfor, hzero, Int.sub_zero]
  · rw [← hs] at hne ⊢
    by_cases ht : t = ifType
    · rw [ht]
      exact Function.update_self _ _ _
    · exact (Function.update_of_ne ht _ _).trans (h.oneWork t hne)
  · rw [← hs] at hm
    rw [hpending]
    exact h.mentioned t sta hm
  · rw [hpending]
    exact h.covered t

theorem delayed (h : RefsInv s) {w : World} {ifType : IfType} {ifname : IfName}
    (hst : s.step (.delayed w ifType ifname) = some s') : RefsInv s' := by
  obtain ⟨-, hst⟩ := Option.ite_none_right_eq_some.mp hst
  obtain ⟨d, hd, rfl⟩ := Option.map_eq_some_iff.mp hst
  obtain ⟨hmentions, hclients⟩ := Dwpald.execDelayed_own h.clients hd
  exact h.moveWork rfl rfl rfl rfl h.ledger h.fresh h.oneWork
    (fun t sta hm => h.mentioned t sta (hmentions t sta hm)) h.covered hclients

theorem step (h : RefsInv s) {action : RefsAction} (hst : s.step action = some s') :
    RefsInv s' := by
  cases action with
  | accept =>
    obtain ⟨⟨hfree, -⟩, hst⟩ := Option.ite_none_right_eq_some.mp hst
    obtain rfl := Option.some.inj hst
    exact h.accept (Option.isNone_iff_eq_none.mp hfree)
  | message ipsta msg => exact h.message hst
  | remove ipsta =>
    obtain ⟨⟨hfree, hmem⟩, hst⟩ := Option.ite_none_right_eq_some.mp hst
    obtain rfl := Option.some.inj hst
    exact h.turnTo (Option.isNone_iff_eq_none.mp hfree) hmem rfl rfl (fun _ => rfl) trivial
  | advance =>
    obtain ⟨⟨ipsta, stage⟩, hserver, hst⟩ := Option.bind_eq_some_iff.mp hst
    exact h.advance hserver hst
  | take ifType => exact h.take hst
  | exec w ifType => exact h.exec hst
  | free ifType => exact h.free hst
  | delayed w ifType ifname => exact h.delayed hst

end RefsInv

/-- In every run of the daemon, a station that is mentioned has a reference, and once the last
reference is dropped it is mentioned no more. -/
theorem stationReferences {w w' : World} {hapSeeds nlSeeds : List IfName} {static : Bool}
    {hapMan : IfaceManager HostapEvent Unit} {nlMan : IfaceManager DrvEvent Bool}
    (hhap : ifaceManagerInit w hapInit () hapSeeds = some hapMan)
    (hnl : ifaceManagerInit w' nlInit static nlSeeds = some nlMan) {actions : List RefsAction}
    {s : StationRefs} (hrun : exec StationRefs.step (.start ⟨hapMan, nlMan⟩) actions = some s) :
    (∀ ipsta, s.Mentioned ipsta → 0 < s.refcnt ipsta) ∧
      ∀ action s' ipsta, s.step action = some s' → 0 < s.refcnt ipsta → s'.refcnt ipsta ≤ 0 →
        s'.refcnt ipsta = 0 ∧ ¬ s'.Mentioned ipsta := by
  obtain ⟨hhapNone, hhapClients⟩ := ifaceManagerInit_unmentioned hhap
  obtain ⟨hnlNone, hnlClients⟩ := ifaceManagerInit_unmentioned hnl
  have hstart : RefsInv (.start ⟨hapMan, nlMan⟩) := by
    refine .start (fun ifType ipsta => ?_) ⟨hhapClients, hnlClients⟩
    cases ifType with
    | hostap => exact hhapNone ipsta
    | kernel => exact hnlNone ipsta
  have hinv : RefsInv s := exec_inv (fun h hst => h.step hst) hstart hrun
  refine ⟨fun ipsta => hinv.positive, fun action s' ipsta hst _ hdropped => ?_⟩
  have hinv' := hinv.step hst
  exact ⟨Int.le_antisymm hdropped (hinv'.refcnt_nonneg ipsta), fun hmentioned =>
    Int.not_lt.mpr hdropped (hinv'.positive hmentioned)⟩

/-- The request of a station to attach to `wlan0` for the event `AP-ENABLED`. -/
private def attachWlan0 : WvIpcMsg :=
  (ipcHeaderPush (dwpaldHeaderPush (waveIpcMsgFillData
      (waveIpcMsgAlloc (Buffer.fill waveIpcBuffSize 0))
      (some (ascii "wlan0" ++ List.replicate 12 0 ++ 10 :: ascii "AP-ENABLED")) 28).2
    ⟨dwpaldAttachReq, dwpaldIfTypeHostap, 0, 0, 0, 0⟩).2 ⟨waveIpcMsgCmd, 6, 0, 0⟩).2

/-- A station connects, is attached and registered to events, and sends a command for the kernel. -/
def attachedRun : List RefsAction :=
  [.accept, .advance, .advance, .advance, .message 0 attachWlan0, .advance, .advance,
    .take .hostap, .exec (deliveringWorld []) .hostap, .free .hostap,
    .message 0 (nlCommand 7 bareNlMsg), .advance, .advance]

/-- The station goes, and both managers execute the works that are left, the last ones clean up. -/
def goneRun : List RefsAction :=
  .remove 0 :: List.replicate 8 .advance ++
    [.take .hostap, .take .kernel, .exec (deliveringWorld []) .kernel, .free .kernel,
      .take .kernel, .exec (deliveringWorld []) .kernel, .exec (deliveringWorld []) .hostap,
      .free .kernel]

theorem stationReferences_goneRun : ∃ attached s s',
    exec StationRefs.step (.start startedDwpald) attachedRun = some attached ∧
    attached.dwpald.hapMan.attachedIfaces.map
        (fun iface => (iface.attachedClients, iface.events.map Registry.Entry.members)) =
      [([0], [[0], [0], [0], [0]])] ∧
    (attached.workList .kernel).map Work.ipsta = [some 0] ∧ attached.refcnt 0 = 3 ∧
    exec StationRefs.step attached goneRun = some s ∧ s.refcnt 0 = 1 ∧
    s.step (.free .hostap) = some s' ∧ s'.refcnt 0 = 0 ∧ ¬ s'.Mentioned 0 := by
  obtain ⟨attached, hattached, hlists, hcmd, hthree⟩ : ∃ attached,
      exec StationRefs.step (.start startedDwpald) attachedRun = some attached ∧
      attached.dwpald.hapMan.attachedIfaces.map
          (fun iface => (iface.attachedClients, iface.events.map Registry.Entry.members)) =
        [([0], [[0], [0], [0], [0]])] ∧
      (attached.workList .kernel).map Work.ipsta = [some 0] ∧ attached.refcnt 0 = 3 :=
    ⟨_, rfl, by decide, rfl, rfl⟩
  obtain ⟨s, hgone, hone⟩ :
      ∃ s, exec StationRefs.step attached goneRun = some s ∧ s.refcnt 0 = 1 := by
    cases hattached
    exact ⟨_, rfl, rfl⟩
  obtain ⟨s', hst, hzero⟩ : ∃ s', s.step (.free .hostap) = some s' ∧ s'.refcnt 0 = 0 := by
    cases hattached
    cases hgone
    exact ⟨_, rfl, rfl⟩
  have hhap : ifaceManagerInit (deliveringWorld []) hapInit () [] = some startedDwpald.hapMan := rfl
  have hnl : ifaceManagerInit (deliveringWorld []) nlInit false [] = some startedDwpald.nlMan := rfl
  have hrun : exec StationRefs.step (.start startedDwpald) (attachedRun ++ goneRun) = some s := by
    rw [exec_append, hattached, Option.bind_some, hgone]
  have hrefs := stationReferences hhap hnl hrun
  exact ⟨attached, s, s', hattached, hlists, hcmd, hthree, hgone, hone, hst, hzero,
    (hrefs.2 _ s' 0 hst (by omega) (by omega)).2⟩

end Dwpal.Daemon
