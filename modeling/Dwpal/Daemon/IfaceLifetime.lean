import Dwpal.Daemon.FinalReply
import Dwpal.Lib.Machine
import Mathlib.Data.List.Nodup

/-! The life of the interfaces of a manager: from `iface_manager_init` and the first attach to the
delayed detach that destroys an entry, over any run of the works of the manager's serializer. -/

namespace Dwpal.Daemon

open Machine Ipc

variable {ε β : Type}

/-- The second loop of `iface_manager_init`: the seeded interfaces are attached. -/
def attachSeeds (w : World) (init : ManagerInit ε β) :
    β → List (AttachedInterface ε) → Option (β × List (AttachedInterface ε))
  | static, [] => some (static, [])
  | static, attachedIf :: ifaces =>
    let attached := init.manApis.ifaceAttach w static attachedIf.ifname attachedIf.state
    if attached.1 ≠ 0 then none
    else (attachSeeds w init attached.2.2 ifaces).map fun (static, ifaces) =>
      (static, { attachedIf with state := attached.2.1 } :: ifaces)

/-- `iface_manager_init`, in a process in which the static variables of the module are `static`. -/
def ifaceManagerInit (w : World) (init : ManagerInit ε β) (static : β) (seedIfaces : List IfName) :
    Option (IfaceManager ε β) :=
  (attachSeeds w init static (seedIfaces.map fun ifname =>
    ⟨ifname, interfaceDwpalStateUnknown, [], [], true⟩)).map fun (static, ifaces) =>
      ⟨ifaces, static, []⟩

/-- What the serializer of a manager executes: a work that was submitted for a station, or the
delayed detach of an interface. -/
inductive ManagerAction where
  | submitted (w : World) (work : Work)
  | delayed (w : World) (ifname : IfName)

/-- The manager after the serializer has executed a work. The detach works of stations have a
station, and a delayed work is taken from the list before it is executed. -/
def IfaceManager.step (init : ManagerInit ε β) (m : IfaceManager ε β) :
    ManagerAction → Option (IfaceManager ε β)
  | .submitted _ (.detach ⟨_, _, none⟩) => none
  | .submitted w work => some (workFunc w init m work).2.1
  | .delayed w ifname =>
    if ifname ∈ m.delayedDetach then
      some (workFunc w init { m with delayedDetach := m.delayedDetach.erase ifname }
        (.detach ⟨ifname, 0, none⟩)).2.1
    else none

/-- Nobody is attached to the interface, and it is not to be kept. -/
def AttachedInterface.Unused (iface : AttachedInterface ε) : Prop :=
  iface.keepAttached = false ∧ iface.attachedClients = []

/-- The names of the interfaces. -/
def IfaceManager.names (m : IfaceManager ε β) : List IfName :=
  m.attachedIfaces.map AttachedInterface.ifname

/-- One entry for each name, and one delayed detach for each entry that nobody is attached to. -/
structure IfacesScheduled (m : IfaceManager ε β) : Prop where
  names : m.names.Nodup
  pending : ∀ iface ∈ m.attachedIfaces, iface.Unused →
    m.delayedDetach.count iface.ifname = 1

/-- The same manager with another `iface_detach` below it. -/
def ManagerInit.withDetach (init : ManagerInit ε β) (ifaceDetach : β → β) : ManagerInit ε β :=
  { init with manApis := { init.manApis with ifaceDetach } }

/-- The step `a` from `m` executes the delayed detach of an entry that nobody is attached to. -/
def DetachesUnused (m : IfaceManager ε β) (a : ManagerAction) (iface : AttachedInterface ε) :
    Prop :=
  iface ∈ m.attachedIfaces ∧ iface.Unused ∧ ∃ w, a = .delayed w iface.ifname

/-- A step that destroys an entry executes its delayed detach, and so does a step that depends on
what the low-level detach does; nobody is attached to the entry. -/
structure DetachLawful (init : ManagerInit ε β) (m : IfaceManager ε β) (a : ManagerAction)
    (m' : IfaceManager ε β) : Prop where
  destroyed : ∀ iface ∈ m.attachedIfaces, iface.ifname ∉ m'.names → DetachesUnused m a iface
  lowLevel : ∀ ifaceDetach, IfaceManager.step (init.withDetach ifaceDetach) m a ≠ some m' →
    ∃ iface, DetachesUnused m a iface

/-- What is asked of every run of the manager from `m0`. -/
def LifetimeLawful (init : ManagerInit ε β) (m0 : IfaceManager ε β) : Prop :=
  ∀ as m, exec (IfaceManager.step init) m0 as = some m →
    IfacesScheduled m ∧ ∀ a m', IfaceManager.step init m a = some m' → DetachLawful init m a m'

section Store

variable {m : IfaceManager ε β} {iface : AttachedInterface ε} {ifname : IfName}

theorem find_isSome_iff : (m.find ifname).isSome = true ↔ ifname ∈ m.names := by
  rw [IfaceManager.find, List.find?_isSome, IfaceManager.names, List.mem_map]
  simp only [IfaceManager.named_iff]

theorem find_of_mem (hnames : m.names.Nodup) (hmem : iface ∈ m.attachedIfaces) :
    m.find iface.ifname = some iface := by
  obtain ⟨found, hfound⟩ := Option.isSome_iff_exists.mp
    (find_isSome_iff.mpr (List.mem_map_of_mem hmem))
  have hname := IfaceManager.ifname_of_find hfound
  rw [hfound, List.inj_on_of_nodup_map hnames (List.mem_of_find?_eq_some hfound) hmem hname]

theorem names_replace : ∀ ifaces : List (AttachedInterface ε),
    (IfaceManager.replace iface ifaces).map AttachedInterface.ifname =
      ifaces.map AttachedInterface.ifname
  | [] => rfl
  | tmp :: ifaces => by
    rw [IfaceManager.replace]
    split
    · next hnamed =>
      rw [List.map_cons, List.map_cons, IfaceManager.named_iff.mp hnamed]
    · rw [List.map_cons, List.map_cons, names_replace ifaces]

theorem names_store : (m.store iface).names =
    if iface.ifname ∈ m.names then m.names else m.names ++ [iface.ifname] := by
  rw [IfaceManager.names, IfaceManager.store]
  by_cases hmem : iface.ifname ∈ m.names
  · rw [if_pos hmem, if_pos (find_isSome_iff.mpr hmem), names_replace]
    rfl
  · rw [if_neg hmem, if_neg fun hfound => hmem (find_isSome_iff.mp hfound), List.map_append]
    rfl

theorem mem_replace {other : AttachedInterface ε} {ifaces : List (AttachedInterface ε)}
    (h : other ∈ IfaceManager.replace iface ifaces) : other = iface ∨ other ∈ ifaces := by
  induction ifaces with
  | nil => cases h
  | cons tmp ifaces ih =>
    rw [IfaceManager.replace] at h
    split at h
    · rcases List.mem_cons.mp h with rfl | h
      · exact .inl rfl
      · exact .inr (List.mem_cons_of_mem tmp h)
    · rcases List.mem_cons.mp h with rfl | h
      · exact .inr List.mem_cons_self
      · exact (ih h).imp_right (List.mem_cons_of_mem tmp)

theorem names_store_nodup (hnames : m.names.Nodup) : (m.store iface).names.Nodup := by
  rw [names_store]
  split
  · exact hnames
  · next hnew => exact List.nodup_append.mpr ⟨hnames, by simp, fun a ha b hb hab => hnew (by
      rw [List.mem_singleton] at hb
      exact hb ▸ hab ▸ ha)⟩

/-- An interface of the manager that an entry was stored in is that entry or another one. -/
theorem mem_store {other : AttachedInterface ε} (hnames : m.names.Nodup)
    (h : other ∈ (m.store iface).attachedIfaces) :
    other = iface ∨ other ∈ m.attachedIfaces ∧ other.ifname ≠ iface.ifname := by
  by_cases hname : other.ifname = iface.ifname
  · left
    have hfind := find_of_mem (names_store_nodup hnames) h
    rw [hname, IfaceManager.find_store] at hfind
    exact (Option.some.inj hfind).symm
  · rw [IfaceManager.store] at h
    simp only at h
    split at h
    · rcases mem_replace h with rfl | h
      · exact .inl rfl
      · exact .inr ⟨h, hname⟩
    · rcases List.mem_append.mp h with h | h
      · exact .inr ⟨h, hname⟩
      · exact .inl (List.mem_singleton.mp h)

/-- Storing an entry keeps the schedule if the entry, should nobody be attached to it, and the other
entries have their delayed detach. -/
theorem IfacesScheduled.store {m' : IfaceManager ε β} (h : IfacesScheduled m)
    (hifaces : m'.attachedIfaces = (m.store iface).attachedIfaces)
    (hothers : ∀ ifname, ifname ≠ iface.ifname →
      m'.delayedDetach.count ifname = m.delayedDetach.count ifname)
    (hiface : iface.Unused → m'.delayedDetach.count iface.ifname = 1) : IfacesScheduled m' where
  names := by
    rw [IfaceManager.names, hifaces]
    exact names_store_nodup h.names
  pending other hmem hunused := by
    rw [hifaces] at hmem
    rcases mem_store h.names hmem with rfl | ⟨hold, hname⟩
    · exact hiface hunused
    · rw [hothers _ hname]
      exact h.pending other hold hunused

end Store

section Works

variable {w : World} {init : ManagerInit ε β} {m : IfaceManager ε β} {ipsta : Station}
  {seqNum : UInt8}

theorem IfacesScheduled.same {m' : IfaceManager ε β} (h : IfacesScheduled m)
    (hifaces : m'.attachedIfaces = m.attachedIfaces)
    (hdelayed : m'.delayedDetach = m.delayedDetach) :
    IfacesScheduled m' where
  names := by
    rw [IfaceManager.names, hifaces]
    exact h.names
  pending iface hmem := by
    rw [hifaces] at hmem
    rw [hdelayed]
    exact h.pending iface hmem

theorem attachTo_scheduled (h : IfacesScheduled m) (cmdW : CmdWork) (ifname : IfName)
    (data : List UInt8) (dataSize : Nat) :
    IfacesScheduled (attachTo w init m cmdW ifname data dataSize).2.1 := by
  rw [attachTo]
  generalize (m.find ifname).getD ⟨ifname, 0, [], [], false⟩ = iface
  simp only
  split_ifs
  · exact h.same rfl rfl
  all_goals
    refine h.store rfl (fun _ _ => rfl) fun hunused => ?_
    exact absurd hunused.2 (List.concat_ne_nil _ _)

theorem updateEventsOf_scheduled (h : IfacesScheduled m) (cmdW : CmdWork) (ifname : IfName)
    (data : List UInt8) (dataSize : Nat) :
    IfacesScheduled (updateEventsOf w init m cmdW ifname data dataSize).2.1 := by
  rw [updateEventsOf]
  cases hfind : m.find ifname with
  | none => exact h
  | some iface =>
    simp only
    have hmem := List.mem_of_find?_eq_some hfind
    split_ifs
    all_goals
      refine h.store rfl (fun _ _ => rfl) fun hunused => ?_
      exact h.pending iface hmem hunused

theorem withIfname_scheduled (h : IfacesScheduled m) (cmdW : CmdWork)
    (rest : CmdWork → IfName → List UInt8 → Nat → Nat × IfaceManager ε β × List Sent)
    (hrest : ∀ ifname data dataSize, IfacesScheduled (rest cmdW ifname data dataSize).2.1) :
    IfacesScheduled (withIfname w m cmdW rest).2.1 := by
  rw [withIfname]
  split
  · exact h
  · split_ifs
    · exact h
    · exact hrest _ _ _

theorem count_cancelled (delayed : List IfName) (ifname other : IfName) :
    (delayed.filter (· ≠ ifname)).count other =
      if other = ifname then 0 else delayed.count other := by
  split
  · next heq =>
    rw [List.count_eq_zero]
    intro hmem
    simpa [heq] using List.of_mem_filter hmem
  · next hne => rw [List.count_filter (by simpa using hne)]

theorem count_rescheduled (delayed : List IfName) (ifname other : IfName) :
    (delayed.filter (· ≠ ifname) ++ [ifname]).count other =
      if other = ifname then 1 else delayed.count other := by
  rw [List.count_append, count_cancelled]
  split
  · next heq => simp [heq]
  · next hne => simp [Ne.symm hne]

/-- A client that detaches, or asks to. -/
theorem ifaceDetachWork_scheduled (h : IfacesScheduled m) (ifname : IfName) :
    IfacesScheduled (ifaceDetachWork w init m ⟨ifname, seqNum, some ipsta⟩).2.1 := by
  have hfind : IfaceManager.find { m with
      delayedDetach := m.delayedDetach.filter (· ≠ ifname) } ifname = m.find ifname := rfl
  simp only [ifaceDetachWork, hfind]
  cases hiface : m.find ifname with
  | none =>
    refine ⟨h.names, fun iface hmem hunused => ?_⟩
    replace hmem : iface ∈ m.attachedIfaces := hmem
    have hne : iface.ifname ≠ ifname := by
      rintro rfl
      have hsome : (m.find iface.ifname).isSome = true :=
        find_isSome_iff.mpr (List.mem_map_of_mem hmem)
      rw [hiface] at hsome
      cases hsome
    refine (count_cancelled _ _ _).trans ?_
    rw [if_neg hne]
    exact h.pending iface hmem hunused
  | some iface =>
    have hname := IfaceManager.ifname_of_find hiface
    simp only
    split_ifs with hunused
    · refine h.store rfl (fun other hne => ?_) fun _ => ?_
      · refine (count_rescheduled _ _ _).trans ?_
        rw [if_neg (hname ▸ hne)]
      · refine (count_rescheduled _ _ _).trans ?_
        rw [if_pos hname]
    · refine h.store rfl (fun other hne => ?_) fun hnow => ?_
      · refine (count_cancelled _ _ _).trans ?_
        rw [if_neg (hname ▸ hne)]
      · exact absurd ⟨by simpa using hnow.1, hnow.2⟩ hunused

/-- The entry that is destroyed is the one of that name. -/
theorem mem_eraseP {iface : AttachedInterface ε} {ifname : IfName} (hnames : m.names.Nodup)
    (h : iface ∈ m.attachedIfaces.eraseP (AttachedInterface.named ifname)) :
    iface ∈ m.attachedIfaces ∧ iface.ifname ≠ ifname := by
  refine ⟨List.mem_of_mem_eraseP h, ?_⟩
  rintro rfl
  obtain ⟨found, before, after, hbefore, hfound, hlist, herase⟩ :=
    List.exists_of_eraseP (List.mem_of_mem_eraseP h) (IfaceManager.named_iff.mpr rfl)
  rw [herase] at h
  have hname := IfaceManager.named_iff.mp hfound
  rw [IfaceManager.names, hlist, List.map_append, List.map_cons, List.nodup_middle,
    List.nodup_cons, ← List.map_append] at hnames
  exact hnames.1 (hname ▸ List.mem_map_of_mem h)

/-- The delayed detach, which has left the list. -/
theorem delayedDetach_scheduled (h : IfacesScheduled m) (ifname : IfName) :
    IfacesScheduled (ifaceDetachWork w init
      { m with delayedDetach := m.delayedDetach.erase ifname } ⟨ifname, 0, none⟩).2.1 := by
  have hfind : IfaceManager.find { m with
      delayedDetach := (m.delayedDetach.erase ifname).filter (· ≠ ifname) } ifname =
        m.find ifname := rfl
  have hcount : ∀ other, other ≠ ifname →
      ((m.delayedDetach.erase ifname).filter (· ≠ ifname)).count other =
        m.delayedDetach.count other := by
    intro other hne
    rw [count_cancelled, if_neg hne, List.count_erase_of_ne hne]
  simp only [ifaceDetachWork, hfind]
  cases hiface : m.find ifname with
  | none =>
    refine ⟨h.names, fun iface hmem hunused => ?_⟩
    replace hmem : iface ∈ m.attachedIfaces := hmem
    have hne : iface.ifname ≠ ifname := by
      rintro rfl
      have hsome : (m.find iface.ifname).isSome = true :=
        find_isSome_iff.mpr (List.mem_map_of_mem hmem)
      rw [hiface] at hsome
      cases hsome
    exact (hcount _ hne).trans (h.pending iface hmem hunused)
  | some iface =>
    have hname := IfaceManager.ifname_of_find hiface
    simp only
    split_ifs with hunused
    · refine ⟨?_, fun other hmem hnow => ?_⟩
      · exact h.names.sublist (List.Sublist.map _ List.eraseP_sublist)
      · obtain ⟨hold, hne⟩ := mem_eraseP h.names hmem
        exact (hcount _ hne).trans (h.pending other hold hnow)
    · refine ⟨h.names, fun other hmem hnow => ?_⟩
      replace hmem : other ∈ m.attachedIfaces := hmem
      have hne : other.ifname ≠ ifname := by
        rintro rfl
        rw [find_of_mem h.names hmem] at hiface
        cases hiface
        exact hunused ⟨by simpa using hnow.1, hnow.2⟩
      exact (hcount _ hne).trans (h.pending other hmem hnow)

theorem count_foldl (ifname : IfName) (names delayed : List IfName) :
    (names.foldl (fun works ifname => works.filter (· ≠ ifname) ++ [ifname]) delayed).count ifname =
      if ifname ∈ names then 1 else delayed.count ifname := by
  induction names generalizing delayed with
  | nil => rfl
  | cons name names ih =>
    rw [List.foldl_cons, ih, count_rescheduled]
    by_cases hmem : ifname ∈ names
    · rw [if_pos hmem, if_pos (List.mem_cons_of_mem name hmem)]
    · rw [if_neg hmem]
      by_cases hname : ifname = name
      · rw [if_pos hname, if_pos (hname ▸ List.mem_cons_self)]
      · rw [if_neg hname, if_neg fun hin => hmem ((List.mem_cons.mp hin).resolve_left hname)]

theorem names_staDisconnect : (staDisconnectWork init m ipsta).2.1.names = m.names := by
  simp only [staDisconnectWork, IfaceManager.names, List.map_map]
  rfl

/-- The loss of a station. -/
theorem staDisconnectWork_scheduled (h : IfacesScheduled m) :
    IfacesScheduled (staDisconnectWork init m ipsta).2.1 where
  names := names_staDisconnect.symm ▸ h.names
  pending iface hmem hunused := by
    simp only [staDisconnectWork] at hmem ⊢
    rw [count_foldl, if_pos]
    refine List.mem_map_of_mem (List.mem_filter.mpr ⟨hmem, ?_⟩)
    simp [hunused.1, hunused.2]

theorem workFunc_scheduled (h : IfacesScheduled m) {work : Work}
    (hwork : ∀ ifname seqNum, work ≠ .detach ⟨ifname, seqNum, none⟩) :
    IfacesScheduled (workFunc w init m work).2.1 := by
  cases work with
  | cmd cmdW =>
    rw [workFunc, executeCmdWork]
    split <;> exact h
  | attach cmdW =>
    exact withIfname_scheduled h cmdW _ fun ifname data dataSize =>
      attachTo_scheduled h cmdW ifname data dataSize
  | updateEvent cmdW =>
    exact withIfname_scheduled h cmdW _ fun ifname data dataSize =>
      updateEventsOf_scheduled h cmdW ifname data dataSize
  | detach detachW =>
    obtain ⟨ifname, seqNum, ipsta⟩ := detachW
    cases ipsta with
    | none => exact absurd rfl (hwork ifname seqNum)
    | some ipsta => exact ifaceDetachWork_scheduled h ifname
  | disconn ipsta => exact staDisconnectWork_scheduled h

/-- Each step keeps the schedule. -/
theorem step_scheduled {a : ManagerAction} {m' : IfaceManager ε β} (h : IfacesScheduled m)
    (hstep : IfaceManager.step init m a = some m') : IfacesScheduled m' := by
  unfold IfaceManager.step at hstep
  split at hstep
  · cases hstep
  · next w work hwork =>
    cases hstep
    exact workFunc_scheduled h fun ifname seqNum hdetach => hwork ifname seqNum hdetach
  · next w ifname =>
    rw [Option.ite_none_right_eq_some] at hstep
    obtain ⟨-, hstep⟩ := hstep
    cases hstep
    exact delayedDetach_scheduled h ifname

theorem mem_names_store {iface : AttachedInterface ε} {ifname : IfName} (h : ifname ∈ m.names) :
    ifname ∈ (m.store iface).names := by
  rw [names_store]
  split
  · exact h
  · exact List.mem_append_left _ h

/-- A work of a station destroys no entry. -/
theorem workFunc_names {work : Work}
    (hwork : ∀ ifname seqNum, work ≠ .detach ⟨ifname, seqNum, none⟩) {name : IfName}
    (h : name ∈ m.names) : name ∈ (workFunc w init m work).2.1.names := by
  have hrequest : ∀ (cmdW : CmdWork)
      (rest : CmdWork → IfName → List UInt8 → Nat → Nat × IfaceManager ε β × List Sent),
      (∀ ifname data dataSize, name ∈ (rest cmdW ifname data dataSize).2.1.names) →
      name ∈ (withIfname w m cmdW rest).2.1.names := by
    intro cmdW rest hrest
    rw [withIfname]
    split
    · exact h
    · split_ifs
      · exact h
      · exact hrest _ _ _
  cases work with
  | cmd cmdW =>
    rw [workFunc, executeCmdWork]
    split <;> exact h
  | attach cmdW =>
    refine hrequest cmdW _ fun ifname data dataSize => ?_
    simp only [attachTo]
    split_ifs
    · exact h
    all_goals exact mem_names_store (m := { m with static := _ }) h
  | updateEvent cmdW =>
    refine hrequest cmdW _ fun ifname data dataSize => ?_
    rw [updateEventsOf]
    split
    · exact h
    · simp only
      split_ifs
      all_goals exact mem_names_store h
  | detach detachW =>
    obtain ⟨ifname, seqNum, ipsta⟩ := detachW
    cases ipsta with
    | none => exact absurd rfl (hwork ifname seqNum)
    | some ipsta =>
      have hfind : IfaceManager.find { m with
          delayedDetach := m.delayedDetach.filter (· ≠ ifname) } ifname = m.find ifname := rfl
      simp only [workFunc, ifaceDetachWork, hfind]
      cases m.find ifname with
      | none => exact h
      | some iface =>
        simp only
        split_ifs
        all_goals exact mem_names_store (m := { m with delayedDetach := _ }) h
  | disconn ipsta => exact names_staDisconnect.symm ▸ h

/-- The works of stations do not call the low-level detach. -/
theorem workFunc_withDetach (ifaceDetach : β → β) {work : Work}
    (hwork : ∀ ifname seqNum, work ≠ .detach ⟨ifname, seqNum, none⟩) :
    workFunc w (init.withDetach ifaceDetach) m work = workFunc w init m work := by
  cases work with
  | cmd | attach | updateEvent | disconn => rfl
  | detach detachW =>
    obtain ⟨ifname, seqNum, ipsta⟩ := detachW
    cases ipsta with
    | none => exact absurd rfl (hwork ifname seqNum)
    | some ipsta =>
      have hfind : IfaceManager.find { m with
          delayedDetach := m.delayedDetach.filter (· ≠ ifname) } ifname = m.find ifname := rfl
      simp only [workFunc, ifaceDetachWork, hfind]
      cases m.find ifname <;> rfl

theorem step_detachLawful {a : ManagerAction} {m' : IfaceManager ε β} (h : IfacesScheduled m)
    (hstep : IfaceManager.step init m a = some m') : DetachLawful init m a m' := by
  cases a with
  | submitted w work =>
    have hwork : ∀ ifname seqNum, work ≠ .detach ⟨ifname, seqNum, none⟩ := by
      rintro ifname seqNum rfl
      cases hstep
    have hsubmitted : ∀ init : ManagerInit ε β, IfaceManager.step init m (.submitted w work) =
        some (workFunc w init m work).2.1 := by
      intro init
      unfold IfaceManager.step
      split
      · next hdetach =>
        cases hdetach
        exact absurd rfl (hwork _ _)
      · next hsame =>
        cases hsame
        rfl
      · next hdelayed => cases hdelayed
    rw [hsubmitted] at hstep
    cases hstep
    refine ⟨fun iface hmem hgone => ?_, fun ifaceDetach hdiffers => ?_⟩
    · exact absurd (workFunc_names hwork (List.mem_map_of_mem hmem)) hgone
    · rw [hsubmitted, workFunc_withDetach ifaceDetach hwork] at hdiffers
      exact absurd rfl hdiffers
  | delayed w ifname =>
    simp only [IfaceManager.step] at hstep
    rw [Option.ite_none_right_eq_some] at hstep
    obtain ⟨hpending, hstep⟩ := hstep
    have hfind : IfaceManager.find { m with
        delayedDetach := (m.delayedDetach.erase ifname).filter (· ≠ ifname) } ifname =
          m.find ifname := rfl
    simp only [workFunc, ifaceDetachWork, hfind] at hstep
    cases hiface : m.find ifname with
    | none =>
      rw [hiface] at hstep
      cases hstep
      refine ⟨fun iface hmem hgone => absurd (List.mem_map_of_mem hmem) hgone,
        fun ifaceDetach hdiffers => ?_⟩
      simp only [IfaceManager.step, if_pos hpending, workFunc, ifaceDetachWork, hfind, hiface]
        at hdiffers
      exact absurd rfl hdiffers
    | some iface =>
      have hmem := List.mem_of_find?_eq_some hiface
      have hname := IfaceManager.ifname_of_find hiface
      by_cases hunused : iface.Unused
      · have hdetaches : DetachesUnused m (.delayed w ifname) iface :=
          ⟨hmem, hunused, w, by rw [hname]⟩
        refine ⟨fun other hother hgone => ?_, fun _ _ => ⟨iface, hdetaches⟩⟩
        have hcond : (!iface.keepAttached) = true ∧ iface.attachedClients = [] := by
          simp [hunused.1, hunused.2]
        rw [hiface] at hstep
        simp only [if_pos hcond] at hstep
        cases hstep
        by_cases hsame : other.ifname = ifname
        · have hfound := find_of_mem h.names hother
          rw [hsame, hiface] at hfound
          cases hfound
          exact hdetaches
        · refine absurd (List.mem_map_of_mem ?_) hgone
          refine (List.mem_eraseP_of_neg fun hnamed => ?_).mpr hother
          exact hsame (IfaceManager.named_iff.mp hnamed)
      · have hcond : ¬((!iface.keepAttached) = true ∧ iface.attachedClients = []) := fun hcond =>
          hunused ⟨by simpa using hcond.1, hcond.2⟩
        rw [hiface] at hstep
        simp only [if_neg hcond] at hstep
        cases hstep
        refine ⟨fun other hother hgone => absurd (List.mem_map_of_mem hother) hgone,
          fun ifaceDetach hdiffers => ?_⟩
        simp only [IfaceManager.step, if_pos hpending, workFunc, ifaceDetachWork, hfind, hiface,
          if_neg hcond] at hdiffers
        exact absurd rfl hdiffers

end Works

/-! The manager at its start. -/

theorem attachSeeds_spec {w : World} {init : ManagerInit ε β} {static static' : β}
    {seeds ifaces : List (AttachedInterface ε)}
    (h : attachSeeds w init static seeds = some (static', ifaces)) :
    ifaces.map (fun iface => (iface.ifname, iface.keepAttached)) =
      seeds.map fun iface => (iface.ifname, iface.keepAttached) := by
  induction seeds generalizing static static' ifaces with
  | nil =>
    cases h
    rfl
  | cons iface seeds ih =>
    simp only [attachSeeds] at h
    rw [Option.ite_none_left_eq_some] at h
    obtain ⟨⟨_, rest⟩, hrest, hpair⟩ := Option.map_eq_some_iff.mp h.2
    cases hpair
    rw [List.map_cons, List.map_cons, ih hrest]

theorem ifaceManagerInit_spec {w : World} {init : ManagerInit ε β} {static : β}
    {seedIfaces : List IfName} {m : IfaceManager ε β}
    (h : ifaceManagerInit w init static seedIfaces = some m) :
    m.names = seedIfaces ∧ ∀ iface ∈ m.attachedIfaces, iface.keepAttached = true := by
  obtain ⟨⟨static', ifaces⟩, hseeds, hm⟩ := Option.map_eq_some_iff.mp h
  cases hm
  have hspec := attachSeeds_spec hseeds
  rw [List.map_map] at hspec
  constructor
  · have hfst := congrArg (List.map Prod.fst) hspec
    simpa [IfaceManager.names, List.map_map, Function.comp_def] using hfst
  · intro iface hmem
    have hpair := List.mem_map_of_mem (f := fun iface => (iface.ifname, iface.keepAttached)) hmem
    rw [hspec] at hpair
    obtain ⟨_, -, heq⟩ := List.mem_map.mp hpair
    exact (congrArg Prod.snd heq).symm

/-- From the start of a manager on, every run keeps the schedule and every step of it detaches only
what nobody is attached to, just when the seeded interfaces have different names. -/
theorem interfaceLifetime {w : World} {init : ManagerInit ε β} {static : β}
    {seedIfaces : List IfName} {m0 : IfaceManager ε β}
    (hinit : ifaceManagerInit w init static seedIfaces = some m0) :
    LifetimeLawful init m0 ↔ seedIfaces.Nodup := by
  obtain ⟨hnames, hkept⟩ := ifaceManagerInit_spec hinit
  constructor
  · intro h
    obtain ⟨hscheduled, -⟩ := h [] m0 rfl
    exact hnames ▸ hscheduled.names
  · intro hnodup as m hrun
    have hstart : IfacesScheduled m0 := by
      refine ⟨hnames.symm ▸ hnodup, fun iface hmem hunused => ?_⟩
      cases (hkept iface hmem).symm.trans hunused.1
    have hscheduled : IfacesScheduled m :=
      exec_inv (fun hm hstep => step_scheduled hm hstep) hstart hrun
    exact ⟨hscheduled, fun a m' hstep => step_detachLawful hscheduled hstep⟩

/-- The interface that the daemon is started with. -/
def wlan0 : IfName := CString.copyFrom (ascii "wlan0") 16 ifName_pos

theorem interfaceLifetime_wlan0 :
    ∃ m0, ifaceManagerInit (deliveringWorld []) hapInit () [wlan0] = some m0 ∧
      LifetimeLawful hapInit m0 :=
  ⟨_, rfl, (interfaceLifetime (w := deliveringWorld []) rfl).mpr (List.nodup_singleton wlan0)⟩

/-- An interface that is named twice when the daemon is started has two entries. -/
theorem seeded_twice :
    ∃ m0, ifaceManagerInit (deliveringWorld []) hapInit () [wlan0, wlan0] = some m0 ∧
      m0.names = [wlan0, wlan0] ∧ ¬LifetimeLawful hapInit m0 := by
  refine ⟨_, rfl, rfl, fun h => ?_⟩
  have hnames := (h [] _ rfl).1.names
  exact (List.nodup_cons.mp hnames).1 List.mem_cons_self

end Dwpal.Daemon
