import Dwpal.Ext.ConnectionLife

/-! The steps of the connections of `dwpal_ext.c`, and how every interface lives along a run. -/

namespace Dwpal.Ext

open Daemon (DwpalRet)
open Machine

variable {U : Type} [DecidableEq U]

namespace LifeInv

variable {s s' : Connections U} {t : Thread U} {old new rest : List Frame} {i : Fin numOfServices}
  {service service' : DwpalService}

omit [DecidableEq U] in
theorem rest_leaf (h : LifeInv s) {frame : Frame} (hstack : s.stack t = frame :: rest) :
    ∀ below ∈ rest, below.leaf = false := by
  have hleaves := h.leaves t
  rwa [hstack, List.tail_cons] at hleaves

/-- A thread goes on to functions that neither send nor report. -/
theorem goes (h : LifeInv s) (new : List Frame) {frame : Frame} (hstack : s.stack t = frame :: rest)
    (hafter : s'.stack = Function.update s.stack t (new ++ rest))
    (hservice : ∀ i, (s'.table i).service = (s.table i).service) (hlog : s'.log = s.log)
    (hmutex : s'.contextMutex = s.contextMutex) (hmonitor : s'.monitor = s.monitor)
    (hframe : frame.leaf = false) (hnew : new.any Frame.leaf = false) (hsets : frame.sets = none)
    (hgreets : ∀ i ∈ new.filterMap Frame.greets, frame.greets = some i) : LifeInv s' := by
  have hturn : Turn s s' t [frame] new rest := ⟨hstack, hafter⟩
  refine h.moves hturn (h.rest_leaf hstack) hservice hlog hmutex (fun i hphase => ?_)
    (fun i hphase => ?_) ?_ hnew ?_ fun i hi => ?_
  · rwa [hmonitor]
  · obtain ⟨life, hlife⟩ := h.lives i
    exact hlife.status (hmonitor ▸ hphase)
  · rw [List.any_cons, hframe, List.any_nil]
    rfl
  · rw [List.filterMap_cons_none hsets, List.filterMap_nil]
  · exact List.mem_filterMap.mpr ⟨frame, List.mem_singleton_self frame, hgreets i hi⟩

/-- A thread leaves a function that neither sends nor reports. -/
theorem leaves_frame (h : LifeInv s) {frame : Frame} (hstack : s.stack t = frame :: rest)
    (hframe : frame.leaf = false) (hsets : frame.sets = none) : LifeInv (s.setStack t rest) :=
  h.goes [] hstack rfl (fun _ => rfl) rfl rfl rfl hframe rfl hsets (List.forall_mem_nil _)

/-! ### The steps of a command -/

theorem cmdReturn (h : LifeInv s) {frame : Frame} (hstack : s.stack t = frame :: rest)
    (hframe : frame.leaf = false) (hsets : frame.sets = none) (ret : DwpalRet) :
    LifeInv (s.cmdReturn t rest ret) :=
  h.goes [] hstack rfl (fun _ => rfl) rfl rfl rfl hframe rfl hsets (List.forall_mem_nil _)

theorem cmdFind (h : LifeInv s) {vapName : List UInt8}
    (hstack : s.stack t = .cmdFind vapName :: rest)
    (o : Outcome) : LifeInv (s.cmdFind t rest o vapName) := by
  rw [Connections.cmdFind]
  split_ifs
  · exact h.cmdReturn hstack rfl rfl _
  · split
    · exact h.cmdReturn hstack rfl rfl _
    · next i hget =>
      exact h.goes [.cmdLock i] hstack rfl (fun _ => rfl) rfl rfl rfl rfl rfl rfl
        (List.forall_mem_nil _)

/-- A command is sent to an interface that is usable. -/
theorem cmdLock (h : LifeInv s) (hservice : (s.table i).service = some service)
    (hstack : s.stack t = .cmdLock i :: rest) (hstep : s.cmdLock t rest i = some s') :
    LifeInv s' := by
  rw [Connections.cmdLock, Connections.withService_some hservice] at hstep
  split_ifs at hstep with hmutex hneeded hcontext
  · cases hstep
    exact h.cmdReturn hstack rfl rfl _
  · cases hstep
    exact h.cmdReturn hstack rfl rfl _
  · cases hstep
    have hturn : Turn s
        { (s.setStack t (.cmdSent i :: rest)).note i .sent with contextMutex := some t }
        t [.cmdLock i] [.cmdSent i] rest := ⟨hstack, rfl⟩
    have hup : service.isConnectionEstablishNeeded = false := (Bool.not_eq_true _).mp hneeded
    obtain ⟨life, hlife⟩ := h.lives i
    have husable : life.usable = true := by rw [hlife.usable_eq hservice, hup]; rfl
    refine h.touches hturn i (h.rest_leaf hstack) (List.forall_mem_nil _)
      (List.forall_mem_singleton.mpr rfl) (List.forall_mem_singleton.mpr rfl)
      (fun j hj => ⟨rfl, Function.update_of_ne hj ..⟩) (fun j _ => ⟨id, id⟩) (fun u j hframe => ?_)
      (fun k hframe => by cases List.mem_singleton.mp hframe)
      (.inr (.inr ⟨id, List.not_mem_nil⟩)) ?_
    · rcases hturn.mem hframe with hbefore | ⟨rfl, hentered⟩
      · exact absurd hbefore (h.not_sent hmutex u j)
      · cases List.mem_singleton.mp hentered
        refine ⟨rfl, fun other hother => ?_⟩
        cases hservice.symm.trans hother
        exact hup
    · exact ⟨life, hlife.steps hturn (Function.update_self ..)
        (if_pos husable) hservice hservice rfl rfl
        (hlife.usable_eq hservice) (fun hphase => hlife.owed hphase service hservice)
        (fun hphase => hlife.status hphase service hservice)
        (fun hany => hany.elim id fun hgreets => absurd hgreets List.not_mem_nil) rfl
        (fun k hframe => by cases List.mem_singleton.mp hframe)
        (fun k hframe => by cases List.mem_singleton.mp hframe)⟩

/-- Only the thread that has `context_mutex` sends a command. -/
theorem not_sent_after (h : LifeInv s) {j : Fin numOfServices}
    (hstack : s.stack t = .cmdSent j :: rest) (hturn : Turn s s' t [.cmdSent j] new rest)
    (hnew : ∀ i, .cmdSent i ∉ new) (u : Thread U) (i : Fin numOfServices) :
    .cmdSent i ∉ s'.stack u := by
  have howner := (h.sent t j (by rw [hstack]; exact List.mem_cons_self)).1
  intro hframe
  by_cases hu : u = t
  · rw [hturn.after, hu, Function.update_self] at hframe
    rcases List.mem_append.mp hframe with hframe | hframe
    · exact hnew i hframe
    · cases h.rest_leaf hstack _ hframe
  · rcases hturn.mem hframe with hframe | ⟨heq, -⟩
    · exact hu (Option.some_inj.mp ((h.sent u i hframe).1.symm.trans howner))
    · exact hu heq

/-- An interface that was usable is lost, and the thread is about to report it. -/
theorem loses (h : LifeInv s)
    (hturn : Turn s s' t old (.disconnectedSend i (s.losses i) :: new) rest)
    (hrest : ∀ frame ∈ rest, frame.leaf = false) (hnew : new.any Frame.leaf = false)
    (hold : ∀ j ∈ old.filterMap Frame.uses, j = i) (hsilent : ∀ k, .disconnectedSend i k ∉ old)
    (huses : new.filterMap Frame.uses = []) (hsets : old.filterMap Frame.sets = [])
    (hservice : (s.table i).service = some service)
    (hneeded : service.isConnectionEstablishNeeded = false) (hset : s.CallbackSet i)
    {context : Bool}
    (htable : s'.table = Function.update s.table i
      ⟨some { service with isConnectionEstablishNeeded := true }, context⟩)
    (hlog : s'.log = Function.update s.log i (s.log i ++ [.lost (s.losses i)]))
    (hacked : ∀ j, s.monitor = .reconnectedSent j → s'.monitor = .reconnectedSent j)
    (hstatus : ∀ j, s'.monitor = .reconnectStatus j → s.monitor = .reconnectStatus j)
    (hsent : ∀ u j, .cmdSent j ∉ s'.stack u) : LifeInv s' := by
  obtain ⟨-, hnone⟩ := not_leaf hnew
  have hafter : (s'.table i).service =
      some { service with isConnectionEstablishNeeded := true } := by
        rw [htable, Function.update_self]
  have hkept : s.CallbackSet i → s'.CallbackSet i := by
    rw [Connections.CallbackSet, Connections.CallbackSet, hafter]
    rintro hset _ ⟨⟩
    exact hset service hservice
  obtain ⟨life, hlife⟩ := h.lives i
  have hcount : s.losses i = life.losses := hlife.losses_eq
  have husable : life.usable = true := by rw [hlife.usable_eq hservice, hneeded]; rfl
  refine h.touches hturn i hrest (fun frame hframe => ?_) hold (fun j hj => ?_) (fun j hj => ?_)
    (fun j _ => ⟨hacked j, hstatus j⟩) (fun u j hframe => absurd hframe (hsent u j))
    (fun k hframe u hu => ?_) (.inr (.inr ⟨hkept, ?_⟩)) ?_
  · exact (Bool.not_eq_true _).mp (List.any_eq_false.mp hnew frame hframe)
  · change j ∈ i :: new.filterMap Frame.uses at hj
    rw [huses] at hj
    exact List.mem_singleton.mp hj
  · rw [htable, hlog, Function.update_of_ne hj, Function.update_of_ne hj]
    exact ⟨rfl, rfl⟩
  · rcases List.mem_cons.mp hframe with heq | hframe
    · cases heq
      have hlt := (hlife.reports u _ hu).1
      rw [hcount] at hlt
      exact absurd hlt (Nat.lt_irrefl _)
    · exact absurd hframe (hnone i k)
  · rw [hsets]
    exact List.not_mem_nil
  · refine ⟨{ life with usable := false, losses := life.losses + 1 }, ?_⟩
    refine ⟨?_, ?_, ?_, ?_, ?_, ?_, ?_⟩
    · refine hlife.noted (by rw [hlog, Function.update_self]) ?_
      rw [hcount]
      exact if_pos ⟨husable, rfl⟩
    · rw [hafter]
      rintro _ ⟨⟩
      rfl
    · rw [hafter]
      rintro hphase _ ⟨⟩ hreconnect
      exact hlife.owed (fun hbefore => hphase (hacked i hbefore)) service hservice hreconnect
    · rw [hafter]
      rintro hphase _ ⟨⟩
      exact hlife.status (hstatus i hphase) service hservice
    · refine hlife.attached_turn hturn fun hany => hany.elim id fun hgreets => ?_
      obtain ⟨frame, hframe, hgreet⟩ := List.mem_filterMap.mp hgreets
      rcases List.mem_cons.mp hframe with rfl | hframe
      · cases hgreet
      · have hin := List.mem_filterMap.mpr ⟨frame, hframe, Frame.uses_of_greets hgreet⟩
        rw [huses] at hin
        cases hin
    · intro u k hframe
      rcases hturn.mem hframe with hframe | ⟨-, hframe⟩
      · obtain ⟨hlost, hnot, hset⟩ := hlife.reports u k hframe
        exact ⟨Nat.lt_succ_of_lt hlost, hnot, hkept hset⟩
      · rcases List.mem_cons.mp hframe with heq | hframe
        · cases heq
          rw [hcount]
          exact ⟨Nat.lt_succ_self _, fun hin => Nat.lt_irrefl _ (hlife.lt_of_reported _ hin),
            hkept hset⟩
        · exact absurd hframe (hnone i k)
    · intro k hk
      rcases Nat.lt_succ_iff_lt_or_eq.mp hk with hk | rfl
      · refine (hlife.covered k hk).imp_right ?_
        rintro ⟨u, hu⟩
        rcases hturn.mem_of_before hu with hu | ⟨-, hu⟩
        · exact ⟨u, hu⟩
        · exact absurd hu (hsilent k)
      · refine .inr ⟨t, ?_⟩
        rw [hturn.after, Function.update_self, hcount]
        exact List.mem_cons_self

theorem cmdSent (h : LifeInv s) (hservice : (s.table i).service = some service)
    (hset : s.CallbackSet i) (hstack : s.stack t = .cmdSent i :: rest) (o : Outcome) :
    LifeInv (s.cmdSent t rest o i) := by
  obtain ⟨howner, hup⟩ := h.sent t i (by rw [hstack]; exact List.mem_cons_self)
  rw [Connections.cmdSent, Connections.withService_some hservice]
  split_ifs
  · have hturn : Turn s
        { (s.setStack t (.disconnectedSend i (s.losses i) :: .cmdFails :: rest)).lose i service
            (!o.lower.closes) with contextMutex := none }
        t [.cmdSent i] [.disconnectedSend i (s.losses i), .cmdFails] rest := ⟨hstack, rfl⟩
    exact h.loses hturn (h.rest_leaf hstack) rfl (List.forall_mem_singleton.mpr rfl)
      (fun k hframe => by cases List.mem_singleton.mp hframe) rfl rfl hservice
      (hup service hservice) hset
      rfl rfl (fun _ => id) (fun _ => id)
      (h.not_sent_after hstack hturn fun j hframe => by
        rcases List.mem_cons.mp hframe with hframe | hframe
        · cases hframe
        · cases List.mem_singleton.mp hframe)
  · have hturn : Turn s { s.cmdReturn t rest .success with contextMutex := none }
        t [.cmdSent i] [] rest := ⟨hstack, rfl⟩
    obtain ⟨life, hlife⟩ := h.lives i
    refine h.touches hturn i (h.rest_leaf hstack) (List.forall_mem_nil _)
      (List.forall_mem_singleton.mpr rfl) (List.forall_mem_nil _) (fun _ _ => ⟨rfl, rfl⟩)
      (fun _ _ => ⟨id, id⟩)
      (fun u j hframe =>
        absurd hframe (h.not_sent_after hstack hturn (fun _ => List.not_mem_nil) u j))
      (fun k hframe => by cases hframe) (.inr (.inr ⟨id, List.not_mem_nil⟩))
      ⟨life, hlife.same hturn rfl rfl id hlife.status
        (fun k hframe => by cases List.mem_singleton.mp hframe) (fun _ => List.not_mem_nil)
        fun hgreets => by cases hgreets⟩

/-- A loss is reported, to a callback that is set. -/
theorem disconnectedSend (h : LifeInv s) {k : Nat} (hservice : (s.table i).service = some service)
    (hstack : s.stack t = .disconnectedSend i k :: rest) :
    LifeInv (s.disconnectedSend t rest i k) := by
  obtain ⟨life, hlife⟩ := h.lives i
  have hframe : .disconnectedSend i k ∈ s.stack t := by rw [hstack]; exact List.mem_cons_self
  obtain ⟨hlost, hnot, hset⟩ := hlife.reports t k hframe
  rw [Connections.disconnectedSend, Connections.eventSend, Connections.withService_some hservice,
    if_pos (hset service hservice)]
  have hturn : Turn s
      (((s.setStack t rest).setStack t (.callback :: (s.setStack t rest).stack t)).note i
        (.disconnected k))
      t [.disconnectedSend i k] [.callback] rest := ⟨hstack, update_callback _ _ _⟩
  refine h.touches hturn i (h.rest_leaf hstack) (List.forall_mem_nil _)
    (List.forall_mem_singleton.mpr rfl) (List.forall_mem_nil _)
    (fun j hj => ⟨rfl, Function.update_of_ne hj ..⟩) (fun _ _ => ⟨id, id⟩)
    (h.sent_keep hturn (fun j hframe => by cases List.mem_singleton.mp hframe) rfl fun _ => id)
    (fun j hframe => by cases List.mem_singleton.mp hframe) (.inr (.inr ⟨id, List.not_mem_nil⟩)) ?_
  refine ⟨{ life with reported := k :: life.reported }, ?_⟩
  refine ⟨hlife.noted (Function.update_self ..) (if_pos ⟨hlost, hnot⟩), hlife.usable, hlife.owed,
    hlife.status, hlife.attached_turn hturn
      (fun hany => hany.elim id fun hgreets => by cases hgreets),
    fun u j hj => ?_, fun j hj => ?_⟩
  · have hne : j ≠ k := by
      rintro rfl
      rw [hturn.after] at hj
      by_cases hu : u = t
      · rw [hu, Function.update_self] at hj
        rcases List.mem_cons.mp hj with hj | hj
        · cases hj
        · cases h.rest_leaf hstack _ hj
      · rw [Function.update_of_ne hu] at hj
        exact hu (h.once u t i j hj hframe)
    rcases hturn.mem hj with hj | ⟨-, hj⟩
    · obtain ⟨hlost, hnot, hset⟩ := hlife.reports u j hj
      exact ⟨hlost, List.not_mem_cons_of_ne_of_not_mem hne hnot, hset⟩
    · cases List.mem_singleton.mp hj
  · rcases hlife.covered j hj with hj | ⟨u, hu⟩
    · exact .inl (List.mem_cons_of_mem k hj)
    · rcases hturn.mem_of_before hu with hu | ⟨-, hu⟩
      · exact .inr ⟨u, hu⟩
      · cases List.mem_singleton.mp hu
        exact .inl List.mem_cons_self

/-! ### The steps of an attach -/

theorem attachLock (h : LifeInv s) {vapName : List UInt8} {clb : Callback}
    (hstack : s.stack t = .attachLock vapName clb :: rest) {o : Outcome}
    (hstep : s.attachLock t rest o vapName clb = some s') : LifeInv s' := by
  rw [Connections.attachLock] at hstep
  split_ifs at hstep
  · cases hstep
    exact h.leaves_frame hstack rfl rfl
  · cases hstep
    exact h.leaves_frame hstack rfl rfl
  · cases hstep
    exact h.goes [.attachJoin vapName clb] hstack rfl (fun _ => rfl) rfl rfl rfl rfl rfl rfl
      (List.forall_mem_nil _)

/-- The monitor thread is cancelled where it is in no recovery. -/
theorem cancels (h : LifeInv s) {frame next : Frame} (hstack : s.stack t = frame :: rest)
    (hframe : frame.leaf = false) (hsets : frame.sets = none) (hnext : next.leaf = false)
    (hgreets : next.greets = none)
    (hstep : (s.threadCancel t).map (fun s => s.setStack t (next :: rest)) = some s') :
    LifeInv s' := by
  obtain ⟨stopped, hcancel, rfl⟩ := Option.map_eq_some_iff.mp hstep
  have hold : [frame].any Frame.leaf = false := by
    rw [List.any_cons, hframe, List.any_nil]
    rfl
  have hnew : [next].any Frame.leaf = false := by
    rw [List.any_cons, hnext, List.any_nil]
    rfl
  have hnone : [frame].filterMap Frame.sets = [] := List.filterMap_cons_none hsets
  have hnothing : [next].filterMap Frame.greets = [] := List.filterMap_cons_none hgreets
  rw [Connections.threadCancel] at hcancel
  split_ifs at hcancel with hself hoff
  · cases hcancel
    have hturn : Turn s (s.setStack t (next :: rest)) t [frame] [next] rest := ⟨hstack, rfl⟩
    refine h.moves hturn (h.rest_leaf hstack) (fun _ => rfl) rfl rfl (fun _ => id)
      (fun i => ?_) hold hnew hnone ?_
    · obtain ⟨life, hlife⟩ := h.lives i
      exact hlife.status
    · rw [hnothing]
      exact List.forall_mem_nil _
  · cases hcancel
    have hturn : Turn s (({ s with monitor := .off } : Connections U).setStack t (next :: rest)) t
      [frame] [next] rest := ⟨hstack, rfl⟩
    refine h.moves hturn (h.rest_leaf hstack) (fun _ => rfl) rfl rfl (fun i hphase => ?_)
      (fun i hphase => by cases hphase) hold hnew hnone ?_
    · rw [hphase] at hoff
      exact hoff.elim MonitorPhase.noConfusion MonitorPhase.noConfusion
    · rw [hnothing]
      exact List.forall_mem_nil _

/-- No function has to do with a service that is not there. -/
theorem none_uses (huse : UseInv s) (hservice : (s.table i).service = none) {u : Thread U}
    {frame : Frame} (hframe : frame ∈ s.stack u) : frame.uses ≠ some i := fun huses => by
  have hfound := huse.frames u frame hframe i huses
  rw [hservice] at hfound
  cases hfound

/-- A service that is made begins a life. -/
theorem creates (h : LifeInv s) (huse : UseInv s) (hservice : (s.table i).service = none)
    {type : DwpalConnectionType} {vapName : List UInt8} {clb : Callback} {frame : Frame}
    (hstack : s.stack t = frame :: rest) (huses : frame.uses = none)
    (hafter : s'.stack = Function.update s.stack t (.attachContext i clb :: rest))
    (htable : s'.table = Function.update s.table i
      { s.table i with service := some (newService type vapName) })
    (hlog : s'.log = Function.update s.log i []) (hmutex : s'.contextMutex = s.contextMutex)
    (hmonitor : s'.monitor = s.monitor) : LifeInv s' := by
  have hturn : Turn s s' t [frame] [.attachContext i clb] rest := ⟨hstack, hafter⟩
  have hnew : (s'.table i).service = some (newService type vapName) := by
    rw [htable, Function.update_self]
  have hnone : ∀ {u} {below : Frame}, below ∈ s.stack u → below.uses ≠ some i :=
    none_uses huse hservice
  refine h.touches hturn i (h.rest_leaf hstack) (List.forall_mem_nil _) ?_
    (List.forall_mem_singleton.mpr rfl) (fun j hj => ?_) (fun _ _ => ?_) (fun u j hframe => ?_)
    (fun k hframe => by cases List.mem_singleton.mp hframe) (.inr (.inl List.mem_cons_self))
    ⟨.start, ?_, ?_, ?_, ?_, ?_, ?_, ?_⟩
  · rw [List.filterMap_cons_none huses]
    exact List.forall_mem_nil _
  · rw [htable, hlog, Function.update_of_ne hj, Function.update_of_ne hj]
    exact ⟨rfl, rfl⟩
  · rw [hmonitor]
    exact ⟨id, id⟩
  · rcases hturn.mem hframe with hframe | ⟨-, hframe⟩
    · have hne : j ≠ i := fun heq => hnone hframe (heq ▸ rfl)
      rw [hmutex, htable, Function.update_of_ne hne]
      exact h.sent u j hframe
    · cases List.mem_singleton.mp hframe
  · rw [hlog, Function.update_self]
    rfl
  · rw [hnew]
    rintro _ ⟨⟩
    rfl
  · rw [hnew]
    rintro _ _ ⟨⟩ hreconnect
    cases hreconnect
  · intro hphase
    rw [hmonitor] at hphase
    have hfound := huse.monitor i (by rw [hphase]; rfl)
    rw [hservice] at hfound
    cases hfound
  · intro u below hframe hgreets
    rcases hturn.mem hframe with hframe | ⟨-, hframe⟩
    · exact absurd (Frame.uses_of_greets hgreets) (hnone hframe)
    · cases List.mem_singleton.mp hframe
      cases hgreets
  · intro u k hframe
    rcases hturn.mem hframe with hframe | ⟨-, hframe⟩
    · exact absurd rfl (hnone hframe)
    · cases List.mem_singleton.mp hframe
  · intro k hk
    cases hk

theorem attachCreate (h : LifeInv s) (huse : UseInv s) {vapName : List UInt8} {clb : Callback}
    (hstack : s.stack t = .attachCreate vapName clb :: rest) {o : Outcome}
    (hstep : s.attachCreate t rest o vapName clb = some s') : LifeInv s' := by
  rw [Connections.attachCreate] at hstep
  split_ifs at hstep
  split at hstep
  · next i table hcreate =>
    cases hstep
    rcases interfaceIndexCreate_success hcreate with ⟨hfound, -, rfl⟩ | ⟨hservice, rfl⟩
    · refine h.goes [.attachContext i clb] hstack rfl (fun _ => rfl) (if_neg ?_) rfl rfl rfl rfl rfl
        (List.forall_mem_nil _)
      rw [Option.isNone_iff_eq_none]
      exact Option.isSome_iff_ne_none.mp hfound
    · refine h.creates huse hservice hstack rfl rfl rfl (if_pos ?_) rfl rfl
      rw [hservice]
      rfl
  · cases hstep
    exact h.goes [.attachEnd] hstack rfl (fun _ => rfl) rfl rfl rfl rfl rfl rfl
      (List.forall_mem_nil _)

/-- The attach has a connection for the service, or has not. -/
theorem attachContext (h : LifeInv s) (hservice : (s.table i).service = some service)
    {clb : Callback} (hstack : s.stack t = .attachContext i clb :: rest) {o : Outcome}
    (hstep : s.attachContext t rest o i clb = some s') : LifeInv s' := by
  rw [Connections.attachContext, Connections.withService_some hservice] at hstep
  split_ifs at hstep with hmutex
  cases hstep
  generalize ((s.table i).context || o.lower.attach) = up
  have hturn : Turn s
      (((s.setSlot i ⟨some { service with isConnectionEstablishNeeded := !up }, up⟩).setStack t
        (.attachCallback i clb up :: rest)).note i (if up then .attached else .attachFailed))
      t [.attachContext i clb] [.attachCallback i clb up] rest := ⟨hstack, rfl⟩
  have hafter : (Function.update s.table i
      ⟨some { service with isConnectionEstablishNeeded := !up }, up⟩ i).service =
      some { service with isConnectionEstablishNeeded := !up } := by rw [Function.update_self]
  obtain ⟨life, hlife⟩ := h.lives i
  refine h.touches hturn i (h.rest_leaf hstack) (List.forall_mem_nil _)
    (List.forall_mem_singleton.mpr rfl) (List.forall_mem_singleton.mpr rfl)
    (fun j hj => ⟨congrArg Slot.service (Function.update_of_ne hj ..), Function.update_of_ne hj ..⟩)
    (fun _ _ => ⟨id, id⟩)
    (h.sent_free hturn (fun j hframe => by cases List.mem_singleton.mp hframe) hmutex)
    (fun k hframe => by cases List.mem_singleton.mp hframe) (.inr (.inl List.mem_cons_self)) ?_
  cases up with
  | true =>
    exact ⟨{ life with usable := true, attached := true },
      hlife.steps hturn (Function.update_self ..) rfl hservice hafter rfl rfl rfl
        (fun hphase => hlife.owed hphase service hservice)
        (fun hphase => hlife.status hphase service hservice) (fun _ => rfl) rfl
        (fun k hframe => by cases List.mem_singleton.mp hframe)
        (fun k hframe => by cases List.mem_singleton.mp hframe)⟩
  | false =>
    exact ⟨{ life with usable := false },
      hlife.steps hturn (Function.update_self ..) rfl hservice hafter rfl rfl rfl
        (fun hphase => hlife.owed hphase service hservice)
        (fun hphase => hlife.status hphase service hservice)
        (fun hany => hany.elim id fun hgreets => by cases hgreets) rfl
        (fun k hframe => by cases List.mem_singleton.mp hframe)
        (fun k hframe => by cases List.mem_singleton.mp hframe)⟩

/-- A field of the service is set that has nothing to do with its connection. -/
theorem sets (h : LifeInv s) (hturn : Turn s s' t old new rest)
    (hrest : ∀ frame ∈ rest, frame.leaf = false) (hold : old.any Frame.leaf = false)
    (hnew : new.any Frame.leaf = false) (holduses : ∀ j ∈ old.filterMap Frame.uses, j = i)
    (hnewuses : ∀ j ∈ new.filterMap Frame.uses, j = i)
    (hservice : (s.table i).service = some service)
    (htable : s'.table = Function.update s.table i { s.table i with service := some service' })
    (hneeded : service'.isConnectionEstablishNeeded = service.isConnectionEstablishNeeded)
    (hlog : s'.log = s.log) (hmutex : s'.contextMutex = s.contextMutex)
    (howed : s'.monitor ≠ .reconnectedSent i → service'.isReconnectEventNeeded = true →
      s.monitor ≠ .reconnectedSent i ∧ service.isReconnectEventNeeded = true)
    (hstatus : s'.monitor = .reconnectStatus i → service'.isReconnectEventNeeded = true)
    (hmonitor : ∀ j, j ≠ i → (s.monitor = .reconnectedSent j → s'.monitor = .reconnectedSent j) ∧
      (s'.monitor = .reconnectStatus j → s.monitor = .reconnectStatus j))
    (hgreets : ∀ i ∈ new.filterMap Frame.greets, i ∈ old.filterMap Frame.greets)
    (hkept : service.hostapEventCallback.isSome = true → service'.hostapEventCallback.isSome = true)
    (hset : service'.hostapEventCallback.isSome = true ∨ old.filterMap Frame.sets = []) :
    LifeInv s' := by
  obtain ⟨-, hold⟩ := not_leaf hold
  obtain ⟨hsent, hreport⟩ := not_leaf hnew
  have hafter : (s'.table i).service = some service' := by rw [htable, Function.update_self]
  have hother : ∀ j, j ≠ i → (s'.table j).service = (s.table j).service := fun j hj => by
    rw [htable, Function.update_of_ne hj]
  have hcallback : s.CallbackSet i → s'.CallbackSet i := by
    rw [Connections.CallbackSet, Connections.CallbackSet, hafter]
    rintro hbefore _ ⟨⟩
    exact hkept (hbefore service hservice)
  obtain ⟨life, hlife⟩ := h.lives i
  refine h.touches hturn i hrest (fun frame hframe => ?_) holduses hnewuses
    (fun j hj => ⟨hother j hj, congrFun hlog j⟩) hmonitor
    (h.sent_keep hturn hsent hmutex fun j hj => ?_)
    (fun k hframe => absurd hframe (hreport i k)) ?_
    ⟨life, hlife.turn hturn (by rw [hlog]; exact hlife.accepted) rfl rfl ?_ ?_ ?_ ?_ hcallback
      (hold i) (hreport i)⟩
  · exact (Bool.not_eq_true _).mp (List.any_eq_false.mp hnew frame (List.mem_of_mem_tail hframe))
  · by_cases heq : j = i
    · subst heq
      rw [hafter]
      rintro _ ⟨⟩
      rw [hneeded]
      exact hj service hservice
    · rw [hother j heq]
      exact hj
  · rcases hset with hset | hset
    · refine .inl ?_
      rw [Connections.CallbackSet, hafter]
      rintro _ ⟨⟩
      exact hset
    · rw [hset]
      exact .inr (.inr ⟨hcallback, List.not_mem_nil⟩)
  · rw [hafter]
    rintro _ ⟨⟩
    rw [hneeded]
    exact hlife.usable_eq hservice
  · rw [hafter]
    rintro hphase _ ⟨⟩ hreconnect
    obtain ⟨hphase, hreconnect⟩ := howed hphase hreconnect
    exact hlife.owed hphase service hservice hreconnect
  · rw [hafter]
    rintro hphase _ ⟨⟩
    exact hstatus hphase
  · refine fun hany => hany.elim id fun hgreet => ?_
    obtain ⟨frame, hframe, hgreet⟩ := List.mem_filterMap.mp (hgreets i hgreet)
    refine hlife.attached t frame ?_ hgreet
    rw [hturn.before]
    exact List.mem_append_left rest hframe

theorem attachCallback (h : LifeInv s) (hservice : (s.table i).service = some service)
    {clb : Callback} {up : Bool} (hstack : s.stack t = .attachCallback i clb up :: rest) :
    LifeInv (s.attachCallback t rest i clb up) := by
  obtain ⟨life, hlife⟩ := h.lives i
  rw [Connections.attachCallback, Connections.withService_some hservice]
  cases up with
  | true =>
    have hturn : Turn s
        ((s.setService i { service with hostapEventCallback := some clb }).setStack t
          (.connectedStatus i :: rest))
        t [.attachCallback i clb true] [.connectedStatus i] rest := ⟨hstack, rfl⟩
    exact h.sets hturn (h.rest_leaf hstack) rfl rfl
      (List.forall_mem_singleton.mpr rfl) (List.forall_mem_singleton.mpr rfl) hservice
      rfl rfl rfl rfl
      (fun hphase hreconnect => ⟨hphase, hreconnect⟩)
      (fun hphase => hlife.status hphase service hservice) (fun _ _ => ⟨id, id⟩)
      (List.forall_mem_singleton.mpr List.mem_cons_self) (fun _ => rfl) (.inl rfl)
  | false =>
    have hturn : Turn s
        ((s.setService i { service with hostapEventCallback := some clb }).setStack t
          (.attachEnd :: rest))
        t [.attachCallback i clb false] [.attachEnd] rest := ⟨hstack, rfl⟩
    exact h.sets hturn (h.rest_leaf hstack) rfl rfl
      (List.forall_mem_singleton.mpr rfl) (List.forall_mem_nil _) hservice rfl rfl rfl rfl
      (fun hphase hreconnect => ⟨hphase, hreconnect⟩)
      (fun hphase => hlife.status hphase service hservice) (fun _ _ => ⟨id, id⟩)
      (List.forall_mem_nil _) (fun _ => rfl) (.inl rfl)

theorem connectedStatus (h : LifeInv s) (hservice : (s.table i).service = some service)
    (hstack : s.stack t = .connectedStatus i :: rest) (o : Outcome) :
    LifeInv (s.connectedStatus t rest o i) := by
  rw [Connections.connectedStatus, Connections.withService_some hservice]
  split_ifs
  · exact h.goes [.cmdFind service.vapName.bytes, .connectedSend i] hstack rfl
      (fun _ => rfl) rfl rfl rfl rfl rfl rfl (List.forall_mem_singleton.mpr rfl)
  · exact h.goes [.attachEnd] hstack rfl (fun _ => rfl) rfl rfl rfl rfl rfl rfl
      (List.forall_mem_nil _)

theorem connectedSend (h : LifeInv s) (hservice : (s.table i).service = some service)
    (hstack : s.stack t = .connectedSend i :: rest) : LifeInv (s.connectedSend t rest i) := by
  have hends : LifeInv (s.setStack t (.attachEnd :: rest)) :=
    h.goes [.attachEnd] hstack rfl (fun _ => rfl) rfl rfl rfl rfl rfl rfl (List.forall_mem_nil _)
  rw [Connections.connectedSend, Connections.eventSend, Connections.withService_some hservice]
  split_ifs
  · obtain ⟨life, hlife⟩ := h.lives i
    have hattached : life.attached = true :=
      hlife.attached t _ (by rw [hstack]; exact List.mem_cons_self) rfl
    have hturn : Turn s (((s.setStack t (.attachEnd :: rest)).setStack t
      (.callback :: (s.setStack t (.attachEnd :: rest)).stack t)).note i .connectedOk) t
      [.connectedSend i] [.callback, .attachEnd] rest := ⟨hstack, update_callback _ _ _⟩
    refine h.touches hturn i (h.rest_leaf hstack) (List.forall_mem_singleton.mpr rfl)
      (List.forall_mem_singleton.mpr rfl) (List.forall_mem_nil _)
      (fun j hj => ⟨rfl, Function.update_of_ne hj ..⟩) (fun _ _ => ⟨id, id⟩)
      (h.sent_keep hturn (not_leaf rfl).1 rfl fun _ => id)
      (fun k hframe => absurd hframe ((not_leaf rfl).2 i k)) (.inr (.inr ⟨id, List.not_mem_nil⟩))
      ⟨life, hlife.steps hturn (Function.update_self ..)
        (if_pos hattached) hservice hservice rfl rfl
        (hlife.usable_eq hservice) (fun hphase => hlife.owed hphase service hservice)
        (fun hphase => hlife.status hphase service hservice)
        (fun hany => hany.elim id fun hgreets => by cases hgreets) rfl ((not_leaf rfl).2 i)
        ((not_leaf rfl).2 i)⟩
  · exact hends
  · exact hends

theorem attachEnd (h : LifeInv s) (hstack : s.stack t = .attachEnd :: rest) (o : Outcome) :
    LifeInv (s.attachEnd t rest o) := by
  have hturn : Turn s (s.attachEnd t rest o) t [.attachEnd] [] rest := ⟨hstack, rfl⟩
  refine h.moves hturn (h.rest_leaf hstack) (fun _ => rfl) rfl rfl (fun i hphase => ?_)
    (fun i hphase => ?_) rfl rfl rfl (List.forall_mem_nil _)
  · rw [Connections.attachEnd, if_neg fun hoff => ?_]
    · exact hphase
    · rw [hphase] at hoff
      exact MonitorPhase.noConfusion hoff.2.1
  · rw [Connections.attachEnd] at hphase
    obtain ⟨life, hlife⟩ := h.lives i
    split_ifs at hphase
    exact hlife.status hphase

/-! ### The steps of a detach -/

theorem detachLock (h : LifeInv s) {vapName : List UInt8}
    (hstack : s.stack t = .detachLock vapName :: rest) {o : Outcome}
    (hstep : s.detachLock t rest o vapName = some s') : LifeInv s' := by
  rw [Connections.detachLock] at hstep
  split_ifs at hstep
  · cases hstep
    exact h.leaves_frame hstack rfl rfl
  · split at hstep
    · cases hstep
      exact h.leaves_frame hstack rfl rfl
    · next j hget =>
      cases hstep
      exact h.goes [.detachJoin j] hstack rfl (fun _ => rfl) rfl rfl rfl rfl rfl rfl
        (List.forall_mem_nil _)

/-- A service is freed after all its losses were reported. -/
theorem detachFree (h : LifeInv s) (hstack : s.stack t = .detachFree i :: rest)
    (hquiet : s.Unused t i) : LifeInv (s.detachFree t rest i) := by
  obtain ⟨htail, hothers, hphase⟩ := hquiet
  rw [hstack, List.tail_cons] at htail
  have hturn : Turn s (s.detachFree t rest i) t [.detachFree i] [.detachContext i] rest :=
    ⟨hstack, rfl⟩
  have hnone : ∀ u, ∀ frame ∈ s.stack u, frame.uses ≠ some i := by
    intro u frame hframe
    by_cases hu : u = t
    · rw [hu, hstack] at hframe
      rcases List.mem_cons.mp hframe with rfl | hframe
      · rintro ⟨⟩
      · exact htail frame hframe
    · exact hothers u hu frame hframe
  have hfreed : ∀ {p : DwpalService → Prop},
      ∀ service ∈ ((s.detachFree t rest i).table i).service, p service := by
    intro p service hservice
    change service ∈
      (Function.update s.table i { s.table i with service := none } i).service at hservice
    rw [Function.update_self] at hservice
    cases hservice
  have hother : ∀ j, j ≠ i → (s.detachFree t rest i).table j = s.table j := fun j hj =>
    Function.update_of_ne hj ..
  obtain ⟨life, hlife⟩ := h.lives i
  refine h.touches hturn i (h.rest_leaf hstack) (List.forall_mem_nil _) (List.forall_mem_nil _)
    (List.forall_mem_nil _) (fun j hj => ⟨congrArg Slot.service (hother j hj), rfl⟩)
    (fun _ _ => ⟨id, id⟩) (fun u j hframe => ?_)
    (fun k hframe => by cases List.mem_singleton.mp hframe)
    (.inl hfreed)
    ⟨life, hlife.accepted, hfreed, fun _ => hfreed, fun _ => hfreed,
      hlife.attached_turn hturn (fun hany => hany.elim id fun hgreets => by cases hgreets),
      fun u k hframe => ?_, fun k hk => ?_⟩
  · rcases hturn.mem hframe with hframe | ⟨-, hframe⟩
    · rw [hother j fun heq => hnone u _ hframe (heq ▸ rfl)]
      exact h.sent u j hframe
    · cases List.mem_singleton.mp hframe
  · rcases hturn.mem hframe with hframe | ⟨-, hframe⟩
    · exact absurd rfl (hnone u _ hframe)
    · cases List.mem_singleton.mp hframe
  · refine (hlife.covered k hk).imp_right ?_
    rintro ⟨u, hu⟩
    exact absurd rfl (hnone u _ hu)

omit [DecidableEq U] in
theorem context_service {table : Services} {context : Bool} (j : Fin numOfServices) :
    (Function.update table i { table i with context := context } j).service =
      (table j).service := by
  by_cases heq : j = i
  · rw [heq, Function.update_self]
  · rw [Function.update_of_ne heq]

theorem detachContext (h : LifeInv s) (hstack : s.stack t = .detachContext i :: rest) {o : Outcome}
    (hstep : s.detachContext t rest o i = some s') : LifeInv s' := by
  rw [Connections.detachContext] at hstep
  split_ifs at hstep
  cases hstep
  exact h.goes [.attachEnd] hstack rfl context_service rfl rfl rfl rfl rfl rfl
    (List.forall_mem_nil _)

/-! ### The steps of the monitor thread -/

/-- The monitor thread goes on outside the functions that it calls, or enters one that neither sends
nor reports. -/
theorem monitors (h : LifeInv s) (new : List Frame) (hstack : s.stack .monitor = [])
    (hafter : s'.stack = Function.update s.stack .monitor new)
    (hservice : ∀ i, (s'.table i).service = (s.table i).service) (hlog : s'.log = s.log)
    (hmutex : s'.contextMutex = s.contextMutex) (hacked : ∀ i, s.monitor ≠ .reconnectedSent i)
    (hstatus : ∀ i, s'.monitor = .reconnectStatus i → ∀ service ∈ (s.table i).service,
      service.isReconnectEventNeeded = true)
    (hnew : new.any Frame.leaf = false) (hgreets : new.filterMap Frame.greets = []) :
      LifeInv s' := by
  have hturn : Turn s s' .monitor [] new [] := ⟨hstack, by rw [hafter, List.append_nil]⟩
  refine h.moves hturn (List.forall_mem_nil _) hservice hlog hmutex
    (fun i hphase => absurd hphase (hacked i)) hstatus rfl hnew rfl ?_
  rw [hgreets]
  exact List.forall_mem_nil _

theorem setMonitor (h : LifeInv s) (hstack : s.stack .monitor = [])
    (hacked : ∀ i, s.monitor ≠ .reconnectedSent i) {phase : MonitorPhase}
    (hstatus : ∀ i, phase ≠ .reconnectStatus i) : LifeInv (s.setMonitor phase) := by
  exact h.monitors [] hstack (update_nil hstack) (fun _ => rfl) rfl rfl hacked
    (fun i hphase => absurd hphase (hstatus i)) rfl rfl

omit [DecidableEq U] in
/-- The monitor thread is not behind a report. -/
theorem not_acked {phase : MonitorPhase} (hphase : s.monitor = phase)
    (hne : ∀ i, phase ≠ .reconnectedSent i) (i : Fin numOfServices) : s.monitor ≠
      .reconnectedSent i := by
  rw [hphase]
  exact hne i

theorem monitorLoop (h : LifeInv s) (hphase : s.monitor = .loop) (hstack : s.stack .monitor = [])
    (o : Outcome) : LifeInv (s.monitorLoop o) := by
  have hacked := not_acked hphase fun _ => MonitorPhase.noConfusion
  rw [Connections.monitorLoop]
  cases o.round with
  | ping => exact h.setMonitor hstack hacked fun _ => MonitorPhase.noConfusion
  | recover => exact h.setMonitor hstack hacked fun _ => MonitorPhase.noConfusion
  | exit => exact h.setMonitor hstack hacked fun _ => MonitorPhase.noConfusion

theorem ping (h : LifeInv s) (huse : UseInv s) {n : Nat} (hphase : s.monitor = .ping n)
    (hstack : s.stack .monitor = []) (o : Outcome) : LifeInv (s.ping o n) := by
  have hacked := not_acked hphase fun _ => MonitorPhase.noConfusion
  have hoff : s.monitor ≠ .off := by rw [hphase]; exact MonitorPhase.noConfusion
  rw [Connections.ping]
  split_ifs with hn hcontext
  · exact h.setMonitor hstack hacked fun _ => MonitorPhase.noConfusion
  · obtain ⟨service, hservice⟩ := huse.contextFound hoff hstack ((Bool.not_eq_false _).mp hcontext)
    rw [Connections.withService_some hservice]
    split_ifs
    · exact h.monitors [.cmdFind service.vapName.bytes] hstack rfl (fun _ => rfl) rfl rfl hacked
        (fun i hphase => MonitorPhase.noConfusion hphase) rfl rfl
    · exact h.setMonitor hstack hacked fun _ => MonitorPhase.noConfusion
  · exact h.setMonitor hstack hacked fun _ => MonitorPhase.noConfusion

theorem pingSent (h : LifeInv s) (hservice : (s.table i).service = some service)
    (hphase : s.monitor = .pingSent i) (hstack : s.stack .monitor = []) :
    LifeInv (s.pingSent i) := by
  have hacked := not_acked hphase fun _ => MonitorPhase.noConfusion
  rw [Connections.pingSent, Connections.withService_some hservice]
  split_ifs
  · exact h.setMonitor hstack hacked fun _ => MonitorPhase.noConfusion
  · exact h.setMonitor hstack hacked fun _ => MonitorPhase.noConfusion

/-- While the monitor thread goes on, no attach is about to set a callback. -/
theorem callbackSet (h : LifeInv s) (huse : UseInv s) (hoff : s.monitor ≠ .off)
    (hstack : s.stack .monitor = []) (i : Fin numOfServices) : s.CallbackSet i := by
  refine (h.callbacks i).resolve_right ?_
  rintro ⟨u, frame, hframe, hsets⟩
  rcases huse.joined u frame hframe (Frame.joined_of_sets hsets) with rfl | heq
  · rw [hstack] at hframe
    cases hframe
  · exact hoff heq

theorem pingFailed (h : LifeInv s) (huse : UseInv s) (hservice : (s.table i).service = some service)
    (hphase : s.monitor = .pingFailed i) (hstack : s.stack .monitor = []) {o : Outcome}
    (hstep : s.pingFailed o i = some s') : LifeInv s' := by
  have hacked := not_acked hphase fun _ => MonitorPhase.noConfusion
  have hoff : s.monitor ≠ .off := by rw [hphase]; exact MonitorPhase.noConfusion
  rw [Connections.pingFailed, Connections.withService_some hservice] at hstep
  split_ifs at hstep with hmutex hneeded
  · cases hstep
    have hturn : Turn s (((s.setMonitor (.ping (i + 1))).setStack .monitor
      [.disconnectedSend i (s.losses i)]).lose i service ((s.table i).context && !o.lower.detach))
      .monitor [] [.disconnectedSend i (s.losses i)] [] := ⟨hstack, rfl⟩
    refine h.loses hturn (List.forall_mem_nil _) rfl (List.forall_mem_nil _)
      (fun _ => List.not_mem_nil)
      rfl rfl hservice hneeded (h.callbackSet huse hoff hstack i) rfl rfl
      (fun j hphase => absurd hphase (hacked j)) (fun j hphase => MonitorPhase.noConfusion hphase)
      fun u j hframe => ?_
    rcases hturn.mem hframe with hframe | ⟨-, hframe⟩
    · exact h.not_sent hmutex u j hframe
    · cases List.mem_singleton.mp hframe
  · cases hstep
    exact h.setMonitor hstack hacked fun _ => MonitorPhase.noConfusion

/-- An interface comes back that was not usable. -/
theorem recoverAt (h : LifeInv s) (hacked : ∀ i, s.monitor ≠ .reconnectedSent i)
    (hstack : s.stack .monitor = []) {o : Outcome} (hstep : s.recoverAt o i = some s') :
    LifeInv s' := by
  rw [Connections.recoverAt] at hstep
  split at hstep
  · cases hstep
    exact h.setMonitor hstack hacked fun _ => MonitorPhase.noConfusion
  · next service hservice =>
    split_ifs at hstep with hnot hmutex hup
    · cases hstep
      exact h.setMonitor hstack hacked fun _ => MonitorPhase.noConfusion
    · cases hstep
      exact h.setMonitor hstack hacked fun _ => MonitorPhase.noConfusion
    · cases hstep
      have hneeded : service.isConnectionEstablishNeeded = true := (Bool.not_eq_false _).mp hup
      have hturn : Turn s (((s.setMonitor (.recovered i)).setSlot i
          ⟨some { service with
            isConnectionEstablishNeeded := false, isReconnectEventNeeded := true },
            true⟩).note i .recovered) .monitor [] [] [] := .none hstack rfl
      obtain ⟨life, hlife⟩ := h.lives i
      have husable : life.usable = false := by rw [hlife.usable_eq hservice, hneeded]; rfl
      have hafter : (Function.update s.table i
          ⟨some { service with
            isConnectionEstablishNeeded := false, isReconnectEventNeeded := true },
            true⟩ i).service =
          some { service with
            isConnectionEstablishNeeded := false, isReconnectEventNeeded := true } := by
        rw [Function.update_self]
      refine h.touches hturn i (List.forall_mem_nil _) (List.forall_mem_nil _)
        (List.forall_mem_nil _) (List.forall_mem_nil _)
        (fun j hj =>
          ⟨congrArg Slot.service (Function.update_of_ne hj ..), Function.update_of_ne hj ..⟩)
        (fun j _ => ⟨fun hphase => absurd hphase (hacked j),
          fun hphase => MonitorPhase.noConfusion hphase⟩)
        (h.sent_free hturn (fun _ => List.not_mem_nil) hmutex) (fun _ hframe => by cases hframe)
        (.inr (.inr ⟨?_, List.not_mem_nil⟩))
        ⟨{ life with usable := true, owed := true },
          hlife.steps hturn (Function.update_self ..)
            (by rw [Life.step, husable]; rfl) hservice hafter
            rfl rfl rfl (fun _ _ => rfl)
            (fun hphase => MonitorPhase.noConfusion hphase)
            (fun hany => hany.elim id fun hgreets => by cases hgreets) rfl
            (fun _ => List.not_mem_nil)
            (fun _ => List.not_mem_nil)⟩
      intro hset other hother
      cases hafter.symm.trans hother
      exact hset service hservice
    · cases hstep
      exact h.monitors [] hstack (update_nil hstack) context_service rfl rfl hacked
        (fun j hphase => MonitorPhase.noConfusion hphase) rfl rfl

theorem recover (h : LifeInv s) {n : Nat} (hphase : s.monitor = .recover n)
    (hstack : s.stack .monitor = []) {o : Outcome} (hstep : s.recover o n = some s') :
    LifeInv s' := by
  have hacked := not_acked hphase fun _ => MonitorPhase.noConfusion
  rw [Connections.recover] at hstep
  split_ifs at hstep
  · exact h.recoverAt hacked hstack hstep
  · cases hstep
    exact h.setMonitor hstack hacked fun _ => MonitorPhase.noConfusion

theorem recovered (h : LifeInv s) (hservice : (s.table i).service = some service)
    (hphase : s.monitor = .recovered i) (hstack : s.stack .monitor = []) (o : Outcome) :
    LifeInv (s.recovered o i) := by
  have hacked := not_acked hphase fun _ => MonitorPhase.noConfusion
  rw [Connections.recovered, Connections.withService_some hservice]
  split_ifs with hneeded
  · refine h.monitors [.cmdFind service.vapName.bytes] hstack rfl (fun _ => rfl) rfl rfl hacked
      (fun j hstatus other hother => ?_) rfl rfl
    cases hstatus
    cases hservice.symm.trans hother
    exact hneeded.1
  · exact h.setMonitor hstack hacked fun _ => MonitorPhase.noConfusion

/-- A recovery is reported that was not reported before. -/
theorem reconnectStatus (h : LifeInv s) (hservice : (s.table i).service = some service)
    (hphase : s.monitor = .reconnectStatus i) (hstack : s.stack .monitor = []) :
    LifeInv (s.reconnectStatus i) := by
  have hacked := not_acked hphase fun _ => MonitorPhase.noConfusion
  rw [Connections.reconnectStatus, Connections.eventSend, Connections.withService_some hservice]
  split_ifs
  · obtain ⟨life, hlife⟩ := h.lives i
    have howed : life.owed = true :=
      hlife.owed (hacked i) service hservice (hlife.status hphase service hservice)
    have hturn : Turn s (((s.setMonitor (.reconnectedSent i)).setStack .monitor
      (.callback :: s.stack .monitor)).note i .reconnectedOk) .monitor [] [.callback] [] := by
      refine ⟨hstack, ?_⟩
      show Function.update s.stack .monitor (.callback :: s.stack .monitor) = _
      rw [hstack]
      rfl
    exact h.touches hturn i (List.forall_mem_nil _) (List.forall_mem_nil _) (List.forall_mem_nil _)
      (List.forall_mem_nil _) (fun j hj => ⟨rfl, Function.update_of_ne hj ..⟩)
      (fun j _ => ⟨fun hphase => absurd hphase (hacked j),
        fun hphase => MonitorPhase.noConfusion hphase⟩)
      (h.sent_keep hturn (not_leaf rfl).1 rfl fun _ => id)
      (fun k hframe => absurd hframe ((not_leaf rfl).2 i k)) (.inr (.inr ⟨id, List.not_mem_nil⟩))
      ⟨{ life with owed := false },
        hlife.steps hturn (Function.update_self ..) (if_pos howed) hservice hservice rfl rfl
          (hlife.usable_eq hservice) (fun hphase => absurd rfl hphase)
          (fun hphase => MonitorPhase.noConfusion hphase)
          (fun hany => hany.elim id fun hgreets => by cases hgreets) rfl (fun _ => List.not_mem_nil)
          ((not_leaf rfl).2 i)⟩
  · exact h.setMonitor hstack hacked fun _ => MonitorPhase.noConfusion
  · exact h.setMonitor hstack hacked fun _ => MonitorPhase.noConfusion

theorem reconnectedSent (h : LifeInv s) (hservice : (s.table i).service = some service)
    (hphase : s.monitor = .reconnectedSent i) (hstack : s.stack .monitor = []) :
    LifeInv (s.reconnectedSent i) := by
  have hturn : Turn s ((s.setService i { service with isReconnectEventNeeded := false }).setMonitor
    (.recover (i + 1))) .monitor [] [] [] := .none hstack rfl
  rw [Connections.reconnectedSent, Connections.withService_some hservice]
  refine h.sets hturn (List.forall_mem_nil _) rfl rfl (List.forall_mem_nil _)
    (List.forall_mem_nil _) hservice rfl rfl rfl rfl (fun _ hreconnect => by cases hreconnect)
    (fun hphase => MonitorPhase.noConfusion hphase)
    (fun j hj => ⟨fun heq => ?_, fun hphase => MonitorPhase.noConfusion hphase⟩)
    (List.forall_mem_nil _)
    id (.inr rfl)
  rw [hphase] at heq
  cases heq
  exact absurd rfl hj

/-! ### The run -/

theorem goOn (h : LifeInv s) (huse : UseInv s) {frame : Frame} (hstack : s.stack t = frame :: rest)
    {o : Outcome} (hquiet : s.QuietFrame t o frame)
    (hnoticed : ∀ i, frame = .cmdSent i → s.CallbackSet i)
    (hstep : s.goOn t o rest frame = some s') :
    LifeInv s' := by
  cases frame with
  | cmdFind =>
    cases hstep
    exact h.cmdFind hstack o
  | cmdLock =>
    obtain ⟨service, hservice⟩ := huse.found hstack rfl
    exact h.cmdLock hservice hstack hstep
  | cmdSent i =>
    obtain ⟨service, hservice⟩ := huse.found hstack rfl
    cases hstep
    exact h.cmdSent hservice (hnoticed i rfl) hstack o
  | cmdFails =>
    cases hstep
    exact h.cmdReturn hstack rfl rfl .failure
  | disconnectedSend =>
    obtain ⟨service, hservice⟩ := huse.found hstack rfl
    cases hstep
    exact h.disconnectedSend hservice hstack
  | attachLock => exact h.attachLock hstack hstep
  | attachJoin => exact h.cancels hstack rfl rfl rfl rfl hstep
  | attachCreate => exact h.attachCreate huse hstack hstep
  | attachContext =>
    obtain ⟨service, hservice⟩ := huse.found hstack rfl
    exact h.attachContext hservice hstack hstep
  | attachCallback =>
    obtain ⟨service, hservice⟩ := huse.found hstack rfl
    cases hstep
    exact h.attachCallback hservice hstack
  | connectedStatus =>
    obtain ⟨service, hservice⟩ := huse.found hstack rfl
    cases hstep
    exact h.connectedStatus hservice hstack o
  | connectedSend =>
    obtain ⟨service, hservice⟩ := huse.found hstack rfl
    cases hstep
    exact h.connectedSend hservice hstack
  | attachEnd =>
    cases hstep
    exact h.attachEnd hstack o
  | detachLock => exact h.detachLock hstack hstep
  | detachJoin => exact h.cancels hstack rfl rfl rfl rfl hstep
  | detachFree =>
    cases hstep
    exact h.detachFree hstack hquiet
  | detachContext => exact h.detachContext hstack hstep
  | callback =>
    cases hstep
    exact h.leaves_frame hstack rfl rfl

theorem monitorStep (h : LifeInv s) (huse : UseInv s) (hstack : s.stack .monitor = []) {o : Outcome}
    {phase : MonitorPhase} (hphase : s.monitor = phase) (hstep : s.monitorStep o phase = some s') :
    LifeInv s' := by
  cases phase with
  | off => cases hstep
  | exited => cases hstep
  | loop =>
    cases hstep
    exact h.monitorLoop hphase hstack o
  | ping =>
    cases hstep
    exact h.ping huse hphase hstack o
  | pingSent =>
    obtain ⟨-, service, hservice⟩ := huse.foundPhase hphase rfl
    cases hstep
    exact h.pingSent hservice hphase hstack
  | pingFailed =>
    obtain ⟨-, service, hservice⟩ := huse.foundPhase hphase rfl
    exact h.pingFailed huse hservice hphase hstack hstep
  | recover => exact h.recover hphase hstack hstep
  | recovered =>
    obtain ⟨-, service, hservice⟩ := huse.foundPhase hphase rfl
    cases hstep
    exact h.recovered hservice hphase hstack o
  | reconnectStatus =>
    obtain ⟨-, service, hservice⟩ := huse.foundPhase hphase rfl
    cases hstep
    exact h.reconnectStatus hservice hphase hstack
  | reconnectedSent =>
    obtain ⟨-, service, hservice⟩ := huse.foundPhase hphase rfl
    cases hstep
    exact h.reconnectedSent hservice hphase hstack

/-- The application makes a call, from no function or from a callback. -/
theorem call (h : LifeInv s) (happlication : s.InApplication t) (call : Call) :
    LifeInv (s.setStack t (call.frame :: s.stack t)) := by
  have hturn : Turn s (s.setStack t (call.frame :: s.stack t)) t [] [call.frame] (s.stack t) :=
    ⟨rfl, rfl⟩
  have hbelow : ∀ frame ∈ s.stack t, frame.leaf = false := by
    have hleaves := h.leaves t
    rcases happlication with ⟨hnil, -⟩ | hcallback
    · rw [hnil]
      exact List.forall_mem_nil _
    · obtain ⟨below, hstack⟩ := List.head?_eq_some_iff.mp hcallback
      rw [hstack, List.tail_cons] at hleaves
      rw [hstack]
      exact List.forall_mem_cons.mpr ⟨rfl, hleaves⟩
  have hstatus : ∀ i, s.monitor = .reconnectStatus i → ∀ service ∈ (s.table i).service,
      service.isReconnectEventNeeded = true := fun i => (h.lives i).elim fun _ hlife => hlife.status
  cases call <;>
    exact h.moves hturn hbelow (fun _ => rfl) rfl rfl (fun _ => id) hstatus rfl rfl rfl
      (List.forall_mem_nil _)

theorem step (h : LifeInv s) (huse : UseInv s) {a : ConnAction U} (hquiet : s.Quiet a)
    (hnoticed : s.Noticed a) (hstep : s.step a = some s') : LifeInv s' := by
  cases a with
  | call t call =>
    simp only [Connections.step, Option.ite_none_right_eq_some] at hstep
    cases hstep.2
    exact h.call hstep.1.2 call
  | go t o =>
    simp only [Connections.step, Option.ite_none_left_eq_some] at hstep
    obtain ⟨-, hstep⟩ := hstep
    split at hstep
    · cases hstep
    · next frame rest hstack =>
      have hhead : frame ∈ (s.stack t).head? := by rw [hstack]; rfl
      have hframe : s.QuietFrame t o frame := hquiet frame hhead
      exact h.goOn huse hstack hframe (hnoticed frame hhead) hstep
  | monitor o =>
    simp only [Connections.step, Option.ite_none_right_eq_some] at hstep
    exact h.monitorStep huse hstep.1.2 rfl hstep.2

end LifeInv

/-- Where no command is lost before the callback is set, and a detach finds nobody else at work on
the interface, what happens to every interface is a life that the rules allow, in any interleaving:
the losses alternate with recoveries and attaches, each one is reported once or is about to be, by
one thread. -/
theorem interface_lives {s : Connections U} {as : List (ConnAction U)}
    (hquiet : Along Connections.step Connections.Quiet .initial as)
    (hnoticed : Along Connections.step Connections.Noticed .initial as)
    (hrun : exec Connections.step .initial as = some s) (i : Fin numOfServices) :
    ∃ life, exec Life.step .start (s.log i) = some life ∧
      (∀ service ∈ (s.table i).service, life.usable = !service.isConnectionEstablishNeeded) ∧
      (∀ t k, .disconnectedSend i k ∈ s.stack t → k ∉ life.reported) ∧
      ∀ k < life.losses, k ∈ life.reported ∨ ∃! t, .disconnectedSend i k ∈ s.stack t := by
  have hstep : ∀ {s a s'}, UseInv s ∧ LifeInv s → Connections.Quiet s a ∧ Connections.Noticed s a →
      Connections.step s a = some s' → UseInv s' ∧ LifeInv (U := U) s' := by
    rintro s a s' ⟨huse, h⟩ ⟨hok, hnoticed⟩ hstep
    exact ⟨huse.step hok hstep, h.step huse hok hnoticed hstep⟩
  obtain ⟨-, h⟩ := exec_along hstep ⟨UseInv.init, LifeInv.init⟩ (hquiet.and hnoticed) hrun
  obtain ⟨life, hlife⟩ := h.lives i
  refine ⟨life, hlife.accepted, hlife.usable, fun t k hframe => (hlife.reports t k hframe).2.1,
    fun k hk => (hlife.covered k hk).imp_right ?_⟩
  rintro ⟨t, ht⟩
  exact ⟨t, ht, fun u hu => h.once u t i k hu ht⟩

/-- An interface is attached and lost at once, which is reported, and the monitor thread recovers it
and reports that. -/
def lostAndRecovered : List (ConnAction Bool) :=
  .call (.user true) (.attach [97] 0) ::
  List.replicate 14 (.go (.user true) { Outcome.fine with sent := .failure, created := true }) ++
  [.monitor { Outcome.fine with round := .recover }, .monitor .fine, .monitor .fine,
    .go .monitor .fine, .go .monitor .fine, .go .monitor .fine, .monitor .fine]

theorem interface_lives_recovered :
    ∃ s, exec Connections.step .initial lostAndRecovered = some s ∧
      s.log 0 = [.attached, .sent, .lost 0, .disconnected 0, .recovered, .sent, .reconnectedOk] ∧
      ∃ life, exec Life.step .start (s.log 0) = some life ∧
        (∀ service ∈ (s.table 0).service, life.usable = !service.isConnectionEstablishNeeded) ∧
        (∀ t k, .disconnectedSend 0 k ∈ s.stack t → k ∉ life.reported) ∧
        ∀ k < life.losses, k ∈ life.reported ∨ ∃! t, .disconnectedSend 0 k ∈ s.stack t :=
  ⟨_, rfl, by decide +kernel,
    @interface_lives _ _ _ lostAndRecovered (by decide +kernel) (by decide +kernel) rfl 0⟩

end Dwpal.Ext
