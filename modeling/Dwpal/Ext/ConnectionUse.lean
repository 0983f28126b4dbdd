import Dwpal.Ext.Connection
import Dwpal.Ext.SlotTable

/-! Which functions of `dwpal_ext.c` use a service while another thread can free it: where an
interface is detached only while no function uses its service, no thread uses a service that is not
there. -/

namespace Dwpal.Ext

open Daemon (DwpalRet)
open Machine

/-- The service that the function uses when it goes on. -/
def Frame.uses : Frame → Option (Fin numOfServices)
  | .cmdLock i | .cmdSent i | .disconnectedSend i _ | .attachContext i _ | .attachCallback i _ _
  | .connectedStatus i | .connectedSend i => some i
  | _ => none

def MonitorPhase.uses : MonitorPhase → Option (Fin numOfServices)
  | .pingSent i | .pingFailed i | .recovered i | .reconnectStatus i | .reconnectedSent i => some i
  | _ => none

/-- The function has `attach_mutex`. -/
def Frame.locks : Frame → Bool
  | .attachJoin _ _ | .attachCreate _ _ | .attachContext _ _ | .attachCallback _ _ _
  | .connectedStatus _ | .connectedSend _ | .attachEnd | .detachJoin _ | .detachFree _
  | .detachContext _ => true
  | _ => false

/-- The function has cancelled the monitor thread. -/
def Frame.joined : Frame → Bool
  | .attachJoin _ _ | .detachJoin _ => false
  | frame => frame.locks

variable {U : Type} [DecidableEq U]

namespace Connections

/-- Nothing but the innermost function of the thread has to do with the service. -/
def Unused (s : Connections U) (t : Thread U) (i : Fin numOfServices) : Prop :=
  (∀ frame ∈ (s.stack t).tail, frame.uses ≠ some i) ∧
    (∀ u, u ≠ t → ∀ frame ∈ s.stack u, frame.uses ≠ some i) ∧ s.monitor.uses ≠ some i

/-- A service is freed while no function uses it, and what is below frees its context. -/
def QuietFrame (s : Connections U) (t : Thread U) (o : Outcome) : Frame → Prop
  | .detachFree i => s.Unused t i
  | .detachContext _ => o.lower.detach = true
  | _ => True

/-- Interfaces are detached only while nobody is at work on them. -/
def Quiet (s : Connections U) : ConnAction U → Prop
  | .go t o => ∀ frame ∈ (s.stack t).head?, s.QuietFrame t o frame
  | _ => True

end Connections

/-- A condition on the monitor thread and all the others. -/
instance decidableThreads {U : Type} [Fintype U] {p : Thread U → Prop} [DecidablePred p] :
    Decidable (∀ t, p t) :=
  decidable_of_iff (p .monitor ∧ ∀ u, p (.user u))
    ⟨fun h t => Thread.casesOn t h.1 h.2, fun h => ⟨h .monitor, fun u => h (.user u)⟩⟩

instance [Fintype U] (s : Connections U) (t : Thread U) (i : Fin numOfServices) :
    Decidable (s.Unused t i) :=
  inferInstanceAs (Decidable (_ ∧ _ ∧ _))

instance [Fintype U] (s : Connections U) (t : Thread U) (o : Outcome) : (frame : Frame) →
    Decidable (s.QuietFrame t o frame)
  | .detachFree i => inferInstanceAs (Decidable (s.Unused t i))
  | .detachContext _ => inferInstanceAs (Decidable (o.lower.detach = true))
  | .cmdFind _ | .cmdLock _ | .cmdSent _ | .cmdFails | .disconnectedSend _ _ | .attachLock _ _
  | .attachJoin _ _ | .attachCreate _ _ | .attachContext _ _ | .attachCallback _ _ _
  | .connectedStatus _ | .connectedSend _ | .attachEnd | .detachLock _ | .detachJoin _
  | .callback => .isTrue trivial

instance [Fintype U] (s : Connections U) : (a : ConnAction U) → Decidable (s.Quiet a)
  | .go t o => inferInstanceAs (Decidable (∀ frame ∈ (s.stack t).head?, s.QuietFrame t o frame))
  | .call _ _ | .monitor _ => .isTrue trivial

/-- `interfaceIndexCreate` finds a service that has no context, or makes a new one. -/
theorem interfaceIndexCreate_success {lower : LowerLevel} {table table' : Services}
    {type : DwpalConnectionType} {name : List UInt8} {i : Fin numOfServices}
    (h : interfaceIndexCreate lower table type name = (.success, i, table')) :
    (table i).service.isSome = true ∧ (table i).context = false ∧ table' = table ∨
      (table i).service = none ∧ table' = Function.update table i
        { table i with service := some (newService type name) } := by
  rw [interfaceIndexCreate] at h
  split at h
  · next idx hget =>
    obtain ⟨service, hservice, -⟩ := interfaceIndexGet_some hget
    simp only [Prod.mk.injEq] at h
    obtain ⟨hret, rfl, rfl⟩ := h
    refine .inl ⟨by rw [hservice]; rfl, ?_, rfl⟩
    cases hcontext : (table idx).context with
    | false => rfl
    | true =>
      rw [if_pos hcontext] at hret
      cases hret
  · split at h
    · next idx hfree =>
      split_ifs at h
      · cases h
        exact .inr ⟨free_of_find hfree, rfl⟩
      · cases h
    · cases h

omit [DecidableEq U] in
theorem Connections.withService_some {s : Connections U} {i : Fin numOfServices}
    {service : DwpalService} (hservice : (s.table i).service = some service)
    (k : DwpalService → Connections U) : s.withService i k = k service := by
  rw [Connections.withService, hservice]

/-- A callback is entered from the function that goes on below it. -/
theorem update_callback (stack : Thread U → List Frame) (t : Thread U) (frames : List Frame) :
    Function.update (Function.update stack t frames) t
      (.callback :: Function.update stack t frames t) =
        Function.update stack t (.callback :: frames) := by
  rw [Function.update_self, Function.update_idem]

theorem update_nil {stack : Thread U → List Frame} {t : Thread U} (hstack : stack t = []) :
    stack = Function.update stack t [] := by
  rw [← hstack, Function.update_eq_self]

/-- A step of a thread leaves functions and enters others, with the rest of its stack below. -/
structure Turn (s s' : Connections U) (t : Thread U) (old new rest : List Frame) : Prop where
  before : s.stack t = old ++ rest
  after : s'.stack = Function.update s.stack t (new ++ rest)

namespace Turn

variable {s s' : Connections U} {t : Thread U} {old new rest : List Frame}

/-- A thread that is in no function stays so. -/
theorem none (hstack : s.stack t = []) (hafter : s'.stack = s.stack) : Turn s s' t [] [] [] :=
  ⟨hstack, hafter.trans (update_nil hstack)⟩

theorem mem (h : Turn s s' t old new rest) {u : Thread U} {frame : Frame}
    (hframe : frame ∈ s'.stack u) : frame ∈ s.stack u ∨ u = t ∧ frame ∈ new := by
  rw [h.after] at hframe
  by_cases hu : u = t
  · subst hu
    rw [Function.update_self] at hframe
    rcases List.mem_append.mp hframe with hnew | hrest
    · exact .inr ⟨rfl, hnew⟩
    · rw [h.before]
      exact .inl (List.mem_append_right old hrest)
  · rw [Function.update_of_ne hu] at hframe
    exact .inl hframe

theorem mem_of_before (h : Turn s s' t old new rest) {u : Thread U} {frame : Frame}
    (hframe : frame ∈ s.stack u) : frame ∈ s'.stack u ∨ u = t ∧ frame ∈ old := by
  rw [h.after]
  by_cases hu : u = t
  · subst hu
    rw [Function.update_self]
    rw [h.before] at hframe
    rcases List.mem_append.mp hframe with hold | hrest
    · exact .inr ⟨rfl, hold⟩
    · exact .inl (List.mem_append_right new hrest)
  · rw [Function.update_of_ne hu]
    exact .inl hframe

theorem countP (h : Turn s s' t old new rest) (p : Frame → Bool) (u : Thread U) :
    (s'.stack u).countP p + (if u = t then old.countP p else 0) =
      (s.stack u).countP p + (if u = t then new.countP p else 0) := by
  rw [h.after]
  by_cases hu : u = t
  · subst hu
    rw [Function.update_self, h.before, List.countP_append, List.countP_append, if_pos rfl,
      if_pos rfl]
    omega
  · rw [Function.update_of_ne hu, if_neg hu, if_neg hu]

end Turn

/-- Every service that a function uses is there, and there is a service for each context that is not
about to be freed by a detach, which has stopped the monitor thread or is in it. -/
structure UseInv (s : Connections U) : Prop where
  alive : s.crashed = false
  frames : ∀ t, ∀ frame ∈ s.stack t, ∀ i ∈ frame.uses, (s.table i).service.isSome = true
  monitor : ∀ i ∈ s.monitor.uses, (s.table i).service.isSome = true
  contexts : ∀ i, (s.table i).context = true →
    (s.table i).service.isSome = true ∨ ∃ t, .detachContext i ∈ s.stack t
  joined : ∀ t, ∀ frame ∈ s.stack t, frame.joined = true → t = .monitor ∨ s.monitor = .off
  locked : ∀ t, (s.stack t).countP Frame.locks = if s.attachMutex = some t then 1 else 0

namespace UseInv

variable {s s' : Connections U} {t : Thread U} {old new rest : List Frame} {i : Fin numOfServices}

theorem init : UseInv (.initial : Connections U) where
  alive := rfl
  frames t frame hframe := by cases hframe
  monitor i hi := by cases hi
  contexts i hi := by cases hi
  joined t frame hframe := by cases hframe
  locked t := rfl

/-- The table keeps its services, and has no new contexts without one. -/
structure Grows (before after : Services) : Prop where
  services : ∀ i, (before i).service.isSome = true → (after i).service.isSome = true
  contexts : ∀ i, (after i).context = true →
    (before i).context = true ∨ (after i).service.isSome = true

theorem Grows.refl (table : Services) : Grows table table := ⟨fun _ hi => hi, fun _ hi => .inl hi⟩

theorem Grows.slot {table : Services} {slot : Slot} (hslot : slot.service.isSome = true) :
    Grows table (Function.update table i slot) := by
  refine ⟨fun j hj => ?_, fun j hj => ?_⟩
  · by_cases heq : j = i
    · rw [heq, Function.update_self]
      exact hslot
    · rwa [Function.update_of_ne heq]
  · by_cases heq : j = i
    · rw [heq, Function.update_self]
      exact .inr hslot
    · rw [Function.update_of_ne heq] at hj
      exact .inl hj

/-- A context is freed. -/
theorem Grows.noContext {table : Services} :
    Grows table (Function.update table i { table i with context := false }) := by
  refine ⟨fun j hj => ?_, fun j hj => ?_⟩
  · by_cases heq : j = i
    · subst heq
      rwa [Function.update_self]
    · rwa [Function.update_of_ne heq]
  · by_cases heq : j = i
    · rw [heq, Function.update_self] at hj
      cases hj
    · rw [Function.update_of_ne heq] at hj
      exact .inl hj

/-- What a step has to say of what it changes. -/
theorem turn (h : UseInv s) (hturn : Turn s s' t old new rest) (halive : s'.crashed = s.crashed)
    (hservices : ∀ i, (s.table i).service.isSome = true →
      (s'.table i).service.isSome = true ∨ ∀ u, ∀ frame ∈ s'.stack u, frame.uses ≠ some i)
    (hcontexts : ∀ i, (s'.table i).context = true → (s'.table i).service.isSome = true ∨
      .detachContext i ∈ new ∨ (s.table i).context = true ∧ .detachContext i ∉ old ∧
        ((s.table i).service.isSome = true → (s'.table i).service.isSome = true))
    (huses : ∀ i ∈ new.filterMap Frame.uses, (s'.table i).service.isSome = true)
    (hmonitor : ∀ i ∈ s'.monitor.uses, (s'.table i).service.isSome = true)
    (hjoined : new.any Frame.joined = true → t = .monitor ∨ s'.monitor = .off)
    (hoff : (s.monitor = .off → s'.monitor = .off) ∨
      ∀ u, ∀ frame ∈ s'.stack u, frame.joined = false)
    (hlocked : ∀ u, (if s'.attachMutex = some u then 1 else 0) +
        (if u = t then old.countP Frame.locks else 0) =
      (if s.attachMutex = some u then 1 else 0) + if u = t then new.countP Frame.locks else 0) :
    UseInv s' := by
  refine ⟨halive.trans h.alive, fun u frame hframe i hi => ?_, hmonitor, fun i hi => ?_,
    fun u frame hframe hjoin => ?_, fun u => ?_⟩
  · rcases hturn.mem hframe with hbefore | ⟨-, hnew⟩
    · exact (hservices i (h.frames u frame hbefore i hi)).resolve_right fun hnone =>
        hnone u frame hframe hi
    · exact huses i (List.mem_filterMap.mpr ⟨frame, hnew, hi⟩)
  · rcases hcontexts i hi with hi | hnew | ⟨hi, hold, hkept⟩
    · exact .inl hi
    · refine .inr ⟨t, ?_⟩
      rw [hturn.after, Function.update_self]
      exact List.mem_append_left rest hnew
    · rcases h.contexts i hi with hi | ⟨u, hu⟩
      · exact .inl (hkept hi)
      · rcases hturn.mem_of_before hu with hu | ⟨-, hu⟩
        · exact .inr ⟨u, hu⟩
        · exact absurd hu hold
  · rcases hoff with hoff | hnone
    · rcases hturn.mem hframe with hframe | ⟨rfl, hframe⟩
      · exact (h.joined u frame hframe hjoin).imp_right hoff
      · exact hjoined (List.any_eq_true.mpr ⟨frame, hframe, hjoin⟩)
    · rw [hnone u frame hframe] at hjoin
      cases hjoin
  · have hcount := hturn.countP Frame.locks u
    rw [h.locked u] at hcount
    have hsame := hlocked u
    omega

/-- A step that frees no service, and neither takes nor gives back `attach_mutex`. -/
theorem grows (h : UseInv s) (hturn : Turn s s' t old new rest) (halive : s'.crashed = s.crashed)
    (hgrows : Grows s.table s'.table)
    (huses : ∀ i ∈ new.filterMap Frame.uses, (s'.table i).service.isSome = true)
    (hmonitor : ∀ i ∈ s'.monitor.uses, (s'.table i).service.isSome = true)
    (hold : ∀ i, .detachContext i ∉ old)
    (hjoined : new.any Frame.joined = true → t = .monitor ∨ s'.monitor = .off)
    (hoff : s.monitor = .off → s'.monitor = .off)
    (hlocks : new.countP Frame.locks = old.countP Frame.locks)
    (hmutex : s'.attachMutex = s.attachMutex) : UseInv s' := by
  refine h.turn hturn halive (fun i hi => .inl (hgrows.services i hi))
    (fun i hi => ?_) huses hmonitor hjoined (.inl hoff) fun u => by rw [hmutex, hlocks]
  rcases hgrows.contexts i hi with hi | hi
  · exact .inr (.inr ⟨hi, hold i, hgrows.services i⟩)
  · exact .inl hi

/-- A step in a function, which does not change the monitor thread. -/
theorem moves (h : UseInv s) (new : List Frame) {frame : Frame} (hstack : s.stack t = frame :: rest)
    (hafter : s'.stack = Function.update s.stack t (new ++ rest)) (halive : s'.crashed = s.crashed)
    (hgrows : Grows s.table s'.table)
    (huses : ∀ i ∈ new.filterMap Frame.uses, (s'.table i).service.isSome = true)
    (hmonitor : s'.monitor = s.monitor) (hold : ∀ i, frame ≠ .detachContext i)
    (hjoined : new.any Frame.joined = true → frame.joined = true)
    (hlocks : new.countP Frame.locks = [frame].countP Frame.locks)
    (hmutex : s'.attachMutex = s.attachMutex) : UseInv s' := by
  have hframe : frame ∈ s.stack t := by rw [hstack]; exact List.mem_cons_self
  have hturn : Turn s s' t [frame] new rest := ⟨hstack, hafter⟩
  refine h.grows hturn halive hgrows huses (fun i hi => ?_)
    (fun i hi => hold i (List.mem_singleton.mp hi).symm) (fun hjoin => ?_) (fun hoff => ?_) hlocks
    hmutex
  · rw [hmonitor] at hi
    exact hgrows.services i (h.monitor i hi)
  · rw [hmonitor]
    exact h.joined t frame hframe (hjoined hjoin)
  · rw [hmonitor, hoff]

/-- The function uses a service that is there. -/
theorem found (h : UseInv s) {frame : Frame} (hstack : s.stack t = frame :: rest)
    (huses : frame.uses = some i) : ∃ service, (s.table i).service = some service :=
  Option.isSome_iff_exists.mp (h.frames t frame (by rw [hstack]; exact List.mem_cons_self) i huses)

/-! ### The steps of a command -/

theorem cmdReturn (h : UseInv s) {frame : Frame} (hstack : s.stack t = frame :: rest)
    (hlocks : frame.locks = false) (ret : DwpalRet) : UseInv (s.cmdReturn t rest ret) := by
  refine h.moves [] hstack rfl rfl (Grows.refl _) (List.forall_mem_nil _) rfl (fun _ heq => ?_)
    (fun hnil => by cases hnil) ?_ rfl
  · rw [heq] at hlocks
    cases hlocks
  · rw [List.countP_cons_of_neg (by rw [hlocks]; exact Bool.false_ne_true)]

theorem cmdFind (h : UseInv s) {vapName : List UInt8}
    (hstack : s.stack t = .cmdFind vapName :: rest)
    (o : Outcome) : UseInv (s.cmdFind t rest o vapName) := by
  rw [Connections.cmdFind]
  split_ifs
  · exact h.cmdReturn hstack rfl _
  · split
    · exact h.cmdReturn hstack rfl _
    · next i hget =>
      obtain ⟨service, hservice, -⟩ := interfaceIndexGet_some hget
      have hfound : (s.table i).service.isSome = true := by rw [hservice]; rfl
      exact h.moves [.cmdLock i] hstack rfl rfl (Grows.refl _)
        (List.forall_mem_singleton.mpr hfound)
        rfl (fun _ => Frame.noConfusion) (fun hnone => by cases hnone) rfl rfl

theorem cmdLock (h : UseInv s) (hstack : s.stack t = .cmdLock i :: rest)
    (hstep : s.cmdLock t rest i = some s') : UseInv s' := by
  obtain ⟨service, hservice⟩ := h.found hstack rfl
  have hfound : (s.table i).service.isSome = true := by rw [hservice]; rfl
  rw [Connections.cmdLock, Connections.withService_some hservice] at hstep
  split_ifs at hstep
  · cases hstep
    exact h.cmdReturn hstack rfl _
  · cases hstep
    exact h.cmdReturn hstack rfl _
  · cases hstep
    exact h.moves [.cmdSent i] hstack rfl rfl (Grows.refl _)
      (List.forall_mem_singleton.mpr hfound) rfl
      (fun _ => Frame.noConfusion) (fun hnone => by cases hnone) rfl rfl

theorem cmdSent (h : UseInv s) (hstack : s.stack t = .cmdSent i :: rest) (o : Outcome) :
    UseInv (s.cmdSent t rest o i) := by
  obtain ⟨service, hservice⟩ := h.found hstack rfl
  rw [Connections.cmdSent, Connections.withService_some hservice]
  split_ifs
  · refine h.moves [.disconnectedSend i (s.losses i), .cmdFails] hstack rfl rfl (Grows.slot rfl)
      (List.forall_mem_singleton.mpr ?_) rfl (fun _ => Frame.noConfusion)
      (fun hnone => by cases hnone) rfl rfl
    show (Function.update s.table i _ i).service.isSome = true
    rw [Function.update_self]
    rfl
  · exact h.moves [] hstack rfl rfl (Grows.refl _) (List.forall_mem_nil _) rfl
      (fun _ => Frame.noConfusion) (fun hnil => by cases hnil) rfl rfl

theorem disconnectedSend (h : UseInv s) {k : Nat}
    (hstack : s.stack t = .disconnectedSend i k :: rest) :
    UseInv (s.disconnectedSend t rest i k) := by
  obtain ⟨service, hservice⟩ := h.found hstack rfl
  rw [Connections.disconnectedSend, Connections.eventSend, Connections.withService_some hservice]
  split_ifs
  · exact h.moves [.callback] hstack (update_callback _ _ _) rfl (Grows.refl _)
      (List.forall_mem_nil _) rfl (fun _ => Frame.noConfusion) (fun hnone => by cases hnone) rfl rfl
  · exact h.moves [] hstack rfl rfl (Grows.refl _) (List.forall_mem_nil _) rfl
      (fun _ => Frame.noConfusion) (fun hnil => by cases hnil) rfl rfl

/-! ### The steps of an attach -/

/-- A function that has not taken `attach_mutex` is left, or a callback. -/
theorem leaves (h : UseInv s) {frame : Frame} (hstack : s.stack t = frame :: rest)
    (hlocks : frame.locks = false) : UseInv (s.setStack t rest) := by
  refine h.moves [] hstack rfl rfl (Grows.refl _) (List.forall_mem_nil _) rfl (fun _ heq => ?_)
    (fun hnil => by cases hnil) ?_ rfl
  · rw [heq] at hlocks
    cases hlocks
  · rw [List.countP_cons_of_neg (by rw [hlocks]; exact Bool.false_ne_true)]

/-- `attach_mutex` is taken. -/
theorem takes (h : UseInv s) {frame : Frame} (hstack : s.stack t = frame :: rest)
    (hframe : frame.locks = false) (hmutex : ¬ s.attachMutex.isSome = true) {next : Frame}
    (hnext : next.locks = true) (hjoined : next.joined = false) (huses : next.uses = none) :
    UseInv { s.setStack t (next :: rest) with attachMutex := some t } := by
  have hfree : s.attachMutex = none := Option.not_isSome_iff_eq_none.mp hmutex
  have hturn : Turn s { s.setStack t (next :: rest) with attachMutex := some t } t [frame] [next]
    rest := ⟨hstack, rfl⟩
  refine h.turn hturn rfl (fun i hi => .inl hi) (fun i hi => .inr (.inr ⟨hi, fun hmem => ?_, id⟩))
    (fun i hi => ?_) h.monitor (fun hany => ?_) (.inl id) fun u => ?_
  · rw [← List.mem_singleton.mp hmem] at hframe
    cases hframe
  · simp [huses] at hi
  · simp [hjoined] at hany
  · rw [hfree, List.countP_singleton, List.countP_singleton, hframe, hnext]
    by_cases hu : u = t
    · simp [hu]
    · simp [hu, Ne.symm hu]

theorem attachLock (h : UseInv s) {vapName : List UInt8} {clb : Callback}
    (hstack : s.stack t = .attachLock vapName clb :: rest) {o : Outcome}
    (hstep : s.attachLock t rest o vapName clb = some s') : UseInv s' := by
  rw [Connections.attachLock] at hstep
  split_ifs at hstep with hrefused hmutex
  · cases hstep
    exact h.leaves hstack rfl
  · cases hstep
    exact h.leaves hstack rfl
  · cases hstep
    exact h.takes hstack rfl hmutex rfl rfl rfl

/-- The monitor thread is cancelled by the thread that has `attach_mutex`. -/
theorem cancels (h : UseInv s) {frame next : Frame} (hstack : s.stack t = frame :: rest)
    (hframe : frame.locks = true) (hold : ∀ i, frame ≠ .detachContext i) (hnext : next.locks = true)
    (huses : next.uses = none)
    (hstep : (s.threadCancel t).map (fun s => s.setStack t (next :: rest)) = some s') :
    UseInv s' := by
  have hlocks : [next].countP Frame.locks = [frame].countP Frame.locks := by
    rw [List.countP_singleton, List.countP_singleton, hframe, hnext]
  obtain ⟨stopped, hcancel, rfl⟩ := Option.map_eq_some_iff.mp hstep
  rw [Connections.threadCancel] at hcancel
  split_ifs at hcancel with hself hoff
  · cases hcancel
    have hturn : Turn s (s.setStack t (next :: rest)) t [frame] [next] rest := ⟨hstack, rfl⟩
    exact h.grows hturn rfl (Grows.refl _) (by simp [huses]) h.monitor
      (fun i hi => hold i (List.mem_singleton.mp hi).symm) (fun _ => .inl hself) id hlocks rfl
  · cases hcancel
    have hturn : Turn s (({ s with monitor := .off } : Connections U).setStack t (next :: rest)) t
      [frame] [next] rest := ⟨hstack, rfl⟩
    exact h.grows hturn rfl (Grows.refl _) (by simp [huses]) (fun i hi => by cases hi)
      (fun i hi => hold i (List.mem_singleton.mp hi).symm) (fun _ => .inr rfl)
      (fun _ => rfl) hlocks rfl

theorem attachCreate (h : UseInv s) {vapName : List UInt8} {clb : Callback}
    (hstack : s.stack t = .attachCreate vapName clb :: rest) {o : Outcome}
    (hstep : s.attachCreate t rest o vapName clb = some s') : UseInv s' := by
  rw [Connections.attachCreate] at hstep
  split_ifs at hstep
  split at hstep
  · next i table hcreate =>
    cases hstep
    have hgrows : Grows s.table table := by
      rcases interfaceIndexCreate_success hcreate with ⟨-, -, rfl⟩ | ⟨-, rfl⟩
      · exact Grows.refl _
      · exact Grows.slot rfl
    have hfound : (table i).service.isSome = true := by
      rcases interfaceIndexCreate_success hcreate with ⟨hfound, -, rfl⟩ | ⟨-, rfl⟩
      · exact hfound
      · rw [Function.update_self]
        rfl
    exact h.moves [.attachContext i clb] hstack rfl rfl hgrows
      (List.forall_mem_singleton.mpr hfound)
      rfl (fun _ => Frame.noConfusion) (fun _ => rfl) rfl rfl
  · cases hstep
    exact h.moves [.attachEnd] hstack rfl rfl (Grows.refl _) (List.forall_mem_nil _) rfl
      (fun _ => Frame.noConfusion) (fun _ => rfl) rfl rfl

theorem attachContext (h : UseInv s) {clb : Callback}
    (hstack : s.stack t = .attachContext i clb :: rest) {o : Outcome}
    (hstep : s.attachContext t rest o i clb = some s') : UseInv s' := by
  obtain ⟨service, hservice⟩ := h.found hstack rfl
  rw [Connections.attachContext, Connections.withService_some hservice] at hstep
  split_ifs at hstep
  cases hstep
  refine h.moves [.attachCallback i clb ((s.table i).context || o.lower.attach)] hstack rfl rfl
    (Grows.slot rfl) (List.forall_mem_singleton.mpr ?_) rfl (fun _ => Frame.noConfusion)
    (fun _ => rfl) rfl rfl
  show (Function.update s.table i _ i).service.isSome = true
  rw [Function.update_self]
  rfl

theorem attachCallback (h : UseInv s) {clb : Callback} {up : Bool}
    (hstack : s.stack t = .attachCallback i clb up :: rest) :
    UseInv (s.attachCallback t rest i clb up) := by
  obtain ⟨service, hservice⟩ := h.found hstack rfl
  rw [Connections.attachCallback, Connections.withService_some hservice]
  cases up with
  | true =>
    refine h.moves [.connectedStatus i] hstack rfl rfl (Grows.slot rfl)
      (List.forall_mem_singleton.mpr ?_) rfl (fun _ => Frame.noConfusion) (fun _ => rfl) rfl rfl
    show (Function.update s.table i _ i).service.isSome = true
    rw [Function.update_self]
    rfl
  | false =>
    exact h.moves [.attachEnd] hstack rfl rfl (Grows.slot rfl) (List.forall_mem_nil _) rfl
      (fun _ => Frame.noConfusion) (fun _ => rfl) rfl rfl

theorem connectedStatus (h : UseInv s) (hstack : s.stack t = .connectedStatus i :: rest)
    (o : Outcome) : UseInv (s.connectedStatus t rest o i) := by
  obtain ⟨service, hservice⟩ := h.found hstack rfl
  have hfound : (s.table i).service.isSome = true := by rw [hservice]; rfl
  rw [Connections.connectedStatus, Connections.withService_some hservice]
  split_ifs
  · exact h.moves [.cmdFind service.vapName.bytes, .connectedSend i] hstack rfl rfl (Grows.refl _)
      (List.forall_mem_singleton.mpr hfound) rfl (fun _ => Frame.noConfusion) (fun _ => rfl) rfl rfl
  · exact h.moves [.attachEnd] hstack rfl rfl (Grows.refl _) (List.forall_mem_nil _) rfl
      (fun _ => Frame.noConfusion) (fun _ => rfl) rfl rfl

theorem connectedSend (h : UseInv s) (hstack : s.stack t = .connectedSend i :: rest) :
    UseInv (s.connectedSend t rest i) := by
  obtain ⟨service, hservice⟩ := h.found hstack rfl
  have hends : UseInv (s.setStack t (.attachEnd :: rest)) :=
    h.moves [.attachEnd] hstack rfl rfl (Grows.refl _) (List.forall_mem_nil _) rfl
      (fun _ => Frame.noConfusion) (fun _ => rfl) rfl rfl
  rw [Connections.connectedSend, Connections.eventSend, Connections.withService_some hservice]
  split_ifs
  · exact h.moves [.callback, .attachEnd] hstack (update_callback _ _ _) rfl (Grows.refl _)
      (List.forall_mem_nil _) rfl (fun _ => Frame.noConfusion) (fun _ => rfl) rfl rfl
  · exact hends
  · exact hends

/-- Nobody else has `attach_mutex`. -/
theorem owns (h : UseInv s) {frame : Frame} (hstack : s.stack t = frame :: rest)
    (hframe : frame.locks = true) :
    s.attachMutex = some t ∧ (∀ g ∈ rest, g.locks = false) ∧
      ∀ u, u ≠ t → ∀ g ∈ s.stack u, g.locks = false := by
  have hcount := h.locked t
  rw [hstack, List.countP_cons_of_pos hframe] at hcount
  split_ifs at hcount with howner
  · have hrest : rest.countP Frame.locks = 0 := Nat.succ.inj hcount
    refine ⟨howner, fun g hg => (Bool.not_eq_true _).mp (List.countP_eq_zero.mp hrest g hg),
      fun u hu g hg => ?_⟩
    have hnone := h.locked u
    rw [howner, if_neg fun heq => hu (Option.some_inj.mp heq).symm] at hnone
    exact (Bool.not_eq_true _).mp (List.countP_eq_zero.mp hnone g hg)

theorem not_joined {frame : Frame} (hlocks : frame.locks = false) : frame.joined = false := by
  cases frame with
  | attachJoin | detachJoin => rfl
  | _ => exact hlocks

theorem attachEnd (h : UseInv s) (hstack : s.stack t = .attachEnd :: rest) (o : Outcome) :
    UseInv (s.attachEnd t rest o) := by
  obtain ⟨howner, hrest, hothers⟩ := h.owns hstack rfl
  have hturn : Turn s (s.attachEnd t rest o) t [.attachEnd] [] rest := ⟨hstack, rfl⟩
  refine h.turn hturn rfl (fun i hi => .inl hi) (fun i hi => .inr (.inr ⟨hi, ?_, id⟩))
    (List.forall_mem_nil _) (fun i hi => ?_) (fun hnil => by cases hnil)
    (.inr fun u frame hframe => not_joined ?_) fun u => ?_
  · exact fun hmem => by cases List.mem_singleton.mp hmem
  · simp only [Connections.attachEnd] at hi
    split_ifs at hi
    · cases hi
    · exact h.monitor i hi
  · rw [hturn.after] at hframe
    by_cases hu : u = t
    · rw [hu, Function.update_self] at hframe
      exact hrest frame hframe
    · rw [Function.update_of_ne hu] at hframe
      exact hothers u hu frame hframe
  · rw [howner]
    by_cases hu : u = t
    · simp [hu, Connections.attachEnd, Frame.locks]
    · simp [hu, Ne.symm hu, Connections.attachEnd]

/-! ### The steps of a detach -/

theorem detachLock (h : UseInv s) {vapName : List UInt8}
    (hstack : s.stack t = .detachLock vapName :: rest) {o : Outcome}
    (hstep : s.detachLock t rest o vapName = some s') : UseInv s' := by
  rw [Connections.detachLock] at hstep
  split_ifs at hstep with hrefused hmutex
  · cases hstep
    exact h.leaves hstack rfl
  · split at hstep
    · cases hstep
      exact h.leaves hstack rfl
    · cases hstep
      exact h.takes hstack rfl hmutex rfl rfl rfl

theorem detachFree (h : UseInv s) (hstack : s.stack t = .detachFree i :: rest)
    (hquiet : s.Unused t i) : UseInv (s.detachFree t rest i) := by
  obtain ⟨htail, hothers, hphase⟩ := hquiet
  rw [hstack, List.tail_cons] at htail
  have hturn : Turn s (s.detachFree t rest i) t [.detachFree i] [.detachContext i] rest :=
    ⟨hstack, rfl⟩
  have hother : ∀ j, j ≠ i → ((s.detachFree t rest i).table j) = s.table j := fun j hj =>
    Function.update_of_ne hj ..
  refine h.turn hturn rfl (fun j hj => ?_) (fun j hj => ?_) (List.forall_mem_nil _) (fun j hj => ?_)
    (fun _ => h.joined t (.detachFree i) (by rw [hstack]; exact List.mem_cons_self) rfl) (.inl id)
    fun u => by rfl
  · by_cases heq : j = i
    · refine .inr fun u frame hframe => ?_
      rw [hturn.after] at hframe
      by_cases hu : u = t
      · rw [hu, Function.update_self] at hframe
        rcases List.mem_cons.mp hframe with rfl | hframe
        · rintro ⟨⟩
        · rw [heq]
          exact htail frame hframe
      · rw [Function.update_of_ne hu] at hframe
        rw [heq]
        exact hothers u hu frame hframe
    · rw [hother j heq]
      exact .inl hj
  · by_cases heq : j = i
    · rw [heq]
      exact .inr (.inl List.mem_cons_self)
    · have hnot : Frame.detachContext j ∉ [.detachFree i] := fun hmem => by
        cases List.mem_singleton.mp hmem
      rw [hother j heq] at hj ⊢
      exact .inr (.inr ⟨hj, hnot, id⟩)
  · have hne : j ≠ i := fun heq => hphase (heq ▸ hj)
    rw [hother j hne]
    exact h.monitor j hj

theorem detachContext (h : UseInv s) (hstack : s.stack t = .detachContext i :: rest) {o : Outcome}
    (hquiet : o.lower.detach = true) (hstep : s.detachContext t rest o i = some s') :
    UseInv s' := by
  rw [Connections.detachContext] at hstep
  split_ifs at hstep
  cases hstep
  have hturn : Turn s ((s.setSlot i
    { s.table i with context := (s.table i).context && !o.lower.detach }).setStack t
      (.attachEnd :: rest)) t [.detachContext i] [.attachEnd] rest := ⟨hstack, rfl⟩
  have hgrows : Grows s.table (Function.update s.table i
      { s.table i with context := (s.table i).context && !o.lower.detach }) := by
    rw [hquiet, Bool.not_true, Bool.and_false]
    exact Grows.noContext
  refine h.turn hturn rfl (fun j hj => .inl (hgrows.services j hj)) (fun j hj => ?_)
    (List.forall_mem_nil _) (fun j hj => hgrows.services j (h.monitor j hj))
    (fun _ => h.joined t (.detachContext i) (by rw [hstack]; exact List.mem_cons_self) rfl)
    (.inl id)
    fun u => by rfl
  by_cases heq : j = i
  · subst heq
    change (Function.update s.table j _ j).context = true at hj
    rw [Function.update_self, hquiet] at hj
    simp at hj
  · refine .inr (.inr ⟨?_, fun hmem => ?_, hgrows.services j⟩)
    · change (Function.update s.table i _ j).context = true at hj
      rwa [Function.update_of_ne heq] at hj
    · cases List.mem_singleton.mp hmem
      exact heq rfl

/-! ### The steps of the monitor thread -/

/-- The monitor thread goes on outside the functions that it calls, or enters one. -/
theorem monitors (h : UseInv s) (new : List Frame) (hstack : s.stack .monitor = [])
    (hafter : s'.stack = Function.update s.stack .monitor new) (halive : s'.crashed = s.crashed)
    (hgrows : Grows s.table s'.table)
    (huses : ∀ i ∈ new.filterMap Frame.uses, (s'.table i).service.isSome = true)
    (hmonitor : ∀ i ∈ s'.monitor.uses, (s'.table i).service.isSome = true)
    (hoff : s.monitor ≠ .off) (hlocks : new.countP Frame.locks = 0)
    (hmutex : s'.attachMutex = s.attachMutex) : UseInv s' := by
  have hturn : Turn s s' .monitor [] new [] := ⟨hstack, by rw [hafter, List.append_nil]⟩
  exact h.grows hturn halive hgrows huses hmonitor (fun i hi => by cases hi) (fun _ => .inl rfl)
    (fun heq => absurd heq hoff) hlocks hmutex

theorem setMonitor (h : UseInv s) (hoff : s.monitor ≠ .off) (hstack : s.stack .monitor = [])
    {phase : MonitorPhase} (huses : ∀ i ∈ phase.uses, (s.table i).service.isSome = true) :
    UseInv (s.setMonitor phase) := by
  exact h.monitors [] hstack (update_nil hstack) rfl (Grows.refl _)
    (List.forall_mem_nil _) huses hoff rfl rfl

theorem moveOn (h : UseInv s) (hoff : s.monitor ≠ .off) (hstack : s.stack .monitor = [])
    {phase : MonitorPhase} (huses : phase.uses = none) : UseInv (s.setMonitor phase) :=
  h.setMonitor hoff hstack fun i hi => by
    rw [huses] at hi
    cases hi

theorem foundPhase (h : UseInv s) {phase : MonitorPhase} (hphase : s.monitor = phase)
    (huses : phase.uses = some i) :
    s.monitor ≠ .off ∧ ∃ service, (s.table i).service = some service := by
  refine ⟨fun heq => ?_, Option.isSome_iff_exists.mp (h.monitor i (by rw [hphase]; exact huses))⟩
  rw [heq] at hphase
  rw [← hphase] at huses
  cases huses

theorem monitorLoop (h : UseInv s) (hphase : s.monitor = .loop) (hstack : s.stack .monitor = [])
    (o : Outcome) : UseInv (s.monitorLoop o) := by
  have hoff : s.monitor ≠ .off := by rw [hphase]; exact MonitorPhase.noConfusion
  rw [Connections.monitorLoop]
  cases o.round with
  | ping => exact h.moveOn hoff hstack rfl
  | recover => exact h.moveOn hoff hstack rfl
  | exit => exact h.moveOn hoff hstack rfl

/-- A context that the monitor thread finds has a service: where it is about to be freed, this
thread does not run. -/
theorem contextFound (h : UseInv s) (hoff : s.monitor ≠ .off) (hstack : s.stack .monitor = [])
    (hcontext : (s.table i).context = true) : ∃ service, (s.table i).service = some service := by
  refine Option.isSome_iff_exists.mp ((h.contexts i hcontext).resolve_right ?_)
  rintro ⟨u, hu⟩
  rcases h.joined u (.detachContext i) hu rfl with rfl | heq
  · rw [hstack] at hu
    cases hu
  · exact hoff heq

theorem ping (h : UseInv s) {n : Nat} (hphase : s.monitor = .ping n)
    (hstack : s.stack .monitor = []) (o : Outcome) : UseInv (s.ping o n) := by
  have hoff : s.monitor ≠ .off := by rw [hphase]; exact MonitorPhase.noConfusion
  rw [Connections.ping]
  split_ifs with hn hcontext
  · exact h.moveOn hoff hstack rfl
  · obtain ⟨service, hservice⟩ := h.contextFound hoff hstack ((Bool.not_eq_false _).mp hcontext)
    rw [Connections.withService_some hservice]
    split_ifs
    · refine h.monitors [.cmdFind service.vapName.bytes] hstack rfl rfl (Grows.refl _)
        (List.forall_mem_nil _) (fun i hi => ?_) hoff rfl rfl
      cases hi
      show (s.table ⟨n, hn⟩).service.isSome = true
      rw [hservice]
      rfl
    · exact h.moveOn hoff hstack rfl
  · exact h.moveOn hoff hstack rfl

theorem pingSent (h : UseInv s) (hphase : s.monitor = .pingSent i)
    (hstack : s.stack .monitor = []) : UseInv (s.pingSent i) := by
  obtain ⟨hoff, service, hservice⟩ := h.foundPhase hphase rfl
  rw [Connections.pingSent, Connections.withService_some hservice]
  split_ifs
  · refine h.setMonitor hoff hstack fun j hj => ?_
    cases hj
    rw [hservice]
    rfl
  · exact h.moveOn hoff hstack rfl

theorem pingFailed (h : UseInv s) (hphase : s.monitor = .pingFailed i)
    (hstack : s.stack .monitor = []) {o : Outcome} (hstep : s.pingFailed o i = some s') :
    UseInv s' := by
  obtain ⟨hoff, service, hservice⟩ := h.foundPhase hphase rfl
  rw [Connections.pingFailed, Connections.withService_some hservice] at hstep
  split_ifs at hstep
  · cases hstep
    refine h.monitors [.disconnectedSend i (s.losses i)] hstack rfl rfl (Grows.slot rfl)
      (List.forall_mem_singleton.mpr ?_) (fun j hj => by cases hj) hoff rfl rfl
    show (Function.update s.table i _ i).service.isSome = true
    rw [Function.update_self]
    rfl
  · cases hstep
    exact h.moveOn hoff hstack rfl

theorem recoverAt (h : UseInv s) (hoff : s.monitor ≠ .off) (hstack : s.stack .monitor = [])
    {o : Outcome} (hstep : s.recoverAt o i = some s') : UseInv s' := by
  have hsame := update_nil hstack
  rw [Connections.recoverAt] at hstep
  split at hstep
  · cases hstep
    exact h.moveOn hoff hstack rfl
  · next service hservice =>
    split_ifs at hstep
    · cases hstep
      exact h.moveOn hoff hstack rfl
    · cases hstep
      refine h.setMonitor hoff hstack fun j hj => ?_
      cases hj
      rw [hservice]
      rfl
    · cases hstep
      refine h.monitors [] hstack hsame rfl (Grows.slot rfl) (List.forall_mem_nil _)
        (fun j hj => ?_) hoff rfl rfl
      cases hj
      show (Function.update s.table i _ i).service.isSome = true
      rw [Function.update_self]
      rfl
    · cases hstep
      refine h.monitors [] hstack hsame rfl Grows.noContext (List.forall_mem_nil _)
        (fun j hj => ?_) hoff rfl rfl
      cases hj
      show (Function.update s.table i _ i).service.isSome = true
      rw [Function.update_self, hservice]
      rfl

theorem recover (h : UseInv s) {n : Nat} (hphase : s.monitor = .recover n)
    (hstack : s.stack .monitor = []) {o : Outcome} (hstep : s.recover o n = some s') :
    UseInv s' := by
  have hoff : s.monitor ≠ .off := by rw [hphase]; exact MonitorPhase.noConfusion
  rw [Connections.recover] at hstep
  split_ifs at hstep
  · exact h.recoverAt hoff hstack hstep
  · cases hstep
    exact h.moveOn hoff hstack rfl

theorem recovered (h : UseInv s) (hphase : s.monitor = .recovered i)
    (hstack : s.stack .monitor = []) (o : Outcome) : UseInv (s.recovered o i) := by
  obtain ⟨hoff, service, hservice⟩ := h.foundPhase hphase rfl
  rw [Connections.recovered, Connections.withService_some hservice]
  split_ifs
  · refine h.monitors [.cmdFind service.vapName.bytes] hstack rfl rfl (Grows.refl _)
      (List.forall_mem_nil _) (fun j hj => ?_) hoff rfl rfl
    cases hj
    show (s.table i).service.isSome = true
    rw [hservice]
    rfl
  · exact h.moveOn hoff hstack rfl

theorem reconnectStatus (h : UseInv s) (hphase : s.monitor = .reconnectStatus i)
    (hstack : s.stack .monitor = []) : UseInv (s.reconnectStatus i) := by
  obtain ⟨hoff, service, hservice⟩ := h.foundPhase hphase rfl
  have hfound : ∀ j ∈ (MonitorPhase.reconnectedSent i).uses, (s.table j).service.isSome = true := by
    intro j hj
    cases hj
    rw [hservice]
    rfl
  rw [Connections.reconnectStatus, Connections.eventSend, Connections.withService_some hservice]
  split_ifs
  · refine h.monitors [.callback] hstack ?_ rfl (Grows.refl _)
      (List.forall_mem_nil _) hfound hoff rfl rfl
    show Function.update s.stack .monitor (.callback :: s.stack .monitor) = _
    rw [hstack]
  · exact h.setMonitor hoff hstack hfound
  · exact h.moveOn hoff hstack rfl

theorem reconnectedSent (h : UseInv s) (hphase : s.monitor = .reconnectedSent i)
    (hstack : s.stack .monitor = []) : UseInv (s.reconnectedSent i) := by
  obtain ⟨hoff, service, hservice⟩ := h.foundPhase hphase rfl
  rw [Connections.reconnectedSent, Connections.withService_some hservice]
  exact h.monitors [] hstack (update_nil hstack) rfl (Grows.slot rfl) (List.forall_mem_nil _)
    (fun j hj => by cases hj) hoff rfl rfl

/-! ### The run -/

theorem goOn (h : UseInv s) {frame : Frame} (hstack : s.stack t = frame :: rest) {o : Outcome}
    (hquiet : s.QuietFrame t o frame) (hstep : s.goOn t o rest frame = some s') : UseInv s' := by
  cases frame with
  | cmdFind =>
    cases hstep
    exact h.cmdFind hstack o
  | cmdLock => exact h.cmdLock hstack hstep
  | cmdSent =>
    cases hstep
    exact h.cmdSent hstack o
  | cmdFails =>
    cases hstep
    exact h.cmdReturn hstack rfl .failure
  | disconnectedSend =>
    cases hstep
    exact h.disconnectedSend hstack
  | attachLock => exact h.attachLock hstack hstep
  | attachJoin => exact h.cancels hstack rfl (fun _ => Frame.noConfusion) rfl rfl hstep
  | attachCreate => exact h.attachCreate hstack hstep
  | attachContext => exact h.attachContext hstack hstep
  | attachCallback =>
    cases hstep
    exact h.attachCallback hstack
  | connectedStatus =>
    cases hstep
    exact h.connectedStatus hstack o
  | connectedSend =>
    cases hstep
    exact h.connectedSend hstack
  | attachEnd =>
    cases hstep
    exact h.attachEnd hstack o
  | detachLock => exact h.detachLock hstack hstep
  | detachJoin => exact h.cancels hstack rfl (fun _ => Frame.noConfusion) rfl rfl hstep
  | detachFree =>
    cases hstep
    exact h.detachFree hstack hquiet
  | detachContext => exact h.detachContext hstack hquiet hstep
  | callback =>
    cases hstep
    exact h.leaves hstack rfl

theorem monitorStep (h : UseInv s) (hstack : s.stack .monitor = []) {o : Outcome}
    {phase : MonitorPhase}
    (hphase : s.monitor = phase) (hstep : s.monitorStep o phase = some s') : UseInv s' := by
  cases phase with
  | off => cases hstep
  | exited => cases hstep
  | loop =>
    cases hstep
    exact h.monitorLoop hphase hstack o
  | ping =>
    cases hstep
    exact h.ping hphase hstack o
  | pingSent =>
    cases hstep
    exact h.pingSent hphase hstack
  | pingFailed => exact h.pingFailed hphase hstack hstep
  | recover => exact h.recover hphase hstack hstep
  | recovered =>
    cases hstep
    exact h.recovered hphase hstack o
  | reconnectStatus =>
    cases hstep
    exact h.reconnectStatus hphase hstack
  | reconnectedSent =>
    cases hstep
    exact h.reconnectedSent hphase hstack

/-- The application makes a call. -/
theorem call (h : UseInv s) (t : Thread U) (call : Call) :
    UseInv (s.setStack t (call.frame :: s.stack t)) := by
  have hturn : Turn s (s.setStack t (call.frame :: s.stack t)) t [] [call.frame] (s.stack t) :=
    ⟨rfl, rfl⟩
  cases call <;>
    exact h.grows hturn rfl (Grows.refl _) (List.forall_mem_nil _) h.monitor
      (fun i hi => by cases hi) (fun hnone => by cases hnone) id rfl rfl

theorem step (h : UseInv s) {a : ConnAction U} (hquiet : s.Quiet a) (hstep : s.step a = some s') :
    UseInv s' := by
  cases a with
  | call t call =>
    simp only [Connections.step, Option.ite_none_right_eq_some] at hstep
    cases hstep.2
    exact h.call t call
  | go t o =>
    simp only [Connections.step, Option.ite_none_left_eq_some] at hstep
    obtain ⟨-, hstep⟩ := hstep
    split at hstep
    · cases hstep
    · next frame rest hstack =>
      have hframe : s.QuietFrame t o frame := hquiet frame (by rw [hstack]; rfl)
      exact h.goOn hstack hframe hstep
  | monitor o =>
    simp only [Connections.step, Option.ite_none_right_eq_some] at hstep
    exact h.monitorStep hstep.1.2 rfl hstep.2

end UseInv

/-- Where a detach finds nobody else at work on the interface, no thread ever uses a service that is
not there, in any interleaving of commands, pings, recovery, attaches and detaches of hostap
interfaces. -/
theorem services_there {s : Connections U} {as : List (ConnAction U)}
    (hok : Along Connections.step Connections.Quiet .initial as)
    (hrun : exec Connections.step .initial as = some s) : s.crashed = false :=
  (exec_along (fun h hok hstep => UseInv.step h hok hstep) UseInv.init hok hrun).alive

/-- Everything succeeds but the monitor thread, which is not created. -/
def Outcome.fine : Outcome where
  refused := false
  sent := .success
  hasFd := true
  created := false
  lower := ⟨true, true, true, some .success, true⟩
  round := .ping

/-- A thread attaches an interface and another one sends a command, which has got `n` steps far when
the interface is detached, and then goes on. -/
def detachedMeanwhile (n : Nat) : List (ConnAction Bool) :=
  .call (.user true) (.attach [97] 0) :: List.replicate 12 (.go (.user true) .fine) ++
  .call (.user false) (.cmdSend [97]) :: List.replicate n (.go (.user false) .fine) ++
  .call (.user true) (.detach [97]) :: List.replicate 5 (.go (.user true) .fine) ++
  [.go (.user false) .fine]

theorem services_there_detached :
    ∃ s, exec Connections.step .initial (detachedMeanwhile 0) = some s ∧ s.crashed = false :=
  ⟨_, rfl, @services_there _ _ _ (detachedMeanwhile 0) (by decide +kernel) rfl⟩

/-- A command that has found its service uses it when it is freed. -/
example : (exec Connections.step .initial (detachedMeanwhile 1)).map (fun s => s.crashed) =
    some true := by
  decide +kernel

end Dwpal.Ext
