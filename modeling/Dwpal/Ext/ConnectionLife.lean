import Dwpal.Ext.ConnectionUse

/-! What the application sees of a hostap interface of `dwpal_ext.c` that is lost and comes back,
whatever threads notice it: the log of every interface is a life that the rules below allow. -/

namespace Dwpal.Ext

open Daemon (DwpalRet)
open Machine

/-- The life of an interface since its service was made: whether commands can be sent, how often it
was lost and which of the losses were reported, whether it was attached, and whether there is a
recovery that was not reported. -/
structure Life where
  usable : Bool
  losses : Nat
  reported : List Nat
  attached : Bool
  owed : Bool

namespace Life

def start : Life := ⟨true, 0, [], false, false⟩

/-- A command is sent while the interface is usable, it is lost then and recovered after that; each
loss is reported at most once, a connection is reported after an attach, and a recovery after it has
happened and at most once. -/
def step (life : Life) : Note → Option Life
  | .sent => if life.usable then some life else none
  | .lost k =>
    if life.usable ∧ k = life.losses then some { life with usable := false, losses := k + 1 }
    else none
  | .recovered => if life.usable then none else some { life with usable := true, owed := true }
  | .attached => some { life with usable := true, attached := true }
  | .attachFailed => some { life with usable := false }
  | .disconnected k =>
    if k < life.losses ∧ k ∉ life.reported then some { life with reported := k :: life.reported }
    else none
  | .reconnectedOk => if life.owed then some { life with owed := false } else none
  | .connectedOk => if life.attached then some life else none

theorem step_losses {life life' : Life} {n : Note} (h : life.step n = some life') :
    life'.losses = life.losses + [n].countP Note.isLost := by
  cases n with
  | lost k =>
    simp only [step, Option.ite_none_right_eq_some] at h
    obtain ⟨⟨-, rfl⟩, h⟩ := h
    cases h
    rfl
  | attached | attachFailed =>
    cases h
    rfl
  | recovered =>
    simp only [step, Option.ite_none_left_eq_some] at h
    cases h.2
    rfl
  | sent | disconnected | reconnectedOk | connectedOk =>
    simp only [step, Option.ite_none_right_eq_some] at h
    cases h.2
    rfl

/-- The losses are counted by their notes. -/
theorem exec_losses {life life' : Life} {log : List Note} (h : exec step life log = some life') :
    life'.losses = life.losses + log.countP Note.isLost := by
  induction log generalizing life with
  | nil =>
    cases h
    rfl
  | cons n log ih =>
    obtain ⟨mid, hfirst, hrest⟩ := Option.bind_eq_some_iff.mp h
    rw [ih hrest, step_losses hfirst, Nat.add_assoc, ← List.countP_append, List.singleton_append]

theorem step_reported {life life' : Life} {n : Note} (h : life.step n = some life')
    (hlife : ∀ k ∈ life.reported, k < life.losses) : ∀ k ∈ life'.reported, k < life'.losses := by
  cases n with
  | lost k =>
    simp only [step, Option.ite_none_right_eq_some] at h
    obtain ⟨⟨-, rfl⟩, h⟩ := h
    cases h
    exact fun k hk => Nat.lt_succ_of_lt (hlife k hk)
  | disconnected k =>
    simp only [step, Option.ite_none_right_eq_some] at h
    obtain ⟨⟨hlost, -⟩, h⟩ := h
    cases h
    exact List.forall_mem_cons.mpr ⟨hlost, hlife⟩
  | attached | attachFailed =>
    cases h
    exact hlife
  | recovered =>
    simp only [step, Option.ite_none_left_eq_some] at h
    cases h.2
    exact hlife
  | sent | reconnectedOk | connectedOk =>
    simp only [step, Option.ite_none_right_eq_some] at h
    cases h.2
    exact hlife

/-- Only losses are reported. -/
theorem exec_reported {life life' : Life} {log : List Note} (h : exec step life log = some life')
    (hlife : ∀ k ∈ life.reported, k < life.losses) : ∀ k ∈ life'.reported, k < life'.losses := by
  induction log generalizing life with
  | nil =>
    cases h
    exact hlife
  | cons n log ih =>
    obtain ⟨mid, hfirst, hrest⟩ := Option.bind_eq_some_iff.mp h
    exact ih hrest (step_reported hfirst hlife)

end Life

/-- The function goes on in the command or the callback that it has begun, not behind it. -/
def Frame.leaf : Frame → Bool
  | .cmdSent _ | .disconnectedSend _ _ => true
  | _ => false

/-- The attach has got a connection for the service. -/
def Frame.greets : Frame → Option (Fin numOfServices)
  | .attachCallback i _ true | .connectedStatus i | .connectedSend i => some i
  | _ => none

/-- The attach is about to set the callback for the service. -/
def Frame.sets : Frame → Option (Fin numOfServices)
  | .attachContext i _ | .attachCallback i _ _ => some i
  | _ => none

theorem Frame.uses_of_greets {frame : Frame} {i : Fin numOfServices} (h : frame.greets = some i) :
    frame.uses = some i := by
  cases frame with
  | attachCallback j clb up =>
    cases up with
    | true => exact h
    | false => cases h
  | connectedStatus | connectedSend => exact h
  | _ => cases h

theorem Frame.uses_of_sets {frame : Frame} {i : Fin numOfServices} (h : frame.sets = some i) :
    frame.uses = some i := by
  cases frame with
  | attachContext | attachCallback => exact h
  | _ => cases h

theorem Frame.joined_of_sets {frame : Frame} {i : Fin numOfServices} (h : frame.sets = some i) :
    frame.joined = true := by
  cases frame with
  | attachContext | attachCallback => rfl
  | _ => cases h

variable {U : Type} [DecidableEq U]

namespace Connections

/-- An attach has set the callback for the interface. -/
def CallbackSet (s : Connections U) (i : Fin numOfServices) : Prop :=
  ∀ service ∈ (s.table i).service, service.hostapEventCallback.isSome = true

instance (s : Connections U) (i : Fin numOfServices) : Decidable (s.CallbackSet i) :=
  inferInstanceAs (Decidable (∀ service ∈ (s.table i).service, _))

/-- A command that fails does so after the attach has set the callback. -/
def Noticed (s : Connections U) : ConnAction U → Prop
  | .go t _ => ∀ frame ∈ (s.stack t).head?, ∀ i, frame = .cmdSent i → s.CallbackSet i
  | _ => True

instance (s : Connections U) : (a : ConnAction U) → Decidable (s.Noticed a)
  | .go t _ => inferInstanceAs (Decidable (∀ frame ∈ (s.stack t).head?, ∀ i, _ → s.CallbackSet i))
  | .call _ _ | .monitor _ => .isTrue trivial

/-- The state of an interface after a life. -/
structure LivesAs (s : Connections U) (i : Fin numOfServices) (life : Life) : Prop where
  accepted : exec Life.step .start (s.log i) = some life
  usable : ∀ service ∈ (s.table i).service, life.usable = !service.isConnectionEstablishNeeded
  owed : s.monitor ≠ .reconnectedSent i → ∀ service ∈ (s.table i).service,
    service.isReconnectEventNeeded = true → life.owed = true
  status : s.monitor = .reconnectStatus i → ∀ service ∈ (s.table i).service,
    service.isReconnectEventNeeded = true
  attached : ∀ t, ∀ frame ∈ s.stack t, frame.greets = some i → life.attached = true
  reports : ∀ t k, .disconnectedSend i k ∈ s.stack t →
    k < life.losses ∧ k ∉ life.reported ∧ s.CallbackSet i
  covered : ∀ k < life.losses, k ∈ life.reported ∨ ∃ t, .disconnectedSend i k ∈ s.stack t

end Connections

/-- Every interface lives by the rules, a thread that sends a command has `context_mutex` and the
interface stays usable meanwhile, one thread reports a loss, and a service gets its callback. -/
structure LifeInv (s : Connections U) : Prop where
  leaves : ∀ t, ∀ frame ∈ (s.stack t).tail, frame.leaf = false
  sent : ∀ t i, .cmdSent i ∈ s.stack t → s.contextMutex = some t ∧
    ∀ service ∈ (s.table i).service, service.isConnectionEstablishNeeded = false
  once : ∀ t u i k, .disconnectedSend i k ∈ s.stack t → .disconnectedSend i k ∈ s.stack u → t = u
  callbacks : ∀ i, s.CallbackSet i ∨ ∃ t, ∃ frame ∈ s.stack t, frame.sets = some i
  lives : ∀ i, ∃ life, s.LivesAs i life

namespace Connections.LivesAs

variable {s s' : Connections U} {t : Thread U} {old new rest : List Frame} {i : Fin numOfServices}
  {life life' : Life} {service service' : DwpalService}

omit [DecidableEq U] in
/-- A note that the rules allow. -/
theorem noted (h : s.LivesAs i life) {n : Note} (hlog : s'.log i = s.log i ++ [n])
    (hstep : life.step n = some life') : exec Life.step .start (s'.log i) = some life' := by
  rw [hlog, exec_append, h.accepted, Option.bind_some, exec_cons, hstep]
  rfl

omit [DecidableEq U] in
theorem losses_eq (h : s.LivesAs i life) : s.losses i = life.losses := by
  rw [Life.exec_losses h.accepted, Connections.losses]
  exact (Nat.zero_add _).symm

omit [DecidableEq U] in
theorem lt_of_reported (h : s.LivesAs i life) : ∀ k ∈ life.reported, k < life.losses :=
  Life.exec_reported h.accepted (List.forall_mem_nil _)

omit [DecidableEq U] in
theorem usable_eq (h : s.LivesAs i life) (hservice : (s.table i).service = some service) :
    life.usable = !service.isConnectionEstablishNeeded := h.usable service hservice

/-- The attaches that have got a connection, after a step. -/
theorem attached_turn (h : s.LivesAs i life) (hturn : Turn s s' t old new rest)
    (hattached : life.attached = true ∨ i ∈ new.filterMap Frame.greets → life'.attached = true) :
    ∀ u, ∀ frame ∈ s'.stack u, frame.greets = some i → life'.attached = true := by
  intro u frame hframe hgreet
  rcases hturn.mem hframe with hframe | ⟨-, hframe⟩
  · exact hattached (.inl (h.attached u frame hframe hgreet))
  · exact hattached (.inr (List.mem_filterMap.mpr ⟨frame, hframe, hgreet⟩))

/-- A step after which the same threads report losses of the interface. -/
theorem turn (h : s.LivesAs i life) (hturn : Turn s s' t old new rest)
    (haccepted : exec Life.step .start (s'.log i) = some life')
    (hlosses : life'.losses = life.losses) (hreported : life'.reported = life.reported)
    (husable : ∀ service ∈ (s'.table i).service,
      life'.usable = !service.isConnectionEstablishNeeded)
    (howed : s'.monitor ≠ .reconnectedSent i → ∀ service ∈ (s'.table i).service,
      service.isReconnectEventNeeded = true → life'.owed = true)
    (hstatus : s'.monitor = .reconnectStatus i → ∀ service ∈ (s'.table i).service,
      service.isReconnectEventNeeded = true)
    (hattached : life.attached = true ∨ i ∈ new.filterMap Frame.greets → life'.attached = true)
    (hcallback : s.CallbackSet i → s'.CallbackSet i)
    (hold : ∀ k, .disconnectedSend i k ∉ old) (hnew : ∀ k, .disconnectedSend i k ∉ new) :
    s'.LivesAs i life' where
  accepted := haccepted
  usable := husable
  owed := howed
  status := hstatus
  attached := h.attached_turn hturn hattached
  reports u k hframe := by
    rw [hlosses, hreported]
    rcases hturn.mem hframe with hframe | ⟨-, hframe⟩
    · obtain ⟨hlost, hnot, hset⟩ := h.reports u k hframe
      exact ⟨hlost, hnot, hcallback hset⟩
    · exact absurd hframe (hnew k)
  covered k hk := by
    rw [hreported]
    rw [hlosses] at hk
    refine (h.covered k hk).imp_right ?_
    rintro ⟨u, hu⟩
    rcases hturn.mem_of_before hu with hu | ⟨-, hu⟩
    · exact ⟨u, hu⟩
    · exact absurd hu (hold k)

/-- A step that has nothing to do with the interface. -/
theorem same (h : s.LivesAs i life) (hturn : Turn s s' t old new rest)
    (hservice : (s'.table i).service = (s.table i).service) (hlog : s'.log i = s.log i)
    (hacked : s.monitor = .reconnectedSent i → s'.monitor = .reconnectedSent i)
    (hstatus : s'.monitor = .reconnectStatus i → ∀ service ∈ (s.table i).service,
      service.isReconnectEventNeeded = true)
    (hold : ∀ k, .disconnectedSend i k ∉ old) (hnew : ∀ k, .disconnectedSend i k ∉ new)
    (hgreets : i ∈ new.filterMap Frame.greets → life.attached = true) : s'.LivesAs i life := by
  refine h.turn hturn ?_ rfl rfl ?_ ?_ ?_ (fun hany => hany.elim id hgreets) ?_ hold hnew
  · rw [hlog]
    exact h.accepted
  · rw [hservice]
    exact h.usable
  · rw [hservice]
    exact fun hmonitor => h.owed fun hbefore => hmonitor (hacked hbefore)
  · rw [hservice]
    exact hstatus
  · rw [CallbackSet, CallbackSet, hservice]
    exact id

/-- A step that the rules allow, with what it leaves in the service. -/
theorem steps (h : s.LivesAs i life) (hturn : Turn s s' t old new rest) {n : Note}
    (hlog : s'.log i = s.log i ++ [n]) (hstep : life.step n = some life')
    (hservice : (s.table i).service = some service)
    (hservice' : (s'.table i).service = some service')
    (hlosses : life'.losses = life.losses) (hreported : life'.reported = life.reported)
    (husable : life'.usable = !service'.isConnectionEstablishNeeded)
    (howed : s'.monitor ≠ .reconnectedSent i → service'.isReconnectEventNeeded = true →
      life'.owed = true)
    (hstatus : s'.monitor = .reconnectStatus i → service'.isReconnectEventNeeded = true)
    (hattached : life.attached = true ∨ i ∈ new.filterMap Frame.greets → life'.attached = true)
    (hcallback : service'.hostapEventCallback = service.hostapEventCallback)
    (hold : ∀ k, .disconnectedSend i k ∉ old) (hnew : ∀ k, .disconnectedSend i k ∉ new) :
    s'.LivesAs i life' := by
  refine h.turn hturn (h.noted hlog hstep) hlosses hreported ?_ (fun hmonitor => ?_)
    (fun hmonitor => ?_) hattached (fun hset => ?_) hold hnew
  · rw [hservice']
    rintro _ ⟨⟩
    exact husable
  · rw [hservice']
    rintro _ ⟨⟩
    exact howed hmonitor
  · rw [hservice']
    rintro _ ⟨⟩
    exact hstatus hmonitor
  · rw [CallbackSet, hservice']
    rintro _ ⟨⟩
    rw [hcallback]
    exact hset service hservice

end Connections.LivesAs

namespace LifeInv

variable {s s' : Connections U} {t : Thread U} {old new rest : List Frame} {i : Fin numOfServices}
  {life life' : Life} {service service' : DwpalService}

omit [DecidableEq U] in
theorem init : LifeInv (.initial : Connections U) where
  leaves t frame hframe := by cases hframe
  sent t i hframe := by cases hframe
  once t u i k hframe := by cases hframe
  callbacks i := .inl fun service hservice => by cases hservice
  lives i := by
    refine ⟨.start, rfl, ?_, ?_, ?_, ?_, ?_, ?_⟩
    · intro service hservice
      cases hservice
    · intro _ service hservice
      cases hservice
    · intro hmonitor
      cases hmonitor
    · intro t frame hframe
      cases hframe
    · intro t k hframe
      cases hframe
    · intro k hk
      cases hk

/-- What a step has to say of what it changes. -/
theorem turn (h : LifeInv s) (hturn : Turn s s' t old new rest)
    (hrest : ∀ frame ∈ rest, frame.leaf = false) (hnew : ∀ frame ∈ new.tail, frame.leaf = false)
    (hsent : ∀ u i, .cmdSent i ∈ s'.stack u → s'.contextMutex = some u ∧
      ∀ service ∈ (s'.table i).service, service.isConnectionEstablishNeeded = false)
    (honce : ∀ i k, .disconnectedSend i k ∈ new → ∀ u, .disconnectedSend i k ∉ s.stack u)
    (hcallbacks : ∀ i, s'.CallbackSet i ∨ i ∈ new.filterMap Frame.sets ∨
      (s.CallbackSet i → s'.CallbackSet i) ∧ i ∉ old.filterMap Frame.sets)
    (hlives : ∀ i, ∃ life, s'.LivesAs i life) : LifeInv s' := by
  refine ⟨fun u frame hframe => ?_, hsent, fun u v i k hu hv => ?_, fun i => ?_, hlives⟩
  · rw [hturn.after] at hframe
    by_cases heq : u = t
    · rw [heq, Function.update_self] at hframe
      cases new with
      | nil => exact hrest frame (List.mem_of_mem_tail hframe)
      | cons first others =>
        rcases List.mem_append.mp hframe with hframe | hframe
        · exact hnew frame hframe
        · exact hrest frame hframe
    · rw [Function.update_of_ne heq] at hframe
      exact h.leaves u frame hframe
  · rcases hturn.mem hu with hu | ⟨rfl, hu⟩
    · rcases hturn.mem hv with hv | ⟨rfl, hv⟩
      · exact h.once u v i k hu hv
      · exact absurd hu (honce i k hv u)
    · rcases hturn.mem hv with hv | ⟨rfl, hv⟩
      · exact absurd hv (honce i k hu v)
      · rfl
  · rcases hcallbacks i with hset | hset | ⟨hkept, hnot⟩
    · exact .inl hset
    · obtain ⟨frame, hframe, hsets⟩ := List.mem_filterMap.mp hset
      refine .inr ⟨t, frame, ?_, hsets⟩
      rw [hturn.after, Function.update_self]
      exact List.mem_append_left rest hframe
    · rcases h.callbacks i with hset | ⟨u, frame, hframe, hsets⟩
      · exact .inl (hkept hset)
      · rcases hturn.mem_of_before hframe with hframe | ⟨-, hframe⟩
        · exact .inr ⟨u, frame, hframe, hsets⟩
        · exact absurd (List.mem_filterMap.mpr ⟨frame, hframe, hsets⟩) hnot

omit [DecidableEq U] in
/-- While nobody has `context_mutex`, nobody sends a command. -/
theorem not_sent (h : LifeInv s) (hmutex : ¬ s.contextMutex.isSome = true) (u : Thread U)
    (i : Fin numOfServices) : .cmdSent i ∉ s.stack u := fun hframe => by
  rw [(h.sent u i hframe).1] at hmutex
  exact hmutex rfl

/-- A step that sends no command and does not change `context_mutex`. -/
theorem sent_keep (h : LifeInv s) (hturn : Turn s s' t old new rest) (hnew : ∀ i, .cmdSent i ∉ new)
    (hmutex : s'.contextMutex = s.contextMutex)
    (hneeded : ∀ i, (∀ service ∈ (s.table i).service, service.isConnectionEstablishNeeded = false) →
      ∀ service ∈ (s'.table i).service, service.isConnectionEstablishNeeded = false) :
    ∀ u i, .cmdSent i ∈ s'.stack u → s'.contextMutex = some u ∧
      ∀ service ∈ (s'.table i).service, service.isConnectionEstablishNeeded = false := by
  intro u i hframe
  rcases hturn.mem hframe with hframe | ⟨-, hframe⟩
  · rw [hmutex]
    exact (h.sent u i hframe).imp_right (hneeded i)
  · exact absurd hframe (hnew i)

/-- A step while nobody has `context_mutex`. -/
theorem sent_free (h : LifeInv s) (hturn : Turn s s' t old new rest) (hnew : ∀ i, .cmdSent i ∉ new)
    (hmutex : ¬ s.contextMutex.isSome = true) :
    ∀ u i, .cmdSent i ∈ s'.stack u → s'.contextMutex = some u ∧
      ∀ service ∈ (s'.table i).service, service.isConnectionEstablishNeeded = false := by
  intro u i hframe
  rcases hturn.mem hframe with hframe | ⟨-, hframe⟩
  · exact absurd hframe (h.not_sent hmutex u i)
  · exact absurd hframe (hnew i)

theorem not_leaf {frames : List Frame} (hnone : frames.any Frame.leaf = false) :
    (∀ i, .cmdSent i ∉ frames) ∧ ∀ i k, .disconnectedSend i k ∉ frames := by
  have hall := List.any_eq_false.mp hnone
  exact ⟨fun i hi => hall _ hi rfl, fun i k hi => hall _ hi rfl⟩

omit [DecidableEq U] in
theorem callback_keep (hservice : (s'.table i).service = (s.table i).service) :
    s.CallbackSet i → s'.CallbackSet i := by
  rw [Connections.CallbackSet, Connections.CallbackSet, hservice]
  exact id

/-- A step between functions that neither send nor report. -/
theorem moves (h : LifeInv s) (hturn : Turn s s' t old new rest)
    (hrest : ∀ frame ∈ rest, frame.leaf = false)
    (hservice : ∀ i, (s'.table i).service = (s.table i).service) (hlog : s'.log = s.log)
    (hmutex : s'.contextMutex = s.contextMutex)
    (hacked : ∀ i, s.monitor = .reconnectedSent i → s'.monitor = .reconnectedSent i)
    (hstatus : ∀ i, s'.monitor = .reconnectStatus i → ∀ service ∈ (s.table i).service,
      service.isReconnectEventNeeded = true)
    (hold : old.any Frame.leaf = false) (hnew : new.any Frame.leaf = false)
    (hsets : old.filterMap Frame.sets = [])
    (hgreets : ∀ i ∈ new.filterMap Frame.greets, i ∈ old.filterMap Frame.greets) : LifeInv s' := by
  obtain ⟨-, hold⟩ := not_leaf hold
  obtain ⟨hsent, hreport⟩ := not_leaf hnew
  refine h.turn hturn hrest (fun frame hframe => ?_) (h.sent_keep hturn hsent hmutex fun i hi => ?_)
    (fun i k hframe => absurd hframe (hreport i k)) (fun i => .inr (.inr ⟨?_, ?_⟩)) fun i => ?_
  · exact (Bool.not_eq_true _).mp (List.any_eq_false.mp hnew frame (List.mem_of_mem_tail hframe))
  · rw [hservice]
    exact hi
  · exact callback_keep (hservice i)
  · rw [hsets]
    exact List.not_mem_nil
  · obtain ⟨life, hlife⟩ := h.lives i
    refine ⟨life, hlife.same hturn (hservice i) (congrFun hlog i) (hacked i) (hstatus i) (hold i)
      (hreport i) fun hi => ?_⟩
    obtain ⟨frame, hframe, hgreet⟩ := List.mem_filterMap.mp (hgreets i hi)
    refine hlife.attached t frame ?_ hgreet
    rw [hturn.before]
    exact List.mem_append_left rest hframe

/-- A step that has to do with one interface. -/
theorem touches (h : LifeInv s) (hturn : Turn s s' t old new rest) (i : Fin numOfServices)
    (hrest : ∀ frame ∈ rest, frame.leaf = false) (hleaves : ∀ frame ∈ new.tail, frame.leaf = false)
    (hold : ∀ j ∈ old.filterMap Frame.uses, j = i) (hnew : ∀ j ∈ new.filterMap Frame.uses, j = i)
    (hother : ∀ j, j ≠ i → (s'.table j).service = (s.table j).service ∧ s'.log j = s.log j)
    (hmonitor : ∀ j, j ≠ i → (s.monitor = .reconnectedSent j → s'.monitor = .reconnectedSent j) ∧
      (s'.monitor = .reconnectStatus j → s.monitor = .reconnectStatus j))
    (hsent : ∀ u i, .cmdSent i ∈ s'.stack u → s'.contextMutex = some u ∧
      ∀ service ∈ (s'.table i).service, service.isConnectionEstablishNeeded = false)
    (honce : ∀ k, .disconnectedSend i k ∈ new → ∀ u, .disconnectedSend i k ∉ s.stack u)
    (hcallback : s'.CallbackSet i ∨ i ∈ new.filterMap Frame.sets ∨
      (s.CallbackSet i → s'.CallbackSet i) ∧ i ∉ old.filterMap Frame.sets)
    (hlife : ∃ life, s'.LivesAs i life) : LifeInv s' := by
  have habout : ∀ {frames : List Frame} {j}, (∀ j ∈ frames.filterMap Frame.uses, j = i) → j ≠ i →
      ∀ frame ∈ frames, frame.uses ≠ some j := fun hframes hj frame hframe huses =>
    hj (hframes _ (List.mem_filterMap.mpr ⟨frame, hframe, huses⟩))
  refine h.turn hturn hrest hleaves hsent (fun j k hframe => ?_) (fun j => ?_) fun j => ?_
  · by_cases heq : j = i
    · subst heq
      exact honce k hframe
    · exact absurd rfl (habout hnew heq _ hframe)
  · by_cases heq : j = i
    · subst heq
      exact hcallback
    · refine .inr (.inr ⟨callback_keep (hother j heq).1, fun hsets => ?_⟩)
      obtain ⟨frame, hframe, hsets⟩ := List.mem_filterMap.mp hsets
      exact habout hold heq frame hframe (Frame.uses_of_sets hsets)
  · by_cases heq : j = i
    · subst heq
      exact hlife
    · obtain ⟨life, hlife⟩ := h.lives j
      refine ⟨life, hlife.same hturn (hother j heq).1 (hother j heq).2 (hmonitor j heq).1
        (fun hphase => hlife.status ((hmonitor j heq).2 hphase))
        (fun k hframe => habout hold heq _ hframe rfl)
        (fun k hframe => habout hnew heq _ hframe rfl)
        fun hgreets => ?_⟩
      obtain ⟨frame, hframe, hgreet⟩ := List.mem_filterMap.mp hgreets
      exact absurd (Frame.uses_of_greets hgreet) (habout hnew heq frame hframe)

end LifeInv

end Dwpal.Ext
