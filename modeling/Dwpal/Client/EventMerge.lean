import Dwpal.Client.EventLists

/-! What the merge of a list of events into a list of registered events leaves registered, as long
as each round of its loop finds what it is to find. -/

namespace Dwpal.Client

variable {ν κ ι : Type}

namespace EventKind

variable {kind : EventKind ν κ} {event : ν} {id : UInt32} {events events' : List (EventWithId κ)}
  {found : κ → ν → Bool}

/-- The first entry that is found for an event. -/
def firstFound (found : κ → ν → Bool) (events : List (EventWithId κ)) (event : ν) :
    Option (EventWithId κ) :=
  events.find? fun known => found known.key event

/-- The callback of the event is there, whoever registered it. -/
def hasClb (kind : EventKind ν κ) (known : EventWithId κ) (event : ν) : Bool :=
  known.clbIdList.any fun clbId => clbId.clb == kind.clb event

theorem addToKnown_none (kind : EventKind ν κ) (id : UInt32) (clbFound : Bool)
    (h : firstFound found events event = none) :
    kind.addToKnown found event id clbFound events = none := by
  induction events with
  | nil => rfl
  | cons known events ih =>
    rw [firstFound, List.find?_cons] at h
    cases hfound : found known.key event with
    | true => simp [hfound] at h
    | false =>
      simp only [hfound] at h
      simp [addToKnown, hfound, ih h]

/-- The entry that the search stops at gets the callback, unless `clb_found` is set. -/
theorem addToKnown_some (kind : EventKind ν κ) (id : UInt32) (clbFound : Bool)
    {known : EventWithId κ} (h : firstFound found events event = some known) :
    ∃ pre post, events = pre ++ known :: post ∧
      (∀ other ∈ pre, found other.key event = false) ∧
      kind.addToKnown found event id clbFound events =
        some (clbFound || kind.hasClb known event,
          if clbFound || kind.hasClb known event then events
          else pre ++ { known with
            clbIdList := kind.pushCallback known.clbIdList (kind.clb event) id } :: post) := by
  induction events with
  | nil => cases h
  | cons other events ih =>
    rw [firstFound, List.find?_cons] at h
    cases hfound : found other.key event with
    | true =>
      simp only [hfound, Option.some.injEq] at h
      subst h
      exact ⟨[], events, rfl, by simp, by simp [addToKnown, hfound, hasClb]⟩
    | false =>
      simp only [hfound] at h
      obtain ⟨pre, post, rfl, hpre, hadd⟩ := ih h
      refine ⟨other :: pre, post, rfl, ?_, ?_⟩
      · intro o ho
        rcases List.mem_cons.mp ho with rfl | ho
        · exact hfound
        · exact hpre o ho
      · rw [addToKnown, hfound, hadd]
        cases hflag : clbFound || kind.hasClb known event <;> simp

theorem registered_pushCallback {known : EventWithId κ} {pre post : List (EventWithId κ)}
    {clb : Option Clb} {n : ι} {c : ClbId} (name : κ → ι) (hnull : kind.pushesNull = true) :
    Registered name (pre ++ { known with
        clbIdList := kind.pushCallback known.clbIdList clb id } :: post) n c ↔
      Registered name (pre ++ known :: post) n c ∨ n = name known.key ∧ c = ⟨clb, id⟩ := by
  have hpush : kind.pushCallback known.clbIdList clb id = known.clbIdList ++ [⟨clb, id⟩] := by
    simp [pushCallback, hnull]
  simp only [registered_append, registered_cons, hpush, List.mem_append, List.mem_singleton]
  tauto

section

variable (N : kind.Naming ι) [DecidableEq ι]

/-- The comparison of the whole names. -/
def Naming.same (key : κ) (event : ν) : Bool := decide (N.name key = N.nameOf event)

/-- Every round of the merge of `added` meets `ok`, which is about `clb_found` and the list in front
of the round. From round to round the list changes as if names were compared as a whole. -/
def Naming.Rounds (id : UInt32) (ok : Bool → List (EventWithId κ) → ν → Prop) :
    Bool → List (EventWithId κ) → List ν → Prop
  | _, _, [] => True
  | clbFound, events, event :: rest =>
    ok clbFound events event ∧
      match kind.addToKnown N.same event id clbFound events with
      | some (clbFound, events) => Naming.Rounds id ok clbFound events rest
      | none =>
        match kind.copyKey event with
        | some key => Naming.Rounds id ok clbFound (⟨key, [⟨kind.clb event, id⟩]⟩ :: events) rest
        | none => True

/-- The first entry that is found for the event, if any, has the name of the event. -/
def Naming.Exact (events : List (EventWithId κ)) (event : ν) : Prop :=
  ∀ known, firstFound kind.found events event = some known → N.name known.key = N.nameOf event

variable {N}

theorem same_eq_false {key : κ} (h : kind.found key event = false) : N.same key event = false := by
  rw [Naming.same, decide_eq_false_iff_not]
  intro heq
  rw [N.found_of_eq heq] at h
  cases h

/-- A round that finds the entry with the name of the event does what a round that compares whole
names does. -/
theorem addToKnown_same {clbFound : Bool} (h : N.Exact events event) :
    kind.addToKnown kind.found event id clbFound events =
      kind.addToKnown N.same event id clbFound events := by
  induction events with
  | nil => rfl
  | cons known events ih =>
    rw [addToKnown, addToKnown]
    cases hfound : kind.found known.key event with
    | true =>
      have hname : N.name known.key = N.nameOf event := h known (by simp [firstFound, hfound])
      simp [Naming.same, hname]
    | false =>
      rw [same_eq_false hfound, ih]
      intro other hother
      refine h other ?_
      rw [firstFound, List.find?_cons, hfound]
      exact hother

/-! The registrations that a merge adds. -/

omit [DecidableEq ι] in
/-- A copy registers exactly the events of the list. -/
theorem copyEvents_registered (N : kind.Naming ι) {dst dst' : List (EventWithId κ)}
    {events : List ν} (hcopy : kind.copyEvents dst id events = (0, dst')) (n : ι) (c : ClbId) :
    Registered N.name dst' n c ↔ Registered N.name dst n c ∨
      ∃ event ∈ events, n = N.nameOf event ∧ c = ⟨kind.clb event, id⟩ := by
  induction events generalizing dst with
  | nil =>
    cases hcopy
    simp
  | cons event events ih =>
    rw [copyEvents] at hcopy
    cases hkey : kind.copyKey event with
    | none => simp [hkey] at hcopy
    | some key =>
      simp only [hkey] at hcopy
      rw [ih hcopy, registered_cons, N.name_copyKey hkey, List.mem_singleton]
      simp only [List.mem_cons, exists_eq_or_imp]
      tauto

omit [DecidableEq ι] in
/-- A merge that succeeds has read no null pointer. -/
theorem readable_addEventsLoop (N : kind.Naming ι) {clbFound : Bool} {added : List ν}
    (hadd : kind.addEventsLoop id clbFound events added = some (0, events')) :
    ∀ event ∈ added, kind.unreadable event = false := by
  induction added generalizing clbFound events with
  | nil =>
    intro event hevent
    cases hevent
  | cons event rest ih =>
    rw [addEventsLoop] at hadd
    split at hadd
    · cases hadd
    · next hread =>
      rw [Bool.and_eq_true, not_and_or, Bool.not_eq_true] at hread
      intro other hother
      cases hfirst : firstFound kind.found events event with
      | some known =>
        obtain ⟨pre, post, rfl, -, hround⟩ := addToKnown_some kind id clbFound hfirst
        rw [hround] at hadd
        rcases List.mem_cons.mp hother with rfl | hother
        · exact hread.resolve_right (by simp)
        · exact ih hadd other hother
      | none =>
        rw [addToKnown_none kind id clbFound hfirst] at hadd
        cases hkey : kind.copyKey event with
        | none => simp [copyEvents, hkey] at hadd
        | some key =>
          simp only [copyEvents, hkey] at hadd
          rcases List.mem_cons.mp hother with rfl | hother
          · exact N.readable_copyKey hkey
          · exact ih hadd other hother

/-- What a round has to find so that the merge neither leaves out nor adds a registration: the entry
of the event, the callback there, or `clb_found` set, only if `id` has registered it itself, and
good arguments, unless `id` has nothing to lose (`fresh`). -/
def Naming.Owned (N : kind.Naming ι) (id : UInt32) (fresh : Prop) (clbFound : Bool)
    (events : List (EventWithId κ)) (event : ν) : Prop :=
  N.Exact events event ∧
    (∀ known, firstFound kind.found events event = some known →
      clbFound || kind.hasClb known event → ⟨kind.clb event, id⟩ ∈ known.clbIdList) ∧
    (firstFound kind.found events event = none → kind.copyKey event = none → fresh)

/-- What is registered after a merge that is asked for `added` on behalf of `id`: a merge that
succeeds has added just that, and a merge that fails has withdrawn what `id` had registered. -/
def Naming.Merged (N : kind.Naming ι) (id : UInt32) (fresh : Prop)
    (events events' : List (EventWithId κ)) (added : List ν) (ret : Int) : Prop :=
  (ret = 0 ∧ ∀ n c, Registered N.name events' n c ↔ Registered N.name events n c ∨
    ∃ event ∈ added, n = N.nameOf event ∧ c = ⟨kind.clb event, id⟩) ∨
  (ret ≠ 0 ∧ fresh ∧ ∀ n c, Registered N.name events' n c ↔
    Registered N.name events n c ∧ c.id ≠ id)

omit [DecidableEq ι] in
theorem Naming.Merged.cons {fresh : Prop} {mid : List (EventWithId κ)} {rest : List ν} {ret : Int}
    (hmerged : N.Merged id fresh mid events' rest ret)
    (hnow : ∀ n c, Registered N.name mid n c ↔
      Registered N.name events n c ∨ n = N.nameOf event ∧ c = ⟨kind.clb event, id⟩) :
    N.Merged id fresh events events' (event :: rest) ret := by
  rcases hmerged with ⟨hret, hreg⟩ | ⟨hret, hfresh, hreg⟩
  · refine Or.inl ⟨hret, fun n c => ?_⟩
    rw [hreg, hnow]
    simp [or_assoc]
  · refine Or.inr ⟨hret, hfresh, fun n c => ?_⟩
    rw [hreg, hnow]
    constructor
    · rintro ⟨hreg | ⟨-, rfl⟩, hid⟩
      · exact ⟨hreg, hid⟩
      · exact absurd rfl hid
    · rintro ⟨hreg, hid⟩
      exact ⟨Or.inl hreg, hid⟩

theorem addEventsLoop_merged (hnull : kind.pushesNull = true) {fresh : Prop} {ret : Int}
    {clbFound : Bool} {added : List ν}
    (hrounds : N.Rounds id (N.Owned id fresh) clbFound events added)
    (hadd : kind.addEventsLoop id clbFound events added = some (ret, events')) :
    N.Merged id fresh events events' added ret := by
  induction added generalizing clbFound events with
  | nil =>
    cases hadd
    exact Or.inl ⟨rfl, by simp⟩
  | cons event rest ih =>
    obtain ⟨⟨hexact, howned, hgood⟩, hrest⟩ := hrounds
    rw [← addToKnown_same hexact] at hrest
    rw [addEventsLoop] at hadd
    split at hadd
    · cases hadd
    cases hfirst : firstFound kind.found events event with
    | some known =>
      obtain ⟨pre, post, rfl, -, hround⟩ :=
        addToKnown_some kind id clbFound hfirst
      have hname := hexact known hfirst
      rw [hround] at hadd hrest
      refine (ih hrest hadd).cons fun n c => ?_
      -- either nothing is pushed, and then the registration is there, or it is pushed
      split
      · next hflag =>
        refine (or_iff_left_of_imp ?_).symm
        rintro ⟨rfl, rfl⟩
        exact ⟨known, by simp, hname, howned known hfirst hflag⟩
      · rw [registered_pushCallback N.name hnull, hname]
    | none =>
      have hround := addToKnown_none kind id clbFound hfirst
      rw [hround] at hadd hrest
      cases hkey : kind.copyKey event with
      | none =>
        simp only [copyEvents, hkey, Option.some.injEq, Prod.mk.injEq] at hadd
        obtain ⟨rfl, rfl⟩ := hadd
        exact Or.inr ⟨by decide, hgood hfirst hkey, fun n c => registered_freeEventsWithId⟩
      | some key =>
        simp only [copyEvents, hkey] at hadd hrest
        refine (ih hrest hadd).cons fun n c => ?_
        rw [registered_cons, N.name_copyKey hkey, List.mem_singleton, or_comm, eq_comm]

end

end EventKind

end Dwpal.Client
