import Dwpal.Client.EventMerge

/-! What a received event is served by: the callbacks of the first entry with its name. When a copy
or a merge of a list of events leaves every event of the list served by its callback. -/

namespace Dwpal.Client

variable {ν κ ι : Type} [DecidableEq ι] {name : κ → ι}

/-- The entry that an event named `n` is dispatched to. -/
def entryOf (name : κ → ι) (events : List (EventWithId κ)) (n : ι) : Option (EventWithId κ) :=
  events.find? fun known => decide (name known.key = n)

/-- Events named `n` are dispatched to `clb`. -/
def Serves (name : κ → ι) (events : List (EventWithId κ)) (n : ι) (clb : Clb) : Prop :=
  ∃ known, entryOf name events n = some known ∧ ∃ c ∈ known.clbIdList, c.clb = some clb

theorem entryOf_cons {known : EventWithId κ} {events : List (EventWithId κ)} {n : ι} :
    entryOf name (known :: events) n =
      if name known.key = n then some known else entryOf name events n := by
  rw [entryOf, List.find?_cons]
  by_cases h : name known.key = n <;> simp [h, entryOf]

theorem entryOf_middle {pre post : List (EventWithId κ)} {known : EventWithId κ} {n : ι}
    (hpre : ∀ other ∈ pre, name other.key ≠ n) (hname : name known.key = n) :
    entryOf name (pre ++ known :: post) n = some known := by
  rw [entryOf, List.find?_append, List.find?_eq_none.mpr (by simpa using hpre)]
  simp [hname]

/-- A new entry in front serves what was served, if its name is new. -/
theorem entryOf_front {known other : EventWithId κ} {events : List (EventWithId κ)} {n : ι}
    (hnew : ∀ other ∈ events, name other.key ≠ name known.key)
    (hentry : entryOf name events n = some other) :
    entryOf name (known :: events) n = some other := by
  have hmem := List.mem_of_find?_eq_some hentry
  have hname : name other.key = n := by simpa using List.find?_some hentry
  rw [entryOf_cons, if_neg (fun h => hnew other hmem (hname.trans h.symm)), hentry]

/-- Callbacks that are added to an entry take nothing from what is served. -/
theorem Serves.push {pre post : List (EventWithId κ)} {known : EventWithId κ} {l : List ClbId}
    {n : ι} {clb : Clb} (hsub : known.clbIdList ⊆ l)
    (h : Serves name (pre ++ known :: post) n clb) :
    Serves name (pre ++ { known with clbIdList := l } :: post) n clb := by
  obtain ⟨served, hserved, c, hc, hclb⟩ := h
  induction pre with
  | nil =>
    rw [List.nil_append, entryOf_cons] at hserved
    by_cases hname : name known.key = n
    · rw [if_pos hname, Option.some.injEq] at hserved
      subst hserved
      refine ⟨{ known with clbIdList := l }, ?_, c, hsub hc, hclb⟩
      rw [List.nil_append, entryOf_cons, if_pos hname]
    · rw [if_neg hname] at hserved
      refine ⟨served, ?_, c, hc, hclb⟩
      rw [List.nil_append, entryOf_cons, if_neg hname, hserved]
  | cons other pre ih =>
    rw [List.cons_append, entryOf_cons] at hserved
    by_cases hname : name other.key = n
    · rw [if_pos hname] at hserved
      refine ⟨served, ?_, c, hc, hclb⟩
      rw [List.cons_append, entryOf_cons, if_pos hname, hserved]
    · rw [if_neg hname] at hserved
      obtain ⟨served', hserved', hrest⟩ := ih hserved
      refine ⟨served', ?_, hrest⟩
      rw [List.cons_append, entryOf_cons, if_neg hname, hserved']

namespace EventKind

variable {kind : EventKind ν κ} {N : kind.Naming ι} {id : UInt32} {event : ν} {clbFound : Bool}
  {events events' : List (EventWithId κ)} {wanted : Clb → Prop}

/-- The listed events are dispatched to their callbacks, as far as these are wanted. -/
def Naming.AllServed (N : kind.Naming ι) (wanted : Clb → Prop) (events : List (EventWithId κ))
    (added : List ν) : Prop :=
  ∀ event ∈ added, ∀ clb, kind.clb event = some clb → wanted clb →
    Serves N.name events (N.nameOf event) clb

/-! A copy pushes its entries to the front, so that the last event with a name is found first. -/

/-- The last event of the list with the name `n`. -/
def Naming.lastNamed (N : kind.Naming ι) (added : List ν) (n : ι) : Option ν :=
  added.reverse.find? fun event => decide (N.nameOf event = n)

/-- Every wanted callback is that of the last event of the list with the same name. -/
def Naming.LastOfName (N : kind.Naming ι) (wanted : Clb → Prop) (added : List ν) : Prop :=
  ∀ event ∈ added, ∀ clb, kind.clb event = some clb → wanted clb →
    ∃ last, N.lastNamed added (N.nameOf event) = some last ∧ kind.clb last = some clb

theorem lastNamed_cons {added : List ν} {n : ι} :
    N.lastNamed (event :: added) n =
      (N.lastNamed added n).or (if N.nameOf event = n then some event else none) := by
  rw [Naming.lastNamed, List.reverse_cons, List.find?_append, ← Naming.lastNamed]
  congr 1
  by_cases h : N.nameOf event = n <;> simp [h]

theorem serves_copyEvents {dst dst' : List (EventWithId κ)} {added : List ν}
    (hcopy : kind.copyEvents dst id added = (0, dst')) (n : ι) (clb : Clb) :
    Serves N.name dst' n clb ↔ match N.lastNamed added n with
      | some last => kind.clb last = some clb
      | none => Serves N.name dst n clb := by
  induction added generalizing dst with
  | nil =>
    cases hcopy
    rfl
  | cons event added ih =>
    rw [copyEvents] at hcopy
    cases hkey : kind.copyKey event with
    | none => simp [hkey] at hcopy
    | some key =>
      simp only [hkey] at hcopy
      rw [ih hcopy, lastNamed_cons]
      cases N.lastNamed added n with
      | some last => rfl
      | none =>
        have hname := N.name_copyKey hkey
        by_cases hn : N.nameOf event = n
        · simp [Serves, entryOf_cons, hname, hn]
        · simp [Serves, entryOf_cons, hname, hn]

/-- A copy into an empty list serves the listed events if and only if every callback is that of the
last event with its name. -/
theorem allServed_copyEvents {added : List ν} (hcopy : kind.copyEvents [] id added = (0, events')) :
    N.AllServed wanted events' added ↔ N.LastOfName wanted added := by
  refine forall_congr' fun event => forall_congr' fun hevent => forall_congr' fun clb =>
    forall_congr' fun _ => forall_congr' fun _ => ?_
  rw [serves_copyEvents hcopy]
  cases hlast : N.lastNamed added (N.nameOf event) with
  | some last => simp
  | none => simp [Serves, entryOf]

/-! A merge adds callbacks to the entries that it finds, and new entries in front. -/

/-- Every round of the merge finds the entry with the name of its event, if it finds one. -/
def Naming.AllExact (N : kind.Naming ι) (id : UInt32) (events : List (EventWithId κ))
    (added : List ν) : Prop :=
  N.Rounds id (fun _ events event => N.Exact events event) false events added

/-- A round that comes with `clb_found` set finds no entry, or the wanted callback in it. -/
def NotStale (kind : EventKind ν κ) (wanted : Clb → Prop) (clbFound : Bool)
    (events : List (EventWithId κ)) (event : ν) : Prop :=
  ∀ known, firstFound kind.found events event = some known → clbFound →
    ∀ clb, kind.clb event = some clb → wanted clb → kind.hasClb known event

theorem entryOf_firstFound (h : N.Exact events event) :
    entryOf N.name events (N.nameOf event) = firstFound kind.found events event := by
  induction events with
  | nil => rfl
  | cons known events ih =>
    rw [entryOf_cons, firstFound, List.find?_cons]
    cases hfound : kind.found known.key event with
    | true =>
      have hname : N.name known.key = N.nameOf event := h known (by simp [firstFound, hfound])
      rw [if_pos hname]
    | false =>
      have hne : N.name known.key ≠ N.nameOf event := by
        simpa [Naming.same] using same_eq_false (N := N) hfound
      rw [if_neg hne, ih, firstFound]
      intro other hother
      refine h other ?_
      rw [firstFound, List.find?_cons, hfound]
      exact hother

omit [DecidableEq ι] in
/-- No entry is found for the name of a new entry. -/
theorem ne_of_firstFound_none {key : κ} (hnone : firstFound kind.found events event = none)
    (hkey : kind.copyKey event = some key) :
    ∀ other ∈ events, N.name other.key ≠ N.name key := by
  intro other hother heq
  have hfound := List.find?_eq_none.mp hnone other hother
  exact hfound (N.found_of_eq (heq.trans (N.name_copyKey hkey)))

theorem hasClb_iff {known : EventWithId κ} :
    kind.hasClb known event = true ↔ ∃ c ∈ known.clbIdList, c.clb = kind.clb event := by
  simp [hasClb]

/-- With `clb_found` set, a merge leaves every entry that there is as it is. -/
theorem entryOf_addEventsLoop {added : List ν} {n : ι} {served : EventWithId κ}
    (hadd : kind.addEventsLoop id true events added = some (0, events'))
    (hentry : entryOf N.name events n = some served) :
    entryOf N.name events' n = some served := by
  induction added generalizing events with
  | nil =>
    cases hadd
    exact hentry
  | cons event added ih =>
    rw [addEventsLoop] at hadd
    split at hadd
    · cases hadd
    cases hfirst : firstFound kind.found events event with
    | some known =>
      obtain ⟨pre, post, rfl, -, hround⟩ := addToKnown_some kind id true hfirst
      rw [hround] at hadd
      exact ih hadd hentry
    | none =>
      rw [addToKnown_none kind id true hfirst] at hadd
      cases hkey : kind.copyKey event with
      | none => simp [copyEvents, hkey] at hadd
      | some key =>
        simp only [copyEvents, hkey] at hadd
        exact ih hadd (entryOf_front (ne_of_firstFound_none hfirst hkey) hentry)

/-- What is served stays served in a merge. -/
theorem Serves.addEventsLoop {added : List ν} {n : ι} {clb : Clb}
    (hexact : N.Rounds id (fun _ events event => N.Exact events event) clbFound events added)
    (hadd : kind.addEventsLoop id clbFound events added = some (0, events'))
    (hserves : Serves N.name events n clb) : Serves N.name events' n clb := by
  induction added generalizing clbFound events with
  | nil =>
    cases hadd
    exact hserves
  | cons event added ih =>
    obtain ⟨hnow, hrest⟩ := hexact
    rw [← addToKnown_same hnow] at hrest
    rw [EventKind.addEventsLoop] at hadd
    split at hadd
    · cases hadd
    cases hfirst : firstFound kind.found events event with
    | some known =>
      obtain ⟨pre, post, rfl, -, hround⟩ := addToKnown_some kind id clbFound hfirst
      rw [hround] at hadd hrest
      refine ih hrest hadd ?_
      split
      · exact hserves
      · refine hserves.push ?_
        rw [pushCallback]
        split
        · exact List.Subset.refl _
        · exact List.subset_append_left _ _
    | none =>
      rw [addToKnown_none kind id clbFound hfirst] at hadd hrest
      cases hkey : kind.copyKey event with
      | none => simp [copyEvents, hkey] at hadd
      | some key =>
        simp only [copyEvents, hkey] at hadd hrest
        obtain ⟨known, hentry, hclb⟩ := hserves
        exact ih hrest hadd
          ⟨known, entryOf_front (ne_of_firstFound_none hfirst hkey) hentry, hclb⟩

/-- Some entry has the name `n`. -/
def Named (name : κ → ι) (events : List (EventWithId κ)) (n : ι) : Prop :=
  n ∈ events.map fun known => name known.key

theorem named_iff {n : ι} : Named name events n ↔ ∃ known, entryOf name events n = some known := by
  rw [← Option.isSome_iff_exists, entryOf, List.find?_isSome]
  simp [Named]

omit [DecidableEq ι] in
theorem named_copyEvents {dst : List (EventWithId κ)} {added : List ν}
    (hcopy : kind.copyEvents dst id added = (0, events')) :
    ∀ event ∈ added, Named N.name events' (N.nameOf event) := by
  intro event hevent
  obtain ⟨known, hknown, hname, -⟩ :=
    (copyEvents_registered N hcopy (N.nameOf event) ⟨kind.clb event, id⟩).mpr
      (Or.inr ⟨event, hevent, rfl, rfl⟩)
  exact List.mem_map.mpr ⟨known, hknown, hname⟩

/-- A merge that finds the right entries has an entry for every listed event, and for every event
that had one. -/
theorem named_addEventsLoop {added : List ν}
    (hexact : N.Rounds id (fun _ events event => N.Exact events event) clbFound events added)
    (hadd : kind.addEventsLoop id clbFound events added = some (0, events')) :
    (∀ n, Named N.name events n → Named N.name events' n) ∧
      ∀ event ∈ added, Named N.name events' (N.nameOf event) := by
  induction added generalizing clbFound events with
  | nil =>
    cases hadd
    exact ⟨fun n h => h, fun event hevent => by cases hevent⟩
  | cons event added ih =>
    obtain ⟨hnow, hrest⟩ := hexact
    rw [← addToKnown_same hnow] at hrest
    rw [EventKind.addEventsLoop] at hadd
    split at hadd
    · cases hadd
    -- the list after the round, with its entries
    have hround : ∀ {clbFound' mid}, N.Rounds id (fun _ events event => N.Exact events event)
        clbFound' mid added → kind.addEventsLoop id clbFound' mid added = some (0, events') →
        (∀ n, Named N.name events n → Named N.name mid n) → Named N.name mid (N.nameOf event) →
        (∀ n, Named N.name events n → Named N.name events' n) ∧
          ∀ other ∈ event :: added, Named N.name events' (N.nameOf other) := by
      intro clbFound' mid hrest hadd hkept hnew
      obtain ⟨hmono, hall⟩ := ih hrest hadd
      refine ⟨fun n h => hmono n (hkept n h), fun other hother => ?_⟩
      rcases List.mem_cons.mp hother with rfl | hother
      · exact hmono _ hnew
      · exact hall other hother
    cases hfirst : firstFound kind.found events event with
    | some known =>
      obtain ⟨pre, post, rfl, -, hstep⟩ := addToKnown_some kind id clbFound hfirst
      rw [hstep] at hadd hrest
      have hkeys : ∀ n, Named N.name (if clbFound || kind.hasClb known event then
          pre ++ known :: post else pre ++ { known with
            clbIdList := kind.pushCallback known.clbIdList (kind.clb event) id } :: post) n ↔
          Named N.name (pre ++ known :: post) n := by
        intro n
        split <;> simp [Named]
      refine hround hrest hadd (fun n hn => (hkeys n).mpr hn) ((hkeys _).mpr ?_)
      exact List.mem_map.mpr ⟨known, by simp, hnow known hfirst⟩
    | none =>
      rw [addToKnown_none kind id clbFound hfirst] at hadd hrest
      cases hkey : kind.copyKey event with
      | none => simp [copyEvents, hkey] at hadd
      | some key =>
        simp only [copyEvents, hkey] at hadd hrest
        refine hround hrest hadd (fun n hn => List.mem_cons_of_mem _ hn) ?_
        exact List.mem_map.mpr ⟨_, List.mem_cons_self, N.name_copyKey hkey⟩

/-- A merge that finds the right entries serves the listed events if and only if no round comes too
late for its callback. -/
theorem allServed_addEvents {added : List ν}
    (hexact : N.Rounds id (fun _ events event => N.Exact events event) clbFound events added)
    (hadd : kind.addEventsLoop id clbFound events added = some (0, events')) :
    N.AllServed wanted events' added ↔
      N.Rounds id (kind.NotStale wanted) clbFound events added := by
  induction added generalizing clbFound events with
  | nil => exact iff_of_true (fun event hevent => by cases hevent) trivial
  | cons event added ih =>
    obtain ⟨hnow, hrest⟩ := hexact
    have hadd' := hadd
    rw [addEventsLoop] at hadd
    split at hadd
    · cases hadd
    have hcons : N.AllServed wanted events' (event :: added) ↔
        (∀ clb, kind.clb event = some clb → wanted clb →
          Serves N.name events' (N.nameOf event) clb) ∧ N.AllServed wanted events' added := by
      simp [Naming.AllServed]
    rw [hcons, Naming.Rounds, ← addToKnown_same hnow]
    rw [← addToKnown_same hnow] at hrest
    cases hfirst : firstFound kind.found events event with
    | some known =>
      have hentry := entryOf_firstFound hnow
      rw [hfirst] at hentry
      obtain ⟨pre, post, rfl, hpre, hround⟩ := addToKnown_some kind id clbFound hfirst
      rw [hround] at hadd hrest ⊢
      have hserved : ∀ clb, kind.clb event = some clb → kind.hasClb known event = true →
          Serves N.name (pre ++ known :: post) (N.nameOf event) clb := by
        intro clb hclb hhas
        obtain ⟨c, hc, hcclb⟩ := hasClb_iff.mp hhas
        exact ⟨known, hentry, c, hc, hcclb.trans hclb⟩
      cases hhas : kind.hasClb known event with
      | true =>
        simp only [hhas, Bool.or_true, if_true] at hadd hrest ⊢
        rw [ih hrest hadd]
        refine and_congr_left fun _ => iff_of_true (fun clb hclb _ => ?_) ?_
        · exact Serves.addEventsLoop hrest hadd (hserved clb hclb hhas)
        · intro other hother _ _ _ _
          rw [hfirst, Option.some.injEq] at hother
          exact hother ▸ hhas
      | false =>
        cases clbFound with
        | true =>
          -- the callback is left out, and nothing is added to the entry any more
          simp only [hhas, Bool.or_false, if_true] at hadd hrest ⊢
          rw [ih hrest hadd]
          refine and_congr_left fun _ => ?_
          have hfrozen := entryOf_addEventsLoop hadd hentry
          constructor
          · intro hall other hother _ clb hclb hwanted
            obtain ⟨known', hknown', c, hc, hcclb⟩ := hall clb hclb hwanted
            rw [hfrozen, Option.some.injEq] at hknown'
            rw [hfirst, Option.some.injEq] at hother
            subst hknown' hother
            exact hasClb_iff.mpr ⟨c, hc, hcclb.trans hclb.symm⟩
          · intro hstale clb hclb hwanted
            have := hstale known hfirst rfl clb hclb hwanted
            rw [hhas] at this
            cases this
        | false =>
          simp only [hhas, Bool.or_false, Bool.false_eq_true, if_false] at hadd hrest ⊢
          rw [ih hrest hadd]
          refine and_congr_left fun _ => iff_of_true (fun clb hclb _ => ?_) ?_
          · refine Serves.addEventsLoop hrest hadd ⟨_, entryOf_middle ?_ (hnow known hfirst),
              ⟨kind.clb event, id⟩, ?_, hclb⟩
            · intro other hother
              simpa [Naming.same] using same_eq_false (N := N) (hpre other hother)
            · simp [pushCallback, hclb]
          · intro _ _ hflag
            cases hflag
    | none =>
      rw [addToKnown_none kind id clbFound hfirst] at hadd hrest ⊢
      cases hkey : kind.copyKey event with
      | none => simp [copyEvents, hkey] at hadd
      | some key =>
        simp only [copyEvents, hkey] at hadd hrest ⊢
        rw [ih hrest hadd]
        refine and_congr_left fun _ => iff_of_true (fun clb hclb _ => ?_) ?_
        · refine Serves.addEventsLoop hrest hadd
            ⟨⟨key, [⟨kind.clb event, id⟩]⟩, ?_, _, List.mem_singleton_self _, hclb⟩
          rw [entryOf_cons, if_pos (N.name_copyKey hkey)]
        · intro known hknown
          rw [hfirst] at hknown
          cases hknown

end EventKind

end Dwpal.Client
