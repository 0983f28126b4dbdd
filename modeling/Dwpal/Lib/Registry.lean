import Mathlib.Data.List.Basic
import Mathlib.Data.List.Nodup

/-! A registry: a list of keys, each with the members that are entered under it. Seen from outside
it is a relation between keys and members. -/

namespace Dwpal.Registry

variable {κ σ : Type*} [DecidableEq σ]

/-- A key and the members under it, none of them twice. -/
structure Entry (κ σ : Type*) where
  key : κ
  members : List σ
  nodup : members.Nodup

namespace Entry

/-- The member is put in front of the others, once. -/
def enter (e : Entry κ σ) (s : σ) : Entry κ σ where
  key := e.key
  members := s :: e.members.erase s
  nodup := List.nodup_cons.mpr ⟨e.nodup.not_mem_erase, e.nodup.erase s⟩

def withdraw (e : Entry κ σ) (s : σ) : Entry κ σ where
  key := e.key
  members := e.members.erase s
  nodup := e.nodup.erase s

theorem mem_enter {e : Entry κ σ} {s t : σ} : t ∈ (e.enter s).members ↔ t = s ∨ t ∈ e.members := by
  by_cases h : t = s
  · simp [enter, h]
  · simp [enter, h, List.mem_erase_of_ne h]

theorem mem_withdraw {e : Entry κ σ} {s t : σ} :
    t ∈ (e.withdraw s).members ↔ t ∈ e.members ∧ t ≠ s := by
  rw [withdraw, e.nodup.mem_erase_iff, and_comm]

end Entry

/-- `s` is entered under `k`. -/
def Member (es : List (Entry κ σ)) (k : κ) (s : σ) : Prop := ∃ e ∈ es, e.key = k ∧ s ∈ e.members

/-- `s` is entered under the first key that `hit` accepts, `none` if there is no such key. -/
def enterFirst (hit : κ → Bool) (s : σ) : List (Entry κ σ) → Option (List (Entry κ σ))
  | [] => none
  | e :: es => if hit e.key then some (e.enter s :: es) else (enterFirst hit s es).map (e :: ·)

/-- `s` is entered under the key that `hit` accepts, which is the new key `k` if there is none. -/
def register (hit : κ → Bool) (k : κ) (s : σ) (es : List (Entry κ σ)) : List (Entry κ σ) :=
  match enterFirst hit s es with
  | some es' => es'
  | none => ⟨k, [s], List.nodup_singleton s⟩ :: es

/-- `s` is withdrawn from every key, and keys without members are dropped. -/
def withdrawAll (s : σ) (es : List (Entry κ σ)) : List (Entry κ σ) :=
  (es.map fun e => e.withdraw s).filter fun e => !e.members.isEmpty

omit [DecidableEq σ] in
@[simp] theorem member_nil (k : κ) (s : σ) : ¬ Member ([] : List (Entry κ σ)) k s := by
  simp [Member]

omit [DecidableEq σ] in
theorem member_cons {e : Entry κ σ} {es : List (Entry κ σ)} {k : κ} {s : σ} :
    Member (e :: es) k s ↔ e.key = k ∧ s ∈ e.members ∨ Member es k s := by
  simp [Member]

theorem enterFirst_eq_none {hit : κ → Bool} {s : σ} {es : List (Entry κ σ)} :
    enterFirst hit s es = none ↔ ∀ e ∈ es, hit e.key = false := by
  induction es with
  | nil => simp [enterFirst]
  | cons e es ih =>
    rw [enterFirst]
    by_cases h : hit e.key = true
    · simp [h]
    · simp [h, ih]

theorem member_enterFirst {hit : κ → Bool} {s : σ} {k : κ} (hhit : ∀ k', hit k' = true ↔ k' = k) :
    ∀ {es es' : List (Entry κ σ)}, enterFirst hit s es = some es' → ∀ {k' : κ} {t : σ},
      Member es' k' t ↔ Member es k' t ∨ k' = k ∧ t = s := by
  intro es
  induction es with
  | nil =>
    intro es' h
    cases h
  | cons e es ih =>
    intro es' h k' t
    rw [enterFirst] at h
    by_cases hk : hit e.key = true
    · rw [if_pos hk] at h
      cases h
      have hkey : e.key = k := (hhit _).mp hk
      rw [member_cons, member_cons, Entry.mem_enter, show (e.enter s).key = e.key from rfl, hkey]
      constructor
      · rintro (⟨rfl, rfl | ht⟩ | ht)
        · exact Or.inr ⟨rfl, rfl⟩
        · exact Or.inl (Or.inl ⟨rfl, ht⟩)
        · exact Or.inl (Or.inr ht)
      · rintro ((⟨rfl, ht⟩ | ht) | ⟨rfl, rfl⟩)
        · exact Or.inl ⟨rfl, Or.inr ht⟩
        · exact Or.inr ht
        · exact Or.inl ⟨rfl, Or.inl rfl⟩
    · rw [if_neg hk, Option.map_eq_some_iff] at h
      obtain ⟨es'', hes, rfl⟩ := h
      rw [member_cons, member_cons, ih hes, or_assoc]

/-- Registering adds one pair to the relation. -/
theorem member_register {hit : κ → Bool} {s : σ} {k : κ} (hhit : ∀ k', hit k' = true ↔ k' = k)
    {es : List (Entry κ σ)} {k' : κ} {t : σ} :
    Member (register hit k s es) k' t ↔ Member es k' t ∨ k' = k ∧ t = s := by
  unfold register
  split
  · next es' h => exact member_enterFirst hhit h
  · rw [member_cons, or_comm]
    simp [eq_comm]

/-- Withdrawing removes the pairs of one member. -/
theorem member_withdrawAll {s : σ} {es : List (Entry κ σ)} {k : κ} {t : σ} :
    Member (withdrawAll s es) k t ↔ Member es k t ∧ t ≠ s := by
  constructor
  · rintro ⟨e, he, hkey, ht⟩
    obtain ⟨e', he', rfl⟩ := List.mem_map.mp (List.mem_of_mem_filter he)
    obtain ⟨ht', hne⟩ := Entry.mem_withdraw.mp ht
    exact ⟨⟨e', he', hkey, ht'⟩, hne⟩
  · rintro ⟨⟨e, he, hkey, ht⟩, hne⟩
    have ht' := Entry.mem_withdraw.mpr ⟨ht, hne⟩
    refine ⟨e.withdraw s, List.mem_filter.mpr ⟨List.mem_map_of_mem he, ?_⟩, hkey, ht'⟩
    rw [Bool.not_eq_true', List.isEmpty_eq_false_iff]
    exact List.ne_nil_of_mem ht'

/-- `s` is entered under some key. -/
def Enrolled (es : List (Entry κ σ)) (s : σ) : Prop := ∃ e ∈ es, s ∈ e.members

omit [DecidableEq σ] in
theorem enrolled_iff {es : List (Entry κ σ)} {s : σ} : Enrolled es s ↔ ∃ k, Member es k s :=
  ⟨fun ⟨e, he, hs⟩ => ⟨e.key, e, he, rfl, hs⟩, fun ⟨_, e, he, _, hs⟩ => ⟨e, he, hs⟩⟩

theorem enrolled_enterFirst {hit : κ → Bool} {s : σ} :
    ∀ {es es' : List (Entry κ σ)}, enterFirst hit s es = some es' → ∀ {t : σ},
      Enrolled es' t → Enrolled es t ∨ t = s := by
  intro es
  induction es with
  | nil =>
    intro es' h
    cases h
  | cons e es ih =>
    intro es' h t ht
    rw [enterFirst] at h
    split at h
    · cases h
      obtain ⟨e', he', ht⟩ := ht
      rcases List.mem_cons.mp he' with rfl | he'
      · rcases Entry.mem_enter.mp ht with ht | ht
        · exact .inr ht
        · exact .inl ⟨e, List.mem_cons_self, ht⟩
      · exact .inl ⟨e', List.mem_cons_of_mem e he', ht⟩
    · obtain ⟨es'', hes, rfl⟩ := Option.map_eq_some_iff.mp h
      obtain ⟨e', he', ht⟩ := ht
      rcases List.mem_cons.mp he' with rfl | he'
      · exact .inl ⟨e', List.mem_cons_self, ht⟩
      · refine (ih hes ⟨e', he', ht⟩).imp_left ?_
        exact fun ⟨e'', he'', ht'⟩ => ⟨e'', List.mem_cons_of_mem e he'', ht'⟩

/-- Registering enrolls nobody else. -/
theorem enrolled_register {hit : κ → Bool} {k : κ} {s t : σ} {es : List (Entry κ σ)}
    (h : Enrolled (register hit k s es) t) : Enrolled es t ∨ t = s := by
  unfold register at h
  split at h
  · next es' hes => exact enrolled_enterFirst hes h
  · obtain ⟨e, he, ht⟩ := h
    rcases List.mem_cons.mp he with rfl | he
    · exact .inr (List.mem_singleton.mp ht)
    · exact .inl ⟨e, he, ht⟩

theorem enrolled_enterFirst_of {hit : κ → Bool} {s : σ} :
    ∀ {es es' : List (Entry κ σ)}, enterFirst hit s es = some es' → ∀ {t : σ},
      Enrolled es t ∨ t = s → Enrolled es' t := by
  intro es
  induction es with
  | nil =>
    intro es' h
    cases h
  | cons e es ih =>
    intro es' h t ht
    rw [enterFirst] at h
    split at h
    · cases h
      rcases ht with ⟨e', he', ht⟩ | ht
      · rcases List.mem_cons.mp he' with rfl | he'
        · exact ⟨_, List.mem_cons_self, Entry.mem_enter.mpr (.inr ht)⟩
        · exact ⟨e', List.mem_cons_of_mem _ he', ht⟩
      · exact ⟨_, List.mem_cons_self, Entry.mem_enter.mpr (.inl ht)⟩
    · obtain ⟨es'', hes, rfl⟩ := Option.map_eq_some_iff.mp h
      have hrest : Enrolled es t ∨ t = s → Enrolled (e :: es'') t := fun ht => by
        obtain ⟨e', he', ht⟩ := ih hes ht
        exact ⟨e', List.mem_cons_of_mem e he', ht⟩
      rcases ht with ⟨e', he', ht⟩ | ht
      · rcases List.mem_cons.mp he' with rfl | he'
        · exact ⟨e', List.mem_cons_self, ht⟩
        · exact hrest (.inl ⟨e', he', ht⟩)
      · exact hrest (.inr ht)

/-- Registering enrolls the member, and nobody loses a registration. -/
theorem enrolled_register_of {hit : κ → Bool} {k : κ} {s t : σ} {es : List (Entry κ σ)}
    (h : Enrolled es t ∨ t = s) : Enrolled (register hit k s es) t := by
  unfold register
  split
  · next es' hes => exact enrolled_enterFirst_of hes h
  · rcases h with ⟨e, he, ht⟩ | rfl
    · exact ⟨e, List.mem_cons_of_mem _ he, ht⟩
    · exact ⟨_, List.mem_cons_self, List.mem_singleton_self t⟩

theorem enrolled_withdrawAll {s t : σ} {es : List (Entry κ σ)} :
    Enrolled (withdrawAll s es) t ↔ Enrolled es t ∧ t ≠ s := by
  simp only [enrolled_iff, member_withdrawAll, exists_and_right]

/-- Every key once, and with a member. -/
structure Tidy (es : List (Entry κ σ)) : Prop where
  keys : (es.map Entry.key).Nodup
  members : ∀ e ∈ es, e.members ≠ []

omit [DecidableEq σ] in
theorem Tidy.nil : Tidy ([] : List (Entry κ σ)) := ⟨List.nodup_nil, by simp⟩

theorem keys_enterFirst {hit : κ → Bool} {s : σ} :
    ∀ {es es' : List (Entry κ σ)}, enterFirst hit s es = some es' →
      es'.map Entry.key = es.map Entry.key := by
  intro es
  induction es with
  | nil =>
    intro es' h
    cases h
  | cons e es ih =>
    intro es' h
    rw [enterFirst] at h
    split at h
    · cases h
      rfl
    · obtain ⟨es'', hes, rfl⟩ := Option.map_eq_some_iff.mp h
      rw [List.map_cons, List.map_cons, ih hes]

theorem members_enterFirst {hit : κ → Bool} {s : σ} :
    ∀ {es es' : List (Entry κ σ)}, enterFirst hit s es = some es' →
      (∀ e ∈ es, e.members ≠ []) → ∀ e ∈ es', e.members ≠ [] := by
  intro es
  induction es with
  | nil =>
    intro es' h
    cases h
  | cons e es ih =>
    intro es' h hmembers
    rw [List.forall_mem_cons] at hmembers
    rw [enterFirst] at h
    split at h
    · cases h
      exact List.forall_mem_cons.mpr ⟨List.cons_ne_nil _ _, hmembers.2⟩
    · obtain ⟨es'', hes, rfl⟩ := Option.map_eq_some_iff.mp h
      exact List.forall_mem_cons.mpr ⟨hmembers.1, ih hes hmembers.2⟩

/-- Registering makes an entry only for a key that has none. -/
theorem Tidy.register {hit : κ → Bool} {k : κ} (hhit : ∀ k', hit k' = true ↔ k' = k) (s : σ)
    {es : List (Entry κ σ)} (h : Tidy es) : Tidy (Registry.register hit k s es) := by
  unfold Registry.register
  split
  · next es' hes =>
    refine ⟨?_, members_enterFirst hes h.members⟩
    rw [keys_enterFirst hes]
    exact h.keys
  · next hnone =>
    refine ⟨List.nodup_cons.mpr ⟨fun hmem => ?_, h.keys⟩, ?_⟩
    · obtain ⟨e, he, hkey⟩ := List.mem_map.mp hmem
      have hmiss := enterFirst_eq_none.mp hnone e he
      rw [(hhit _).mpr hkey] at hmiss
      cases hmiss
    · exact List.forall_mem_cons.mpr ⟨List.cons_ne_nil _ _, h.members⟩

/-- Withdrawing drops the entries that it leaves without members. -/
theorem Tidy.withdrawAll (s : σ) {es : List (Entry κ σ)} (h : Tidy es) :
    Tidy (Registry.withdrawAll s es) := by
  constructor
  · have hkeys : (es.map fun e => e.withdraw s).map Entry.key = es.map Entry.key := by
      rw [List.map_map]
      rfl
    refine List.Nodup.sublist (List.Sublist.map _ List.filter_sublist) ?_
    rw [hkeys]
    exact h.keys
  · intro e he
    simpa using List.of_mem_filter he

/-- The members under the first key that `hit` accepts. -/
def membersOf (hit : κ → Bool) (es : List (Entry κ σ)) : List σ :=
  ((es.find? fun e => hit e.key).map Entry.members).getD []

omit [DecidableEq σ] in
theorem nodup_membersOf (hit : κ → Bool) (es : List (Entry κ σ)) : (membersOf hit es).Nodup := by
  rw [membersOf]
  cases es.find? fun e => hit e.key with
  | none => exact List.nodup_nil
  | some e => exact e.nodup

omit [DecidableEq σ] in
theorem enrolled_of_mem_membersOf {hit : κ → Bool} {es : List (Entry κ σ)} {s : σ}
    (h : s ∈ membersOf hit es) : Enrolled es s := by
  rw [membersOf] at h
  cases hfind : es.find? fun e => hit e.key with
  | none =>
    rw [hfind] at h
    cases h
  | some e =>
    rw [hfind] at h
    exact ⟨e, List.mem_of_find?_eq_some hfind, h⟩

omit [DecidableEq σ] in
theorem mem_membersOf {hit : κ → Bool} (hone : ∀ k k', hit k = true → hit k' = true → k = k')
    {es : List (Entry κ σ)} (h : Tidy es) {s : σ} :
    s ∈ membersOf hit es ↔ ∃ k, hit k = true ∧ Member es k s := by
  rw [membersOf]
  cases hfind : es.find? fun e => hit e.key with
  | none =>
    refine iff_of_false (by simp) ?_
    rintro ⟨_, hk, e, he, rfl, -⟩
    exact List.find?_eq_none.mp hfind e he hk
  | some found =>
    have hmem := List.mem_of_find?_eq_some hfind
    have hfound := List.find?_some hfind
    constructor
    · exact fun hs => ⟨found.key, hfound, found, hmem, rfl, hs⟩
    · rintro ⟨_, hk, e, he, rfl, hs⟩
      rwa [List.inj_on_of_nodup_map h.keys he hmem (hone _ _ hk hfound)] at hs

end Dwpal.Registry
