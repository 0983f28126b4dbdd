import Mathlib.Data.List.Basic
import Mathlib.Order.Basic

/-! Stores to a memory: the memory after them, the addresses they touch, how far they reach, and the
stores of one part of a memory moved to another. -/

namespace Dwpal.Stores

/-- A memory holds a value at each address. -/
abbrev Memory (β : Type*) := Nat → β

/-- A store of consecutive values from an address on. -/
structure Store (β : Type*) where
  address : Nat
  bytes : List β
deriving DecidableEq

variable {β : Type*}

/-- The store is to the address, among others. -/
def Store.Covers (s : Store β) (a : Nat) : Prop :=
  s.address ≤ a ∧ a < s.address + s.bytes.length

instance (s : Store β) (a : Nat) : Decidable (s.Covers a) := inferInstanceAs (Decidable (_ ∧ _))

def Store.run (s : Store β) (m : Memory β) : Memory β := fun a =>
  if s.address ≤ a then s.bytes[a - s.address]?.getD (m a) else m a

/-- The store to a part of the memory that begins at `d`. -/
def Store.shift (d : Nat) (s : Store β) : Store β := { s with address := d + s.address }

/-- The memory after stores, the first one first. -/
def runAll (stores : List (Store β)) (m : Memory β) : Memory β :=
  stores.foldl (fun m s => s.run m) m

/-- One of the stores is to the address. -/
def Touches (stores : List (Store β)) (a : Nat) : Prop := ∃ s ∈ stores, s.Covers a

instance (stores : List (Store β)) (a : Nat) : Decidable (Touches stores a) :=
  inferInstanceAs (Decidable (∃ s ∈ stores, s.Covers a))

/-- The end of the memory that stores of at least one value touch. -/
def extent (stores : List (Store β)) : Nat :=
  stores.foldr (fun s n => max (s.address + s.bytes.length) n) 0

/-- The `n` values from an address on. -/
def bytesAt (m : Memory β) (a n : Nat) : List β := (List.range n).map fun k => m (a + k)

section Run

variable {s : Store β} {stores stores' : List (Store β)} {m m' : Memory β} {a d n : Nat}

theorem Store.run_of_not_covers (h : ¬s.Covers a) : s.run m a = m a := by
  rw [Store.run]
  split
  · next hle =>
    have hnone : s.bytes[a - s.address]? = none :=
      List.getElem?_eq_none (by by_contra hlt; exact h ⟨hle, by omega⟩)
    rw [hnone]
    rfl
  · rfl

theorem Store.run_of_covers {k : Nat} {b : β} (h : s.bytes[k]? = some b) :
    s.run m (s.address + k) = b := by
  rw [Store.run, if_pos (Nat.le_add_right ..), Nat.add_sub_cancel_left, h]
  rfl

/-- What a store leaves at an address that it covers is its own value. -/
theorem Store.run_congr (h : s.Covers a) : s.run m a = s.run m' a := by
  obtain ⟨k, rfl⟩ := Nat.exists_eq_add_of_le h.1
  have hk : k < s.bytes.length := by
    have hlt := h.2
    omega
  rw [Store.run_of_covers (List.getElem?_eq_getElem hk),
    Store.run_of_covers (List.getElem?_eq_getElem hk)]

@[simp] theorem runAll_nil : runAll [] m = m := rfl

@[simp] theorem runAll_cons : runAll (s :: stores) m = runAll stores (s.run m) := rfl

theorem runAll_append : runAll (stores ++ stores') m = runAll stores' (runAll stores m) :=
  List.foldl_append ..

@[simp] theorem not_touches_nil : ¬Touches ([] : List (Store β)) a := fun ⟨_, hs, _⟩ => by cases hs

@[simp] theorem touches_cons : Touches (s :: stores) a ↔ s.Covers a ∨ Touches stores a := by
  simp [Touches]

@[simp] theorem touches_append : Touches (stores ++ stores') a ↔ Touches stores a ∨
    Touches stores' a := by
  simp only [Touches, List.mem_append, or_and_right, exists_or]

theorem touches_flatten {rows : List (List (Store β))} :
    Touches rows.flatten a ↔ ∃ stores ∈ rows, Touches stores a := by
  constructor
  · rintro ⟨s, hs, hcovers⟩
    obtain ⟨stores, hstores, hs⟩ := List.mem_flatten.mp hs
    exact ⟨stores, hstores, s, hs, hcovers⟩
  · rintro ⟨stores, hstores, s, hs, hcovers⟩
    exact ⟨s, List.mem_flatten.mpr ⟨stores, hstores, hs⟩, hcovers⟩

theorem touches_flatMap {α : Type*} {xs : List α} {f : α → List (Store β)} :
    Touches (xs.flatMap f) a ↔ ∃ x ∈ xs, Touches (f x) a := by
  rw [List.flatMap_def, touches_flatten]
  constructor
  · rintro ⟨stores, hstores, htouches⟩
    obtain ⟨x, hx, rfl⟩ := List.mem_map.mp hstores
    exact ⟨x, hx, htouches⟩
  · rintro ⟨x, hx, htouches⟩
    exact ⟨f x, List.mem_map_of_mem hx, htouches⟩

/-- What no store touches stays. -/
theorem runAll_of_not_touches (h : ¬Touches stores a) : runAll stores m a = m a := by
  induction stores generalizing m with
  | nil => rfl
  | cons s stores ih =>
    rw [touches_cons, not_or] at h
    rw [runAll_cons, ih h.2, Store.run_of_not_covers h.1]

/-- What the stores touch does not depend on the memory before them. -/
theorem runAll_congr (h : Touches stores a) : runAll stores m a = runAll stores m' a := by
  induction stores generalizing m m' with
  | nil => exact absurd h not_touches_nil
  | cons s stores ih =>
    rw [runAll_cons, runAll_cons]
    by_cases hlater : Touches stores a
    · exact ih hlater
    · have hcovers : s.Covers a := (touches_cons.mp h).resolve_right hlater
      rw [runAll_of_not_touches hlater, runAll_of_not_touches hlater, Store.run_congr hcovers]

/-- Stores of one value to an address leave it there. -/
theorem runAll_const {b : β}
    (hstores : ∀ s ∈ stores, s.Covers a → s.bytes[a - s.address]? = some b) (h : m a = b) :
    runAll stores m a = b := by
  induction stores generalizing m with
  | nil => exact h
  | cons s stores ih =>
    obtain ⟨hs, hstores⟩ := List.forall_mem_cons.mp hstores
    rw [runAll_cons]
    refine ih hstores ?_
    by_cases hcovers : s.Covers a
    · obtain ⟨k, rfl⟩ := Nat.exists_eq_add_of_le hcovers.1
      have hb := hs hcovers
      rw [Nat.add_sub_cancel_left] at hb
      exact Store.run_of_covers hb
    · rw [Store.run_of_not_covers hcovers, h]

/-- Memories that agree at an address agree there after the same stores. -/
theorem runAll_agree (h : m a = m' a) : runAll stores m a = runAll stores m' a := by
  by_cases htouches : Touches stores a
  · exact runAll_congr htouches
  · rw [runAll_of_not_touches htouches, runAll_of_not_touches htouches, h]

end Run

section Shift

variable {s : Store β} {stores : List (Store β)} {m : Memory β} {a d e : Nat}

@[simp] theorem Store.shift_bytes : (s.shift d).bytes = s.bytes := rfl

theorem Store.covers_shift : (s.shift d).Covers a ↔ d ≤ a ∧ s.Covers (a - d) := by
  simp only [Store.Covers, Store.shift]
  omega

theorem touches_shift : Touches (stores.map (Store.shift d)) a ↔ d ≤ a ∧
    Touches stores (a - d) := by
  constructor
  · rintro ⟨s, hs, hcovers⟩
    obtain ⟨s, hmem, rfl⟩ := List.mem_map.mp hs
    obtain ⟨hle, hcovers⟩ := Store.covers_shift.mp hcovers
    exact ⟨hle, s, hmem, hcovers⟩
  · rintro ⟨hle, s, hs, hcovers⟩
    exact ⟨s.shift d, List.mem_map_of_mem hs, Store.covers_shift.mpr ⟨hle, hcovers⟩⟩

theorem Store.run_shift : (s.shift d).run m (d + a) = s.run (fun a => m (d + a)) a := by
  change (if d + s.address ≤ d + a then s.bytes[d + a - (d + s.address)]?.getD (m (d + a))
    else m (d + a)) = _
  rw [Store.run]
  by_cases hle : s.address ≤ a
  · rw [if_pos (by omega), if_pos hle, show d + a - (d + s.address) = a - s.address by omega]
  · rw [if_neg (by omega), if_neg hle]

/-- Stores that are moved do to their part of the memory what they do to a memory of its own. -/
theorem runAll_shift :
    runAll (stores.map (Store.shift d)) m (d + a) = runAll stores (fun a => m (d + a)) a := by
  induction stores generalizing m with
  | nil => rfl
  | cons s stores ih =>
    rw [List.map_cons, runAll_cons, runAll_cons, ih]
    exact runAll_agree Store.run_shift

theorem shift_shift : (s.shift d).shift e = s.shift (e + d) := by
  simp [Store.shift, Nat.add_assoc]

end Shift

section Extent

variable {s : Store β} {stores : List (Store β)} {a n : Nat}

@[simp] theorem extent_nil : extent ([] : List (Store β)) = 0 := rfl

@[simp] theorem extent_cons :
    extent (s :: stores) = max (s.address + s.bytes.length) (extent stores) := rfl

theorem extent_le : extent stores ≤ n ↔ ∀ s ∈ stores, s.address + s.bytes.length ≤ n := by
  induction stores with
  | nil => simp
  | cons s stores ih => rw [extent_cons, Nat.max_le, ih, List.forall_mem_cons]

theorem Touches.lt_extent (h : Touches stores a) : a < extent stores := by
  obtain ⟨s, hs, hcovers⟩ := h
  have hle := extent_le.mp (Nat.le_refl (extent stores)) s hs
  have hlt := hcovers.2
  omega

/-- Stores that are not empty touch the last address in front of their end. -/
theorem touches_extent (hne : stores ≠ []) (hstores : ∀ s ∈ stores, s.bytes ≠ []) :
    0 < extent stores ∧ Touches stores (extent stores - 1) := by
  induction stores with
  | nil => exact absurd rfl hne
  | cons s stores ih =>
    obtain ⟨hbytes, hstores⟩ := List.forall_mem_cons.mp hstores
    have hpos := List.length_pos_of_ne_nil hbytes
    rw [extent_cons, touches_cons]
    rcases Nat.le_total (extent stores) (s.address + s.bytes.length) with hle | hle
    · rw [Nat.max_eq_left hle]
      exact ⟨by omega, .inl ⟨by omega, by omega⟩⟩
    · rw [Nat.max_eq_right hle]
      have hrest : stores ≠ [] := by
        rintro rfl
        rw [extent_nil] at hle
        omega
      exact ⟨by omega, .inr (ih hrest hstores).2⟩

end Extent

section BytesAt

variable {s : Store β} {stores : List (Store β)} {m : Memory β} {a n : Nat}

@[simp] theorem length_bytesAt : (bytesAt m a n).length = n := by simp [bytesAt]

theorem bytesAt_eq_iff {bytes : List β} :
    bytesAt m a bytes.length = bytes ↔ ∀ k b, bytes[k]? = some b → m (a + k) = b := by
  constructor
  · intro h k b hb
    have hk : k < bytes.length := (List.getElem?_eq_some_iff.mp hb).1
    have hread : (bytesAt m a bytes.length)[k]? = some (m (a + k)) := by
      rw [bytesAt, List.getElem?_map, List.getElem?_range hk]
      rfl
    rw [h, hb] at hread
    exact (Option.some.inj hread).symm
  · intro h
    refine List.ext_getElem (length_bytesAt ..) fun k hk hk' => ?_
    have hread := h k _ (List.getElem?_eq_getElem hk')
    rw [← hread]
    simp [bytesAt]

theorem bytesAt_add {i n : Nat} : bytesAt m a (i + n) = bytesAt m a i ++ bytesAt m (a + i) n := by
  simp [bytesAt, List.range_add, Nat.add_assoc]

theorem bytesAt_succ : bytesAt m a (n + 1) = m a :: bytesAt m (a + 1) n := by
  rw [Nat.add_comm, bytesAt_add]
  rfl

theorem bytesAt_of_append {bytes rest : List β}
    (h : bytesAt m a (bytes ++ rest).length = bytes ++ rest) :
    bytesAt m a bytes.length = bytes := by
  rw [List.length_append, bytesAt_add] at h
  exact (List.append_inj h (length_bytesAt ..)).1

theorem length_le_of_bytesAt {bytes bytes' : List β} {b : β}
    (h : bytesAt m a (bytes ++ [b]).length = bytes ++ [b])
    (h' : bytesAt m a (bytes' ++ [b]).length = bytes' ++ [b]) (hb : b ∉ bytes') :
    bytes'.length ≤ bytes.length := by
  by_contra hnot
  have hlt : bytes.length < bytes'.length := Nat.not_le.mp hnot
  have hend : (bytes' ++ [b])[bytes.length]? = some bytes'[bytes.length] := by
    rw [List.getElem?_append_left hlt, List.getElem?_eq_getElem]
  have hread := bytesAt_eq_iff.mp h bytes.length b (by simp)
  rw [bytesAt_eq_iff.mp h' _ _ hend] at hread
  exact hb (hread ▸ List.getElem_mem _)

/-- There is one sequence of values in front of the first terminator. -/
theorem eq_of_bytesAt {bytes bytes' : List β} {b : β}
    (h : bytesAt m a (bytes ++ [b]).length = bytes ++ [b])
    (h' : bytesAt m a (bytes' ++ [b]).length = bytes' ++ [b]) (hb : b ∉ bytes) (hb' : b ∉ bytes') :
    bytes = bytes' := by
  have hlength := Nat.le_antisymm (length_le_of_bytesAt h' h hb) (length_le_of_bytesAt h h' hb')
  rw [List.length_append, hlength, ← List.length_append, h'] at h
  exact (List.append_cancel_right h).symm

/-- The beginning of what is stored first stays if the other stores begin behind it. -/
theorem bytesAt_runAll_begin {bytes rest : List β} (hbegin : bytes <+: s.bytes)
    (hbehind : ∀ b, Touches stores b → s.address + bytes.length ≤ b)
    (hrest : bytesAt (runAll stores (s.run m)) (s.address + bytes.length) rest.length = rest) :
    bytesAt (runAll (s :: stores) m) s.address (bytes ++ rest).length = bytes ++ rest := by
  obtain ⟨more, hmore⟩ := hbegin
  rw [List.length_append, bytesAt_add, runAll_cons, hrest]
  congr 1
  refine bytesAt_eq_iff.mpr fun k b hb => ?_
  have hk := (List.getElem?_eq_some_iff.mp hb).1
  rw [runAll_of_not_touches fun htouches => absurd (hbehind _ htouches) (by omega)]
  apply Store.run_of_covers
  rw [← hmore, List.getElem?_append_left hk, hb]

/-- What is stored first stays if the other stores begin behind it. -/
theorem bytesAt_runAll_cons {rest : List β}
    (hbehind : ∀ b, Touches stores b → s.address + s.bytes.length ≤ b)
    (hrest : bytesAt (runAll stores (s.run m)) (s.address + s.bytes.length) rest.length = rest) :
    bytesAt (runAll (s :: stores) m) s.address (s.bytes ++ rest).length = s.bytes ++ rest :=
  bytesAt_runAll_begin (List.prefix_refl s.bytes) hbehind hrest

/-- The last of the stores leaves its values where it was made. -/
theorem bytesAt_runAll_concat {bytes : List β} (h : bytes <+: s.bytes) :
    bytesAt (runAll (stores ++ [s]) m) s.address bytes.length = bytes := by
  obtain ⟨rest, hrest⟩ := h
  refine bytesAt_eq_iff.mpr fun k b hb => ?_
  rw [runAll_append]
  apply Store.run_of_covers
  rw [← hrest, List.getElem?_append_left (List.getElem?_eq_some_iff.mp hb).1, hb]

end BytesAt

/-- The stores touch just the addresses from `i` on where they leave the values. -/
structure Writes (stores : List (Store β)) (i : Nat) (bytes : List β) : Prop where
  touches : ∀ a, Touches stores a ↔ i ≤ a ∧ a < i + bytes.length
  left : ∀ m, bytesAt (runAll stores m) i bytes.length = bytes

section Writes

variable {stores : List (Store β)} {bytes rest : List β} {i : Nat}

theorem Writes.nil : Writes [] i ([] : List β) where
  touches a := iff_of_false not_touches_nil (by simp)
  left m := rfl

theorem Writes.single : Writes [⟨i, bytes⟩] i bytes where
  touches a := by
    rw [touches_cons]
    exact or_iff_left not_touches_nil
  left m := @bytesAt_runAll_concat _ ⟨i, bytes⟩ [] m bytes (List.prefix_refl bytes)

/-- A store in front of stores that begin where it ends. -/
theorem Writes.cons (h : Writes stores (i + bytes.length) rest) :
    Writes (⟨i, bytes⟩ :: stores) i (bytes ++ rest) where
  touches a := by
    rw [touches_cons, h.touches, Store.Covers, List.length_append]
    simp only
    omega
  left m := bytesAt_runAll_cons (fun b hb => ((h.touches b).mp hb).1) (h.left _)

theorem Writes.inside {size : Nat} (h : Writes stores i bytes) (hsize : i + bytes.length ≤ size) :
    ∀ a, Touches stores a → a < size := fun a ha => by
  have hlt := ((h.touches a).mp ha).2
  omega

/-- A cleared buffer after the stores. -/
theorem Writes.bytesAt_clear {n : Nat} (h : Writes stores 0 bytes) (hn : bytes.length ≤ n) (b : β) :
    bytesAt (runAll stores fun _ => b) 0 n = bytes ++ List.replicate (n - bytes.length) b := by
  obtain ⟨d, rfl⟩ := Nat.exists_eq_add_of_le hn
  rw [bytesAt_add, h.left, Nat.add_sub_cancel_left]
  congr 1
  refine List.eq_replicate_iff.mpr ⟨length_bytesAt, fun c hc => ?_⟩
  obtain ⟨k, -, rfl⟩ := List.mem_map.mp hc
  exact runAll_of_not_touches fun htouches => by
    have hlt := ((h.touches _).mp htouches).2
    omega

/-- The last value that is left. -/
theorem Writes.last {b : β} (h : Writes stores i (bytes ++ [b])) (m : Memory β) :
    runAll stores m (i + bytes.length) = b :=
  bytesAt_eq_iff.mp (h.left m) bytes.length b (by simp)

end Writes

end Dwpal.Stores
