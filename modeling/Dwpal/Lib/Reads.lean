import Dwpal.Lib.Stores

/-! Computations that read a memory, with the addresses that they read. -/

namespace Dwpal.Stores

/-- A value that is computed from a memory, and the addresses that are read for it. -/
structure Reads (α : Type*) where
  value : α
  addresses : List Nat

instance : Monad Reads where
  pure a := ⟨a, []⟩
  bind x f := ⟨(f x.value).value, x.addresses ++ (f x.value).addresses⟩

variable {α : Type} {β : Type}

/-- The value at an address. -/
def readAt (m : Memory β) (a : Nat) : Reads β := ⟨m a, [a]⟩

/-- The `n` values from an address on. -/
def readBytes (m : Memory β) (a n : Nat) : Reads (List β) := ⟨bytesAt m a n, List.range' a n⟩

/-- The addresses that are read are all of `P`. -/
def Reads.Inside (P : Nat → Prop) (x : Reads α) : Prop := ∀ a ∈ x.addresses, P a

variable {P Q : Nat → Prop} {m : Memory β} {a n : Nat} {x : Reads α} {f : α → Reads β}

namespace Reads

@[simp] theorem value_pure (v : α) : (pure v : Reads α).value = v := rfl

@[simp] theorem value_bind : (x >>= f).value = (f x.value).value := rfl

@[simp] theorem value_readAt : (readAt m a).value = m a := rfl

@[simp] theorem value_readBytes : (readBytes m a n).value = bytesAt m a n := rfl

@[simp] theorem inside_pure (v : α) : (pure v : Reads α).Inside P := fun _ h => by cases h

@[simp] theorem inside_bind : (x >>= f).Inside P ↔ x.Inside P ∧ (f x.value).Inside P :=
  List.forall_mem_append

@[simp] theorem inside_readAt : (readAt m a).Inside P ↔ P a := List.forall_mem_singleton

@[simp] theorem inside_readBytes : (readBytes m a n).Inside P ↔ ∀ k < n, P (a + k) := by
  constructor
  · exact fun h k hk => h (a + k) (List.mem_range'_1.mpr ⟨Nat.le_add_right a k, by omega⟩)
  · intro h b hb
    obtain ⟨hle, hlt⟩ := List.mem_range'_1.mp hb
    obtain ⟨k, rfl⟩ := Nat.exists_eq_add_of_le hle
    exact h k (by omega)

theorem Inside.mono (h : x.Inside P) (hmono : ∀ a, P a → Q a) : x.Inside Q :=
  fun a ha => hmono a (h a ha)

end Reads

end Dwpal.Stores
