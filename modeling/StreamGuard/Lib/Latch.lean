/-
What is known of a write-once slot.

A slot is empty until something is put into it, and the first value stays. A copy was taken at
some time and may be older than the slot. Whatever is in a copy is in the slot, so copies never
disagree, whoever took them and when.
-/
import Mathlib.Order.Basic
import Mathlib.Data.Option.Basic

set_option autoImplicit false

namespace StreamGuard.Lib

section Latch

variable {α : Type*} {copy copy' slot slot' : Option α} {a b : α}

/-- What the copy has is in the slot. -/
def Known (copy slot : Option α) : Prop := ∀ a, copy = some a → slot = some a

theorem Known.refl (slot : Option α) : Known slot slot := fun _ h => h

@[simp] theorem known_none : Known none slot := fun _ h => by contradiction

@[simp] theorem known_some : Known (some a) slot ↔ slot = some a :=
  ⟨fun h => h a rfl, fun h _ ha => ha ▸ h⟩

/-- A copy is good for as long as the slot keeps what it has. -/
theorem Known.trans (h : Known copy slot) (hkept : Known slot slot') : Known copy slot' :=
  fun a ha => hkept a (h a ha)

/-- Two copies agree. -/
theorem Known.agree (h : Known (some a) slot) (h' : Known (some b) slot) : a = b :=
  Option.some.inj ((h a rfl).symm.trans (h' b rfl))

theorem Known.isSome (h : Known copy slot) (hcopy : copy.isSome) : slot.isSome := by
  obtain ⟨a, ha⟩ := Option.isSome_iff_exists.mp hcopy
  rw [h a ha]
  rfl

/-- The slot keeps what it has when somebody puts in another value. -/
theorem known_getD (slot : Option α) (a : α) : Known slot (some (slot.getD a)) := by
  rintro b rfl
  rfl

end Latch

end StreamGuard.Lib
