/-
Counters and gauges under atomic operations.

Several parties share cells. A counter only goes up. A gauge says how much of something there
is: who puts something in adds to it first, and takes it off again when the thing is gone or was
not let in. A party that still has operations to do is behind by them, and the books balance
with what it *owes*: `added` and `released` sum up what a sequence of operations is yet to do.
-/
import Mathlib.Algebra.GroupWithZero.Nat

set_option autoImplicit false

namespace StreamGuard.Lib

variable {κ γ : Type*}

/-- The shared cells, each under its name. -/
structure Cells (κ γ : Type*) where
  counter : κ → ℕ
  gauge : γ → ℕ

/-- An operation that a party has decided on: it counts something, or takes something off a
gauge. -/
inductive Fetch (κ γ : Type*) where
  | add (k : κ) (n : ℕ)
  | sub (g : γ) (n : ℕ)
  deriving DecidableEq

namespace Fetch

variable [DecidableEq κ] [DecidableEq γ]

/-- What the operation adds to a counter. -/
def adds (k : κ) : Fetch κ γ → ℕ
  | .add k' n => if k' = k then n else 0
  | .sub _ _ => 0

/-- What the operation takes off a gauge. -/
def subs (g : γ) : Fetch κ γ → ℕ
  | .add _ _ => 0
  | .sub g' n => if g' = g then n else 0

end Fetch

namespace Cells

variable [DecidableEq κ] [DecidableEq γ] {m : Cells κ γ} {k : κ} {g g' : γ} {n : ℕ}

/-- An operation is done. Taking more off a gauge than is there leaves zero; the books show that
this does not happen. -/
def apply (m : Cells κ γ) (f : Fetch κ γ) : Cells κ γ :=
  ⟨fun k => m.counter k + f.adds k, fun g => m.gauge g - f.subs g⟩

/-- Adds to a gauge. -/
def reserve (m : Cells κ γ) (g : γ) (n : ℕ) : Cells κ γ :=
  { m with gauge := fun g' => m.gauge g' + if g = g' then n else 0 }

/-- Adds to a counter. -/
def count (m : Cells κ γ) (k : κ) (n : ℕ) : Cells κ γ :=
  { m with counter := fun k' => m.counter k' + if k = k' then n else 0 }

@[simp] theorem apply_counter (f : Fetch κ γ) :
    (m.apply f).counter k = m.counter k + f.adds k := rfl

@[simp] theorem apply_gauge (f : Fetch κ γ) : (m.apply f).gauge g = m.gauge g - f.subs g := rfl

omit [DecidableEq κ] in
@[simp] theorem reserve_counter : (m.reserve g n).counter k = m.counter k := rfl

omit [DecidableEq κ] in
@[simp] theorem reserve_gauge :
    (m.reserve g n).gauge g' = m.gauge g' + if g = g' then n else 0 := rfl

omit [DecidableEq γ] in
@[simp] theorem count_counter {k' : κ} :
    (m.count k n).counter k' = m.counter k' + if k = k' then n else 0 := rfl

omit [DecidableEq γ] in
@[simp] theorem count_gauge : (m.count k n).gauge g = m.gauge g := rfl

end Cells

section Owed

variable [DecidableEq κ] [DecidableEq γ] {k : κ} {g : γ} {n : ℕ} {f : Fetch κ γ}
  {fetches : List (Fetch κ γ)}

/-- What a sequence of operations is yet to add to a counter. -/
def added (k : κ) (fetches : List (Fetch κ γ)) : ℕ := (fetches.map (Fetch.adds k)).sum

/-- What it is yet to take off a gauge. -/
def released (g : γ) (fetches : List (Fetch κ γ)) : ℕ := (fetches.map (Fetch.subs g)).sum

omit [DecidableEq γ] in
@[simp] theorem added_nil : added k ([] : List (Fetch κ γ)) = 0 := rfl

omit [DecidableEq γ] in
/-- Debts add up. -/
@[simp] theorem added_cons : added k (f :: fetches) = f.adds k + added k fetches := by
  simp [added]

omit [DecidableEq κ] in
@[simp] theorem released_nil : released g ([] : List (Fetch κ γ)) = 0 := rfl

omit [DecidableEq κ] in
@[simp] theorem released_cons : released g (f :: fetches) = f.subs g + released g fetches := by
  simp [released]

omit [DecidableEq γ] in
@[simp] theorem Fetch.adds_add {k' : κ} :
    (Fetch.add k' n : Fetch κ γ).adds k = if k' = k then n else 0 := rfl

omit [DecidableEq γ] in
@[simp] theorem Fetch.adds_sub : (Fetch.sub g n : Fetch κ γ).adds k = 0 := rfl

omit [DecidableEq κ] in
@[simp] theorem Fetch.subs_add : (Fetch.add k n : Fetch κ γ).subs g = 0 := rfl

omit [DecidableEq κ] in
@[simp] theorem Fetch.subs_sub {g' : γ} :
    (Fetch.sub g' n : Fetch κ γ).subs g = if g' = g then n else 0 := rfl

end Owed

end StreamGuard.Lib
