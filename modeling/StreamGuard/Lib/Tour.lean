/-
A search from a cursor, once around.

The search tries one place after the other, a fixed number of rounds, and leaves the cursor behind
the place it has found. What it can miss is a matter of the walk alone: a `Tour` comes by each of
some places exactly once, and then the search finds the nearest place that will do, and none only
if no place will (`Tour.search_eq_some_iff`, `Tour.search_eq_none_iff`). The numbers `1, …, N` in a
ring are a tour of `N` rounds from each of them.
-/
import Mathlib.Logic.Function.Iterate
import Mathlib.Order.Interval.Set.Basic
import Mathlib.Order.Nat

set_option autoImplicit false

namespace StreamGuard.Lib

/-! ## The search -/

section Search

variable {α : Type*} {found : α → Bool} {next : α → α} {n : ℕ} {a b : α}

/-- The cursor after at most `n` rounds, and what was found. -/
def search (found : α → Bool) (next : α → α) : ℕ → α → α × Option α
  | 0, a => (a, none)
  | n + 1, a => if found a = true then (next a, some a) else search found next n (next a)

/-- A search stops at the first place that will do, or makes all its rounds. -/
theorem search_cases (found : α → Bool) (next : α → α) (n : ℕ) (a : α) :
    (∃ k < n, found (next^[k] a) = true ∧ (∀ j < k, found (next^[j] a) = false) ∧
      search found next n a = (next^[k + 1] a, some (next^[k] a))) ∨
    (∀ k < n, found (next^[k] a) = false) ∧ search found next n a = (next^[n] a, none) := by
  induction n generalizing a with
  | zero =>
    right
    refine ⟨?_, rfl⟩
    intro k hk
    omega
  | succ n ih =>
    rw [search]
    by_cases hfirst : found a = true
    · left
      refine ⟨0, Nat.succ_pos n, hfirst, ?_, if_pos hfirst⟩
      intro j hj
      omega
    · rw [if_neg hfirst]
      rw [Bool.not_eq_true] at hfirst
      -- a round that finds nothing is the one before those from the next place
      have hbefore : ∀ k, (∀ j < k, found (next^[j] (next a)) = false) →
          ∀ j < k + 1, found (next^[j] a) = false := by
        intro k hk j hj
        cases j with
        | zero => exact hfirst
        | succ j => exact hk j (by omega)
      rcases ih (next a) with ⟨k, hk, hfound, hnone, hsearch⟩ | ⟨hnone, hsearch⟩
      · left
        exact ⟨k + 1, by omega, hfound, hbefore k hnone, hsearch⟩
      · right
        exact ⟨hbefore n hnone, hsearch⟩

end Search

/-! ## Tours -/

section Tours

variable {α β : Type*} {found : α → Bool} {next : α → α} {n : ℕ} {a b : α} {places : Set α}
  {steps : α → ℕ}

/-- A walk of `n` rounds that comes by each of some places once, each after its number of steps. -/
structure Tour (next : α → α) (n : ℕ) (a : α) (places : Set α) (steps : α → ℕ) : Prop where
  visits : ∀ k, next^[k] a ∈ places
  steps_lt : ∀ b ∈ places, steps b < n
  arrives : ∀ b ∈ places, next^[steps b] a = b
  steps_visit : ∀ k < n, steps (next^[k] a) = k

namespace Tour

/-- **A search misses none**: without a find nothing in all the places will do. -/
theorem search_eq_none_iff (h : Tour next n a places steps) (found : α → Bool) :
    (search found next n a).2 = none ↔ ∀ b ∈ places, found b = false := by
  rcases search_cases found next n a with ⟨k, hk, hfound, -, hsearch⟩ | ⟨hnone, hsearch⟩
  · rw [hsearch]
    refine iff_of_false (by simp) ?_
    intro hall
    rw [hall _ (h.visits k)] at hfound
    contradiction
  · rw [hsearch]
    refine iff_of_true rfl ?_
    intro b hb
    rw [← h.arrives b hb]
    exact hnone (steps b) (h.steps_lt b hb)

/-- **A search finds the nearest** of the places that will do. -/
theorem search_eq_some_iff (h : Tour next n a places steps) (found : α → Bool) :
    (search found next n a).2 = some b ↔
      b ∈ places ∧ found b = true ∧ ∀ c ∈ places, found c = true → steps b ≤ steps c := by
  rcases search_cases found next n a with ⟨k, hk, hfound, hbefore, hsearch⟩ | ⟨hnone, hsearch⟩
  · have hnearest : ∀ c ∈ places, found c = true → k ≤ steps c := by
      intro c hc hfound'
      by_contra hlt
      have hmissed := hbefore (steps c) (by omega)
      rw [h.arrives c hc, hfound'] at hmissed
      contradiction
    rw [hsearch, Option.some.injEq]
    constructor
    · rintro rfl
      refine ⟨h.visits k, hfound, ?_⟩
      rwa [h.steps_visit k hk]
    · rintro ⟨hb, hfound', hfirst⟩
      -- both are as near as the other, and only one place is
      have hle := hfirst _ (h.visits k) hfound
      rw [h.steps_visit k hk] at hle
      have hsame : steps b = k := le_antisymm hle (hnearest b hb hfound')
      rw [← hsame]
      exact h.arrives b hb
  · rw [hsearch]
    refine iff_of_false (by simp) ?_
    rintro ⟨hb, hfound, -⟩
    have hmissed := hnone (steps b) (h.steps_lt b hb)
    rw [h.arrives b hb, hfound] at hmissed
    contradiction

/-- The cursor stays on the tour. -/
theorem search_mem (h : Tour next n a places steps) (found : α → Bool) :
    (search found next n a).1 ∈ places := by
  rcases search_cases found next n a with ⟨k, -, -, -, hsearch⟩ | ⟨-, hsearch⟩
  · rw [hsearch]
    exact h.visits (k + 1)
  · rw [hsearch]
    exact h.visits n

/-- A walk that is a tour under an injective view is one. -/
theorem pull {f : β → α} {walk : β → β} {b : β} (hf : Function.Injective f)
    (hwalk : Function.Semiconj f walk next) (h : Tour next n (f b) places steps) :
    Tour walk n b (Set.preimage f places) (fun c => steps (f c)) := by
  have hview : ∀ k, f (walk^[k] b) = next^[k] (f b) := fun k => hwalk.iterate_right k b
  refine ⟨?_, fun c hc => h.steps_lt (f c) hc, ?_, ?_⟩
  · intro k
    rw [Set.mem_preimage, hview]
    exact h.visits k
  · intro c hc
    apply hf
    rw [hview]
    exact h.arrives (f c) hc
  · intro k hk
    rw [hview]
    exact h.steps_visit k hk

end Tour

end Tours

/-! ## The ring of `1, …, N` -/

section Ring

variable {N x : ℕ}

def ring_next (N x : ℕ) : ℕ := if x = N then 1 else x + 1

theorem iterate_ring_next (hx : x ∈ Set.Icc 1 N) (k : ℕ) :
    (ring_next N)^[k] x = (x - 1 + k) % N + 1 := by
  obtain ⟨hlow, hhigh⟩ := Set.mem_Icc.mp hx
  induction k with
  | zero =>
    show x = (x - 1) % N + 1
    rw [Nat.mod_eq_of_lt (by omega)]
    omega
  | succ k ih =>
    -- one step on the ring is one step of the remainder
    have hlt := Nat.mod_lt (x - 1 + k) (show N > 0 by omega)
    rw [Function.iterate_succ_apply', ih, ring_next, ← Nat.add_assoc,
      ← Nat.mod_add_mod (x - 1 + k) N 1]
    by_cases hlast : (x - 1 + k) % N + 1 = N
    · rw [if_pos hlast, hlast, Nat.mod_self]
    · rw [if_neg hlast, Nat.mod_eq_of_lt (show (x - 1 + k) % N + 1 < N by omega)]

/-- **A ring is toured** from each of its numbers. -/
theorem ring_tour (hx : x ∈ Set.Icc 1 N) :
    Tour (ring_next N) N x (Set.Icc 1 N) (fun y => (y + N - x) % N) := by
  obtain ⟨hlow, hhigh⟩ := Set.mem_Icc.mp hx
  have hpos : N > 0 := by omega
  refine ⟨?_, ?_, ?_, ?_⟩
  · intro k
    have hlt := Nat.mod_lt (x - 1 + k) hpos
    rw [iterate_ring_next hx, Set.mem_Icc]
    omega
  · exact fun y _ => Nat.mod_lt _ hpos
  · intro y hy
    obtain ⟨hlow', hhigh'⟩ := Set.mem_Icc.mp hy
    have hsum : x - 1 + (y + N - x) = y - 1 + N := by omega
    rw [iterate_ring_next hx, Nat.add_mod_mod, hsum, Nat.add_mod_right,
      Nat.mod_eq_of_lt (by omega)]
    omega
  · intro k hk
    rw [iterate_ring_next hx]
    by_cases hwrap : x - 1 + k < N
    · have hsum : x - 1 + k + 1 + N - x = k + N := by omega
      rw [Nat.mod_eq_of_lt hwrap, hsum, Nat.add_mod_right, Nat.mod_eq_of_lt hk]
    · -- past the end, one ring less
      have hsum : x - 1 + k - N + 1 + N - x = k := by omega
      rw [Nat.mod_eq_sub_mod (show x - 1 + k ≥ N by omega),
        Nat.mod_eq_of_lt (show x - 1 + k - N < N by omega), hsum, Nat.mod_eq_of_lt hk]

end Ring

end StreamGuard.Lib
