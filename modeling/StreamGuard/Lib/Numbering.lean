/-
Machines that number what they send.

Such a machine draws numbers from a counter modulo `N`, holds at most one of them at a
time, and either hands it out with what it sends or abandons it. `Numbers` is what a
machine has to show, step by step; `consecutive_iff` then says in which runs the
numbers handed out are `0`, `1`, `2`, …: those in which no number is handed out after one
has been abandoned, except that abandoning `N` of them in all goes unnoticed.
-/
import StreamGuard.Lib.Run
import Mathlib.Algebra.GroupWithZero.Nat
import Mathlib.Data.List.Range

set_option autoImplicit false

namespace StreamGuard.Lib

/-- What a step does with the numbers. -/
inductive NumberUse where
  | Keep
  | Draw
  | Accept
  | Abandon
  /-- Draws a number and abandons it. -/
  | Waste
  deriving DecidableEq

section Numbering

variable {σ ι ω : Type*} {N : ℕ} [NeZero N] {step : σ → ι → Option (σ × List ω)}
  {counter : σ → Fin N} {held : σ → Option (Fin N)} {use : σ → ι → NumberUse}
  {number : ω → Option (Fin N)}

/-- A step with this use takes counter and number held from `c`, `h` to `c'`, `h'` and hands
out `out`. -/
def NumberUse.Does (c : Fin N) (h : Option (Fin N)) (c' : Fin N) (h' : Option (Fin N))
    (out : List (Fin N)) : NumberUse → Prop
  | .Keep => c' = c ∧ h' = h ∧ out = []
  | .Draw => h = none ∧ c' = c + 1 ∧ h' = some c ∧ out = []
  | .Accept => c' = c ∧ h' = none ∧ ∃ n, h = some n ∧ out = [n]
  | .Abandon => h.isSome ∧ c' = c ∧ h' = none ∧ out = []
  | .Waste => h = none ∧ c' = c + 1 ∧ h' = none ∧ out = []

/-- The obligation of a numbering machine. -/
def Numbers (step : σ → ι → Option (σ × List ω)) (counter : σ → Fin N)
    (held : σ → Option (Fin N)) (use : σ → ι → NumberUse) (number : ω → Option (Fin N)) :
    Prop :=
  ∀ s i s' o, step s i = some (s', o) →
    (use s i).Does (counter s) (held s) (counter s') (held s') (o.filterMap number)

/-- How many numbers were handed out, and how many abandoned. -/
structure Spent where
  accepted : ℕ
  lost : ℕ

def Spent.after (t : Spent) : NumberUse → Spent
  | .Accept => { t with accepted := t.accepted + 1 }
  | .Abandon => { t with lost := t.lost + 1 }
  | .Waste => { t with lost := t.lost + 1 }
  | .Keep => t
  | .Draw => t

/-- The bookkeeping of a run. -/
def spend (use : σ → ι → NumberUse) (s : σ) (t : Spent) (i : ι) : Spent := t.after (use s i)

/-- No number is handed out once the count is off. -/
def Unbroken (N : ℕ) (use : σ → ι → NumberUse) (t : σ × Spent) (i : ι) : Prop :=
  use t.1 i = .Accept → t.2.accepted < N ∧ t.2.lost % N = 0

instance (use : σ → ι → NumberUse) (t : σ × Spent) (i : ι) : Decidable (Unbroken N use t i) :=
  inferInstanceAs (Decidable (_ → _))

/-- The counter and the number held are where the bookkeeping has them. -/
structure Counted (counter : σ → Fin N) (held : σ → Option (Fin N)) (s : σ) (t : Spent) :
    Prop where
  idle : held s = none → (counter s).val = (t.accepted + t.lost) % N
  busy : ∀ n, held s = some n →
    n.val = (t.accepted + t.lost) % N ∧ (counter s).val = (t.accepted + t.lost + 1) % N

variable {s s' : σ} {t : Spent} {i : ι} {o : List ω}

theorem val_add_one (n : Fin N) : (n + 1).val = (n.val + 1) % N := by
  have hone : (1 : Fin N).val = 1 % N := rfl
  rw [Fin.val_add, hone, Nat.add_mod_mod]

/-- A step keeps the count, and the number it hands out is the one that is due. -/
theorem Counted.after (h : Counted counter held s t) (hn : Numbers step counter held use number)
    (hs : step s i = some (s', o)) :
    Counted counter held s' (t.after (use s i)) ∧
    (o.filterMap number).map Fin.val =
      if use s i = .Accept then [(t.accepted + t.lost) % N] else [] := by
  have hdoes := hn s i s' o hs
  -- one case for each thing a step can do with a number
  cases huse : use s i with
  | Keep =>
    rw [huse] at hdoes
    obtain ⟨hcounter, hheld, hnone⟩ := hdoes
    refine ⟨⟨?_, ?_⟩, by simp [hnone]⟩
    · rw [hheld, hcounter]
      exact h.idle
    · rw [hheld, hcounter]
      exact h.busy
  | Draw =>
    rw [huse] at hdoes
    obtain ⟨hidle, hcounter, hheld, hnone⟩ := hdoes
    have hval := h.idle hidle
    refine ⟨⟨by simp [hheld], ?_⟩, by simp [hnone]⟩
    intro n hnumber
    obtain rfl := Option.some.inj (hheld.symm.trans hnumber)
    rw [hcounter, val_add_one, hval, Nat.mod_add_mod]
    exact ⟨rfl, rfl⟩
  | Accept =>
    rw [huse] at hdoes
    obtain ⟨hcounter, hheld, n, hbusy, hout⟩ := hdoes
    obtain ⟨hnumber, hval⟩ := h.busy n hbusy
    refine ⟨⟨?_, by simp [hheld]⟩, by simp [hout, hnumber]⟩
    intro _
    rw [hcounter, hval]
    simp only [Spent.after]
    congr 1
    omega
  | Abandon =>
    rw [huse] at hdoes
    obtain ⟨hbusy, hcounter, hheld, hnone⟩ := hdoes
    obtain ⟨n, hbusy⟩ := Option.isSome_iff_exists.mp hbusy
    obtain ⟨-, hval⟩ := h.busy n hbusy
    refine ⟨⟨?_, by simp [hheld]⟩, by simp [hnone]⟩
    intro _
    rw [hcounter, hval]
    rfl
  | Waste =>
    rw [huse] at hdoes
    obtain ⟨hidle, hcounter, hheld, hnone⟩ := hdoes
    refine ⟨⟨?_, by simp [hheld]⟩, by simp [hnone]⟩
    intro _
    rw [hcounter, val_add_one, h.idle hidle, Nat.mod_add_mod]
    rfl

/-- The number that is due is the one that would come without losses exactly if none, or a
multiple of `N`, were lost, and the counter has not come round. -/
theorem mod_eq_self_iff (k l : ℕ) : (k + l) % N = k ↔ k < N ∧ l % N = 0 := by
  have hpos : 0 < N := Nat.pos_of_ne_zero (NeZero.ne N)
  constructor
  · intro h
    have hlt : k < N := by
      rw [← h]
      exact Nat.mod_lt _ hpos
    refine ⟨hlt, ?_⟩
    rw [Nat.add_mod, Nat.mod_eq_of_lt hlt] at h
    have hl : l % N < N := Nat.mod_lt _ hpos
    by_cases hsum : k + l % N < N
    · rw [Nat.mod_eq_of_lt hsum] at h
      omega
    · rw [Nat.mod_eq_sub_mod (Nat.le_of_not_lt hsum), Nat.mod_eq_of_lt (by omega)] at h
      omega
  · rintro ⟨hlt, hl⟩
    rw [Nat.add_mod, hl, Nat.add_zero, Nat.mod_mod, Nat.mod_eq_of_lt hlt]

/-- **Consecutive numbers.** From a state whose count is `t`, the numbers handed out in a run
continue at `t.accepted` if and only if every step is unbroken. The induction is on the inputs. -/
theorem consecutive_from (hn : Numbers step counter held use number) {inputs : List ι}
    (h : Counted counter held s t) (hrun : exec step s inputs = some (s', o)) :
    (o.filterMap number).map Fin.val =
        List.range' t.accepted (o.filterMap number).length ↔
      Along (withGhost (spend use) step) (Unbroken N use) (s, t) inputs := by
  induction inputs generalizing s t o with
  | nil =>
    simp only [exec_nil, Option.some.injEq, Prod.mk.injEq] at hrun
    simp [Along, ← hrun.2]
  | cons i inputs ih =>
    obtain ⟨s₁, o₁, o₂, hs, hlater, rfl⟩ := exec_cons_eq_some.mp hrun
    have hghost : withGhost (spend use) step (s, t) i = some ((s₁, t.after (use s i)), o₁) :=
      withGhost_eq_some.mpr ⟨hs, rfl⟩
    obtain ⟨hcounted, hfirst⟩ := h.after hn hs
    have hrest := ih hcounted hlater
    have hlength : (o₁.filterMap number).length = if use s i = .Accept then 1 else 0 := by
      have := congrArg List.length hfirst
      by_cases haccept : use s i = .Accept
      · simpa [haccept] using this
      · simpa [haccept] using this
    rw [along_cons hghost, ← hrest, List.filterMap_append, List.map_append, List.length_append,
      hlength, hfirst]
    by_cases haccept : use s i = .Accept
    · simp only [haccept, ↓reduceIte, List.singleton_append,
        Nat.add_comm 1, List.range'_succ, List.cons.injEq, Unbroken, true_imp_iff, mod_eq_self_iff,
        Spent.after]
    · have hkept : (t.after (use s i)).accepted = t.accepted := by
        cases huse : use s i <;> simp_all [Spent.after]
      simp [haccept, hkept, Unbroken]

theorem consecutive_iff (hn : Numbers step counter held use number) {inputs : List ι}
    (hcounter : counter s = 0) (hheld : held s = none)
    (hrun : exec step s inputs = some (s', o)) :
    (o.filterMap number).map Fin.val = List.range (o.filterMap number).length ↔
      Along (withGhost (spend use) step) (Unbroken N use) (s, ⟨0, 0⟩) inputs := by
  have hstart : Counted counter held s ⟨0, 0⟩ := by
    refine ⟨fun _ => by simp [hcounter], ?_⟩
    intro n hbusy
    rw [hheld] at hbusy
    contradiction
  rw [List.range_eq_range']
  exact consecutive_from hn hstart hrun

end Numbering

end StreamGuard.Lib
