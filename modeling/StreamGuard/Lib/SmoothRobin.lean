/-
Smooth weighted round robin.

Every candidate has an account. In a turn each account grows by the weight of its
candidate, a candidate with a largest account is served, and its account pays the sum of
the weights. What keeps the turns proportional is a statement about all accounts at once:
they add up to nothing, and none is overdrawn by the sum of the weights (`Balanced`). An
account that pays is a largest one, and the largest of accounts that add up to the positive
sum of the weights is positive, so what is left after paying is above the bound.
-/
import Mathlib.Algebra.BigOperators.Group.Finset.Basic
import Mathlib.Algebra.BigOperators.Ring.Finset
import Mathlib.Algebra.Order.BigOperators.Group.Finset
import Mathlib.Tactic.Linarith
import Mathlib.Tactic.Ring

set_option autoImplicit false

namespace StreamGuard.Lib

variable {ι K : Type*} [DecidableEq ι] [CommRing K] [LinearOrder K] [IsStrictOrderedRing K]

/-- One turn, from the accounts `c` to the accounts `c'`. -/
structure Turn (S : Finset ι) (w : ι → K) (served : ι) (c c' : ι → K) : Prop where
  mem : served ∈ S
  largest : ∀ i ∈ S, c i + w i ≤ c served + w served
  paid : ∀ i ∈ S, c' i = c i + w i - if i = served then ∑ j ∈ S, w j else 0

/-- The accounts add up to nothing, and each is above minus the sum of the weights. -/
structure Balanced (S : Finset ι) (w c : ι → K) : Prop where
  sum : ∑ i ∈ S, c i = 0
  above : ∀ i ∈ S, -(∑ j ∈ S, w j) < c i

/-- The turns that serve a list of candidates in order. -/
inductive Turns (S : Finset ι) (w : ι → K) : List ι → (ι → K) → (ι → K) → Prop where
  | none (c : ι → K) : Turns S w [] c c
  | turn {i : ι} {served : List ι} {c c' c'' : ι → K} :
      Turn S w i c c' → Turns S w served c' c'' → Turns S w (i :: served) c c''

variable {S : Finset ι} {w c c' : ι → K} {i : ι} {served : List ι}

omit [DecidableEq ι] in
/-- Empty accounts are balanced. -/
theorem balanced_zero (hw : ∀ i ∈ S, 0 < w i) (hc : ∀ i ∈ S, c i = 0) : Balanced S w c := by
  refine ⟨Finset.sum_eq_zero hc, ?_⟩
  intro i hi
  have htotal : 0 < ∑ j ∈ S, w j := Finset.sum_pos hw ⟨i, hi⟩
  rw [hc i hi]
  linarith

omit [IsStrictOrderedRing K] in
/-- A turn adds the weights to the accounts and takes their sum out again. -/
theorem Turn.sum_eq (h : Turn S w i c c') : ∑ j ∈ S, c' j = ∑ j ∈ S, c j := by
  rw [Finset.sum_congr rfl h.paid, Finset.sum_sub_distrib, Finset.sum_add_distrib,
    Finset.sum_ite_eq' S i, if_pos h.mem]
  ring

/-- The account that pays was positive: it is a largest one, and they have a positive sum. -/
theorem Turn.served_pos (h : Turn S w i c c') (hw : ∀ i ∈ S, 0 < w i)
    (hsum : ∑ j ∈ S, c j = 0) : 0 < c i + w i := by
  have htotal : 0 < ∑ j ∈ S, w j := Finset.sum_pos hw ⟨i, h.mem⟩
  by_contra hnot
  have hall : ∑ j ∈ S, (c j + w j) ≤ 0 :=
    Finset.sum_nonpos fun j hj => (h.largest j hj).trans (not_lt.mp hnot)
  rw [Finset.sum_add_distrib, hsum, zero_add] at hall
  exact absurd htotal (not_lt.mpr hall)

theorem Turn.balanced (h : Turn S w i c c') (hw : ∀ i ∈ S, 0 < w i) (hc : Balanced S w c) :
    Balanced S w c' := by
  refine ⟨h.sum_eq.trans hc.sum, ?_⟩
  intro j hj
  rw [h.paid j hj]
  by_cases hserved : j = i
  · have hpos := h.served_pos hw hc.sum
    rw [if_pos hserved, hserved]
    linarith
  · have habove := hc.above j hj
    have hweight := hw j hj
    rw [if_neg hserved]
    linarith

theorem Turns.balanced (h : Turns S w served c c') (hw : ∀ i ∈ S, 0 < w i)
    (hc : Balanced S w c) : Balanced S w c' := by
  induction h with
  | none => exact hc
  | turn hturn _ ih => exact ih (hturn.balanced hw hc)

omit [IsStrictOrderedRing K] in
/-- An account holds what its candidate was due, less what it has paid. -/
theorem Turns.account (h : Turns S w served c c') (hi : i ∈ S) :
    c' i = c i + served.length * w i - served.count i * ∑ j ∈ S, w j := by
  induction h with
  | none => simp
  | @turn first served c c' c'' hturn _ ih =>
    rw [ih, hturn.paid i hi, List.length_cons]
    by_cases hfirst : i = first
    · rw [if_pos hfirst, ← hfirst, List.count_cons_self]
      push_cast
      ring
    · rw [if_neg hfirst, List.count_cons_of_ne (Ne.symm hfirst)]
      push_cast
      ring

/-- **The turns are proportional**: from empty accounts, in `n` turns a candidate is served less
than one time more than its share of `n`, and less than one time fewer for each of the
other candidates. -/
theorem Turns.proportional (h : Turns S w served c c') (hw : ∀ i ∈ S, 0 < w i)
    (hc : ∀ i ∈ S, c i = 0) (hi : i ∈ S) :
    served.length * w i - (S.card - 1 : ℕ) * ∑ j ∈ S, w j ≤ served.count i * ∑ j ∈ S, w j ∧
      served.count i * ∑ j ∈ S, w j < served.length * w i + ∑ j ∈ S, w j := by
  have hbalanced := h.balanced hw (balanced_zero hw hc)
  have haccount := h.account hi
  rw [hc i hi, zero_add] at haccount
  refine ⟨?_, by linarith [hbalanced.above i hi]⟩
  -- the other accounts are above the bound, and this one is what they lack
  have hothers : ∑ j ∈ S.erase i, -(∑ k ∈ S, w k) ≤ ∑ j ∈ S.erase i, c' j :=
    Finset.sum_le_sum fun j hj => (hbalanced.above j (Finset.mem_of_mem_erase hj)).le
  have hsum : ∑ j ∈ S.erase i, c' j + c' i = 0 := by
    rw [Finset.sum_erase_add S c' hi, hbalanced.sum]
  rw [Finset.sum_const, Finset.card_erase_of_mem hi, nsmul_eq_mul] at hothers
  linarith

omit [IsStrictOrderedRing K] in
/-- A single candidate is always served. -/
theorem Turns.alone (h : Turns S w served c c') (hS : S = {i}) :
    served.count i = served.length := by
  induction h with
  | none => rfl
  | turn hturn _ ih =>
    have hfirst := hturn.mem
    rw [hS, Finset.mem_singleton] at hfirst
    rw [hfirst, List.count_cons_self, ih, List.length_cons]

end StreamGuard.Lib
