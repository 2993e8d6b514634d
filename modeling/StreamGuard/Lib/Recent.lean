/-
A history of bounded length.

`keep_last cap` drops from the front what goes beyond `cap`. A gate that lets something in
only where it is not in the history, and then remembers it, sees exactly the last `cap`
things it let in (`keep_last_concat`), so that whatever is let in twice has at least `cap`
others in between (`Spaced`).
-/
import Mathlib.Data.List.Basic

set_option autoImplicit false

namespace StreamGuard.Lib

variable {α : Type*}

/-- Pops from the front while there are more than `cap`. -/
def keep_last (cap : ℕ) : List α → List α
  | [] => []
  | a :: l => if cap < (a :: l).length then keep_last cap l else a :: l

theorem keep_last_eq (cap : ℕ) (l : List α) : keep_last cap l = l.drop (l.length - cap) := by
  induction l with
  | nil => rw [keep_last, List.drop_nil]
  | cons a l ih =>
    rw [keep_last]
    split
    · next hlong =>
      rw [List.length_cons] at hlong
      rw [ih, List.length_cons, Nat.succ_sub (by omega), List.drop_succ_cons]
    · next hshort =>
      rw [Nat.sub_eq_zero_of_le (Nat.not_lt.mp hshort), List.drop_zero]

theorem length_keep_last_le (cap : ℕ) (l : List α) : (keep_last cap l).length ≤ cap := by
  rw [keep_last_eq, List.length_drop]
  omega

/-- What was dropped before is dropped after one more as well. -/
theorem keep_last_concat (cap : ℕ) (l : List α) (a : α) :
    keep_last cap (keep_last cap l ++ [a]) = keep_last cap (l ++ [a]) := by
  rw [keep_last_eq, keep_last_eq, keep_last_eq, List.length_append, List.length_append,
    List.length_drop, List.length_singleton]
  have hsplit : l.drop (l.length - cap) ++ [a] = (l ++ [a]).drop (l.length - cap) := by
    rw [List.drop_append_of_le_length (Nat.sub_le _ _)]
  rw [hsplit, List.drop_drop]
  congr 1
  omega

/-- Equal entries are more than `cap` places apart. -/
def Spaced (cap : ℕ) (l : List α) : Prop :=
  ∀ i j a, i < j → l[i]? = some a → l[j]? = some a → cap < j - i

theorem spaced_nil (cap : ℕ) : Spaced cap ([] : List α) := by
  intro i j a _ hi
  simp at hi

/-- The gate lets in what the history does not hold. -/
theorem Spaced.concat {cap : ℕ} {l : List α} {a : α} (h : Spaced cap l) (ha : a ∉ keep_last cap l) :
    Spaced cap (l ++ [a]) := by
  intro i j b hij hi hj
  have hjlt : j < (l ++ [a]).length := (List.getElem?_eq_some_iff.mp hj).1
  rw [List.length_append, List.length_singleton] at hjlt
  have hi' : l[i]? = some b := by
    rwa [List.getElem?_append_left (by omega)] at hi
  by_cases hlast : j < l.length
  · rw [List.getElem?_append_left hlast] at hj
    exact h i j b hij hi' hj
  · have hjlen : j = l.length := by omega
    rw [hjlen, List.getElem?_concat_length, Option.some.injEq] at hj
    subst hj
    by_contra hnear
    refine ha ?_
    rw [keep_last_eq]
    refine List.mem_of_getElem? (i := i - (l.length - cap)) ?_
    rw [List.getElem?_drop, Nat.add_sub_cancel' (by omega)]
    exact hi'

end StreamGuard.Lib
