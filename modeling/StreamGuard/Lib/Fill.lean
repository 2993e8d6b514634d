/-
Tables that a loop fills from a list.

A later entry of a key replaces an earlier one. So what the list adds up to and what the
table adds up to are the same number only as long as no key comes twice: with positive
values every replaced one is missing from the table (`sum_fill_eq_iff`).
-/
import StreamGuard.Lib.AssocMap
import Mathlib.Algebra.Order.Group.Defs
import Mathlib.Tactic.Abel

set_option autoImplicit false

namespace StreamGuard.Lib

variable {α K V : Type*} [DecidableEq K] {key : α → K} {value : α → V} {l : List α} {m : Map K V}
  {a : α} {k : K}

/-- The table after the loop. -/
def fill (key : α → K) (value : α → V) (l : List α) (m : Map K V) : Map K V :=
  l.foldl (fun m a => m.insert (key a) (value a)) m

@[simp] theorem fill_nil : fill key value [] m = m := rfl

@[simp] theorem fill_cons :
    fill key value (a :: l) m = fill key value l (m.insert (key a) (value a)) := rfl

/-- Where the value depends on the key alone, a key of the list has its value. -/
theorem lookup_fill_key {g : K → V} (h : ∀ a ∈ l, value a = g (key a)) :
    (fill key value l m).lookup k = if k ∈ l.map key then some (g k) else m.lookup k := by
  induction l generalizing m with
  | nil => rfl
  | cons a l ih =>
    rw [List.forall_mem_cons] at h
    rw [fill_cons, ih h.2, AList.lookup_insert_of, h.1, List.map_cons]
    by_cases hlater : k ∈ l.map key
    · rw [if_pos hlater, if_pos (List.mem_cons_of_mem _ hlater)]
    · by_cases hown : k = key a
      · rw [if_neg hlater, if_pos hown, if_pos (by simp [hown]), hown]
      · rw [if_neg hlater, if_neg hown, if_neg (by simp [hown, hlater])]

/-- A table of images is the image of the table. -/
theorem lookup_fill_image {W : Type*} {f : V → W} {m' : Map K W}
    (h : m'.lookup k = (m.lookup k).map f) :
    (fill key (fun a => f (value a)) l m').lookup k = ((fill key value l m).lookup k).map f := by
  induction l generalizing m m' with
  | nil => exact h
  | cons b l ih =>
    refine ih ?_
    rw [AList.lookup_insert_of, AList.lookup_insert_of]
    split
    · rfl
    · exact h

/-- What is to come stays new to the table when another key is written. -/
theorem fresh_insert (v : V) (hnew : k ∉ l.map key) (hfresh : ∀ a ∈ l, key a ∉ m) :
    ∀ a ∈ l, key a ∉ m.insert k v := by
  intro a ha
  rw [AList.mem_insert, not_or]
  refine ⟨?_, hfresh a ha⟩
  intro hsame
  exact hnew (hsame ▸ List.mem_map_of_mem ha)

/-- Each key takes one place. -/
theorem len_fill (hnodup : (l.map key).Nodup) (hfresh : ∀ a ∈ l, key a ∉ m) :
    (fill key value l m).len = m.len + l.length := by
  induction l generalizing m with
  | nil => rfl
  | cons b l ih =>
    rw [List.map_cons, List.nodup_cons] at hnodup
    have hfresh' := fresh_insert (value b) hnodup.1 fun a ha =>
      hfresh a (List.mem_cons_of_mem b ha)
    rw [fill_cons, ih hnodup.2 hfresh', AList.len_insert_of_notMem (hfresh b List.mem_cons_self),
      List.length_cons]
    omega

/-- The sum of the values of a table. -/
abbrev valueSum [AddCommMonoid V] (m : Map K V) : V := m.sum (fun _ v => v)

/-- Without repeated keys the table adds up to what the list does. -/
theorem valueSum_fill [AddCommMonoid V] (hnodup : (l.map key).Nodup) :
    valueSum (fill key value l ∅) = (l.map value).sum := by
  have hfill : ∀ m : Map K V, (∀ a ∈ l, key a ∉ m) →
      valueSum (fill key value l m) = valueSum m + (l.map value).sum := by
    induction l with
    | nil => simp
    | cons b l ih =>
      intro m hfresh
      rw [List.map_cons, List.nodup_cons] at hnodup
      have hfresh' := fresh_insert (value b) hnodup.1 fun a ha =>
        hfresh a (List.mem_cons_of_mem b ha)
      rw [fill_cons, ih hnodup.2 _ hfresh', valueSum,
        AList.sum_insert_of_notMem _ _ (hfresh b List.mem_cons_self), List.map_cons,
        List.sum_cons]
      abel
  simpa [valueSum] using hfill ∅ (by simp)

section Sum

variable [AddCommGroup V] [LinearOrder V] [IsOrderedAddMonoid V]

/-- One insertion: a replaced value is missing. -/
theorem valueSum_insert (hm : ∀ k v, m.lookup k = some v → 0 < v) (k : K) (v : V) :
    valueSum (m.insert k v) ≤ v + valueSum m ∧
      (valueSum (m.insert k v) = v + valueSum m ↔ k ∉ m) := by
  by_cases hk : k ∈ m
  · obtain ⟨old, hold⟩ := AList.mem_iff_lookup.mp hk
    have htrade := AList.sum_insert_add (w := v) (fun _ v => v) hold
    have hlt : valueSum (m.insert k v) < v + valueSum m := by
      rw [valueSum, valueSum, ← htrade]
      exact lt_add_of_pos_left _ (hm k old hold)
    exact ⟨hlt.le, iff_of_false hlt.ne (not_not.mpr hk)⟩
  · have hsum : valueSum (m.insert k v) = v + valueSum m := AList.sum_insert_of_notMem _ v hk
    exact ⟨hsum.le, iff_of_true hsum hk⟩

/-- **What a table keeps of a list of positive values**: never more than the list adds up to,
and all of it exactly if no key repeats or was there before. -/
theorem sum_fill (key : α → K) (hm : ∀ k v, m.lookup k = some v → 0 < v)
    (hl : ∀ a ∈ l, 0 < value a) :
    valueSum (fill key value l m) ≤ valueSum m + (l.map value).sum ∧
      (valueSum (fill key value l m) = valueSum m + (l.map value).sum ↔
        (l.map key).Nodup ∧ ∀ a ∈ l, key a ∉ m) := by
  induction l generalizing m with
  | nil => simp
  | cons b l ih =>
    have hb : 0 < value b := hl b List.mem_cons_self
    have hm' : ∀ k v, (m.insert (key b) (value b)).lookup k = some v → 0 < v := by
      intro k v hlookup
      rcases AList.of_lookup_insert hlookup with hlookup | ⟨-, rfl⟩
      · exact hm k v hlookup
      · exact hb
    obtain ⟨hrest, hrest_eq⟩ := ih hm' fun a ha => hl a (List.mem_cons_of_mem b ha)
    obtain ⟨hfirst, hfirst_eq⟩ := valueSum_insert hm (key b) (value b)
    have hsplit : valueSum m + ((b :: l).map value).sum =
        value b + valueSum m + (l.map value).sum := by
      rw [List.map_cons, List.sum_cons]
      abel
    have hadd : valueSum (m.insert (key b) (value b)) + (l.map value).sum ≤
        value b + valueSum m + (l.map value).sum := add_le_add hfirst le_rfl
    rw [fill_cons, hsplit]
    refine ⟨hrest.trans hadd, ?_⟩
    rw [List.map_cons, List.nodup_cons, List.forall_mem_cons, ← hfirst_eq]
    constructor
    · intro heq
      -- equality in the sum of the two steps is equality in each
      have hfirst' : valueSum (m.insert (key b) (value b)) = value b + valueSum m := by
        refine le_antisymm hfirst ?_
        rw [heq] at hrest
        exact (add_le_add_iff_right _).mp hrest
      rw [hfirst'] at hrest_eq
      obtain ⟨hnodup, hfresh⟩ := hrest_eq.mp heq
      refine ⟨⟨?_, hnodup⟩, hfirst', fun a ha => (hfresh a ha) ∘ (AList.mem_insert _).mpr ∘ .inr⟩
      intro hrepeated
      obtain ⟨a, ha, hsame⟩ := List.mem_map.mp hrepeated
      exact hfresh a ha ((AList.mem_insert _).mpr (.inl hsame))
    · rintro ⟨⟨hnew, hnodup⟩, hfirst', hfresh⟩
      rw [← hfirst']
      exact hrest_eq.mpr ⟨hnodup, fresh_insert _ hnew hfresh⟩

end Sum

/-- From an empty table. -/
theorem sum_fill_eq_iff [AddCommGroup V] [LinearOrder V] [IsOrderedAddMonoid V]
    (key : α → K) (hl : ∀ a ∈ l, 0 < value a) :
    valueSum (fill key value l ∅) = (l.map value).sum ↔ (l.map key).Nodup := by
  have hempty : ∀ k v, (∅ : Map K V).lookup k = some v → 0 < v := by simp
  simpa [valueSum] using (sum_fill key hempty hl).2

end StreamGuard.Lib
