/-
Numbers given out in the order of first appearance.

Whoever meets a new name writes it at the end of a list, and the name gets the number of its
place. `OneToOne` is what two such lists with one supply of numbers should have: a name has
one number in both, and a number one name. They have it exactly if one list begins with the
other and neither is longer than the supply.
-/
import Mathlib.Data.List.Basic
import Mathlib.Data.List.Nodup

set_option autoImplicit false

namespace StreamGuard.Lib

section FirstSeen

variable {α β : Type*} [DecidableEq α] {order seen A B : List α} {a b : α} {f : ℕ → β}

/-! ## The order of first appearance -/

/-- The order after one more name. -/
def enrol (order : List α) (a : α) : List α := if a ∈ order then order else order ++ [a]

/-- The order after some more names. -/
def first_seen (order names : List α) : List α := names.foldl enrol order

@[simp] theorem first_seen_nil (order : List α) : first_seen order [] = order := rfl

theorem first_seen_append (order names names' : List α) :
    first_seen order (names ++ names') = first_seen (first_seen order names) names' :=
  List.foldl_append

theorem nodup_enrol (h : order.Nodup) (a : α) : (enrol order a).Nodup := by
  unfold enrol
  split
  · exact h
  · next hnot =>
    rw [← List.concat_eq_append]
    exact (List.nodup_concat order a).mpr ⟨hnot, h⟩

/-- The order only grows at its end. -/
theorem prefix_enrol (order : List α) (a : α) : order <+: enrol order a := by
  unfold enrol
  split
  · exact List.prefix_rfl
  · exact List.prefix_append order [a]

theorem prefix_first_seen (order names : List α) : order <+: first_seen order names := by
  induction names generalizing order with
  | nil => exact List.prefix_rfl
  | cons a names ih => exact (prefix_enrol order a).trans (ih _)

/-! ## Numbers -/

/-- `a` has the number `p`. -/
def Assigned (f : ℕ → β) (order : List α) (a : α) (p : β) : Prop :=
  ∃ k, order[k]? = some a ∧ f k = p

omit [DecidableEq α] in
theorem Assigned.mono {p : β} (h : Assigned f A a p) (hle : A <+: B) : Assigned f B a p := by
  obtain ⟨k, hk, hp⟩ := h
  obtain ⟨rest, rfl⟩ := hle
  obtain ⟨hlt, _⟩ := List.getElem?_eq_some_iff.mp hk
  exact ⟨k, (List.getElem?_append_left hlt).trans hk, hp⟩

omit [DecidableEq α] in
/-- A name has one number. -/
theorem Assigned.unique {p q : β} (hnodup : order.Nodup) (h : Assigned f order a p)
    (h' : Assigned f order a q) : p = q := by
  obtain ⟨k, hk, rfl⟩ := h
  obtain ⟨l, hl, rfl⟩ := h'
  obtain ⟨hlt, hk⟩ := List.getElem?_eq_some_iff.mp hk
  obtain ⟨hlt', hl⟩ := List.getElem?_eq_some_iff.mp hl
  rw [(hnodup.getElem_inj_iff).mp (hk.trans hl.symm)]

omit [DecidableEq α] in
theorem exists_assigned (f : ℕ → β) (h : a ∈ order) : ∃ p, Assigned f order a p := by
  obtain ⟨k, hk⟩ := List.mem_iff_getElem?.mp h
  exact ⟨f k, k, hk, rfl⟩

omit [DecidableEq α] in
theorem Assigned.mem {p : β} (h : Assigned f order a p) : a ∈ order :=
  List.mem_of_getElem? h.choose_spec.1

/-- The numbers after one more name. -/
theorem assigned_enrol {p : β} : Assigned f (enrol order a) b p ↔
    Assigned f order b p ∨ a ∉ order ∧ b = a ∧ p = f order.length := by
  unfold enrol
  split
  · next hmem => simp [hmem]
  · next hnot =>
    constructor
    · rintro ⟨k, hk, rfl⟩
      rcases Nat.lt_trichotomy k order.length with hlt | rfl | hgt
      · exact .inl ⟨k, (List.getElem?_append_left hlt).symm.trans hk, rfl⟩
      · rw [List.getElem?_concat_length] at hk
        exact .inr ⟨hnot, (Option.some.inj hk).symm, rfl⟩
      · rw [List.getElem?_eq_none (by simp; omega)] at hk
        contradiction
    · rintro (h | ⟨-, rfl, rfl⟩)
      · exact h.mono (List.prefix_append order [a])
      · exact ⟨order.length, List.getElem?_concat_length, rfl⟩

/-! ## Two lists -/

/-- **One name, one number**, across two lists. -/
structure OneToOne (f : ℕ → β) (A B : List α) : Prop where
  agree : ∀ {a p q}, Assigned f A a p → Assigned f B a q → p = q
  apart : ∀ {a b p}, Assigned f A a p ∨ Assigned f B a p → Assigned f A b p ∨ Assigned f B b p →
    a = b

omit [DecidableEq α] in
/-- It goes for the beginnings of the second list. -/
theorem OneToOne.mono_right {B' : List α} (h : OneToOne f A B) (hle : B' <+: B) :
    OneToOne f A B' where
  agree hA hB' := h.agree hA (hB'.mono hle)
  apart ha hb := h.apart (ha.imp id (fun h => h.mono hle)) (hb.imp id (fun h => h.mono hle))

omit [DecidableEq α] in
/-- In a list no longer than the supply a number has one name. -/
theorem Assigned.name_unique {N : ℕ} {p : β} (hinj : ∀ k < N, ∀ l < N, f k = f l → k = l)
    (hlen : order.length ≤ N) (h : Assigned f order a p) (h' : Assigned f order b p) : a = b := by
  obtain ⟨k, hk, rfl⟩ := h
  obtain ⟨l, hl, heq⟩ := h'
  have hlt := (List.getElem?_eq_some_iff.mp hk).1
  have hlt' := (List.getElem?_eq_some_iff.mp hl).1
  obtain rfl := hinj l (by omega) k (by omega) heq
  exact Option.some.inj (hk.symm.trans hl)

omit [DecidableEq α] in
/-- A longer list gives one number to two names. -/
theorem length_le_of_apart {N : ℕ} (hnodup : order.Nodup) (hclash : ∃ k < N, f k = f N)
    (hapart : ∀ {a b p}, Assigned f order a p → Assigned f order b p → a = b) :
    order.length ≤ N := by
  by_contra hlong
  obtain ⟨k, hk, heq⟩ := hclash
  have hlt : N < order.length := Nat.lt_of_not_le hlong
  have hlt' : k < order.length := Nat.lt_trans hk hlt
  have hfirst : order[k]? = some order[k] := List.getElem?_eq_getElem hlt'
  have hsecond : order[N]? = some order[N] := List.getElem?_eq_getElem hlt
  have hsame := hapart ⟨k, hfirst, heq⟩ ⟨N, hsecond, rfl⟩
  have hindex := (hnodup.getElem_inj_iff).mp hsame
  omega

omit [DecidableEq α] in
/-- **When two lists number alike**, with a supply of `N` numbers that then starts over. -/
theorem oneToOne_iff {N : ℕ} (hA : A.Nodup) (hB : B.Nodup)
    (hinj : ∀ k < N, ∀ l < N, f k = f l → k = l) (hclash : ∃ k < N, f k = f N) :
    OneToOne f A B ↔ A.length ≤ N ∧ B.length ≤ N ∧ (A <+: B ∨ B <+: A) := by
  constructor
  · intro h
    refine ⟨length_le_of_apart hA hclash (fun ha hb => h.apart (.inl ha) (.inl hb)),
      length_le_of_apart hB hclash (fun ha hb => h.apart (.inr ha) (.inr hb)), ?_⟩
    -- the names at one place have one number
    have hsame : ∀ k (hkA : k < A.length) (hkB : k < B.length), A[k] = B[k] := by
      intro k hkA hkB
      exact h.apart (p := f k) (.inl ⟨k, List.getElem?_eq_getElem hkA, rfl⟩)
        (.inr ⟨k, List.getElem?_eq_getElem hkB, rfl⟩)
    rcases Nat.le_total A.length B.length with hle | hle
    · exact .inl (List.prefix_iff_getElem.mpr ⟨hle, fun k hk => hsame k hk (by omega)⟩)
    · exact .inr (List.prefix_iff_getElem.mpr ⟨hle, fun k hk => (hsame k (by omega) hk).symm⟩)
  · rintro ⟨hlenA, hlenB, hprefix⟩
    -- the longer list knows both
    obtain ⟨C, hC, hlen, hAC, hBC⟩ : ∃ C : List α, C.Nodup ∧ C.length ≤ N ∧ A <+: C ∧ B <+: C := by
      rcases hprefix with h | h
      · exact ⟨B, hB, hlenB, h, List.prefix_rfl⟩
      · exact ⟨A, hA, hlenA, List.prefix_rfl, h⟩
    refine ⟨fun ha hb => (ha.mono hAC).unique hC (hb.mono hBC), ?_⟩
    intro a b p ha hb
    have ha := ha.elim (fun h => h.mono hAC) (fun h => h.mono hBC)
    have hb := hb.elim (fun h => h.mono hAC) (fun h => h.mono hBC)
    exact ha.name_unique hinj hlen hb

end FirstSeen

end StreamGuard.Lib
