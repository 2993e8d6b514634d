/-
A scan over ranked candidates that keeps the best one so far.

The candidates come by ascending number. One takes over if it ranks higher, or as high as the best
so far if it is the incumbent and that one is not. So what is kept is the candidate that is
preferred to every other one: by rank, then as the incumbent, then for the lower number. No two
candidates are preferred to each other, which is why any two scans that rank in the same order
agree (`scan_eq_some_iff`).
-/
import Mathlib.Order.Lattice
import Mathlib.Data.List.Basic

set_option autoImplicit false

namespace StreamGuard.Lib

variable {K R : Type*} [DecidableEq K] [LinearOrder R] {incumbent : Option K} {a b c : K × R}
  {l : List (K × R)}

/-- One candidate of the scan. -/
def keep (incumbent : Option K) (best : Option (K × R)) (a : K × R) : Option (K × R) :=
  match best with
  | none => some a
  | some b =>
    if b.2 < a.2 then some a
    else if a.2 = b.2 ∧ incumbent = some a.1 ∧ incumbent ≠ some b.1 then some a
    else some b

/-- The best of all candidates. -/
def scan (incumbent : Option K) (l : List (K × R)) : Option (K × R) :=
  l.foldl (keep incumbent) none

variable [LE K]

/-- A candidate that is preferred to another. -/
def Preferred (incumbent : Option K) (a b : K × R) : Prop :=
  b.2 < a.2 ∨ a.2 = b.2 ∧ (incumbent = some a.1 ∨ incumbent ≠ some b.1 ∧ a.1 ≤ b.1)

omit [DecidableEq K] in
theorem Preferred.trans [Std.IsPreorder K] (hab : Preferred incumbent a b)
    (hbc : Preferred incumbent b c) : Preferred incumbent a c := by
  rcases hab with hab | ⟨hab, hab'⟩
  · left
    rcases hbc with hbc | ⟨hbc, -⟩
    · exact lt_trans hbc hab
    · rwa [← hbc]
  · rcases hbc with hbc | ⟨hbc, hbc'⟩
    · left
      rwa [hab]
    · right
      refine ⟨hab.trans hbc, ?_⟩
      rcases hab' with hab' | ⟨hother, hle⟩
      · exact .inl hab'
      · -- the one in the middle is not the incumbent
        obtain ⟨hlast, hle'⟩ := hbc'.resolve_left hother
        exact .inr ⟨hlast, Std.le_trans hle hle'⟩

omit [DecidableEq K] in
theorem Preferred.refl [Std.IsPreorder K] (a : K × R) : Preferred incumbent a a := by
  right
  refine ⟨rfl, ?_⟩
  by_cases h : incumbent = some a.1
  · exact .inl h
  · exact .inr ⟨h, Std.le_refl a.1⟩

omit [DecidableEq K] in
/-- Two candidates are not preferred to each other. -/
theorem Preferred.antisymm [Std.IsPartialOrder K] (hab : Preferred incumbent a b)
    (hba : Preferred incumbent b a) : a = b := by
  have hrank : a.2 = b.2 := by
    rcases hab with hab | hab
    · rcases hba with hba | hba
      · exact absurd hab (lt_asymm hba)
      · exact hba.1.symm
    · exact hab.1
  refine Prod.ext ?_ hrank
  have hab' := (hab.resolve_left (by simp [hrank])).2
  have hba' := (hba.resolve_left (by simp [hrank])).2
  rcases hab' with ha | ⟨hb, hle⟩
  · exact (Option.some.inj ((hba'.resolve_right fun h => h.1 ha).symm.trans ha)).symm
  · exact Std.le_antisymm hle (hba'.resolve_left hb).2

/-- The better one of two is kept. -/
theorem keep_some [Std.IsPreorder K] (incumbent : Option K) (hle : b.1 ≤ a.1) :
    ∃ c, keep incumbent (some b) a = some c ∧ (c = a ∨ c = b) ∧ Preferred incumbent c a ∧
      Preferred incumbent c b := by
  by_cases hlt : b.2 < a.2
  · exact ⟨a, by simp [keep, hlt], .inl rfl, .refl a, .inl hlt⟩
  · by_cases htie : a.2 = b.2 ∧ incumbent = some a.1 ∧ incumbent ≠ some b.1
    · refine ⟨a, ?_, .inl rfl, .refl a, .inr ⟨htie.1, .inl htie.2.1⟩⟩
      rw [keep, if_neg hlt, if_pos htie]
    · refine ⟨b, ?_, .inr rfl, ?_, .refl b⟩
      · rw [keep, if_neg hlt, if_neg htie]
      · rcases lt_or_eq_of_le (not_lt.mp hlt) with hless | hequal
        · exact .inl hless
        · right
          refine ⟨hequal.symm, ?_⟩
          by_cases hincumbent : incumbent = some b.1
          · exact .inl hincumbent
          · exact .inr ⟨fun ha => htie ⟨hequal, ha, hincumbent⟩, hle⟩

/-- A scan on from a candidate keeps one that is preferred to it and to all that follow. -/
theorem foldl_keep [Std.IsPreorder K] (incumbent : Option K)
    (hsorted : (b :: l).Pairwise (fun a c => a.1 ≤ c.1)) :
    ∃ c, l.foldl (keep incumbent) (some b) = some c ∧ c ∈ b :: l ∧
      ∀ a ∈ b :: l, Preferred incumbent c a := by
  induction l generalizing b with
  | nil => exact ⟨b, rfl, List.mem_singleton_self b, by simpa using Preferred.refl b⟩
  | cons a l ih =>
    rw [List.pairwise_cons, List.forall_mem_cons] at hsorted
    obtain ⟨⟨hba, hbl⟩, hrest⟩ := hsorted
    obtain ⟨d, hd, hfrom, hda, hdb⟩ := keep_some incumbent hba
    have hsorted' : (d :: l).Pairwise (fun a c => a.1 ≤ c.1) := by
      rcases hfrom with rfl | rfl
      · exact hrest
      · exact List.pairwise_cons.mpr ⟨hbl, (List.pairwise_cons.mp hrest).2⟩
    obtain ⟨c, hc, hmem, hbest⟩ := ih hsorted'
    rw [List.forall_mem_cons] at hbest
    refine ⟨c, by rw [List.foldl_cons, hd, hc], ?_, ?_⟩
    · rcases List.mem_cons.mp hmem with rfl | hmem
      · rcases hfrom with rfl | rfl
        · simp
        · simp
      · simp [hmem]
    · rw [List.forall_mem_cons, List.forall_mem_cons]
      exact ⟨hbest.1.trans hdb, hbest.1.trans hda, hbest.2⟩

/-- **What a scan returns** is the candidate that is preferred to all. -/
theorem scan_eq_some_iff [Std.IsPartialOrder K] (hsorted : l.Pairwise (fun a c => a.1 ≤ c.1)) :
    scan incumbent l = some b ↔ b ∈ l ∧ ∀ a ∈ l, Preferred incumbent b a := by
  cases l with
  | nil => simp [scan]
  | cons d l =>
    obtain ⟨c, hc, hmem, hbest⟩ := foldl_keep incumbent hsorted
    have hscan : scan incumbent (d :: l) = some c := hc
    rw [hscan, Option.some.injEq]
    constructor
    · rintro rfl
      exact ⟨hmem, hbest⟩
    · rintro ⟨hb, hpreferred⟩
      exact (hbest b hb).antisymm (hpreferred c hmem)

theorem scan_eq_none_iff [Std.IsPartialOrder K] (hsorted : l.Pairwise (fun a c => a.1 ≤ c.1)) :
    scan incumbent l = none ↔ l = [] := by
  cases l with
  | nil => simp [scan]
  | cons d l =>
    obtain ⟨c, hc, -, -⟩ := foldl_keep incumbent hsorted
    have hscan : scan incumbent (d :: l) = some c := hc
    simp [hscan]

end StreamGuard.Lib
