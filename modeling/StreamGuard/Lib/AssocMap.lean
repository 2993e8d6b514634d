/-
Finite maps with unspecified iteration order, over Mathlib's `AList`.

`AList` has `lookup`, `insert` and `erase` with their lookup laws. What a
program's hash map and ordered map need on top of it is here: `retain`, the
values, the smallest and the largest key, and `Traversal`, the order in which
one pass over a hash map visits its entries. A pass may visit them in any order,
so a `Traversal` is any function that permutes the entry list, and a statement
that quantifies over traversals holds for every iteration order.
-/
import Mathlib.Algebra.BigOperators.Group.List.Basic
import Mathlib.Data.List.AList
import Mathlib.Data.List.MinMax
import Mathlib.Order.Defs.LinearOrder

set_option autoImplicit false

/-- A finite map from `K` to `V`. -/
abbrev StreamGuard.Lib.Map (K V : Type*) := AList (fun _ : K => V)

open StreamGuard.Lib (Map)

namespace AList

variable {K V : Type*}

/-- The number of entries. -/
def len (m : Map K V) : ℕ := m.entries.length

/-- The values, in entry order. -/
def values (m : Map K V) : List V := m.entries.map (·.2)

/-- Keeps the entries that satisfy `p`. -/
def retain (p : K → V → Bool) (m : Map K V) : Map K V :=
  ⟨m.entries.filter (fun e => p e.1 e.2), m.nodupKeys.sublist List.filter_sublist⟩

/-- Applies `f` to every value. -/
def mapValues {W : Type*} (f : V → W) (m : Map K V) : Map K W where
  entries := m.entries.map (fun e => ⟨e.1, f e.2⟩)
  nodupKeys := by
    rw [List.NodupKeys, List.keys, List.map_map]
    exact m.nodupKeys

theorem len_retain_le {p : K → V → Bool} {m : Map K V} : (m.retain p).len ≤ m.len :=
  List.length_filter_le _ _

@[simp] theorem len_empty : len (∅ : Map K V) = 0 := rfl

variable [DecidableEq K]

/-! ## Lookups -/

theorem mem_iff_lookup {k : K} {m : Map K V} : k ∈ m ↔ ∃ v, m.lookup k = some v := by
  rw [← AList.lookup_isSome, Option.isSome_iff_exists]

theorem mem_of_lookup {k : K} {v : V} {m : Map K V} (h : m.lookup k = some v) : k ∈ m :=
  mem_iff_lookup.mpr ⟨v, h⟩

theorem mem_entries_iff {k : K} {v : V} {m : Map K V} :
    (⟨k, v⟩ : Σ _ : K, V) ∈ m.entries ↔ m.lookup k = some v :=
  AList.mem_lookup_iff.symm

theorem mem_values_iff {v : V} {m : Map K V} : v ∈ m.values ↔ ∃ k, m.lookup k = some v := by
  simp only [values, List.mem_map, Sigma.exists]
  constructor
  · rintro ⟨k, w, hm, rfl⟩
    exact ⟨k, mem_entries_iff.mp hm⟩
  · rintro ⟨k, hk⟩
    exact ⟨k, v, mem_entries_iff.mpr hk, rfl⟩

/-- Values that tell the keys apart are met once. -/
theorem nodup_map_values {α : Type*} {f : V → α} {m : Map K V}
    (h : ∀ {k k' v v'}, m.lookup k = some v → m.lookup k' = some v' → f v = f v' → k = k') :
    (m.values.map f).Nodup := by
  rw [values, List.map_map]
  refine (List.nodup_map_iff_inj_on m.nodupKeys.nodup).mpr ?_
  rintro ⟨k, v⟩ hv ⟨k', v'⟩ hv' hf
  have hl := mem_entries_iff.mp hv
  have hl' := mem_entries_iff.mp hv'
  obtain rfl := h hl hl' hf
  rw [hl] at hl'
  rw [Option.some.inj hl']

theorem lookup_insert_of {k k' : K} {v : V} {m : Map K V} :
    (m.insert k' v).lookup k = if k = k' then some v else m.lookup k := by
  split
  · next h => subst h; exact AList.lookup_insert m
  · next h => exact AList.lookup_insert_ne h

/-- An entry after an insert was there before, or it is the new one. -/
theorem of_lookup_insert {k k' : K} {v w : V} {m : Map K V}
    (h : (m.insert k' w).lookup k = some v) : m.lookup k = some v ∨ k = k' ∧ v = w := by
  rw [lookup_insert_of] at h
  by_cases hk : k = k'
  · rw [if_pos hk] at h
    exact .inr ⟨hk, (Option.some.inj h).symm⟩
  · rw [if_neg hk] at h
    exact .inl h

/-- An entry of a map that a loop fills was there before, or a round of the loop put it there. -/
theorem of_lookup_foldl_insert {α : Type*} {key : α → K} {value : α → V} {l : List α}
    {m : Map K V} {k : K} {v : V}
    (h : (l.foldl (fun m a => m.insert (key a) (value a)) m).lookup k = some v) :
    m.lookup k = some v ∨ ∃ a ∈ l, key a = k ∧ value a = v := by
  induction l generalizing m with
  | nil => exact .inl h
  | cons a l ih =>
    rcases ih h with hkept | ⟨b, hb, hkey⟩
    · rw [lookup_insert_of] at hkept
      split at hkept
      · next hk => exact .inr ⟨a, List.mem_cons_self, hk.symm, Option.some.inj hkept⟩
      · exact .inl hkept
    · exact .inr ⟨b, List.mem_cons_of_mem a hb, hkey⟩

/-- An insert under a new key leaves the other entries. -/
theorem lookup_insert_new {k k' : K} {v w : V} {m : Map K V} (hnew : m.lookup k' = none)
    (h : m.lookup k = some v) : (m.insert k' w).lookup k = some v := by
  have hne : k ≠ k' := by
    rintro rfl
    rw [hnew] at h
    contradiction
  rw [lookup_insert_of, if_neg hne, h]

theorem lookup_erase_of {k k' : K} {m : Map K V} :
    (m.erase k').lookup k = if k = k' then none else m.lookup k := by
  split
  · next h => subst h; exact AList.lookup_erase k m
  · next h => exact AList.lookup_erase_ne h

/-- What is left after an erase was there before. -/
theorem lookup_of_erase {k k' : K} {v : V} {m : Map K V} (h : (m.erase k').lookup k = some v) :
    m.lookup k = some v := by
  rw [lookup_erase_of] at h
  split at h
  · contradiction
  · exact h

/-- Looking up in a filtered map. -/
theorem lookup_retain {p : K → V → Bool} {k : K} {m : Map K V} :
    (m.retain p).lookup k = (m.lookup k).filter (p k) := by
  ext v
  rw [← mem_entries_iff, Option.filter_eq_some_iff, ← mem_entries_iff]
  simp only [retain, List.mem_filter]

theorem lookup_retain_eq_some {p : K → V → Bool} {k : K} {v : V} {m : Map K V} :
    (m.retain p).lookup k = some v ↔ m.lookup k = some v ∧ p k v = true := by
  rw [lookup_retain, Option.filter_eq_some_iff]

theorem lookup_mapValues {W : Type*} {f : V → W} {k : K} {m : Map K V} :
    (m.mapValues f).lookup k = (m.lookup k).map f := by
  ext w
  rw [← mem_entries_iff, Option.map_eq_some_iff]
  simp only [mapValues, List.mem_map, Sigma.exists]
  constructor
  · rintro ⟨k', v, hm, he⟩
    obtain ⟨rfl, hw⟩ := Sigma.mk.inj he
    exact ⟨v, mem_entries_iff.mp hm, eq_of_heq hw⟩
  · rintro ⟨v, hv, rfl⟩
    exact ⟨k, v, mem_entries_iff.mpr hv, rfl⟩

/-- A filter that drops a key makes the map smaller. -/
theorem len_retain_lt {p : K → V → Bool} {k : K} {m : Map K V} (h : k ∈ m)
    (hdropped : k ∉ m.retain p) : (m.retain p).len < m.len := by
  obtain ⟨v, hv⟩ := mem_iff_lookup.mp h
  refine List.length_filter_lt_length_iff_exists.mpr ⟨⟨k, v⟩, mem_entries_iff.mpr hv, ?_⟩
  intro hp
  exact hdropped (mem_of_lookup (lookup_retain_eq_some.mpr ⟨hv, hp⟩))

theorem len_erase {k : K} {m : Map K V} (h : k ∈ m) : (m.erase k).len + 1 = m.len := by
  have hk : (m.erase k).keys.length + 1 = m.keys.length := by
    rw [AList.keys_erase, List.length_erase_of_mem h]
    have : 0 < m.keys.length := List.length_pos_of_mem h
    omega
  simpa [AList.keys, List.keys, len] using hk

theorem len_insert_of_mem {k : K} {v : V} {m : Map K V} (h : k ∈ m) :
    (m.insert k v).len = m.len := by
  rw [len, AList.entries_insert, List.length_cons]
  exact len_erase h

theorem len_insert_of_notMem {k : K} {v : V} {m : Map K V} (h : k ∉ m) :
    (m.insert k v).len = m.len + 1 := by
  rw [len, AList.entries_insert_of_notMem h]
  rfl

theorem len_insert_le (m : Map K V) (k : K) (v : V) : (m.insert k v).len ≤ m.len + 1 := by
  by_cases h : k ∈ m
  · rw [len_insert_of_mem h]
    exact Nat.le_succ _
  · rw [len_insert_of_notMem h]

/-- Maps with the same lookups have the same entries, in some order. -/
theorem entries_perm {m m' : Map K V} (h : ∀ k, m'.lookup k = m.lookup k) :
    m'.entries.Perm m.entries := by
  rw [List.perm_ext_iff_of_nodup m'.nodupKeys.nodup m.nodupKeys.nodup]
  rintro ⟨k, v⟩
  rw [mem_entries_iff, mem_entries_iff, h]

/-- A part of a map is no larger. -/
theorem len_le {m m' : Map K V} (h : ∀ k v, m'.lookup k = some v → m.lookup k = some v) :
    m'.len ≤ m.len := by
  refine (List.subperm_of_subset m'.nodupKeys.nodup ?_).length_le
  rintro ⟨k, v⟩ he
  exact mem_entries_iff.mpr (h k v (mem_entries_iff.mp he))

theorem len_congr {m m' : Map K V} (h : ∀ k, m'.lookup k = m.lookup k) : m'.len = m.len :=
  (entries_perm h).length_eq

theorem erase_of_notMem {k : K} {m : Map K V} (h : k ∉ m) : m.erase k = m :=
  AList.ext (List.kerase_of_notMem_keys h)

theorem erase_insert_of_notMem {k : K} {v : V} {m : Map K V} (h : k ∉ m) :
    (m.insert k v).erase k = m := by
  apply AList.ext
  change List.kerase k (m.insert k v).entries = m.entries
  rw [AList.entries_insert_of_notMem h]
  exact List.kerase_cons_eq rfl

theorem eq_empty {m : Map K V} (h : ∀ k, k ∉ m) : m = ∅ := by
  apply AList.ext
  refine List.eq_nil_iff_forall_not_mem.mpr ?_
  intro e he
  exact h e.1 (mem_of_lookup (mem_entries_iff.mp he))

/-! ## Sums over the entries -/

section Sum

variable {M : Type*} [AddCommMonoid M] {f g : K → V → M}

/-- The sum of `f` over the entries. -/
def sum (f : K → V → M) (m : Map K V) : M := (m.entries.map (fun e => f e.1 e.2)).sum

omit [DecidableEq K] in
@[simp] theorem sum_empty (f : K → V → M) : sum f (∅ : Map K V) = 0 := rfl

/-- One entry and the rest. -/
theorem sum_erase {k : K} {v : V} {m : Map K V} (f : K → V → M) (h : m.lookup k = some v) :
    f k v + (m.erase k).sum f = m.sum f := by
  have hperm : m.entries.Perm (⟨k, v⟩ :: List.kerase k m.entries) := by
    obtain ⟨w, before, after, _, hentries, hrest⟩ :=
      List.exists_of_kerase (AList.mem_keys.mp (mem_of_lookup h))
    have hw : m.lookup k = some w := by
      rw [← mem_entries_iff, hentries]
      exact List.mem_append_right _ List.mem_cons_self
    rw [h] at hw
    obtain rfl := Option.some.inj hw
    rw [hrest, hentries]
    exact List.perm_middle
  exact ((hperm.map (fun e => f e.1 e.2)).sum_eq).symm

theorem sum_insert (f : K → V → M) (k : K) (v : V) (m : Map K V) :
    (m.insert k v).sum f = f k v + (m.erase k).sum f := by
  rw [sum, AList.entries_insert]
  rfl

theorem sum_insert_of_notMem {k : K} {m : Map K V} (f : K → V → M) (v : V) (h : k ∉ m) :
    (m.insert k v).sum f = f k v + m.sum f := by
  rw [sum_insert, erase_of_notMem h]

/-- Writing an entry anew trades the old summand for the new one. -/
theorem sum_insert_add {k : K} {v w : V} {m : Map K V} (f : K → V → M) (h : m.lookup k = some v) :
    f k v + (m.insert k w).sum f = f k w + m.sum f := by
  rw [sum_insert, ← sum_erase f h, add_left_comm]

theorem sum_congr {m : Map K V} (h : ∀ k v, m.lookup k = some v → f k v = g k v) :
    m.sum f = m.sum g := by
  rw [sum, sum]
  congr 1
  refine List.map_congr_left ?_
  intro e he
  exact h e.1 e.2 (mem_entries_iff.mp he)

omit [DecidableEq K] in
theorem map_sum_hom {N : Type*} [AddCommMonoid N] (φ : M →+ N) (f : K → V → M) (m : Map K V) :
    φ (m.sum f) = m.sum (fun k v => φ (f k v)) := by
  rw [sum, sum, map_list_sum, List.map_map]
  rfl

omit [DecidableEq K] in
theorem sum_eq_zero {m : Map K V} (h : ∀ k v, f k v = 0) : m.sum f = 0 := by
  unfold sum
  rw [List.sum_eq_zero]
  intro x hx
  obtain ⟨e, _, rfl⟩ := List.mem_map.mp hx
  exact h e.1 e.2

/-- The sum over a part of a map, and over what the part leaves out. -/
theorem sum_split {m part : Map K V} (f : K → V → M)
    (hpart : ∀ k v, part.lookup k = some v → m.lookup k = some v) :
    m.sum f = part.sum f + m.sum (fun k v => if k ∈ part then 0 else f k v) := by
  have hperm : (m.entries.filter (fun e => e.1 ∈ part)).Perm part.entries := by
    rw [List.perm_ext_iff_of_nodup (m.nodupKeys.nodup.filter _) part.nodupKeys.nodup]
    rintro ⟨k, v⟩
    rw [List.mem_filter, decide_eq_true_eq, mem_entries_iff, mem_entries_iff]
    constructor
    · rintro ⟨hl, hk⟩
      obtain ⟨w, hw⟩ := mem_iff_lookup.mp hk
      have hsame := hpart k w hw
      rw [hl] at hsame
      rw [hw, Option.some.inj hsame]
    · intro hl
      exact ⟨hpart k v hl, mem_of_lookup hl⟩
  have hfilter : ∀ l : List (Σ _ : K, V), (l.map (fun e => f e.1 e.2)).sum =
      ((l.filter (fun e => e.1 ∈ part)).map (fun e => f e.1 e.2)).sum +
        (l.map (fun e => if e.1 ∈ part then 0 else f e.1 e.2)).sum := by
    intro l
    induction l with
    | nil => simp
    | cons e l ih =>
      by_cases he : e.1 ∈ part
      · simp [he, ih, add_assoc]
      · simp [he, ih, add_left_comm]
  have hsum := (hperm.map (fun e => f e.1 e.2)).sum_eq
  unfold sum
  rw [hfilter m.entries, hsum]

/-- One summand is at most the sum. -/
theorem le_sum {k : K} {v : V} {m : Map K V} (f : K → V → ℕ) (h : m.lookup k = some v) :
    f k v ≤ m.sum f := by
  rw [← sum_erase f h]
  exact Nat.le_add_right _ _

theorem sum_le {f g : K → V → ℕ} {m : Map K V}
    (h : ∀ k v, m.lookup k = some v → f k v ≤ g k v) : m.sum f ≤ m.sum g := by
  have hle : ∀ e ∈ m.entries, f e.1 e.2 ≤ g e.1 e.2 := fun e he => h e.1 e.2 (mem_entries_iff.mp he)
  unfold sum
  generalize m.entries = entries at hle ⊢
  induction entries with
  | nil => exact le_rfl
  | cons e entries ih =>
    obtain ⟨he, hentries⟩ := List.forall_mem_cons.mp hle
    have hrest := ih hentries
    rw [List.map_cons, List.map_cons, List.sum_cons, List.sum_cons]
    omega

/-- The sum depends on the entries alone. -/
theorem sum_perm {m m' : Map K V} (f : K → V → M) (h : ∀ k, m'.lookup k = m.lookup k) :
    m'.sum f = m.sum f :=
  ((entries_perm h).map (fun e : Σ _ : K, V => f e.1 e.2)).sum_eq

end Sum

/-! ## The ordered view

`BTreeMap` keeps its entries sorted; the only things read off that order here
are the smallest and the largest key. -/

variable [LinearOrder K]

/-- The smallest key. -/
def firstKey (m : Map K V) : Option K := m.keys.min?

/-- The largest key. -/
def lastKey (m : Map K V) : Option K := m.keys.max?

end AList

/-! ## Iteration order -/

namespace StreamGuard.Lib

/-- The order in which one pass over a hash map visits its entries: any
permutation of them. -/
structure Traversal (K V : Type*) where
  visit : List (Σ _ : K, V) → List (Σ _ : K, V)
  perm : ∀ l, (visit l).Perm l

namespace Traversal

variable {K V : Type*}

/-- The pass that visits entries as they are stored. -/
def stored : Traversal K V := ⟨id, fun l => List.Perm.refl l⟩

instance : Inhabited (Traversal K V) := ⟨stored⟩

theorem mem_visit (t : Traversal K V) {l : List (Σ _ : K, V)} {e : Σ _ : K, V} :
    e ∈ t.visit l ↔ e ∈ l :=
  (t.perm l).mem_iff

end Traversal

end StreamGuard.Lib
