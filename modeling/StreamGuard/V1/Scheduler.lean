/-
The V1 packet scheduler and the packet numbers of `sg-multipath/src/lib.rs`.

`WeightedBondingScheduler` gives every eligible path a share of the traffic by its
health, and picks the path of the next packet by a smooth weighted round robin. The
client feeds it with measurements (`update_from`); the gateway makes it adopt the
shares that the client publishes (`adopt_weights`). `recompute` adds up floats in the
iteration order of two hash maps, which are therefore arguments of it.

What the rest of the development needs to know of a scheduler is which paths it can
name: only those with a positive weight.
-/
import Mathlib
import StreamGuard.Lib.AssocMap
import StreamGuard.V1.Metrics

set_option autoImplicit false

namespace StreamGuard.V1

open StreamGuard StreamGuard.Lib

/-! ## Packet numbers -/

structure Sequencer where
  next : Sequence
  deriving DecidableEq

namespace Sequencer

def new : Sequencer := ⟨⟨0⟩⟩

/-- `next_sequence`; the counter wraps. -/
def next_sequence (s : Sequencer) : Sequencer × Sequence := (⟨⟨s.next.get + 1⟩⟩, s.next)

end Sequencer

/-! ## The scheduler -/

inductive Decision where
  | Send (path : UInt8)
  | Duplicate (first second : UInt8)
  | Skip
  deriving DecidableEq

structure WeightedBondingScheduler (F : Type) where
  metrics : Map UInt8 (PathMetrics F)
  weights : Map UInt8 F
  current : Map UInt8 F
  total_weight : F

/-- The iteration orders of the two hash maps that `recompute` walks over. -/
structure Orders (F : Type) where
  metrics : Traversal UInt8 (PathMetrics F)
  raw : Traversal UInt8 F

variable {F : Type} [F32 F]

/-- The entries of a weight table by ascending path. -/
def by_path (entries : List (Σ _ : UInt8, F)) : List (UInt8 × F) :=
  (entries.map (fun e => (e.1, e.2))).insertionSort (fun a b => a.1 ≤ b.1)

namespace WeightedBondingScheduler

def new : WeightedBondingScheduler F := ⟨∅, ∅, ∅, F32.literal 0⟩

/-- The raw weight of a path: its score, or nothing. -/
def raw_weight (m : PathMetrics F) : F :=
  if m.is_eligible = true then m.score else F32.literal 0

/-- The first loop of `recompute`: raw weights and their total. -/
def raw_weights (entries : List (Σ _ : UInt8, PathMetrics F)) : Map UInt8 F × F :=
  entries.foldl (fun s e => (s.1.insert e.1 (raw_weight e.2), s.2 + raw_weight e.2))
    (∅, F32.literal 0)

/-- Its second loop: each weight as a share of the total, and the sum of the shares. -/
def normalize (total : F) (entries : List (Σ _ : UInt8, F)) : Map UInt8 F × F :=
  entries.foldl (fun s e => (s.1.insert e.1 (e.2 / total), s.2 + e.2 / total))
    (∅, F32.literal 0)

def recompute (s : WeightedBondingScheduler F) (orders : Orders F) : WeightedBondingScheduler F :=
  let raw := raw_weights (orders.metrics.visit s.metrics.entries)
  if F32.lt (F32.literal 0) raw.2 = true then
    let shares := normalize raw.2 (orders.raw.visit raw.1.entries)
    { s with weights := shares.1, total_weight := shares.2 }
  else { s with weights := ∅, total_weight := F32.literal 0 }

/-- An unmetered path counts as reachable. -/
def snapshot (metrics : Map PathId (PathMetrics F)) (path : PathId) : PathMetrics F :=
  (metrics.lookup path).getD { PathMetrics.default with reachable := true }

def update_from (s : WeightedBondingScheduler F) (orders : Orders F) (paths : List PathId)
    (metrics : Map PathId (PathMetrics F)) : WeightedBondingScheduler F :=
  recompute { s with
    metrics := paths.foldl (fun table p => table.insert p.get (snapshot metrics p)) ∅ } orders

/-- The positive weights, by ascending path. -/
def normalized_weights (s : WeightedBondingScheduler F) : List (UInt8 × F) :=
  (by_path s.weights.entries).filter (fun w => F32.lt (F32.literal 0) w.2)

/-- `adopt_weights`: `published` replaces the weights, divided by its total if that is a
positive number. The accumulators stay. -/
def adopt_weights (s : WeightedBondingScheduler F) (published : List (UInt8 × F)) :
    WeightedBondingScheduler F :=
  let usable := published.filter (fun w => F32.is_finite w.2 && F32.lt (F32.literal 0) w.2)
  let weights := usable.foldl (fun table w => table.insert w.1 w.2) (∅ : Map UInt8 F)
  let total := usable.foldl (fun sum w => sum + w.2) (F32.literal 0)
  if (F32.is_finite total && F32.lt (F32.literal 0) total) = true then
    { s with
      metrics := ∅
      weights := weights.mapValues (fun w => w / total)
      total_weight := F32.literal 1 }
  else { s with metrics := ∅, weights := weights, total_weight := F32.literal 0 }

/-- One candidate of `preferred_path`: a higher weight wins, and an equal one if it is that of
the current path. -/
def prefer (current : Option PathId) (best : Option (UInt8 × F)) (w : UInt8 × F) :
    Option (UInt8 × F) :=
  if F32.le w.2 (F32.literal 0) = true then best
  else match best with
    | none => some w
    | some b =>
      if F32.lt b.2 w.2 = true then some w
      else if F32.eq w.2 b.2 = true ∧ current = some ⟨w.1⟩ ∧ current ≠ some ⟨b.1⟩ then some w
      else best

def preferred_path (s : WeightedBondingScheduler F) (current : Option PathId) : Option PathId :=
  ((by_path s.weights.entries).foldl (prefer current) none).map (fun w => ⟨w.1⟩)

/-- One candidate of `decide`: its accumulator grows by its weight, and the largest one so far
is kept. -/
def advance (s : Map UInt8 F × Option (UInt8 × F)) (w : UInt8 × F) :
    Map UInt8 F × Option (UInt8 × F) :=
  let acc := (s.1.lookup w.1).getD (F32.literal 0) + w.2
  let better := match s.2 with
    | none => true
    | some b => F32.lt b.2 acc
  (s.1.insert w.1 acc, if better = true then some (w.1, acc) else s.2)

/-- Smooth weighted round robin. -/
def decide (s : WeightedBondingScheduler F) : WeightedBondingScheduler F × Decision :=
  let eligible := s.normalized_weights
  if eligible.isEmpty = true then (s, .Skip)
  else
    let round := eligible.foldl advance (s.current, none)
    match round.2 with
    | some (path, acc) =>
      ({ s with current := round.1.insert path (acc - s.total_weight) }, .Send path)
    | none => ({ s with current := round.1 }, .Skip)

/-! ### What a decision can be -/

variable {s : WeightedBondingScheduler F} {ws : List (UInt8 × F)}
  {c : Map UInt8 F × Option (UInt8 × F)} {b : UInt8 × F}

/-- Of the candidates met so far one is kept. -/
theorem isSome_foldl_advance (h : ws ≠ [] ∨ c.2.isSome) : (ws.foldl advance c).2.isSome := by
  induction ws generalizing c with
  | nil => simpa using h
  | cons w ws ih =>
    apply ih
    right
    cases hbest : c.2 with
    | none => simp [advance, hbest]
    | some best =>
      simp only [advance, hbest]
      split
      · simp
      · simp

/-- It is one of the candidates. -/
theorem mem_of_foldl_advance (h : (ws.foldl advance c).2 = some b) :
    c.2 = some b ∨ b.1 ∈ ws.map Prod.fst := by
  induction ws generalizing c with
  | nil => exact .inl h
  | cons w ws ih =>
    rw [List.map_cons, List.mem_cons]
    rcases ih h with hkept | hlater
    · cases hbest : c.2 with
      | none =>
        simp only [advance, hbest, ↓reduceIte, Option.some.injEq] at hkept
        exact .inr (.inl (by simp [← hkept]))
      | some best =>
        simp only [advance, hbest] at hkept
        split at hkept
        · exact .inr (.inl (by simp [← Option.some.inj hkept]))
        · exact .inl hkept
    · exact .inr (.inr hlater)

/-- **A decision.** Without positive weights the packet is skipped; else it is sent on a path
with one. The weights stay. -/
theorem decide_cases (s : WeightedBondingScheduler F) :
    (s.normalized_weights = [] ∧ s.decide = (s, .Skip)) ∨
      ∃ path, path ∈ s.normalized_weights.map Prod.fst ∧ s.decide.2 = .Send path ∧
        s.decide.1.weights = s.weights := by
  by_cases hnone : s.normalized_weights = []
  · left
    simp [decide, hnone]
  · right
    obtain ⟨b, hb⟩ := Option.isSome_iff_exists.mp
      (isSome_foldl_advance (c := (s.current, none)) (.inl hnone))
    have hmem : b.1 ∈ s.normalized_weights.map Prod.fst := by
      rcases mem_of_foldl_advance hb with hstart | hmem
      · simp at hstart
      · exact hmem
    refine ⟨b.1, hmem, ?_⟩
    simp [decide, hnone, hb]

/-! ### Where weights come from -/

omit [F32 F] in
theorem mem_by_path {entries : List (Σ _ : UInt8, F)} {w : UInt8 × F} :
    w ∈ by_path entries ↔ (⟨w.1, w.2⟩ : Σ _ : UInt8, F) ∈ entries := by
  simp only [by_path, List.mem_insertionSort, List.mem_map, Sigma.exists]
  constructor
  · rintro ⟨path, weight, hmem, rfl⟩
    exact hmem
  · intro hmem
    exact ⟨w.1, w.2, hmem, rfl⟩

theorem mem_normalized_weights {w : UInt8 × F} :
    w ∈ s.normalized_weights ↔
      s.weights.lookup w.1 = some w.2 ∧ F32.lt (F32.literal 0) w.2 = true := by
  rw [normalized_weights, List.mem_filter, mem_by_path, AList.mem_entries_iff]

/-- An entry of a table that a loop fills and adds up at once. -/
theorem of_lookup_fill {α : Type} {key : α → UInt8} {value : α → F} {l : List α} {total : F}
    {path : UInt8} {w : F}
    (h : (l.foldl (fun t a => (t.1.insert (key a) (value a), t.2 + value a))
      ((∅ : Map UInt8 F), total)).1.lookup path = some w) :
    ∃ a ∈ l, key a = path ∧ value a = w := by
  have hfst (t : Map UInt8 F × F) :
      (l.foldl (fun t a => (t.1.insert (key a) (value a), t.2 + value a)) t).1 =
        l.foldl (fun t a => t.insert (key a) (value a)) t.1 := by
    clear h
    induction l generalizing t with
    | nil => rfl
    | cons a l ih => exact ih _
  -- the total is written along the way and never read, so the loop is one of insertions
  rw [hfst] at h
  rcases AList.of_lookup_foldl_insert h with hempty | hfilled
  · contradiction
  · exact hfilled

/-- A path has a weight after `update_from` only if it was given; the weight is its share of a
positive total. -/
theorem of_lookup_update_from {orders : Orders F} {paths : List PathId}
    {metrics : Map PathId (PathMetrics F)} {path : UInt8} {w : F}
    (h : (s.update_from orders paths metrics).weights.lookup path = some w) :
    ⟨path⟩ ∈ paths ∧ ∃ total, F32.lt (F32.literal 0) total = true ∧
      w = raw_weight (snapshot metrics ⟨path⟩) / total := by
  simp only [update_from, recompute] at h
  split at h
  next hpositive =>
    obtain ⟨share, hshare, hkey, hw⟩ := of_lookup_fill h
    obtain ⟨measured, hmeasured, hkey', hraw⟩ := of_lookup_fill
      (AList.mem_entries_iff.mp ((Traversal.mem_visit _).mp hshare))
    have htable := AList.mem_entries_iff.mp ((Traversal.mem_visit _).mp hmeasured)
    rcases AList.of_lookup_foldl_insert htable with hempty | ⟨given, hgiven, hpath, hsnapshot⟩
    · contradiction
    · have hsame : given = ⟨path⟩ := by
        rw [← hkey, ← hkey', ← hpath]
      subst hsame
      exact ⟨hgiven, _, hpositive, by rw [← hw, ← hraw, hsnapshot]⟩
  · contradiction

/-- What is adopted was published, as a positive number. -/
theorem of_lookup_adopt_weights {published : List (UInt8 × F)} {path : UInt8} {w : F}
    (h : (s.adopt_weights published).weights.lookup path = some w) :
    ∃ v, (path, v) ∈ published ∧ F32.lt (F32.literal 0) v = true := by
  have hadopted : ∃ v, ((published.filter (fun w => F32.is_finite w.2 &&
      F32.lt (F32.literal 0) w.2)).foldl (fun table w => table.insert w.1 w.2)
        (∅ : Map UInt8 F)).lookup path = some v := by
    simp only [adopt_weights] at h
    -- dividing by the total changes the weights and not the paths
    split at h
    · rw [AList.lookup_mapValues, Option.map_eq_some_iff] at h
      obtain ⟨v, hv, -⟩ := h
      exact ⟨v, hv⟩
    · exact ⟨w, h⟩
  obtain ⟨v, hv⟩ := hadopted
  rcases AList.of_lookup_foldl_insert hv with hempty | ⟨entry, hentry, hkey, hvalue⟩
  · contradiction
  · obtain ⟨hmem, husable⟩ := List.mem_filter.mp hentry
    rw [Bool.and_eq_true, hvalue] at husable
    refine ⟨v, ?_, husable.2⟩
    rw [← hkey, ← hvalue]
    exact hmem

/-- Of the candidates met so far one is kept that was there, or has a weight. -/
theorem of_foldl_prefer {current : Option PathId} {best : Option (UInt8 × F)}
    (h : ws.foldl (prefer current) best = some b) :
    best = some b ∨ b ∈ ws ∧ F32.le b.2 (F32.literal 0) = false := by
  -- on what is still to be met, for whatever is kept by then
  induction ws generalizing best with
  | nil => exact .inl h
  | cons w ws ih =>
    rcases ih h with hkept | ⟨hmem, hweight⟩
    · by_cases hnone : F32.le w.2 (F32.literal 0) = true
      · simp only [prefer, hnone, ↓reduceIte] at hkept
        exact .inl hkept
      · have hown : w = b → b ∈ w :: ws ∧ F32.le b.2 (F32.literal 0) = false := by
          rintro rfl
          exact ⟨List.mem_cons_self, Bool.eq_false_iff.mpr hnone⟩
        simp only [prefer, hnone, Bool.false_eq_true, ↓reduceIte] at hkept
        split at hkept
        · exact .inr (hown (Option.some.inj hkept))
        · split at hkept
          · exact .inr (hown (Option.some.inj hkept))
          · split at hkept
            · exact .inr (hown (Option.some.inj hkept))
            · exact .inl hkept
    · exact .inr ⟨List.mem_cons_of_mem w hmem, hweight⟩

/-- A preferred path has a weight that is not at most zero. -/
theorem of_preferred_path {current : Option PathId} {path : PathId}
    (h : s.preferred_path current = some path) :
    ∃ w, s.weights.lookup path.get = some w ∧ F32.le w (F32.literal 0) = false := by
  obtain ⟨b, hb, rfl⟩ := Option.map_eq_some_iff.mp h
  rcases of_foldl_prefer hb with hnone | ⟨hmem, hweight⟩
  · contradiction
  · exact ⟨b.2, AList.mem_entries_iff.mp (mem_by_path.mp hmem), hweight⟩

/-! ### Weight means health -/

section Lawful

variable [LawfulF32 F] {orders : Orders F} {metrics : Map PathId (PathMetrics F)}

/-- A path with a weight after `update_from` is eligible, or was not measured. -/
theorem eligible_of_weight {paths : List PathId} {path : PathId} {w : F}
    (hlookup : (s.update_from orders paths metrics).weights.lookup path.get = some w)
    (hweight : F32.le w (F32.literal 0) = false) :
    path ∈ paths ∧ ∀ m, metrics.lookup path = some m → m.is_eligible = true := by
  obtain ⟨hpath, total, hpositive, hshare⟩ := of_lookup_update_from hlookup
  refine ⟨hpath, ?_⟩
  intro m hm
  by_contra hdead
  -- the share of an ineligible path is 0 over the total
  have hraw : raw_weight (snapshot metrics path) = F32.literal 0 := by
    simp [raw_weight, snapshot, hm, hdead]
  rw [hshare, hraw, LawfulF32.zero_div_le hpositive] at hweight
  contradiction

end Lawful

end WeightedBondingScheduler

end StreamGuard.V1
