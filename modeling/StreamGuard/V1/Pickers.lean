/-
The two pickers of a path: `choose_path` for failover (`streamguard-service/src/client.rs`) and
`preferred_path` for every packet (`sg-multipath/src/lib.rs`), in exact arithmetic.

Both scan the paths by ascending number and keep the best so far, so each returns the one path
that is preferred to all others, and what can tell them apart is how they rank. They rank measured
paths alike. But a path without a measurement is the worst eligible one for `choose_path`, and one
of score 0.6 for `preferred_path`; and where nothing is eligible `choose_path` still returns a
path. `pickers_agree_iff` is exact about when neither matters.
-/
import StreamGuard.Lib.Scan
import StreamGuard.V1.Bonding
import StreamGuard.V1.Client

set_option autoImplicit false

namespace StreamGuard.V1

open StreamGuard StreamGuard.Lib Shared WeightedBondingScheduler

@[simp] theorem rat_le {a b : ℚ} : F32.le a b = decide (a ≤ b) := rfl

@[simp] theorem rat_eq {a b : ℚ} : F32.eq a b = decide (a = b) := rfl

/-! ## How a path stands -/

namespace PathMetrics

theorem headroom_nonneg (x : ℚ) : 0 ≤ headroom x := by
  show 0 ≤ (1 : ℚ) - if x ≤ 1 then x else 1
  split
  · linarith
  · norm_num

/-- An eligible path loses less than one packet in five, which alone scores. -/
theorem score_pos {m : PathMetrics ℚ} (h : m.is_eligible = true) : 0 < m.score := by
  rw [is_eligible, Bool.and_eq_true] at h
  have hloss : m.loss < 0.20 := of_decide_eq_true h.2
  have hbw : (0 : ℚ) ≤
      F32.min (F32.of_u32 m.available_kbps / F32.literal 50000) (F32.literal 1) := by
    show (0 : ℚ) ≤ if (m.available_kbps.val : ℚ) / 50000 ≤ 1 then _ else 1
    split
    · exact div_nonneg (Nat.cast_nonneg _) (by norm_num)
    · norm_num
  have hroom : 0 < headroom (m.loss * F32.literal 4) := by
    show (0 : ℚ) < 1 - if m.loss * 4 ≤ 1 then m.loss * 4 else 1
    rw [if_pos (by linarith)]
    linarith
  have hlatency := headroom_nonneg (F32.of_u32 m.srtt_ms / F32.literal 200)
  have hjitter := headroom_nonneg (F32.of_u32 m.jitter_ms / F32.literal 50)
  simp only [score, h.1, Bool.true_eq_false, ↓reduceIte,
    rat_literal] at hbw hroom hlatency hjitter ⊢
  linarith

/-- What counts for a path without measurements. -/
theorem score_unmeasured : ({ default with reachable := true } : PathMetrics ℚ).score = 3 / 5 := by
  show (0.40 : ℚ) * (if (0 : ℚ) / 50000 ≤ 1 then 0 / 50000 else 1) +
    0.30 * (1 - if (0 : ℚ) * 4 ≤ 1 then 0 * 4 else 1) +
    0.20 * (1 - if (0 : ℚ) / 200 ≤ 1 then 0 / 200 else 1) +
    0.10 * (1 - if (0 : ℚ) / 50 ≤ 1 then 0 / 50 else 1) = 3 / 5
  norm_num

end PathMetrics

section Standing

variable (metrics : Map PathId (PathMetrics ℚ)) (path : UInt8)

/-- The raw weight of a path in `recompute`. -/
def merit (metrics : Map PathId (PathMetrics ℚ)) (path : UInt8) : ℚ :=
  raw_weight (snapshot metrics ⟨path⟩)

/-- A path is measured as eligible, unmeasured, or measured as ineligible. -/
inductive Standing : Prop where
  | measured (m : PathMetrics ℚ) (lookup : metrics.lookup ⟨path⟩ = some m)
      (eligible : m.is_eligible = true) (sound : sound metrics path = true)
      (rank : Shared.rank metrics path = m.score) (merit : merit metrics path = m.score)
  | unmeasured (lookup : metrics.lookup ⟨path⟩ = none) (sound : sound metrics path = true)
      (rank : Shared.rank metrics path = 0) (merit : merit metrics path = 3 / 5)
  | ineligible (m : PathMetrics ℚ) (lookup : metrics.lookup ⟨path⟩ = some m)
      (ineligible : m.is_eligible = false) (unsound : sound metrics path = false)
      (rank : Shared.rank metrics path = -1) (merit : merit metrics path = 0)

theorem standing : Standing metrics path := by
  cases hlookup : metrics.lookup ⟨path⟩ with
  | none =>
    have hmerit : merit metrics path = 3 / 5 := by
      have heligible : ({ PathMetrics.default with reachable := true } :
          PathMetrics ℚ).is_eligible = true := by
        show decide ((0 : ℚ) < 0.20) = true
        norm_num
      rw [merit, snapshot, hlookup, Option.getD_none, raw_weight, if_pos heligible,
        PathMetrics.score_unmeasured]
    exact .unmeasured hlookup (by simp [sound, hlookup]) (by simp [Shared.rank, hlookup]) hmerit
  | some m =>
    by_cases heligible : m.is_eligible = true
    · exact .measured m hlookup heligible (by simp [sound, hlookup, heligible])
        (by simp [Shared.rank, hlookup, heligible])
        (by simp [merit, snapshot, hlookup, raw_weight, heligible])
    · rw [Bool.not_eq_true] at heligible
      exact .ineligible m hlookup heligible (by simp [sound, hlookup, heligible])
        (by simp [Shared.rank, hlookup, heligible])
        (by simp [merit, snapshot, hlookup, raw_weight, heligible])

variable {metrics path}

theorem merit_nonneg : 0 ≤ merit metrics path := by
  rcases standing metrics path with ⟨m, -, heligible, -, -, hmerit⟩ | ⟨-, -, -, hmerit⟩ |
    ⟨m, -, -, -, -, hmerit⟩
  · rw [hmerit]
    exact (PathMetrics.score_pos heligible).le
  · rw [hmerit]
    norm_num
  · rw [hmerit]

theorem merit_pos_iff : 0 < merit metrics path ↔ sound metrics path = true := by
  rcases standing metrics path with ⟨m, -, heligible, hsound, -, hmerit⟩ | ⟨-, hsound, -, hmerit⟩ |
    ⟨m, -, -, hunsound, -, hmerit⟩
  · exact iff_of_true (hmerit ▸ PathMetrics.score_pos heligible) hsound
  · refine iff_of_true ?_ hsound
    rw [hmerit]
    norm_num
  · refine iff_of_false ?_ (by simp [hunsound])
    rw [hmerit]
    exact lt_irrefl 0

end Standing

/-! ## What each picker returns -/

section Pickers

variable {s : WeightedBondingScheduler ℚ} {orders : Orders ℚ} {paths : List PathId}
  {metrics : Map PathId (PathMetrics ℚ)} {current : Option PathId} {path : PathId}

theorem map_get_eq_some {k : UInt8} : current.map (·.get) = some k ↔ current = some ⟨k⟩ := by
  rw [Option.map_eq_some_iff]
  constructor
  · rintro ⟨p, rfl, rfl⟩
    rfl
  · rintro rfl
    exact ⟨⟨k⟩, rfl, rfl⟩

/-- A path is preferred to another by what they score. -/
def PreferredBy (score : UInt8 → ℚ) (current : Option PathId) (p q : PathId) : Prop :=
  Preferred (current.map (·.get)) (p.get, score p.get) (q.get, score q.get)

theorem choose_eq_keep (best : Option (UInt8 × ℚ)) (k : UInt8) :
    choose metrics current best k = keep (current.map (·.get)) best (k, Shared.rank metrics k) := by
  cases best with
  | none => rfl
  | some b =>
    simp only [choose, keep, rat_lt, rat_eq, decide_eq_true_eq, map_get_eq_some, ne_eq]

/-- The paths by ascending number, each with its rank. -/
def ranked (metrics : Map PathId (PathMetrics ℚ)) (paths : List PathId) : List (UInt8 × ℚ) :=
  ((paths.map (·.get)).insertionSort (· ≤ ·)).map (fun k => (k, Shared.rank metrics k))

theorem sorted_ranked (metrics : Map PathId (PathMetrics ℚ)) (paths : List PathId) :
    (ranked metrics paths).Pairwise (fun a c => a.1 ≤ c.1) :=
  List.pairwise_map.mpr (List.pairwise_insertionSort _ _)

theorem choose_path_eq_scan : choose_path metrics paths current =
    (scan (current.map (·.get)) (ranked metrics paths)).map (fun b => ⟨b.1⟩) := by
  rw [choose_path, scan, ranked, List.foldl_map]
  congr 2
  funext best k
  exact choose_eq_keep best k

/-- `choose_path` returns the path that is preferred to all by rank. -/
theorem choose_path_eq_some : choose_path metrics paths current = some path ↔
    path ∈ paths ∧ ∀ q ∈ paths, PreferredBy (Shared.rank metrics) current path q := by
  have hmem : ∀ q : PathId,
      q ∈ paths ↔ (q.get, Shared.rank metrics q.get) ∈ ranked metrics paths := by
    intro q
    simp only [ranked, List.mem_map, List.mem_insertionSort, Prod.mk.injEq]
    constructor
    · intro hq
      exact ⟨q.get, ⟨q, hq, rfl⟩, rfl, rfl⟩
    · rintro ⟨k, ⟨p, hp, rfl⟩, hsame, -⟩
      have hpq : p = q := congrArg PathId.mk hsame
      exact hpq ▸ hp
  rw [choose_path_eq_scan, Option.map_eq_some_iff]
  constructor
  · rintro ⟨b, hb, rfl⟩
    obtain ⟨hin, hbest⟩ := (scan_eq_some_iff (sorted_ranked metrics paths)).mp hb
    have hrank : b = (b.1, Shared.rank metrics b.1) := by
      obtain ⟨k, -, rfl⟩ := List.mem_map.mp hin
      rfl
    rw [hrank] at hin hbest
    exact ⟨(hmem ⟨b.1⟩).mpr hin, fun q hq => hbest _ ((hmem q).mp hq)⟩
  · rintro ⟨hpath, hbest⟩
    refine ⟨(path.get, Shared.rank metrics path.get), ?_, rfl⟩
    refine (scan_eq_some_iff (sorted_ranked metrics paths)).mpr ⟨(hmem path).mp hpath, ?_⟩
    rw [ranked, List.forall_mem_map]
    intro k hk
    obtain ⟨q, hq, rfl⟩ := List.mem_map.mp (List.mem_insertionSort _ |>.mp hk)
    exact hbest q hq

theorem choose_path_eq_none : choose_path metrics paths current = none ↔ paths = [] := by
  rw [choose_path_eq_scan, Option.map_eq_none_iff, scan_eq_none_iff (sorted_ranked metrics paths),
    ← List.length_eq_zero_iff, ranked, List.length_map, List.length_insertionSort, List.length_map,
    List.length_eq_zero_iff]

/-! ### The weights of `update_from` -/

section Visit

variable {V : Type} {m : Map UInt8 V} {g : UInt8 → V}

/-- A traversal of a table for some paths comes by the keys of these paths. -/
theorem mem_visit_keys (t : Traversal UInt8 V)
    (h : ∀ k, m.lookup k = if (⟨k⟩ : PathId) ∈ paths then some (g k) else none) (k : UInt8) :
    k ∈ (t.visit m.entries).map (fun e => e.1) ↔ (⟨k⟩ : PathId) ∈ paths := by
  have hkeys : k ∈ m.entries.map (fun e => e.1) ↔ k ∈ m := AList.mem_keys
  rw [((t.perm _).map _).mem_iff, hkeys, AList.mem_iff_lookup, h]
  by_cases hk : (⟨k⟩ : PathId) ∈ paths
  · simp [hk]
  · simp [hk]

theorem value_of_visit {t : Traversal UInt8 V}
    (h : ∀ k, m.lookup k = if (⟨k⟩ : PathId) ∈ paths then some (g k) else none)
    {e : Σ _ : UInt8, V} (he : e ∈ t.visit m.entries) : e.2 = g e.1 := by
  rw [Traversal.mem_visit] at he
  have he' := (AList.mem_entries_iff.mp he).symm.trans (h e.1)
  split at he'
  · exact Option.some.inj he'
  · contradiction

end Visit

/-- The weights are the merits, divided by one positive number; or no path has any. -/
theorem lookup_update_from (s : WeightedBondingScheduler ℚ) (orders : Orders ℚ)
    (paths : List PathId) (metrics : Map PathId (PathMetrics ℚ)) :
    (∃ total : ℚ, 0 < total ∧ ∀ k, (s.update_from orders paths metrics).weights.lookup k =
      if (⟨k⟩ : PathId) ∈ paths then some (merit metrics k / total) else none) ∨
    (s.update_from orders paths metrics).weights = ∅ ∧ ∀ p ∈ paths, merit metrics p.get = 0 := by
  have hget : ∀ k : UInt8, k ∈ paths.map (·.get) ↔ (⟨k⟩ : PathId) ∈ paths := by
    intro k
    rw [List.mem_map]
    constructor
    · rintro ⟨p, hp, rfl⟩
      exact hp
    · intro hk
      exact ⟨⟨k⟩, hk, rfl⟩
  -- the three tables one after the other, each by the value it has for a key
  generalize htable : fill (fun p : PathId => p.get) (snapshot metrics) paths ∅ = table
  have hlookup : ∀ k, table.lookup k =
      if (⟨k⟩ : PathId) ∈ paths then some (snapshot metrics ⟨k⟩) else none := by
    intro k
    rw [← htable, lookup_fill_key (g := fun k => snapshot metrics ⟨k⟩) (fun a _ => rfl)]
    simp only [hget]
    rfl
  generalize hentries : orders.metrics.visit table.entries = entries
  have hentry : ∀ e ∈ entries, raw_weight e.2 = merit metrics e.1 := by
    intro e he
    rw [← hentries] at he
    rw [value_of_visit hlookup he]
    rfl
  have hkeys : ∀ k, k ∈ entries.map (fun e => e.1) ↔ (⟨k⟩ : PathId) ∈ paths := by
    rw [← hentries]
    exact mem_visit_keys orders.metrics hlookup
  generalize hraw : fill (fun e => e.1) (fun e => raw_weight e.2) entries ∅ = raw
  have hrawlookup : ∀ k, raw.lookup k =
      if (⟨k⟩ : PathId) ∈ paths then some (merit metrics k) else none := by
    intro k
    rw [← hraw, lookup_fill_key hentry]
    simp only [hkeys]
    rfl
  have hupdate :
      s.update_from orders paths metrics = recompute { s with metrics := table } orders := by
    rw [← htable]
    rfl
  rw [hupdate, recompute, raw_weights_eq, hentries, hraw]
  dsimp only
  split
  · next hpositive =>
    left
    refine ⟨_, of_decide_eq_true hpositive, ?_⟩
    intro k
    rw [normalize_eq, lookup_fill_key (g := fun k => merit metrics k / _) ?_]
    · simp only [mem_visit_keys orders.raw hrawlookup]
      rfl
    · intro e he
      rw [value_of_visit hrawlookup he]
  · next hnone =>
    right
    refine ⟨rfl, ?_⟩
    intro p hp
    -- a sum of merits is positive unless each is zero
    have hsum : (entries.map (fun e => raw_weight e.2)).sum ≤ 0 := by
      simpa using hnone
    obtain ⟨e, he, hsame⟩ := List.mem_map.mp ((hkeys p.get).mpr hp)
    have hle : merit metrics p.get ≤ (entries.map (fun e => raw_weight e.2)).sum := by
      rw [← hsame, ← hentry e he]
      refine List.single_le_sum ?_ _ (List.mem_map_of_mem he)
      intro x hx
      obtain ⟨v, hv, rfl⟩ := List.mem_map.mp hx
      rw [hentry v hv]
      exact merit_nonneg
    exact le_antisymm (hle.trans hsum) merit_nonneg

theorem foldl_prefer_eq_scan (l : List (UInt8 × ℚ)) (best : Option (UInt8 × ℚ)) :
    l.foldl (prefer current) best =
      (l.filter (fun w => decide (0 < w.2))).foldl (keep (current.map (·.get))) best := by
  induction l generalizing best with
  | nil => rfl
  | cons w l ih =>
    rw [List.foldl_cons, ih]
    by_cases hpositive : 0 < w.2
    · have hstep : prefer current best w = keep (current.map (·.get)) best w := by
        simp only [prefer, rat_le, rat_literal, not_le.mpr hpositive, decide_false,
          Bool.false_eq_true, ↓reduceIte]
        cases best with
        | none => rfl
        | some b => simp only [keep, rat_lt, rat_eq, decide_eq_true_eq, map_get_eq_some, ne_eq]
      rw [hstep, List.filter_cons_of_pos (by simpa using hpositive), List.foldl_cons]
    · have hstep : prefer current best w = best := by
        simp [prefer, not_lt.mp hpositive]
      rw [hstep, List.filter_cons_of_neg (by simpa using hpositive)]

/-- `preferred_path` scans the positive weights. -/
theorem preferred_path_eq_scan (s : WeightedBondingScheduler ℚ) (current : Option PathId) :
    s.preferred_path current =
      (scan (current.map (·.get)) s.normalized_weights).map (fun w => ⟨w.1⟩) := by
  rw [preferred_path, foldl_prefer_eq_scan]
  rfl

theorem sorted_normalized_weights (s : WeightedBondingScheduler ℚ) :
    s.normalized_weights.Pairwise (fun a c => a.1 ≤ c.1) := by
  have htotal : Std.Total (fun a c : UInt8 × ℚ => a.1 ≤ c.1) :=
    ⟨fun a c => Std.le_total⟩
  have htrans : IsTrans (UInt8 × ℚ) (fun a c => a.1 ≤ c.1) :=
    ⟨fun a b c hab hbc => Std.le_trans hab hbc⟩
  exact (List.pairwise_insertionSort _ _).filter _

theorem preferred_div {incumbent : Option UInt8} {p q : UInt8} {x y total : ℚ}
    (htotal : 0 < total) : Preferred incumbent (p, x / total) (q, y / total) ↔
      Preferred incumbent (p, x) (q, y) := by
  simp only [Preferred, div_lt_div_iff_of_pos_right htotal, div_left_inj' htotal.ne']

/-- What is scanned are the sound paths, each with its share. -/
theorem mem_normalized_update {total : ℚ} (htotal : 0 < total)
    (hlookup : ∀ k, (s.update_from orders paths metrics).weights.lookup k =
      if (⟨k⟩ : PathId) ∈ paths then some (merit metrics k / total) else none) (w : UInt8 × ℚ) :
    w ∈ (s.update_from orders paths metrics).normalized_weights ↔
      (⟨w.1⟩ : PathId) ∈ paths ∧ sound metrics w.1 = true ∧ w.2 = merit metrics w.1 / total := by
  rw [mem_normalized_weights, hlookup, ← merit_pos_iff]
  by_cases hpath : (⟨w.1⟩ : PathId) ∈ paths
  · simp only [hpath, ↓reduceIte, Option.some.injEq, true_and, rat_lt, rat_literal,
      decide_eq_true_eq]
    constructor
    · rintro ⟨hw, hpositive⟩
      rw [← hw] at hpositive
      exact ⟨(div_pos_iff_of_pos_right htotal).mp hpositive, hw.symm⟩
    · rintro ⟨hpositive, hw⟩
      rw [hw]
      exact ⟨rfl, div_pos hpositive htotal⟩
  · simp [hpath]

theorem normalized_weights_of_empty (hnone : s.weights = ∅) : s.normalized_weights = [] := by
  rw [normalized_weights, hnone]
  rfl

/-- `preferred_path` after `update_from` returns the path that is preferred to all sound ones by
merit. -/
theorem preferred_path_eq_some :
    (s.update_from orders paths metrics).preferred_path current = some path ↔
      path ∈ paths ∧ sound metrics path.get = true ∧
        ∀ q ∈ paths, sound metrics q.get = true → PreferredBy (merit metrics) current path q := by
  rw [preferred_path_eq_scan, Option.map_eq_some_iff]
  rcases lookup_update_from s orders paths metrics with ⟨total, htotal, hlookup⟩ | ⟨hnone, hzero⟩
  · have hmem := mem_normalized_update htotal hlookup
    constructor
    · rintro ⟨b, hb, rfl⟩
      obtain ⟨hin, hbest⟩ := (scan_eq_some_iff (sorted_normalized_weights _)).mp hb
      obtain ⟨hpath, hsound, hweight⟩ := (hmem b).mp hin
      refine ⟨hpath, hsound, ?_⟩
      intro q hq hsound'
      have hq' := hbest (q.get, merit metrics q.get / total) ((hmem _).mpr ⟨hq, hsound', rfl⟩)
      rw [← Prod.mk.eta (p := b), hweight, preferred_div htotal] at hq'
      exact hq'
    · rintro ⟨hpath, hsound, hbest⟩
      refine ⟨(path.get, merit metrics path.get / total), ?_, rfl⟩
      refine (scan_eq_some_iff (sorted_normalized_weights _)).mpr ⟨?_, ?_⟩
      · exact (hmem _).mpr ⟨hpath, hsound, rfl⟩
      · intro a ha
        obtain ⟨hin, hsound', hweight⟩ := (hmem a).mp ha
        rw [← Prod.mk.eta (p := a), hweight, preferred_div htotal]
        exact hbest ⟨a.1⟩ hin hsound'
  · rw [normalized_weights_of_empty hnone]
    refine iff_of_false ?_ ?_
    · rintro ⟨b, hb, -⟩
      contradiction
    · rintro ⟨hpath, hsound, -⟩
      rw [← merit_pos_iff, hzero path hpath] at hsound
      exact lt_irrefl 0 hsound

/-- It returns none exactly if no path is sound. -/
theorem preferred_path_eq_none :
    (s.update_from orders paths metrics).preferred_path current = none ↔
      ∀ p ∈ paths, sound metrics p.get = false := by
  rw [preferred_path_eq_scan, Option.map_eq_none_iff,
    scan_eq_none_iff (sorted_normalized_weights _)]
  rcases lookup_update_from s orders paths metrics with ⟨total, htotal, hlookup⟩ | ⟨hnone, hzero⟩
  · have hmem := mem_normalized_update htotal hlookup
    rw [List.eq_nil_iff_forall_not_mem]
    constructor
    · intro hnil p hp
      by_contra hsound
      rw [Bool.not_eq_false] at hsound
      exact hnil _ ((hmem (p.get, merit metrics p.get / total)).mpr ⟨hp, hsound, rfl⟩)
    · intro hunsound w hw
      obtain ⟨hpath, hsound, -⟩ := (hmem w).mp hw
      rw [hunsound ⟨w.1⟩ hpath] at hsound
      contradiction
  · refine iff_of_true (normalized_weights_of_empty hnone) ?_
    intro p hp
    rw [← Bool.not_eq_true, ← merit_pos_iff, hzero p hp]
    exact lt_irrefl 0

/-! ## When they agree -/

/-- The pickers return the same path, none if no path is eligible, and no ineligible one. -/
structure Agree (s : WeightedBondingScheduler ℚ) (orders : Orders ℚ) (paths : List PathId)
    (metrics : Map PathId (PathMetrics ℚ)) (current : Option PathId) : Prop where
  same : choose_path metrics paths current =
    (s.update_from orders paths metrics).preferred_path current
  none_eligible : (∀ p ∈ paths, sound metrics p.get = false) →
    choose_path metrics paths current = none ∧
      (s.update_from orders paths metrics).preferred_path current = none
  chosen : ∀ p, choose_path metrics paths current = some p → sound metrics p.get = true
  preferred : ∀ p, (s.update_from orders paths metrics).preferred_path current = some p →
    sound metrics p.get = true

/-- Some path is eligible, if there are paths; and if one is measured as eligible then one of those
is preferred to every path without a measurement, which scores 0.6. -/
structure Comparable (paths : List PathId) (metrics : Map PathId (PathMetrics ℚ))
    (current : Option PathId) : Prop where
  eligible : paths = [] ∨ ∃ p ∈ paths, sound metrics p.get = true
  measured : (∀ p ∈ paths, ∀ m, metrics.lookup p = some m → m.is_eligible = false) ∨
    ∃ p ∈ paths, ∃ m, metrics.lookup p = some m ∧ m.is_eligible = true ∧
      ∀ u ∈ paths, metrics.lookup u = none →
        Preferred (current.map (·.get)) (p.get, m.score) (u.get, 3 / 5)

/-- A path without a measurement is taken only where nothing is measured as eligible. -/
theorem measured_of_agree (h : choose_path metrics paths current = some path)
    {p : PathId} {m : PathMetrics ℚ} (hp : p ∈ paths) (hlookup : metrics.lookup p = some m)
    (heligible : m.is_eligible = true) :
    ∃ m', metrics.lookup path = some m' ∧ m'.is_eligible = true := by
  obtain ⟨-, hbest⟩ := choose_path_eq_some.mp h
  have hrank : Shared.rank metrics p.get ≤ Shared.rank metrics path.get := by
    rcases hbest p hp with hless | ⟨hequal, -⟩
    · exact le_of_lt hless
    · exact hequal.symm.le
  have hpositive : 0 < Shared.rank metrics p.get := by
    rw [Shared.rank, hlookup]
    simpa [heligible] using PathMetrics.score_pos heligible
  rcases standing metrics path.get with ⟨m', hlookup', heligible', -, -, -⟩ | ⟨-, -, hrank', -⟩ |
    ⟨-, -, -, -, hrank', -⟩
  · exact ⟨m', hlookup', heligible'⟩
  · rw [hrank'] at hrank
    linarith
  · rw [hrank'] at hrank
    linarith

/-- The path that is preferred by merit is preferred by rank. -/
theorem preferred_by_rank (h : Comparable paths metrics current) (hpath : path ∈ paths)
    (hsound : sound metrics path.get = true)
    (hbest : ∀ q ∈ paths, sound metrics q.get = true → PreferredBy (merit metrics) current path q)
    {q : PathId} (hq : q ∈ paths) : PreferredBy (Shared.rank metrics) current path q := by
  rcases standing metrics path.get with ⟨m, -, heligible, -, hrank, hmerit⟩ |
    ⟨hunmeasured, -, hrank, hmerit⟩ | ⟨-, -, -, hunsound, -, -⟩
  · have hpositive := PathMetrics.score_pos heligible
    rcases standing metrics q.get with ⟨m', -, -, hsound', hrank', hmerit'⟩ | ⟨-, -, hrank', -⟩ |
      ⟨-, -, -, -, hrank', -⟩
    · have hpreferred := hbest q hq hsound'
      rwa [PreferredBy, hmerit, hmerit', ← hrank, ← hrank'] at hpreferred
    · left
      rwa [hrank, hrank']
    · left
      rw [hrank, hrank']
      linarith
  · -- no path is measured as eligible, or one of them would be preferred to this one
    have hnone : ∀ p ∈ paths, ∀ m, metrics.lookup p = some m → m.is_eligible = false := by
      refine h.measured.resolve_right ?_
      rintro ⟨e, he, m, hlookup, heligible, hover⟩
      have hmerit' : merit metrics e.get = m.score := by
        simp [merit, snapshot, hlookup, raw_weight, heligible]
      have hback := hbest e he (by simp [sound, hlookup, heligible])
      rw [PreferredBy, hmerit, hmerit'] at hback
      have hsame := congrArg Prod.fst ((hover path hpath hunmeasured).antisymm hback)
      have hpaths : e = path := congrArg PathId.mk hsame
      rw [hpaths] at hlookup
      rw [hunmeasured] at hlookup
      contradiction
    rcases standing metrics q.get with ⟨m', hlookup', heligible', -, -, -⟩ |
      ⟨-, hsound', hrank', hmerit'⟩ | ⟨-, -, -, -, hrank', -⟩
    · rw [hnone q hq m' hlookup'] at heligible'
      contradiction
    · have hpreferred := hbest q hq hsound'
      rw [PreferredBy, hmerit, hmerit'] at hpreferred
      rw [PreferredBy, hrank, hrank']
      right
      exact ⟨rfl, (hpreferred.resolve_left (lt_irrefl _)).2⟩
    · left
      rw [hrank, hrank']
      norm_num
  · rw [hunsound] at hsound
    contradiction

/-- **The pickers agree** exactly if the paths are comparable. -/
theorem pickers_agree_iff (s : WeightedBondingScheduler ℚ) (orders : Orders ℚ)
    (paths : List PathId) (metrics : Map PathId (PathMetrics ℚ)) (current : Option PathId) :
    Agree s orders paths metrics current ↔ Comparable paths metrics current := by
  constructor
  · intro h
    refine ⟨?_, ?_⟩
    · by_contra hneither
      rw [not_or] at hneither
      refine hneither.1 (choose_path_eq_none.mp (h.none_eligible ?_).1)
      intro p hp
      rw [← Bool.not_eq_true]
      exact fun hsound => hneither.2 ⟨p, hp, hsound⟩
    · by_cases hmeasured : ∃ p ∈ paths, ∃ m, metrics.lookup p = some m ∧ m.is_eligible = true
      · obtain ⟨p, hp, m, hlookup, heligible⟩ := hmeasured
        -- what both choose is measured, and `preferred_path` prefers it to the unmeasured ones
        obtain ⟨c, hc⟩ := Option.ne_none_iff_exists'.mp
          (mt choose_path_eq_none.mp (List.ne_nil_of_mem hp))
        obtain ⟨m', hlookup', heligible'⟩ := measured_of_agree hc hp hlookup heligible
        obtain ⟨hcpaths, -, hbest⟩ := preferred_path_eq_some.mp (h.same.symm.trans hc)
        refine .inr ⟨c, hcpaths, m', hlookup', heligible', ?_⟩
        intro u hu hunmeasured
        have hcu := hbest u hu (by simp [sound, hunmeasured])
        rcases standing metrics u.get with ⟨_, hsome, -, -, -, -⟩ | ⟨-, -, -, hmerit⟩ |
          ⟨_, hsome, -, -, -, -⟩
        · rw [hunmeasured] at hsome
          contradiction
        · have hmerit' : merit metrics c.get = m'.score := by
            simp [merit, snapshot, hlookup', raw_weight, heligible']
          rwa [PreferredBy, hmerit, hmerit'] at hcu
        · rw [hunmeasured] at hsome
          contradiction
      · left
        intro p hp m hlookup
        rw [← Bool.not_eq_true]
        exact fun heligible => hmeasured ⟨p, hp, m, hlookup, heligible⟩
  · intro h
    have hpreferred : ∀ p, (s.update_from orders paths metrics).preferred_path current = some p →
        sound metrics p.get = true := fun p hp => (preferred_path_eq_some.mp hp).2.1
    have hsame : choose_path metrics paths current =
        (s.update_from orders paths metrics).preferred_path current := by
      rcases h.eligible with rfl | ⟨e, he, hsound⟩
      · exact (choose_path_eq_none.mpr rfl).trans (preferred_path_eq_none.mpr (by simp)).symm
      · cases hp : (s.update_from orders paths metrics).preferred_path current with
        | none =>
          rw [preferred_path_eq_none.mp hp e he] at hsound
          contradiction
        | some p =>
          obtain ⟨hppaths, hpsound, hbest⟩ := preferred_path_eq_some.mp hp
          refine choose_path_eq_some.mpr ⟨hppaths, ?_⟩
          exact fun q hq => preferred_by_rank h hppaths hpsound hbest hq
    refine ⟨hsame, ?_, ?_, hpreferred⟩
    · intro hnone
      have hnone' : (s.update_from orders paths metrics).preferred_path current = none :=
        preferred_path_eq_none.mpr hnone
      exact ⟨hsame.trans hnone', hnone'⟩
    · intro p hp
      exact hpreferred p (hsame.symm.trans hp)

/-- Path 1 is measured, as a slow one, and path 2 is not. -/
def slow_first : Map PathId (PathMetrics ℚ) :=
  (∅ : Map PathId (PathMetrics ℚ)).insert ⟨1⟩ ⟨true, 200, 50, 0, 0⟩

/-- Path 1 is measured as dead. -/
def dead_first : Map PathId (PathMetrics ℚ) :=
  (∅ : Map PathId (PathMetrics ℚ)).insert ⟨1⟩ ⟨false, 0, 0, 0, 0⟩

theorem standing_slow_first :
    Shared.rank slow_first 1 = 3 / 10 ∧ merit slow_first 1 = 3 / 10 ∧ Shared.rank slow_first 2 = 0 ∧
      merit slow_first 2 = 3 / 5 ∧ sound slow_first 2 = true := by
  have hslow : slow_first.lookup ⟨1⟩ = some ⟨true, 200, 50, 0, 0⟩ := AList.lookup_insert _
  have hscore : (⟨true, 200, 50, 0, 0⟩ : PathMetrics ℚ).score = 3 / 10 := by
    show (0.40 : ℚ) * (if ((0 : U32).val : ℚ) / 50000 ≤ 1 then ((0 : U32).val : ℚ) / 50000 else 1) +
      0.30 * (1 - if (0 : ℚ) * 4 ≤ 1 then 0 * 4 else 1) +
      0.20 * (1 - if ((200 : U32).val : ℚ) / 200 ≤ 1 then ((200 : U32).val : ℚ) / 200 else 1) +
      0.10 * (1 - if ((50 : U32).val : ℚ) / 50 ≤ 1 then ((50 : U32).val : ℚ) / 50 else 1) = 3 / 10
    norm_num
  rcases standing slow_first 1 with ⟨m, hlookup, -, -, hrank, hmerit⟩ | ⟨hnone, -, -, -⟩ |
    ⟨m, hlookup, hineligible, -, -, -⟩
  · rw [hslow, Option.some.injEq] at hlookup
    rw [← hlookup, hscore] at hrank hmerit
    rcases standing slow_first 2 with ⟨_, hsome, -, -, -, -⟩ | ⟨-, hsound, hrank', hmerit'⟩ |
      ⟨_, hsome, -, -, -, -⟩
    · rw [slow_first, AList.lookup_insert_ne (by decide)] at hsome
      contradiction
    · exact ⟨hrank, hmerit, hrank', hmerit', hsound⟩
    · rw [slow_first, AList.lookup_insert_ne (by decide)] at hsome
      contradiction
  · rw [hslow] at hnone
    contradiction
  · rw [hslow, Option.some.injEq] at hlookup
    have heligible : (⟨true, 200, 50, 0, 0⟩ : PathMetrics ℚ).is_eligible = true := by
      show decide ((0 : ℚ) < 0.20) = true
      norm_num
    rw [← hlookup, heligible] at hineligible
    contradiction

/-- Failover keeps the slow path 1 where the packets go to path 2; and it takes a dead path where
the packets find none. -/
theorem pickers_differ :
    choose_path slow_first [⟨1⟩, ⟨2⟩] (some ⟨1⟩) = some ⟨1⟩ ∧
      (new.update_from ⟨.stored, .stored⟩ [⟨1⟩, ⟨2⟩] slow_first).preferred_path (some ⟨1⟩) =
        some ⟨2⟩ ∧
      ¬ Agree new ⟨.stored, .stored⟩ [⟨1⟩, ⟨2⟩] slow_first (some ⟨1⟩) ∧
      choose_path dead_first [⟨1⟩] (some ⟨1⟩) = some ⟨1⟩ ∧ sound dead_first 1 = false ∧
      (new.update_from ⟨.stored, .stored⟩ [⟨1⟩] dead_first).preferred_path (some ⟨1⟩) = none := by
  obtain ⟨hrank, hmerit, hrank', hmerit', hsound⟩ := standing_slow_first
  have hchoose : choose_path slow_first [⟨1⟩, ⟨2⟩] (some ⟨1⟩) = some ⟨1⟩ := by
    refine choose_path_eq_some.mpr ⟨by simp, ?_⟩
    simp only [List.forall_mem_cons, PreferredBy, hrank, hrank']
    refine ⟨.refl _, .inl ?_, by simp⟩
    norm_num
  have hprefer : (new.update_from ⟨.stored, .stored⟩ [⟨1⟩, ⟨2⟩] slow_first).preferred_path
      (some ⟨1⟩) = some ⟨2⟩ := by
    refine preferred_path_eq_some.mpr ⟨by simp, hsound, ?_⟩
    simp only [List.forall_mem_cons, PreferredBy, hmerit, hmerit']
    refine ⟨fun _ => .inl ?_, fun _ => .refl _, by simp⟩
    norm_num
  have hdead : sound dead_first 1 = false := by
    rw [sound, dead_first, AList.lookup_insert]
    rfl
  refine ⟨hchoose, hprefer, ?_, ?_, hdead, ?_⟩
  · intro h
    have hsame := h.same
    rw [hchoose, hprefer] at hsame
    contradiction
  · refine choose_path_eq_some.mpr ⟨by simp, ?_⟩
    rw [List.forall_mem_singleton]
    exact .refl _
  · refine preferred_path_eq_none.mpr ?_
    rw [List.forall_mem_singleton]
    exact hdead

end Pickers

end StreamGuard.V1
