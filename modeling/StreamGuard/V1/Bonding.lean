/-
Weighted bonding in exact arithmetic: the rounds of `WeightedBondingScheduler::decide`, and the
shares that a gateway adopts (`sg-multipath/src/lib.rs`, `sg-session/src/lib.rs`).

Over the rationals a call of `decide` is one turn of a smooth weighted round robin, whose
candidates are the paths with a weight (`decide_turn`). All that is said of many rounds is said
of turns.

What a gateway adopts is a list from the wire. `adopt_weights` keeps one entry for a path but adds
up all of them, so the shares are a distribution exactly if no bound path comes twice
(`adopted_distribution_iff`).
-/
import StreamGuard.Lib.Fill
import StreamGuard.Lib.SmoothRobin
import StreamGuard.V1.ControlMsg
import StreamGuard.V1.Session

set_option autoImplicit false

namespace StreamGuard.V1

open StreamGuard StreamGuard.Lib

/-! ## Exact numbers -/

/-- Arithmetic in which nothing is rounded and everything is a number. -/
instance ratF32 : F32 ℚ where
  toAdd := inferInstance
  toSub := inferInstance
  toMul := inferInstance
  toDiv := inferInstance
  min a b := if a ≤ b then a else b
  abs a := |a|
  lt a b := decide (a < b)
  le a b := decide (a ≤ b)
  eq a b := decide (a = b)
  is_finite _ := true
  of_u32 x := (x.val : ℚ)
  to_bits q := Exact.to_bits (some q)
  of_bits bits := (Exact.of_bits bits).getD 0
  literal q := q

@[simp] theorem rat_lt {a b : ℚ} : F32.lt a b = decide (a < b) := rfl

@[simp] theorem rat_literal {q : ℚ} : (F32.literal q : ℚ) = q := rfl

namespace WeightedBondingScheduler

section Tables

variable {F : Type} [F32 F] {s : WeightedBondingScheduler F}

omit [F32 F] in
theorem nodup_by_path (m : Map UInt8 F) : ((by_path m.entries).map Prod.fst).Nodup := by
  have hperm : ((by_path m.entries).map Prod.fst).Perm m.keys := by
    refine ((List.perm_insertionSort _ _).map Prod.fst).trans ?_
    rw [List.map_map]
    exact List.Perm.refl _
  exact hperm.nodup_iff.mpr m.keys_nodup

/-- Every path has one weight. -/
theorem nodup_normalized_weights : (s.normalized_weights.map Prod.fst).Nodup :=
  (nodup_by_path s.weights).sublist (List.filter_sublist.map Prod.fst)

end Tables

/-! ## A round is a turn -/

/-- The accumulator of a path. -/
def account (current : Map UInt8 ℚ) (path : UInt8) : ℚ := (current.lookup path).getD 0

/-- The weight of a path. -/
def weight (s : WeightedBondingScheduler ℚ) (path : UInt8) : ℚ := (s.weights.lookup path).getD 0

/-- The paths that a round chooses from. -/
def candidates (s : WeightedBondingScheduler ℚ) : Finset UInt8 :=
  (s.normalized_weights.map Prod.fst).toFinset

section Round

variable {s : WeightedBondingScheduler ℚ} {ws : List (UInt8 × ℚ)}
  {c : Map UInt8 ℚ × Option (UInt8 × ℚ)} {b : UInt8 × ℚ} {path : UInt8} {w : ℚ}

theorem advance_fst : (advance c (path, w)).1 = c.1.insert path (account c.1 path + w) := rfl

theorem account_insert (m : Map UInt8 ℚ) (p : UInt8) (acc : ℚ) :
    account (m.insert path acc) p = if p = path then acc else account m p := by
  rw [account, AList.lookup_insert_of]
  split
  · rfl
  · rfl

/-- The paths that are not in the list keep their entry. -/
theorem lookup_foldl_advance_of_notMem (h : path ∉ ws.map Prod.fst) :
    (ws.foldl advance c).1.lookup path = c.1.lookup path := by
  induction ws generalizing c with
  | nil => rfl
  | cons w ws ih =>
    rw [List.map_cons, List.mem_cons, not_or] at h
    rw [List.foldl_cons, ih h.2, advance_fst, AList.lookup_insert_ne h.1]

/-- An account grows by the weight of its path. -/
theorem account_foldl_advance (hnodup : (ws.map Prod.fst).Nodup) (h : (path, w) ∈ ws) :
    account (ws.foldl advance c).1 path = account c.1 path + w := by
  induction ws generalizing c with
  | nil => simp at h
  | cons v ws ih =>
    rw [List.map_cons, List.nodup_cons] at hnodup
    rw [List.foldl_cons]
    rcases List.mem_cons.mp h with rfl | h
    · rw [account, lookup_foldl_advance_of_notMem hnodup.1, advance_fst, AList.lookup_insert]
      rfl
    · have hne : path ≠ v.1 := by
        intro hsame
        exact hnodup.1 (List.mem_map.mpr ⟨_, h, hsame⟩)
      rw [ih hnodup.2 h, advance_fst, account_insert, if_neg hne]

/-- What is kept of a round is a largest account. -/
theorem largest_foldl_advance (hnodup : (ws.map Prod.fst).Nodup)
    (h : (ws.foldl advance c).2 = some b) :
    (c.2 = some b ∨ ∃ w, (b.1, w) ∈ ws ∧ b.2 = account c.1 b.1 + w) ∧
      (∀ b₀, c.2 = some b₀ → b₀.2 ≤ b.2) ∧ ∀ v ∈ ws, account c.1 v.1 + v.2 ≤ b.2 := by
  induction ws generalizing c with
  | nil =>
    rw [List.foldl_nil] at h
    refine ⟨.inl h, ?_, by simp⟩
    intro b₀ hb₀
    rw [h, Option.some.injEq] at hb₀
    rw [hb₀]
  | cons v ws ih =>
    rw [List.map_cons, List.nodup_cons] at hnodup
    obtain ⟨hfrom, hkept, hlargest⟩ := ih hnodup.2 h
    -- the accounts of the later paths are the same before and after this candidate
    have hlater : ∀ u ∈ ws, account (advance c v).1 u.1 = account c.1 u.1 := by
      intro u hu
      have hne : u.1 ≠ v.1 := by
        intro hsame
        exact hnodup.1 (hsame ▸ List.mem_map_of_mem hu)
      rw [advance_fst, account_insert, if_neg hne]
    have hbest : ∃ b₁, (advance c v).2 = some b₁ ∧ account c.1 v.1 + v.2 ≤ b₁.2 ∧
        (∀ b₀, c.2 = some b₀ → b₀.2 ≤ b₁.2) ∧
        (c.2 = some b₁ ∨ b₁ = (v.1, account c.1 v.1 + v.2)) := by
      cases hc : c.2 with
      | none => exact ⟨(v.1, account c.1 v.1 + v.2), by simp [advance, hc, account], by simp⟩
      | some b₀ =>
        by_cases hlt : b₀.2 < account c.1 v.1 + v.2
        · refine ⟨(v.1, account c.1 v.1 + v.2), ?_, le_rfl, ?_, .inr rfl⟩
          · have hacc : b₀.2 < (c.1.lookup v.1).getD 0 + v.2 := hlt
            simp [advance, hc, hacc, account]
          · simpa using hlt.le
        · refine ⟨b₀, ?_, not_lt.mp hlt, by simp, .inl rfl⟩
          have hacc : ¬ b₀.2 < (c.1.lookup v.1).getD 0 + v.2 := hlt
          simp only [advance, hc, rat_lt, rat_literal, hacc, decide_false, Bool.false_eq_true,
            ↓reduceIte]
    obtain ⟨b₁, hb₁, hown, hbefore, horigin⟩ := hbest
    refine ⟨?_, ?_, ?_⟩
    · rcases hfrom with hfrom | ⟨w, hw, hb⟩
      · rw [hb₁, Option.some.injEq] at hfrom
        rcases horigin with horigin | rfl
        · exact .inl (horigin.trans (congrArg some hfrom))
        · rw [← hfrom]
          exact .inr ⟨v.2, List.mem_cons_self, rfl⟩
      · rw [hlater _ hw] at hb
        exact .inr ⟨w, List.mem_cons_of_mem v hw, hb⟩
    · intro b₀ hb₀
      exact (hbefore b₀ hb₀).trans (hkept b₁ hb₁)
    · intro u hu
      rcases List.mem_cons.mp hu with rfl | hu
      · exact hown.trans (hkept b₁ hb₁)
      · rw [← hlater u hu]
        exact hlargest u hu

theorem mem_candidates : path ∈ s.candidates ↔ ∃ w, s.weights.lookup path = some w ∧ 0 < w := by
  rw [candidates, List.mem_toFinset, List.mem_map]
  constructor
  · rintro ⟨v, hv, rfl⟩
    obtain ⟨hlookup, hpositive⟩ := mem_normalized_weights.mp hv
    exact ⟨v.2, hlookup, of_decide_eq_true hpositive⟩
  · rintro ⟨w, hlookup, hpositive⟩
    exact ⟨(path, w), mem_normalized_weights.mpr ⟨hlookup, decide_eq_true hpositive⟩, rfl⟩

theorem mem_normalized_of_candidate (h : path ∈ s.candidates) :
    (path, s.weight path) ∈ s.normalized_weights := by
  obtain ⟨w, hlookup, hpositive⟩ := mem_candidates.mp h
  refine mem_normalized_weights.mpr ⟨?_, decide_eq_true ?_⟩
  · rw [weight, hlookup]
    rfl
  · rw [weight, hlookup]
    exact hpositive

/-- **A round is a turn**: of the candidates one with a largest account is chosen, and it pays the
total weight. The other entries stay. -/
theorem decide_turn (hcandidates : s.candidates.Nonempty)
    (htotal : s.total_weight = ∑ p ∈ s.candidates, s.weight p) :
    ∃ path, s.decide.2 = .Send path ∧ s.decide.1.weights = s.weights ∧
      s.decide.1.total_weight = s.total_weight ∧
      Turn s.candidates s.weight path (account s.current) (account s.decide.1.current) ∧
      ∀ p ∉ s.candidates, s.decide.1.current.lookup p = s.current.lookup p := by
  have hne : s.normalized_weights ≠ [] := by
    obtain ⟨p, hp⟩ := hcandidates
    exact List.ne_nil_of_mem (mem_normalized_of_candidate hp)
  obtain ⟨b, hb⟩ := Option.isSome_iff_exists.mp
    (isSome_foldl_advance (c := (s.current, none)) (.inl hne))
  obtain ⟨hfrom, -, hlargest⟩ := largest_foldl_advance nodup_normalized_weights hb
  obtain ⟨w, hmem, hacc⟩ := hfrom.resolve_left (by simp)
  have hdecide : s.decide = ({ s with
      current := (s.normalized_weights.foldl advance (s.current, none)).1.insert b.1
        (b.2 - s.total_weight) }, .Send b.1) := by
    simp [decide, hne, hb]
  have hcandidate : b.1 ∈ s.candidates := by
    rw [candidates, List.mem_toFinset]
    exact List.mem_map.mpr ⟨_, hmem, rfl⟩
  have hweight : s.weight b.1 = w := by
    rw [weight, (mem_normalized_weights.mp hmem).1]
    rfl
  refine ⟨b.1, by rw [hdecide], by rw [hdecide], by rw [hdecide], ⟨hcandidate, ?_, ?_⟩, ?_⟩
  · intro p hp
    rw [hweight, ← hacc]
    exact hlargest _ (mem_normalized_of_candidate hp)
  · intro p hp
    rw [hdecide, account_insert]
    by_cases hp' : p = b.1
    · rw [if_pos hp', if_pos hp', hp', hacc, hweight, htotal]
    · rw [if_neg hp', if_neg hp', sub_zero]
      exact account_foldl_advance nodup_normalized_weights (mem_normalized_of_candidate hp)
  · intro p hp
    have hne : p ≠ b.1 := by
      rintro rfl
      exact hp hcandidate
    rw [hdecide, AList.lookup_insert_ne hne]
    refine lookup_foldl_advance_of_notMem ?_
    rwa [candidates, List.mem_toFinset] at hp

end Round

/-! ## Rounds -/

section Rounds

variable {F : Type} [F32 F]

/-- A number of calls of `decide`, with what they decide. -/
def decisions : ℕ → WeightedBondingScheduler F → WeightedBondingScheduler F × List Decision
  | 0, s => (s, [])
  | n + 1, s => ((decisions n s.decide.1).1, s.decide.2 :: (decisions n s.decide.1).2)

variable {s : WeightedBondingScheduler ℚ} {S : Finset UInt8}

/-- Accounts outside a set that are empty do not count. -/
theorem valueSum_eq_sum_account (m : Map UInt8 ℚ) (hempty : ∀ p ∉ S, account m p = 0) :
    valueSum m = ∑ p ∈ S, account m p := by
  have hkeys : valueSum m = ∑ p ∈ m.keys.toFinset, account m p := by
    have hvalues : m.entries.map (fun e => e.2) = m.keys.map (account m) := by
      rw [AList.keys, List.keys, List.map_map]
      refine List.map_congr_left fun e he => ?_
      have hlookup : m.lookup e.1 = some e.2 := AList.mem_entries_iff.mp he
      simp [account, hlookup]
    rw [valueSum, AList.sum, hvalues, List.sum_toFinset _ m.keys_nodup]
  have hmissing : ∀ p ∉ m.keys.toFinset, account m p = 0 := by
    intro p hp
    rw [List.mem_toFinset, ← AList.mem_keys, ← AList.lookup_eq_none] at hp
    rw [account, hp]
    rfl
  -- both sums are the one over the keys and the set
  have hleft : m.keys.toFinset ⊆ m.keys.toFinset ∪ S := Finset.subset_union_left
  have hright : S ⊆ m.keys.toFinset ∪ S := Finset.subset_union_right
  rw [hkeys, Finset.sum_subset hleft fun p _ hp => hmissing p hp,
    Finset.sum_subset hright fun p _ hp => hempty p hp]

theorem candidates_congr {s' : WeightedBondingScheduler ℚ} (h : s'.weights = s.weights) :
    s'.candidates = s.candidates ∧ s'.weight = s.weight := by
  refine ⟨?_, ?_⟩
  · rw [candidates, candidates, normalized_weights, normalized_weights, h]
  · funext p
    rw [weight, weight, h]

/-- **Rounds are turns.** -/
theorem decisions_turns (n : ℕ) (s : WeightedBondingScheduler ℚ)
    (hcandidates : s.candidates.Nonempty)
    (htotal : s.total_weight = ∑ p ∈ s.candidates, s.weight p) :
    ∃ served, (s.decisions n).2 = served.map .Send ∧ served.length = n ∧
      Turns s.candidates s.weight served (account s.current)
        (account (s.decisions n).1.current) ∧
      ∀ p ∉ s.candidates, (s.decisions n).1.current.lookup p = s.current.lookup p := by
  induction n generalizing s with
  | zero => exact ⟨[], rfl, rfl, .none _, fun _ _ => rfl⟩
  | succ n ih =>
    obtain ⟨path, hsend, hweights, htotal', hturn, hothers⟩ := decide_turn hcandidates htotal
    obtain ⟨hsame, hweight⟩ := candidates_congr hweights
    obtain ⟨served, hserved, hlength, hturns, hkept⟩ := ih s.decide.1 (by rwa [hsame])
      (by rw [htotal', hsame, hweight, htotal])
    rw [hsame, hweight] at hturns
    rw [hsame] at hkept
    refine ⟨path :: served, ?_, ?_, .turn hturn hturns, ?_⟩
    · rw [decisions, hsend, hserved, List.map_cons]
    · rw [List.length_cons, hlength]
    · intro p hp
      exact (hkept p hp).trans (hothers p hp)

/-! ### The total weight -/

/-- `Scheduler::update_metrics`. -/
def update_metrics (s : WeightedBondingScheduler F) (orders : Orders F) (metrics : PathMetrics F)
    (path : UInt8) : WeightedBondingScheduler F :=
  recompute { s with metrics := s.metrics.insert path metrics } orders

/-- The calls that change a scheduler. -/
inductive Call (F : Type) where
  | update_from (orders : Orders F) (paths : List PathId) (metrics : Map PathId (PathMetrics F))
  | update_metrics (orders : Orders F) (metrics : PathMetrics F) (path : UInt8)
  | adopt_weights (published : List (UInt8 × F))
  | decide

def Call.apply (s : WeightedBondingScheduler F) : Call F → WeightedBondingScheduler F
  | .update_from orders paths metrics => s.update_from orders paths metrics
  | .update_metrics orders metrics path => s.update_metrics orders metrics path
  | .adopt_weights published => s.adopt_weights published
  | .decide => s.decide.1

/-- A loop that fills a table and adds up what it writes. -/
theorem foldl_fill_sum {α : Type} {key : α → UInt8} {value : α → ℚ} (l : List α)
    (m : Map UInt8 ℚ) (x : ℚ) :
    l.foldl (fun t a => (t.1.insert (key a) (value a), t.2 + value a)) (m, x) =
      (fill key value l m, x + (l.map value).sum) := by
  induction l generalizing m x with
  | nil => simp
  | cons a l ih =>
    rw [List.foldl_cons, ih, fill_cons, List.map_cons, List.sum_cons, add_assoc]

theorem nodup_visit {V : Type} (t : Traversal UInt8 V) (m : Map UInt8 V) :
    ((t.visit m.entries).map (fun e => e.1)).Nodup :=
  ((t.perm m.entries).map _).nodup_iff.mpr m.keys_nodup

theorem raw_weights_eq (entries : List (Σ _ : UInt8, PathMetrics ℚ)) :
    raw_weights entries = (fill (fun e => e.1) (fun e => raw_weight e.2) entries ∅,
      (entries.map (fun e => raw_weight e.2)).sum) := by
  refine (foldl_fill_sum entries ∅ _).trans ?_
  rw [rat_literal, zero_add]

theorem normalize_eq (total : ℚ) (entries : List (Σ _ : UInt8, ℚ)) :
    normalize total entries = (fill (fun e => e.1) (fun e => e.2 / total) entries ∅,
      (entries.map (fun e => e.2 / total)).sum) := by
  refine (foldl_fill_sum entries ∅ _).trans ?_
  rw [rat_literal, zero_add]

/-- There are no weights, or they count as one in total. -/
def Settled (s : WeightedBondingScheduler ℚ) : Prop := s.weights = ∅ ∨ s.total_weight = 1

/-- The shares of `recompute` add up to one. -/
theorem settled_recompute (s : WeightedBondingScheduler ℚ) (orders : Orders ℚ) :
    Settled (s.recompute orders) := by
  unfold recompute
  rw [raw_weights_eq]
  dsimp only
  -- the second loop goes over the table that the first one has filled, in another order
  generalize horder : orders.metrics.visit s.metrics.entries = entries
  have hnodup : (entries.map (fun e => e.1)).Nodup := horder ▸ nodup_visit _ _
  generalize hraw : fill (fun e => e.1) (fun e => raw_weight e.2) entries ∅ = raw
  have hsum : (raw.entries.map (fun e => e.2)).sum =
      (entries.map (fun e => raw_weight e.2)).sum := by
    rw [← hraw]
    exact valueSum_fill hnodup
  split
  · next hpositive =>
    right
    have htotal : 0 < (entries.map (fun e => raw_weight e.2)).sum := of_decide_eq_true hpositive
    have hvisit : ((orders.raw.visit raw.entries).map (fun e => e.2)).sum =
        (entries.map (fun e => raw_weight e.2)).sum := by
      rw [((orders.raw.perm raw.entries).map _).sum_eq, hsum]
    rw [normalize_eq]
    simp only [div_eq_mul_inv, List.sum_map_mul_right, hvisit]
    exact mul_inv_cancel₀ htotal.ne'
  · exact .inl rfl

theorem foldl_add_snd (l : List (UInt8 × ℚ)) (x : ℚ) :
    l.foldl (fun sum w => sum + w.2) x = x + (l.map Prod.snd).sum := by
  induction l generalizing x with
  | nil => simp
  | cons w l ih => rw [List.foldl_cons, ih, List.map_cons, List.sum_cons, add_assoc]

/-- Positive numbers add up to a positive one, unless there are none. -/
theorem total_pos {l : List (UInt8 × ℚ)} (hpositive : ∀ w ∈ l, 0 < w.2) (hne : l ≠ []) :
    0 < (l.map Prod.snd).sum := by
  refine List.sum_pos _ ?_ ?_
  · intro x hx
    obtain ⟨w, hw, rfl⟩ := List.mem_map.mp hx
    exact hpositive w hw
  · simpa using hne

/-- Adopted shares count as one, and none is adopted where there is no positive one. -/
theorem settled_adopt (s : WeightedBondingScheduler ℚ) (published : List (UInt8 × ℚ)) :
    Settled (s.adopt_weights published) := by
  unfold adopt_weights
  generalize husable : published.filter
    (fun w => F32.is_finite w.2 && F32.lt (F32.literal 0) w.2) = usable
  have hpositive : ∀ w ∈ usable, 0 < w.2 := by
    intro w hw
    rw [← husable, List.mem_filter, Bool.and_eq_true] at hw
    exact of_decide_eq_true hw.2.2
  dsimp only
  split
  · exact .inr rfl
  · next hnone =>
    left
    have hnil : usable = [] := by
      by_contra hne
      apply hnone
      have htotal := total_pos hpositive hne
      have hfold : usable.foldl (fun sum w => sum + w.2) (F32.literal 0) =
          (usable.map Prod.snd).sum := by
        rw [rat_literal]
        exact (foldl_add_snd usable 0).trans (zero_add _)
      rw [hfold]
      simpa [F32.is_finite] using htotal
    rw [hnil]
    rfl

theorem settled_decide (h : Settled s) : Settled s.decide.1 := by
  rcases s.decide_cases with ⟨-, hskip⟩ | ⟨path, hmem, -, -⟩
  · rwa [hskip]
  · have hne : s.normalized_weights ≠ [] := by
      intro hnil
      simp [hnil] at hmem
    obtain ⟨b, hb⟩ := Option.isSome_iff_exists.mp
      (isSome_foldl_advance (c := (s.current, none)) (.inl hne))
    have hsame : s.decide.1.weights = s.weights ∧ s.decide.1.total_weight = s.total_weight := by
      simp [decide, hne, hb]
    rw [Settled, hsame.1, hsame.2]
    exact h

/-- In every scheduler the weights count as one, or there are none. -/
theorem settled_calls (calls : List (Call ℚ)) :
    Settled (calls.foldl Call.apply (new : WeightedBondingScheduler ℚ)) := by
  -- whatever the scheduler was like before, only a decision does not compute its weights anew
  induction calls using List.reverseRecOn with
  | nil => exact .inl rfl
  | append_singleton calls call ih =>
    rw [List.foldl_append, List.foldl_cons, List.foldl_nil]
    cases call with
    | update_from orders paths metrics => exact settled_recompute _ orders
    | update_metrics orders metrics path => exact settled_recompute _ orders
    | adopt_weights published => exact settled_adopt _ published
    | decide => exact settled_decide ih

/-! ### The rounds are proportional -/

/-- With positive weights that add up to one, all paths of the table are candidates, and what they
weigh is what a round takes from the chosen one. -/
theorem candidates_of_sum (hs : Settled s) (hpositive : ∀ w ∈ s.weights.values, 0 < w)
    (hsum : valueSum s.weights = 1) :
    (∀ p, p ∈ s.candidates ↔ p ∈ s.weights) ∧ ∑ p ∈ s.candidates, s.weight p = 1 ∧
      s.total_weight = ∑ p ∈ s.candidates, s.weight p ∧ s.candidates.card = s.weights.len := by
  have hmem : ∀ p, p ∈ s.candidates ↔ p ∈ s.weights := by
    intro p
    rw [mem_candidates, AList.mem_iff_lookup]
    refine exists_congr fun w => and_iff_left_of_imp fun hlookup => ?_
    exact hpositive w (AList.mem_values_iff.mpr ⟨p, hlookup⟩)
  have hweights : ∑ p ∈ s.candidates, s.weight p = 1 := by
    rw [← hsum]
    refine (valueSum_eq_sum_account s.weights fun p hp => ?_).symm
    rw [hmem, ← AList.lookup_eq_none] at hp
    rw [account, hp]
    rfl
  refine ⟨hmem, hweights, ?_, ?_⟩
  · rw [hweights]
    refine hs.resolve_left fun hnone => ?_
    simp [hnone, valueSum] at hsum
  · have hkeys : s.candidates = s.weights.keys.toFinset := by
      ext p
      rw [hmem, List.mem_toFinset, AList.mem_keys]
    rw [hkeys, List.toFinset_card_of_nodup s.weights.keys_nodup]
    simp [AList.keys, List.keys, AList.len]

theorem account_eq_zero {m : Map UInt8 ℚ} (h : ∀ acc ∈ m.values, acc = 0) (p : UInt8) :
    account m p = 0 := by
  unfold account
  cases hlookup : m.lookup p with
  | none => rfl
  | some acc => exact h acc (AList.mem_values_iff.mpr ⟨p, hlookup⟩)

/-- **Proportional rounds.** From empty accumulators, with positive weights that add up to one, the
accumulators add up to nothing after any number of rounds, and every path was chosen as often
as its weight says, up to one round more and up to one round less for each other path. -/
theorem round_robin_proportional (calls : List (Call ℚ)) (n : ℕ)
    (hs : s = calls.foldl Call.apply new) (hempty : ∀ acc ∈ s.current.values, acc = 0)
    (hpositive : ∀ w ∈ s.weights.values, 0 < w) (hsum : valueSum s.weights = 1) :
    valueSum (s.decisions n).1.current = 0 ∧
      (∀ path w, s.weights.lookup path = some w →
        n * w - (s.weights.len - 1 : ℕ) ≤ (s.decisions n).2.count (.Send path) ∧
          (s.decisions n).2.count (.Send path) < n * w + 1) ∧
      (s.weights.len = 1 → ∀ path ∈ s.weights,
        (s.decisions n).2 = List.replicate n (.Send path)) := by
  have hsettled : Settled s := by
    rw [hs]
    exact settled_calls calls
  obtain ⟨hmem, hweights, htotal, hcard⟩ := candidates_of_sum hsettled hpositive hsum
  have hcandidates : s.candidates.Nonempty := by
    by_contra hnone
    rw [Finset.not_nonempty_iff_eq_empty.mp hnone, Finset.sum_empty] at hweights
    exact zero_ne_one hweights
  have hpos : ∀ p ∈ s.candidates, 0 < s.weight p := by
    intro p hp
    obtain ⟨w, hlookup, hw⟩ := mem_candidates.mp hp
    rwa [weight, hlookup]
  -- from here on all is said of turns
  obtain ⟨served, hserved, hlength, hturns, hothers⟩ := decisions_turns n s hcandidates htotal
  have hzero : ∀ p ∈ s.candidates, account s.current p = 0 := fun p _ => account_eq_zero hempty p
  have hcount : ∀ path, (s.decisions n).2.count (.Send path) = served.count path := by
    intro path
    have hinjective : Function.Injective Decision.Send := fun _ _ h => Decision.Send.inj h
    rw [hserved, List.count_map_of_injective served _ hinjective]
  refine ⟨?_, ?_, ?_⟩
  · rw [valueSum_eq_sum_account (S := s.candidates)]
    · exact (hturns.balanced hpos (balanced_zero hpos hzero)).sum
    · intro p hp
      rw [account, hothers p hp]
      exact account_eq_zero hempty p
  · intro path w hlookup
    have hcandidate := (hmem path).mpr (AList.mem_of_lookup hlookup)
    have hw : s.weight path = w := by
      rw [weight, hlookup]
      rfl
    have hproportional := hturns.proportional hpos hzero hcandidate
    rwa [hweights, mul_one, mul_one, hw, hlength, hcard, ← hcount] at hproportional
  · intro hone path hpath
    obtain ⟨other, hother⟩ := Finset.card_eq_one.mp (hcard.trans hone)
    have hpath' := (hmem path).mpr hpath
    rw [hother, Finset.mem_singleton] at hpath'
    subst hpath'
    have hall : served = List.replicate n path := by
      rw [← hlength]
      exact List.eq_replicate_length.mpr fun b hb =>
        (List.count_eq_length.mp (hturns.alone hother) b hb).symm
    rw [hserved, hall, List.map_replicate]

/-- Two paths of which the first is due three rounds in four. -/
def three_to_one : WeightedBondingScheduler ℚ :=
  [Call.adopt_weights [(1, 3), (2, 1)]].foldl Call.apply new

theorem round_robin_proportional_three_to_one :
    valueSum (three_to_one.decisions 5).1.current = 0 ∧
      (∀ path w, three_to_one.weights.lookup path = some w →
        5 * w - (three_to_one.weights.len - 1 : ℕ) ≤
          (three_to_one.decisions 5).2.count (.Send path) ∧
        (three_to_one.decisions 5).2.count (.Send path) < 5 * w + 1) ∧
      (three_to_one.weights.len = 1 → ∀ path ∈ three_to_one.weights,
        (three_to_one.decisions 5).2 = List.replicate 5 (.Send path)) :=
  round_robin_proportional [.adopt_weights [(1, 3), (2, 1)]] 5 rfl (by decide +kernel)
    (by decide +kernel) (by decide +kernel)

end Rounds

/-! ## Adopted shares

With numbers and one marker for what is none. -/

section Adopted

variable {s : WeightedBondingScheduler Exact} {numbers : List (UInt8 × ℚ)}

/-- The weights are positive numbers on bound paths, and add up to exactly the total weight, one. -/
structure Distribution (paths : Map PathId Connection) (s : WeightedBondingScheduler Exact) :
    Prop where
  shares : ∃ shares : Map UInt8 ℚ,
    (∀ p, s.weights.lookup p = (shares.lookup p).map some) ∧
    (∀ p q, shares.lookup p = some q → 0 < q ∧ (⟨p⟩ : PathId) ∈ paths) ∧ valueSum shares = 1
  total : s.total_weight = some 1

/-- The entries of a weight set as they arrive. -/
def marked (numbers : List (UInt8 × ℚ)) : List (UInt8 × Exact) :=
  numbers.map (fun w => (w.1, some w.2))

theorem foldl_add_marked (numbers : List (UInt8 × ℚ)) (x : ℚ) :
    (marked numbers).foldl (fun sum w => sum + w.2) (some x : Exact) =
      some (x + (numbers.map Prod.snd).sum) := by
  induction numbers generalizing x with
  | nil => simp [marked]
  | cons w numbers ih =>
    have hstep : (some x : Exact) + some w.2 = some (x + w.2) := rfl
    rw [marked, List.map_cons, List.foldl_cons, hstep, List.map_cons, List.sum_cons, ← add_assoc]
    exact ih (x + w.2)

/-- What `adopt_weights` makes of positive numbers: each is divided by what all of them add up
to, and a later one of a path replaces an earlier one. -/
theorem adopt_marked (s : WeightedBondingScheduler Exact) (hpositive : ∀ w ∈ numbers, 0 < w.2)
    (hne : numbers ≠ []) :
    (s.adopt_weights (marked numbers)).total_weight = some 1 ∧
      ∀ p, (s.adopt_weights (marked numbers)).weights.lookup p =
        ((fill Prod.fst Prod.snd numbers ∅).lookup p).map
          (fun q => some (q / (numbers.map Prod.snd).sum)) := by
  have husable : (marked numbers).filter
      (fun w => F32.is_finite w.2 && F32.lt (F32.literal 0) w.2) = marked numbers := by
    rw [List.filter_eq_self]
    intro w hw
    obtain ⟨v, hv, rfl⟩ := List.mem_map.mp hw
    exact decide_eq_true (hpositive v hv)
  have htotal := total_pos hpositive hne
  have hsum : (marked numbers).foldl (fun sum w => sum + w.2) (F32.literal 0 : Exact) =
      some (numbers.map Prod.snd).sum := by
    rw [← zero_add (numbers.map Prod.snd).sum]
    exact foldl_add_marked numbers 0
  have hguard : (F32.is_finite (some (numbers.map Prod.snd).sum : Exact) &&
      F32.lt (F32.literal 0) (some (numbers.map Prod.snd).sum : Exact)) = true :=
    decide_eq_true htotal
  have hdiv : ∀ q : ℚ, (some q / some (numbers.map Prod.snd).sum : Exact) =
      some (q / (numbers.map Prod.snd).sum) := fun q => if_neg htotal.ne'
  unfold adopt_weights
  dsimp only
  rw [husable, hsum, if_pos hguard]
  refine ⟨rfl, ?_⟩
  intro p
  -- the loop of `adopt_weights` is the filling of a table, with markers for the numbers
  have hfill : ((marked numbers).foldl (fun table w => table.insert w.1 w.2)
      (∅ : Map UInt8 Exact)).lookup p = ((fill Prod.fst Prod.snd numbers ∅).lookup p).map some := by
    rw [marked, List.foldl_map]
    show (fill Prod.fst (fun w => some w.2) numbers ∅).lookup p = _
    refine lookup_fill_image ?_
    rfl
  rw [AList.lookup_mapValues, hfill, Option.map_map]
  congr 1
  funext q
  exact hdiv q

/-- Numbers for different paths are all kept. -/
theorem len_adopt_marked (s : WeightedBondingScheduler Exact) (hpositive : ∀ w ∈ numbers, 0 < w.2)
    (hne : numbers ≠ []) (hnodup : (numbers.map Prod.fst).Nodup) :
    (s.adopt_weights (marked numbers)).weights.len = numbers.length := by
  have hlookup := (adopt_marked s hpositive hne).2
  have hlen : (s.adopt_weights (marked numbers)).weights.len =
      ((fill Prod.fst Prod.snd numbers ∅).mapValues
        (fun q => (some (q / (numbers.map Prod.snd).sum) : Exact))).len := by
    refine AList.len_congr fun p => ?_
    rw [hlookup, AList.lookup_mapValues]
  rw [hlen, AList.len, AList.mapValues, List.length_map]
  refine (len_fill hnodup ?_).trans ?_
  · simp
  · simp

/-- **Adopted numbers are a distribution** exactly if no path comes twice. -/
theorem distribution_adopt_iff (s : WeightedBondingScheduler Exact) {paths : Map PathId Connection}
    (hpositive : ∀ w ∈ numbers, 0 < w.2) (hne : numbers ≠ [])
    (hbound : ∀ w ∈ numbers, (⟨w.1⟩ : PathId) ∈ paths) :
    Distribution paths (s.adopt_weights (marked numbers)) ↔ (numbers.map Prod.fst).Nodup := by
  obtain ⟨htotal, hlookup⟩ := adopt_marked s hpositive hne
  have hsum := total_pos hpositive hne
  -- the shares, whatever table they are given by, add up to what the table kept of the total
  have hshares : ∀ shares : Map UInt8 ℚ,
      (∀ p, (s.adopt_weights (marked numbers)).weights.lookup p = (shares.lookup p).map some) →
      valueSum shares =
        valueSum (fill Prod.fst Prod.snd numbers ∅) / (numbers.map Prod.snd).sum := by
    intro shares hlookup'
    have hsame : ∀ p, shares.lookup p = ((fill Prod.fst Prod.snd numbers ∅).mapValues
        (fun q => q / (numbers.map Prod.snd).sum)).lookup p := by
      intro p
      have hp := (hlookup p).symm.trans (hlookup' p)
      rw [AList.lookup_mapValues]
      refine Option.map_injective (Option.some_injective ℚ) ?_
      rw [← hp, Option.map_map]
      rfl
    rw [valueSum, AList.sum_perm _ hsame, AList.sum, AList.mapValues, List.map_map, valueSum,
      AList.sum, div_eq_mul_inv, ← List.sum_map_mul_right]
    rfl
  rw [← sum_fill_eq_iff Prod.fst hpositive]
  constructor
  · rintro ⟨⟨shares, hmap, -, hone⟩, -⟩
    rw [hshares shares hmap, div_eq_one_iff_eq hsum.ne'] at hone
    exact hone
  · intro heq
    refine ⟨⟨(fill Prod.fst Prod.snd numbers ∅).mapValues
      (fun q => q / (numbers.map Prod.snd).sum), ?_, ?_, ?_⟩, htotal⟩
    · intro p
      rw [hlookup, AList.lookup_mapValues, Option.map_map]
      rfl
    · intro p q hq
      rw [AList.lookup_mapValues, Option.map_eq_some_iff] at hq
      obtain ⟨v, hv, rfl⟩ := hq
      rcases AList.of_lookup_foldl_insert hv with hempty | ⟨w, hw, rfl, rfl⟩
      · simp at hempty
      · exact ⟨div_pos (hpositive w hw) hsum, hbound w hw⟩
    · rw [hshares _ fun p => ?_, heq, div_self hsum.ne']
      rw [hlookup, AList.lookup_mapValues, Option.map_map]
      rfl

end Adopted

end WeightedBondingScheduler

namespace Session

open WeightedBondingScheduler

variable {s : Session Exact} {weights : List (PathId × Exact)} {now ttl : ℕ} {path : PathId}

/-- The shares of the session, if there are any, are a distribution over its paths. -/
def Bonded (s : Session Exact) : Prop :=
  ∀ bonds, s.downlink = some bonds → Distribution s.paths bonds.scheduler

/-- Removals of paths, one after the other. -/
def remove_paths (s : Session Exact) (gone : List PathId) : Session Exact :=
  gone.foldl (fun s path => (s.remove_path path).1) s

/-- What is expected of an adoption that reports a number of paths: the shares are a distribution,
over that number of paths, and they stay one until the bond is dropped. -/
structure Adopts (s : Session Exact) (weights : List (PathId × Exact)) (now ttl : ℕ) : Prop where
  adopted : 0 < (s.adopt_downlink_weights weights now ttl).2 →
    ∃ bonds, (s.adopt_downlink_weights weights now ttl).1.downlink = some bonds ∧
      Distribution s.paths bonds.scheduler ∧
      (s.adopt_downlink_weights weights now ttl).2 = bonds.scheduler.weights.len
  kept : 0 < (s.adopt_downlink_weights weights now ttl).2 → ∀ gone,
    ((s.adopt_downlink_weights weights now ttl).1.remove_paths gone).Bonded

theorem pos_number {w : Exact} (h : F32.lt (F32.literal 0) w = true) :
    ∃ q : ℚ, w = some q ∧ 0 < q := by
  obtain ⟨a, q, ha, hq, hlt⟩ := Exact.of_holds h
  have ha0 : (0 : ℚ) = a := Option.some.inj ha
  rw [← ha0] at hlt
  exact ⟨q, hq, of_decide_eq_true hlt⟩

/-- Positive weights are numbers. -/
theorem eq_marked (weights : List (UInt8 × Exact))
    (hpositive : ∀ w ∈ weights, F32.lt (F32.literal 0) w.2 = true) :
    ∃ numbers, weights = marked numbers ∧ ∀ w ∈ numbers, 0 < w.2 := by
  induction weights with
  | nil => exact ⟨[], rfl, by simp⟩
  | cons w weights ih =>
    rw [List.forall_mem_cons] at hpositive
    obtain ⟨numbers, hmarked, hrest⟩ := ih hpositive.2
    obtain ⟨q, hw, hq⟩ := pos_number hpositive.1
    refine ⟨(w.1, q) :: numbers, ?_, ?_⟩
    · rw [marked, List.map_cons, hmarked, ← hw]
      rfl
    · rw [List.forall_mem_cons]
      exact ⟨hq, hrest⟩

/-- What can be adopted are positive numbers for bound paths. -/
theorem adoptable_eq_marked (paths : Map PathId Connection) (weights : List (PathId × Exact)) :
    ∃ numbers, adoptable paths weights = marked numbers ∧ (∀ w ∈ numbers, 0 < w.2) ∧
      ∀ w ∈ numbers, (⟨w.1⟩ : PathId) ∈ paths := by
  have hadoptable : ∀ w ∈ adoptable paths weights,
      (⟨w.1⟩ : PathId) ∈ paths ∧ F32.lt (F32.literal 0) w.2 = true := by
    intro w hw
    obtain ⟨v, hv, rfl⟩ := List.mem_map.mp hw
    have husable := (List.mem_filter.mp hv).2
    rw [Bool.and_eq_true, Bool.and_eq_true] at husable
    exact ⟨of_decide_eq_true husable.1.1, husable.2⟩
  obtain ⟨numbers, hmarked, hpositive⟩ := eq_marked _ fun w hw => (hadoptable w hw).2
  refine ⟨numbers, hmarked, hpositive, ?_⟩
  intro w hw
  refine (hadoptable (w.1, some w.2) ?_).1
  rw [hmarked]
  exact List.mem_map.mpr ⟨w, hw, rfl⟩

theorem map_fst_marked (numbers : List (UInt8 × ℚ)) :
    (marked numbers).map Prod.fst = numbers.map Prod.fst := by
  rw [marked, List.map_map]
  rfl

/-- **A removal makes a distribution of the rest**, or drops the bond. -/
theorem Bonded.remove_path (h : s.Bonded) (path : PathId) : (s.remove_path path).1.Bonded := by
  intro bonds hbonds
  unfold Session.remove_path at hbonds ⊢
  by_cases hbound : path ∉ s.paths
  · rw [if_pos hbound] at hbonds ⊢
    exact h bonds hbonds
  · rw [if_neg hbound] at hbonds ⊢
    -- what is left of the shares is adopted once more, each path with one weight
    obtain ⟨old, -, hpruned⟩ := Option.bind_eq_some_iff.mp hbonds
    unfold prune at hpruned
    dsimp only at hpruned
    split at hpruned
    · contradiction
    · next hkept =>
      obtain rfl := Option.some.inj hpruned
      generalize hpart : old.scheduler.normalized_weights.filter
        (fun w => decide ((⟨w.1⟩ : PathId) ∈ s.paths.erase path)) = part at hkept ⊢
      obtain ⟨numbers, rfl, hpositive⟩ := eq_marked part fun w hw => by
        rw [← hpart] at hw
        exact (mem_normalized_weights.mp (List.mem_of_mem_filter hw)).2
      refine (distribution_adopt_iff _ hpositive ?_ ?_).mpr ?_
      · rintro rfl
        simp [marked] at hkept
      · intro w hw
        have hmem : (w.1, some w.2) ∈ marked numbers := List.mem_map.mpr ⟨w, hw, rfl⟩
        rw [← hpart] at hmem
        exact of_decide_eq_true (List.mem_filter.mp hmem).2
      · rw [← map_fst_marked, ← hpart]
        exact nodup_normalized_weights.sublist (List.filter_sublist.map Prod.fst)

theorem Bonded.remove_paths (h : s.Bonded) (gone : List PathId) : (s.remove_paths gone).Bonded := by
  induction gone generalizing s with
  | nil => exact h
  | cons path gone ih => exact ih (h.remove_path path)

/-- **Adopted weights are a distribution over bound paths** exactly if no bound path comes twice
with a weight that is taken over. -/
theorem adopted_distribution_iff (s : Session Exact) (weights : List (PathId × Exact))
    (now ttl : ℕ) :
    s.Adopts weights now ttl ↔ ((adoptable s.paths weights).map Prod.fst).Nodup := by
  obtain ⟨numbers, hmarked, hpositive, hbound⟩ := adoptable_eq_marked s.paths weights
  by_cases hnone : numbers = []
  · have hempty : (s.adopt_downlink_weights weights now ttl).2 = 0 := by
      simp [adopt_downlink_weights, hmarked, hnone, marked]
    refine iff_of_true ⟨?_, ?_⟩ ?_
    · simp [hempty]
    · simp [hempty]
    · simp [hmarked, hnone, marked]
  · have hlength : 0 < (marked numbers).length := by
      rw [marked, List.length_map]
      exact List.length_pos_iff.mpr hnone
    obtain ⟨scheduler, hadopt⟩ : ∃ scheduler : WeightedBondingScheduler Exact,
        s.adopt_downlink_weights weights now ttl = ({ s with
          downlink := some ⟨scheduler.adopt_weights (marked numbers), now + ttl⟩ },
            numbers.length) := by
      refine ⟨(s.downlink.map DownlinkBonds.scheduler).getD WeightedBondingScheduler.new, ?_⟩
      unfold adopt_downlink_weights
      dsimp only
      rw [hmarked, if_pos hlength]
      rw [marked, List.length_map]
    have hdistribution := distribution_adopt_iff scheduler hpositive hnone hbound
    rw [hmarked, map_fst_marked]
    constructor
    · intro hadopts
      have hadopted := hadopts.adopted
      rw [hadopt] at hadopted
      obtain ⟨bonds, hbonds, hshares, -⟩ := hadopted (List.length_pos_iff.mpr hnone)
      obtain rfl := Option.some.inj hbonds
      exact hdistribution.mp hshares
    · intro hnodup
      have hshares := hdistribution.mpr hnodup
      refine ⟨fun _ => ⟨⟨scheduler.adopt_weights (marked numbers), now + ttl⟩, by rw [hadopt],
        hshares, ?_⟩, fun _ gone => ?_⟩
      · rw [hadopt]
        exact (len_adopt_marked scheduler hpositive hnone hnodup).symm
      · rw [hadopt]
        refine Bonded.remove_paths ?_ gone
        intro bonds hbonds
        obtain rfl := Option.some.inj hbonds
        exact hshares

/-- Two entries of one half, both for path 1, as they go on the wire. -/
def two_halves : List (PathId × U32) := [(⟨1⟩, 0x3f000000), (⟨1⟩, 0x3f000000)]

/-- The weights of a decoded message. -/
def read_shares (weights : List (PathId × U32)) : List (PathId × Exact) :=
  weights.map (fun w => (w.1, Exact.of_bits w.2))

/-- Path 1 is bound. -/
def one_path : Session Exact := ((new ⟨1⟩).add_path ⟨7⟩ ⟨1⟩).1

theorem bound_one_path : (⟨1⟩ : PathId) ∈ one_path.paths := by decide

theorem downlink_one_path : one_path.downlink = none := rfl

theorem adoptable_two_halves :
    adoptable one_path.paths (read_shares two_halves) = marked [(1, 1 / 2), (1, 1 / 2)] := by
  have hhalf : Exact.of_bits 0x3f000000 = some (1 / 2) := by
    have hexponent : (0x3f000000 : U32).val / 2 ^ 23 % 2 ^ 8 = 126 := by decide
    have hfraction : (0x3f000000 : U32).val % 2 ^ 23 = 0 := by decide
    have hsign : ¬ 2 ^ 31 ≤ (0x3f000000 : U32).val := by decide
    simp only [Exact.of_bits, hexponent, hfraction, hsign, ↓reduceIte]
    norm_num
  have hpositive : F32.lt (F32.literal 0) (some (1 / 2) : Exact) = true := by
    refine decide_eq_true ?_
    norm_num
  have hread : read_shares two_halves = [(⟨1⟩, some (1 / 2)), (⟨1⟩, some (1 / 2))] := by
    simp only [read_shares, two_halves, List.map_cons, List.map_nil, hhalf]
  have hfinite : F32.is_finite (some (1 / 2) : Exact) = true := rfl
  rw [hread, adoptable]
  simp only [List.filter_cons, bound_one_path, decide_true, hfinite, hpositive, Bool.and_true,
    ↓reduceIte, List.filter_nil, List.map_cons, List.map_nil, marked]

/-- The two halves arrive as one path of weight one half, reported as two. -/
theorem repeated_path_is_half :
    ControlMsg.decode (ControlMsg.WeightSet two_halves).image = .ok (.WeightSet two_halves) ∧
      (one_path.adopt_downlink_weights (read_shares two_halves) 0 DOWNLINK_WEIGHT_TTL).2 = 2 ∧
      ¬ one_path.Adopts (read_shares two_halves) 0 DOWNLINK_WEIGHT_TTL := by
  have hadopt : one_path.adopt_downlink_weights (read_shares two_halves) 0 DOWNLINK_WEIGHT_TTL =
      ({ one_path with downlink := some ⟨WeightedBondingScheduler.new.adopt_weights
        (marked [(1, 1 / 2), (1, 1 / 2)]), 0 + DOWNLINK_WEIGHT_TTL⟩ }, 2) := by
    unfold adopt_downlink_weights
    rw [adoptable_two_halves, downlink_one_path]
    rfl
  refine ⟨ControlMsg.decode_of_encode rfl, by rw [hadopt], ?_⟩
  intro hadopts
  have hadopted := hadopts.adopted
  rw [hadopt] at hadopted
  obtain ⟨bonds, hbonds, hshares, -⟩ := hadopted Nat.zero_lt_two
  obtain rfl := Option.some.inj hbonds
  -- path 1 would have to be there once
  have hnodup := (distribution_adopt_iff WeightedBondingScheduler.new (by simp) (by simp)
    (by simp [bound_one_path])).mp hshares
  simp at hnodup

end Session

end StreamGuard.V1
