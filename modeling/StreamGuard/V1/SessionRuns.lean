/-
Every run of a V1 session (`sg-session/src/lib.rs`): whatever is called, in any order and at any
times, what the session points at is bound.

The active path and the adopted shares are pruned by different calls. Beside the session a run
keeps a record of the last weight set: the paths it gave a share to that have not been removed
since, and when it expires. The shares of the session lie within that record (`Sound`), also after
a call that drops them early, and the record lies within the bound paths.
-/
import StreamGuard.V1.Session

set_option autoImplicit false

namespace StreamGuard.V1

open StreamGuard StreamGuard.Lib

namespace Session

section Runs

variable {F : Type} [F32 F]

/-! ## Calls -/

inductive Call (F : Type) where
  | add_path (transport : Connection) (path : PathId)
  | remove_path (path : PathId)
  | set_active_path (path : PathId)
  | adopt_downlink_weights (weights : List (PathId × F)) (now ttl : ℕ)
  | downlink_decide (now : ℕ)

def Call.apply (s : Session F) : Call F → Session F
  | .add_path transport path => (s.add_path transport path).1
  | .remove_path path => (s.remove_path path).1
  | .set_active_path path => (s.set_active_path path).1
  | .adopt_downlink_weights weights now ttl => (s.adopt_downlink_weights weights now ttl).1
  | .downlink_decide now => (s.downlink_decide now).1

/-- The last weight set that was adopted: the paths with a share that have not been removed since,
and when it expires. -/
structure Adopted where
  paths : List PathId
  expires_at : ℕ

/-- What a call makes of the record. -/
def Call.record (s : Session F) (last : Option Adopted) : Call F → Option Adopted
  | .adopt_downlink_weights weights now ttl =>
    some ⟨(adoptable s.paths weights).map (fun w => ⟨w.1⟩), now + ttl⟩
  | .remove_path path =>
    last.map (fun set => { set with paths := set.paths.filter (fun p => decide (p ≠ path)) })
  | .add_path _ _ => last
  | .set_active_path _ => last
  | .downlink_decide _ => last

/-- A new session after some calls, with its record. -/
def after (session_id : SessionId) (calls : List (Call F)) : Session F × Option Adopted :=
  calls.foldl (fun t call => (call.apply t.1, call.record t.1 t.2)) (new session_id, none)

/-! ## What every call keeps -/

/-- The active path and the shares refer to bound paths, the shares by way of the record. -/
structure Sound (s : Session F) (last : Option Adopted) : Prop where
  pointed : s.Pointed
  aimed : s.Aimed
  shares : ∀ bonds, s.downlink = some bonds → ∃ set, last = some set ∧
    bonds.expires_at = set.expires_at ∧
    ∀ w ∈ bonds.scheduler.normalized_weights, (⟨w.1⟩ : PathId) ∈ set.paths
  bound : ∀ set, last = some set → ∀ path ∈ set.paths, path ∈ s.paths

variable {s : Session F} {last : Option Adopted} {path : PathId} {now ttl : ℕ}
  {weights : List (PathId × F)} {transport : Connection}

theorem sound_new (session_id : SessionId) : (new (F := F) session_id).Sound none where
  pointed := pointed_new
  aimed := aimed_new
  shares := by simp [new]
  bound := by simp

/-- A weight after an adoption is one of a path that was adopted. -/
theorem mem_of_normalized_adopt {scheduler : WeightedBondingScheduler F}
    {published : List (UInt8 × F)} {w : UInt8 × F}
    (h : w ∈ (scheduler.adopt_weights published).normalized_weights) :
    ∃ v, (w.1, v) ∈ published := by
  have hlookup := (WeightedBondingScheduler.mem_normalized_weights.mp h).1
  obtain ⟨v, hv, -⟩ := WeightedBondingScheduler.of_lookup_adopt_weights hlookup
  exact ⟨v, hv⟩

/-- A decision keeps the shares and their time, or drops them. -/
theorem of_downlink_decide {bonds : DownlinkBonds F}
    (h : (s.downlink_decide now).1.downlink = some bonds) :
    ∃ old, s.downlink = some old ∧ now < old.expires_at ∧ bonds.expires_at = old.expires_at ∧
      bonds.scheduler.normalized_weights = old.scheduler.normalized_weights := by
  cases hdownlink : s.downlink with
  | none => simp [downlink_decide, hdownlink] at h
  | some old =>
    by_cases hexpired : old.expires_at ≤ now
    · simp [downlink_decide, hdownlink, hexpired] at h
    · simp only [downlink_decide, hdownlink, hexpired, ↓reduceIte, Option.some.injEq] at h
      subst h
      refine ⟨old, rfl, by omega, rfl, ?_⟩
      rcases old.scheduler.decide_cases with ⟨-, hskip⟩ | ⟨path, -, -, hweights⟩
      · rw [hskip]
      · rw [WeightedBondingScheduler.normalized_weights, hweights]
        rfl

theorem downlink_decide_paths : (s.downlink_decide now).1.paths = s.paths := by
  rw [downlink_decide]
  split
  · rfl
  · split
    · rfl
    · rfl

theorem adopt_paths : (s.adopt_downlink_weights weights now ttl).1.paths = s.paths := by
  simp only [adopt_downlink_weights]
  split
  · rfl
  · rfl

omit [F32 F] in
theorem mem_paths_add_path (h : path ∈ s.paths) {other : PathId} :
    path ∈ (s.add_path transport other).1.paths := by
  rw [add_path]
  split
  · exact h
  · exact AList.mem_insert _ |>.mpr (.inr h)

theorem Sound.add_path (h : s.Sound last) : (s.add_path transport path).1.Sound last where
  pointed := h.pointed.add_path
  aimed := h.aimed.add_path
  shares := by
    rw [add_path_downlink]
    exact h.shares
  bound set hset p hp := mem_paths_add_path (h.bound set hset p hp)

theorem Sound.set_active_path (h : s.Sound last) : (s.set_active_path path).1.Sound last where
  pointed := h.pointed.set_active_path
  aimed := h.aimed.set_active_path
  shares := by
    rw [set_active_path_downlink]
    exact h.shares
  bound := by
    rw [set_active_path_paths]
    exact h.bound

theorem Sound.downlink_decide (h : s.Sound last) : (s.downlink_decide now).1.Sound last where
  pointed := h.pointed.egress
  aimed := by
    intro active hactive
    rw [has_path, downlink_decide_paths]
    exact h.aimed active (downlink_decide_active_path.symm.trans hactive)
  shares := by
    intro bonds hbonds
    obtain ⟨old, hold, -, hexpires, hweights⟩ := of_downlink_decide hbonds
    rw [hexpires, hweights]
    exact h.shares old hold
  bound := by
    rw [downlink_decide_paths]
    exact h.bound

/-- An adoption replaces the shares and the record by the same paths. -/
theorem Sound.adopt (h : s.Sound last) :
    (s.adopt_downlink_weights weights now ttl).1.Sound
      ((Call.adopt_downlink_weights weights now ttl).record s last) where
  pointed := h.pointed.adopt
  aimed := by
    intro active hactive
    rw [has_path, adopt_paths]
    exact h.aimed active (adopt_active_path.symm.trans hactive)
  shares := by
    intro bonds hbonds
    refine ⟨_, rfl, ?_⟩
    simp only [adopt_downlink_weights] at hbonds
    split at hbonds
    · obtain rfl := Option.some.inj hbonds
      refine ⟨rfl, ?_⟩
      intro w hw
      obtain ⟨v, hv⟩ := mem_of_normalized_adopt hw
      exact List.mem_map.mpr ⟨_, hv, rfl⟩
    · contradiction
  bound := by
    intro set hset path hpath
    obtain rfl := Option.some.inj hset
    obtain ⟨v, hv, rfl⟩ := List.mem_map.mp hpath
    obtain ⟨w, hw, rfl⟩ := List.mem_map.mp hv
    have hadoptable := (List.mem_filter.mp hw).2
    rw [Bool.and_eq_true, Bool.and_eq_true] at hadoptable
    rw [adopt_paths]
    exact of_decide_eq_true hadoptable.1.1

/-- A removal prunes both. -/
theorem Sound.remove_path (h : s.Sound last) :
    (s.remove_path path).1.Sound ((Call.remove_path (F := F) path).record s last) where
  pointed := h.pointed.remove_path
  aimed := h.aimed.remove_path
  shares := by
    intro bonds hbonds
    -- the shares are among the old ones, and give the removed path none
    have hold : ∃ old, s.downlink = some old ∧ bonds.expires_at = old.expires_at ∧
        ∀ w ∈ bonds.scheduler.normalized_weights,
          (⟨w.1⟩ : PathId) ≠ path ∧ ∃ v, (w.1, v) ∈ old.scheduler.normalized_weights := by
      by_cases hbound : path ∈ s.paths
      · simp only [Session.remove_path, hbound, not_true_eq_false, ↓reduceIte,
          Option.bind_eq_some_iff] at hbonds
        obtain ⟨old, hdownlink, hpruned⟩ := hbonds
        refine ⟨old, hdownlink, ?_⟩
        simp only [prune] at hpruned
        split at hpruned
        · contradiction
        · obtain rfl := Option.some.inj hpruned
          refine ⟨rfl, ?_⟩
          intro w hw
          obtain ⟨v, hv⟩ := mem_of_normalized_adopt hw
          obtain ⟨hnormalized, hkept⟩ := List.mem_filter.mp hv
          exact ⟨(AList.mem_erase.mp (of_decide_eq_true hkept)).1, v, hnormalized⟩
      · simp only [Session.remove_path, hbound, not_false_eq_true, ↓reduceIte] at hbonds
        refine ⟨bonds, hbonds, rfl, ?_⟩
        intro w hw
        refine ⟨?_, w.2, hw⟩
        rintro rfl
        obtain ⟨set, hset, -, hwithin⟩ := h.shares bonds hbonds
        exact hbound (h.bound set hset _ (hwithin w hw))
    obtain ⟨old, hdownlink, hexpires, hwithin⟩ := hold
    obtain ⟨set, rfl, hsame, hshares⟩ := h.shares old hdownlink
    refine ⟨_, rfl, hexpires.trans hsame, ?_⟩
    intro w hw
    obtain ⟨hne, v, hv⟩ := hwithin w hw
    exact List.mem_filter.mpr ⟨hshares (w.1, v) hv, decide_eq_true hne⟩
  bound := by
    intro set hset p hp
    obtain ⟨old, hold, rfl⟩ := Option.map_eq_some_iff.mp hset
    obtain ⟨hmem, hne⟩ := List.mem_filter.mp hp
    have hbound := h.bound old hold p hmem
    by_cases hpath : path ∈ s.paths
    · simp only [Session.remove_path, hpath, not_true_eq_false, ↓reduceIte]
      exact AList.mem_erase.mpr ⟨of_decide_eq_true hne, hbound⟩
    · simpa only [Session.remove_path, hpath, not_false_eq_true, ↓reduceIte] using hbound

theorem Sound.apply (h : s.Sound last) (call : Call F) :
    (call.apply s).Sound (call.record s last) := by
  cases call with
  | add_path transport path => exact h.add_path
  | remove_path path => exact h.remove_path
  | set_active_path path => exact h.set_active_path
  | adopt_downlink_weights weights now ttl => exact h.adopt
  | downlink_decide now => exact h.downlink_decide

theorem sound_after (session_id : SessionId) (calls : List (Call F)) :
    (after session_id calls).1.Sound (after session_id calls).2 := by
  induction calls using List.reverseRecOn with
  | nil => exact sound_new session_id
  | append_singleton calls call ih =>
    rw [after, List.foldl_append]
    exact ih.apply call

/-! ## Where a session points -/

/-- The last weight set is past its time, or all its paths have been removed; or there is none. -/
def Lapsed (last : Option Adopted) (now : ℕ) : Prop :=
  ∀ set, last = some set → set.expires_at ≤ now ∨ set.paths = []

/-- All that a session names is bound. -/
structure Bounded (s : Session F) (last : Option Adopted) : Prop where
  inactive : s.active_path = none ↔ ∀ path, s.has_path path = false
  active : ∀ path, s.active_path = some path → s.has_path path = true
  decided : ∀ now path, (s.downlink_decide now).2 = some path → s.has_path path = true
  undecided : ∀ now, Lapsed last now → (s.downlink_decide now).2 = none
  stranded : ∀ now, (s.egress now).2 = none ↔ ∀ path, s.has_path path = false
  egress : ∀ now path, (s.egress now).2 = some path → s.has_path path = true

/-- A decision is for a path of the record, before its time is over. -/
theorem Sound.decided (h : s.Sound last) (hdecided : (s.downlink_decide now).2 = some path) :
    ∃ set, last = some set ∧ now < set.expires_at ∧ path ∈ set.paths := by
  rcases s.downlink_decide_cases now with ⟨-, hnone⟩ | ⟨bonds, bonds', hold, hnew, -, hmem⟩
  · rw [hnone] at hdecided
    contradiction
  · obtain ⟨set, hset, hexpires, hwithin⟩ := h.shares bonds hold
    obtain ⟨w, hw, hpath⟩ := List.mem_map.mp (hmem path hdecided)
    obtain ⟨old, hold', hfresh, -, -⟩ := of_downlink_decide hnew
    obtain rfl := Option.some.inj (hold.symm.trans hold')
    refine ⟨set, hset, by omega, ?_⟩
    have hsame : (⟨w.1⟩ : PathId) = path := congrArg PathId.mk hpath
    rw [← hsame]
    exact hwithin w hw

theorem Sound.bounded (h : s.Sound last) : s.Bounded last := by
  have hdecided : ∀ now path, (s.downlink_decide now).2 = some path → s.has_path path = true := by
    intro now path hsome
    obtain ⟨set, hset, -, hmem⟩ := h.decided hsome
    exact decide_eq_true (h.bound set hset path hmem)
  have hinactive : s.active_path = none ↔ ∀ path, s.has_path path = false := by
    refine ⟨h.pointed, ?_⟩
    intro hempty
    cases hactive : s.active_path with
    | none => rfl
    | some path =>
      have hbound := h.aimed path hactive
      rw [hempty path] at hbound
      contradiction
  refine ⟨hinactive, h.aimed, hdecided, ?_, ?_, ?_⟩
  · intro now hlapsed
    cases hsome : (s.downlink_decide now).2 with
    | none => rfl
    | some path =>
      obtain ⟨set, hset, hfresh, hmem⟩ := h.decided hsome
      rcases hlapsed set hset with hexpired | hpruned
      · omega
      · simp [hpruned] at hmem
  · intro now
    cases hsome : (s.downlink_decide now).2 with
    | none => simpa [Session.egress, hsome] using hinactive
    | some path =>
      -- a path that is decided for is bound, so neither side holds
      refine iff_of_false ?_ ?_
      · simp [Session.egress, hsome]
      · intro hempty
        have hbound := hdecided now path hsome
        rw [hempty path] at hbound
        contradiction
  · intro now path hegress
    cases hsome : (s.downlink_decide now).2 with
    | none => exact h.aimed path (by simpa [Session.egress, hsome] using hegress)
    | some chosen =>
      have hsame : chosen = path := by simpa [Session.egress, hsome] using hegress
      exact hsame ▸ hdecided now chosen hsome

/-- **A session never points at an unbound path**, whatever has been called at whatever times. -/
theorem session_names_bound_paths (session_id : SessionId) (calls : List (Call F)) :
    (after session_id calls).1.Bounded (after session_id calls).2 :=
  (sound_after session_id calls).bounded

end Runs

end Session

end StreamGuard.V1
