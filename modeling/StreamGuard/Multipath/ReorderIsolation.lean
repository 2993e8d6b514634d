/-
One key of a `SessionReorder` and the traffic of the others.

Two runs are compared: one with the calls of every key, and one with the `receive`
calls of the other keys left out. What the second has of `K` is what the first has:
the same flow, and the same tombstone as long as it is live. A dead tombstone may
still lie in one table and be purged from the other; it answers as no tombstone does.
The session's byte counter is the one number the keys share, and it decides nothing
about `K` as long as it refuses nobody.
-/
import StreamGuard.Multipath.ReorderBounds

set_option autoImplicit false

namespace StreamGuard.Multipath

open StreamGuard StreamGuard.Lib

namespace SessionReorder

/-! ## The same flow in two sessions -/

section SameFlow

variable {s s' : SessionReorder} {K : ReceiveKey} {flow : FlowState} {now_ms : ℕ}
  {traffic_class : TrafficClass} {packet_id : PacketId} {payload : Bytes}

/-- What a drain makes of a flow does not depend on the bytes of the session. -/
theorem drain_bytes (fuel : ℕ) (flow : FlowState) (bytes bytes' : ℕ) :
    (drain fuel flow bytes).flow = (drain fuel flow bytes').flow ∧
      (drain fuel flow bytes).delivered = (drain fuel flow bytes').delivered := by
  induction fuel generalizing flow bytes bytes' with
  | zero => exact ⟨rfl, rfl⟩
  | succ fuel ih =>
    by_cases hex : flow.exhausted = true
    · rw [drain_exhausted hex, drain_exhausted hex]
      exact ⟨rfl, rfl⟩
    have hex : flow.exhausted = false := by simpa using hex
    cases hl : flow.buffer.lookup flow.next_expected with
    | none =>
      rw [drain_gap hl, drain_gap hl]
      exact ⟨rfl, rfl⟩
    | some held =>
      by_cases hmax : flow.next_expected = U64.max
      · rw [drain_last hex hl hmax, drain_last hex hl hmax]
        exact ⟨rfl, rfl⟩
      · obtain ⟨hflow, hdelivered⟩ := ih (taken flow held) (bytes - held.payload.length)
          (bytes' - held.payload.length)
        rw [drain_round hex hl hmax, drain_round hex hl hmax]
        exact ⟨hflow, by rw [hdelivered]⟩

/-- Two sessions treat `K` alike: the same limits and the same flow. -/
structure SameFlow (K : ReceiveKey) (s s' : SessionReorder) : Prop where
  limits : s'.limits = s.limits
  flow : s'.flows.lookup K = s.flows.lookup K

theorem SameFlow.skip_head_gap (h : SameFlow K s s') (now_ms : ℕ) :
    SameFlow K (skip_head_gap_if_expired s K now_ms).1 (skip_head_gap_if_expired s' K now_ms).1 ∧
      (skip_head_gap_if_expired s' K now_ms).2 = (skip_head_gap_if_expired s K now_ms).2 := by
  rcases skip_head_gap_cases s K now_ms with ⟨hnone, he⟩ | ⟨flow, smallest, head, hdue, he⟩
  · rcases skip_head_gap_cases s' K now_ms with ⟨_, he'⟩ | ⟨flow', smallest', head', hdue', _⟩
    · rw [he, he']
      exact ⟨h, rfl⟩
    · exact absurd (hdue'.congr h.flow.symm h.limits.symm) (hnone _ _ _)
  · rcases skip_head_gap_cases s' K now_ms with ⟨hnone', _⟩ | ⟨flow', smallest', head', hdue', he'⟩
    · exact absurd (hdue.congr h.flow h.limits) (hnone' _ _ _)
    · -- both skip to the same packet of the same flow
      have hflow := hdue'.found
      rw [h.flow, hdue.found] at hflow
      obtain rfl := Option.some.inj hflow
      have hfirst := hdue'.first
      rw [hdue.first] at hfirst
      obtain rfl := Option.some.inj hfirst
      obtain ⟨hsame, hdelivered⟩ := drain_bytes flow.buffer.len
        { flow with next_expected := smallest } s'.buffered_bytes_session s.buffered_bytes_session
      rw [he, he']
      refine ⟨⟨h.limits, ?_⟩, congrArg some hdelivered⟩
      unfold skip_to skip_drain
      dsimp only
      rw [AList.lookup_insert, AList.lookup_insert, hsame]

theorem SameFlow.skip_expired_gaps (fuel : ℕ) (h : SameFlow K s s') (now_ms : ℕ) :
    SameFlow K (skip_expired_gaps fuel s K now_ms).1 (skip_expired_gaps fuel s' K now_ms).1 ∧
      (skip_expired_gaps fuel s' K now_ms).2 = (skip_expired_gaps fuel s K now_ms).2 := by
  induction fuel generalizing s s' with
  | zero => exact ⟨h, rfl⟩
  | succ fuel ih =>
    obtain ⟨hskip, hds⟩ := h.skip_head_gap now_ms
    unfold SessionReorder.skip_expired_gaps
    cases hr : skip_head_gap_if_expired s K now_ms with
    | mk s₁ ds =>
      cases hr' : skip_head_gap_if_expired s' K now_ms with
      | mk s₁' ds' =>
        rw [hr, hr'] at hskip hds
        dsimp only at hskip hds
        subst hds
        cases ds' with
        | none => exact ⟨hskip, rfl⟩
        | some delivered =>
          obtain ⟨hrest, hout⟩ := ih hskip
          dsimp only
          rw [hout]
          exact ⟨hrest, rfl⟩

theorem SameFlow.held (h : SameFlow K s s') : s'.held K = s.held K := by
  unfold SessionReorder.held
  rw [h.flow]

theorem SameFlow.receive_head (h : SameFlow K s s') (packet_id : PacketId) (payload : Bytes)
    (now_ms : ℕ) :
    SameFlow K (receive_head s K flow packet_id payload now_ms).1
        (receive_head s' K flow packet_id payload now_ms).1 ∧
      (receive_head s' K flow packet_id payload now_ms).2 =
        (receive_head s K flow packet_id payload now_ms).2 := by
  unfold SessionReorder.receive_head
  dsimp only
  split
  · refine ⟨⟨h.limits, ?_⟩, rfl⟩
    dsimp only
    rw [AList.lookup_insert, AList.lookup_insert]
  · obtain ⟨hsame, hdelivered⟩ := drain_bytes flow.buffer.len
      { flow with next_expected := flow.next_expected.succSat } s'.buffered_bytes_session
      s.buffered_bytes_session
    refine ⟨⟨h.limits, ?_⟩, ?_⟩
    · dsimp only
      rw [AList.lookup_insert, AList.lookup_insert, hsame]
    · rw [hdelivered]

theorem SameFlow.hold (h : SameFlow K s s') (id : U64) (payload : Bytes) (now_ms : ℕ) :
    SameFlow K (hold s K flow id payload now_ms).1 (hold s' K flow id payload now_ms).1 ∧
      (hold s' K flow id payload now_ms).2 = (hold s K flow id payload now_ms).2 := by
  have hheld : ∀ f : FlowState, ∀ b b' : ℕ,
      SameFlow K { s with flows := s.flows.insert K f, buffered_bytes_session := b }
        { s' with flows := s'.flows.insert K f, buffered_bytes_session := b' } := by
    intro f b b'
    refine ⟨h.limits, ?_⟩
    dsimp only
    rw [AList.lookup_insert, AList.lookup_insert]
  unfold SessionReorder.hold
  dsimp only
  generalize ({ flow with
    buffer := _, buffered_bytes := _, last_activity_ms := now_ms } : FlowState) = f
  obtain ⟨hskip, hds⟩ := (hheld f (saturatingAdd s.buffered_bytes_session payload.length)
    (saturatingAdd s'.buffered_bytes_session payload.length)).skip_head_gap now_ms
  generalize skip_head_gap_if_expired { s with flows := _, buffered_bytes_session := _ } K now_ms = r
    at hskip hds ⊢
  generalize skip_head_gap_if_expired { s' with flows := _, buffered_bytes_session := _ } K now_ms =
    r' at hskip hds ⊢
  obtain ⟨s₁, ds⟩ := r
  obtain ⟨s₁', ds'⟩ := r'
  dsimp only at hskip hds
  subst hds
  cases ds' with
  | none => exact ⟨hskip, rfl⟩
  | some delivered => exact ⟨hskip, rfl⟩

theorem SameFlow.refuse (h : SameFlow K s s') (now_ms : ℕ) (reason : DropReason) :
    SameFlow K (refuse s K flow now_ms reason).1 (refuse s' K flow now_ms reason).1 ∧
      (refuse s' K flow now_ms reason).2 = (refuse s K flow now_ms reason).2 := by
  unfold SessionReorder.refuse
  refine ⟨⟨h.limits, ?_⟩, rfl⟩
  dsimp only
  by_cases hclass : reason = .ClassMismatch
  · rw [if_pos hclass, if_pos hclass]
    exact h.flow
  · rw [if_neg hclass, if_neg hclass, AList.lookup_insert, AList.lookup_insert]

/-- Checks that begin alike are alike if what follows is, unless it gives what is excluded. -/
theorem later_alike {β : Type} {c : Prop} [Decidable c] {a b x y : β}
    (hnot : (if c then a else x) ≠ b) (h : x ≠ b → y = x) :
    (if c then a else y) = if c then a else x := by
  by_cases hc : c
  · rw [if_pos hc, if_pos hc]
  · rw [if_neg hc] at hnot
    rw [h hnot]

/-- An arrival that the fuller session does not refuse for its bytes is refused by the
other for the same reason, or by neither. -/
theorem SameFlow.refusal (h : SameFlow K s s') (id : U64) (payload : Bytes)
    (hbytes : s'.buffered_bytes_session ≤ s.buffered_bytes_session ∨
      u64Max ≤ s.limits.max_bytes_per_session)
    (hnot : refusal s flow traffic_class id payload ≠ some .SessionByteCapacity) :
    refusal s' flow traffic_class id payload = refusal s flow traffic_class id payload := by
  have hmono : s.limits.max_bytes_per_session <
      saturatingAdd s'.buffered_bytes_session payload.length →
      s.limits.max_bytes_per_session < saturatingAdd s.buffered_bytes_session payload.length := by
    intro hlt
    have hle := saturatingAdd_le_max s'.buffered_bytes_session payload.length
    unfold saturatingAdd at *
    omega
  unfold SessionReorder.refusal at hnot ⊢
  rw [h.limits]
  -- the comparisons agree up to the last one
  refine later_alike hnot fun hnot => ?_
  refine later_alike hnot fun hnot => ?_
  refine later_alike hnot fun hnot => ?_
  refine later_alike hnot fun hnot => ?_
  refine later_alike hnot fun hnot => ?_
  refine later_alike hnot fun hnot => ?_
  refine later_alike hnot fun hnot => ?_
  have hfits : ¬ s.limits.max_bytes_per_session <
      saturatingAdd s.buffered_bytes_session payload.length := by
    intro hover
    rw [if_pos hover] at hnot
    exact hnot rfl
  rw [if_neg hfits, if_neg (mt hmono hfits)]

end SameFlow

/-! ## Live tombstones -/

section Tombstones

variable {s s' : SessionReorder} {K key : ReceiveKey} {now_ms later : ℕ} {watermark : U64}
  {order : Orders}

/-- The tombstone of `K`, while it is live. -/
def live_tombstone (s : SessionReorder) (K : ReceiveKey) (now_ms : ℕ) : Option ReorderTombstone :=
  (s.tombstones.lookup K).filter (fun t => now_ms < t.expires_at_ms)

theorem live_tombstone_eq_some {t : ReorderTombstone} : s.live_tombstone K now_ms = some t ↔
    s.tombstones.lookup K = some t ∧ now_ms < t.expires_at_ms := by
  unfold live_tombstone
  rw [Option.filter_eq_some_iff, decide_eq_true_eq]

/-- What is live later is live now and not dead by then. -/
theorem live_tombstone_later (hle : now_ms ≤ later) : s.live_tombstone K later =
    (s.live_tombstone K now_ms).filter (fun t => later < t.expires_at_ms) := by
  ext t
  rw [live_tombstone_eq_some, Option.filter_eq_some_iff, live_tombstone_eq_some,
    decide_eq_true_eq]
  constructor
  · rintro ⟨hl, hlive⟩
    exact ⟨⟨hl, by omega⟩, hlive⟩
  · rintro ⟨⟨hl, _⟩, hlive⟩
    exact ⟨hl, hlive⟩

/-- Only a live tombstone rejects a replay. -/
theorem replayed_iff {id : U64} : s.replayed K id now_ms ↔
    ∃ t, s.live_tombstone K now_ms = some t ∧ id ≤ t.watermark := by
  unfold replayed
  simp only [live_tombstone_eq_some, Option.mem_def, and_assoc]

theorem purge_live (s : SessionReorder) (K : ReceiveKey) (now_ms : ℕ) :
    (s.purge_expired_tombstones now_ms).live_tombstone K now_ms = s.live_tombstone K now_ms := by
  ext t
  rw [live_tombstone_eq_some, live_tombstone_eq_some]
  unfold purge_expired_tombstones
  dsimp only
  rw [AList.lookup_retain_eq_some, decide_eq_true_eq, and_assoc, and_self]

/-- Retiring a key at `now_ms` evicts a tombstone of another key. -/
def TombstonesFull (s : SessionReorder) (now_ms : ℕ) : Prop :=
  s.limits.max_tombstones ≤ (s.purge_expired_tombstones now_ms).tombstones.len

instance (s : SessionReorder) (now_ms : ℕ) : Decidable (s.TombstonesFull now_ms) :=
  inferInstanceAs (Decidable (_ ≤ _))

/-- With room in the table the other tombstones stay. -/
theorem insert_tombstone_live (hroom : ¬ s.TombstonesFull now_ms) :
    (insert_tombstone order.tombstones s key watermark now_ms).live_tombstone K now_ms =
      if K = key then
        (some ⟨watermark, saturatingAdd now_ms s.limits.tombstone_ttl_ms⟩ :
          Option ReorderTombstone).filter (fun t => now_ms < t.expires_at_ms)
      else s.live_tombstone K now_ms := by
  have hevict : evict_tombstone order.tombstones (s.purge_expired_tombstones now_ms) =
      s.purge_expired_tombstones now_ms := if_neg hroom
  unfold insert_tombstone
  rw [hevict]
  dsimp only
  unfold live_tombstone
  dsimp only
  rw [AList.lookup_insert_of]
  by_cases hk : K = key
  · rw [if_pos hk, if_pos hk]
    rfl
  · rw [if_neg hk, if_neg hk]
    exact purge_live s K now_ms

/-- Some key of the idle pass evicts a tombstone. -/
def IdleEvicts (order : Orders) (now_ms : ℕ) : SessionReorder → List (ReceiveKey × U64) → Prop
  | _, [] => False
  | s, (key, watermark) :: idle =>
    (s.remove_flow key).TombstonesFull now_ms ∨
      IdleEvicts order now_ms
        (insert_tombstone order.tombstones (s.remove_flow key) key watermark now_ms) idle

instance decidableIdleEvicts (order : Orders) (now_ms : ℕ) :
    ∀ (s : SessionReorder) (idle : List (ReceiveKey × U64)),
      Decidable (IdleEvicts order now_ms s idle)
  | _, [] => inferInstanceAs (Decidable False)
  | s, (key, watermark) :: idle =>
    @instDecidableOr _ _ (inferInstanceAs (Decidable ((s.remove_flow key).TombstonesFull now_ms)))
      (decidableIdleEvicts order now_ms
        (insert_tombstone order.tombstones (s.remove_flow key) key watermark now_ms) idle)

theorem remove_flow_live (s : SessionReorder) (key K : ReceiveKey) (now_ms : ℕ) :
    (s.remove_flow key).live_tombstone K now_ms = s.live_tombstone K now_ms := by
  unfold live_tombstone
  rw [remove_flow_tombstones]

/-- The idle pass leaves the tombstones of the keys it does not retire. -/
theorem expire_idle_live_other {idle : List (ReceiveKey × U64)}
    (hroom : ¬ IdleEvicts order now_ms s idle) (hk : K ∉ idle.map (·.1)) :
    (expire_idle order s now_ms idle).live_tombstone K now_ms = s.live_tombstone K now_ms := by
  induction idle generalizing s with
  | nil => rfl
  | cons entry idle ih =>
    obtain ⟨hhere, hrest⟩ := not_or.mp hroom
    obtain ⟨hne, hk⟩ := not_or.mp (fun h => hk (List.mem_cons.mpr h))
    unfold expire_idle
    rw [ih hrest hk, insert_tombstone_live hhere, if_neg hne, remove_flow_live]

/-- A key that the idle pass retires has the tombstone of its flow, while it is live. -/
theorem expire_idle_live_self {idle : List (ReceiveKey × U64)}
    (hroom : ¬ IdleEvicts order now_ms s idle) (hnodup : (idle.map (·.1)).Nodup)
    (hmem : (K, watermark) ∈ idle) :
    (expire_idle order s now_ms idle).live_tombstone K now_ms =
      (some ⟨watermark, saturatingAdd now_ms s.limits.tombstone_ttl_ms⟩ :
        Option ReorderTombstone).filter (fun t => now_ms < t.expires_at_ms) := by
  induction idle generalizing s with
  | nil => contradiction
  | cons entry idle ih =>
    obtain ⟨hhere, hrest⟩ := not_or.mp hroom
    obtain ⟨hnot, hnodup⟩ := List.nodup_cons.mp hnodup
    have hlimits := retire_limits order s entry.1 entry.2 now_ms (s.remove_flow entry.1).metrics
    unfold expire_idle
    rcases List.mem_cons.mp hmem with rfl | hmem
    · rw [expire_idle_live_other hrest hnot, insert_tombstone_live hhere, if_pos rfl,
        remove_flow_limits]
    · rw [ih hrest hnodup hmem]
      rw [show (insert_tombstone order.tombstones (s.remove_flow entry.1) entry.1 entry.2
        now_ms).limits = s.limits from hlimits]

theorem nodup_idle_flows (order : Orders) (s : SessionReorder) (now_ms : ℕ) :
    ((idle_flows order s now_ms).map (·.1)).Nodup := by
  unfold idle_flows
  rw [List.map_map]
  have hkeys : ((order.flows.visit s.flows.entries).map (·.1)).Nodup := by
    rw [((order.flows.perm s.flows.entries).map (·.1)).nodup_iff]
    exact s.flows.keys_nodup
  exact hkeys.sublist (List.filter_sublist.map _)

theorem mem_idle_flows_watermark {flow : FlowState} (hl : s.flows.lookup K = some flow)
    (hidle : s.limits.flow_idle_ttl_ms ≤ now_ms - flow.last_activity_ms) :
    (K, max_observed_for_flow flow) ∈ idle_flows order s now_ms := by
  unfold idle_flows
  rw [List.mem_map]
  refine ⟨⟨K, flow⟩, ?_, rfl⟩
  rw [List.mem_filter, order.flows.mem_visit, decide_eq_true_eq]
  exact ⟨AList.mem_entries_iff.mpr hl, hidle⟩

end Tombstones

/-! ## The relation -/

section Relation

variable {s s' : SessionReorder} {K : ReceiveKey} {now_ms later : ℕ}

/-- What two sessions agree on for `K`. -/
structure Alike (K : ReceiveKey) (now_ms : ℕ) (s s' : SessionReorder) : Prop
    extends SameFlow K s s' where
  tombstone : s'.live_tombstone K now_ms = s.live_tombstone K now_ms

theorem Alike.mono (h : Alike K now_ms s s') (hle : now_ms ≤ later) : Alike K later s s' := by
  refine ⟨h.toSameFlow, ?_⟩
  rw [live_tombstone_later hle, live_tombstone_later hle, h.tombstone]

/-- A session that has seen no key but `K`. -/
structure Alone (K : ReceiveKey) (s : SessionReorder) : Prop where
  accepted : s.limits.validate = .ok ()
  flows : ∀ k ∈ s.flows, k = K
  tombstones : ∀ k ∈ s.tombstones, k = K
  apart : K ∈ s.flows → K ∉ s.tombstones

/-- A session that only loses keys stays alone. -/
theorem Alone.of_mem {s₁ : SessionReorder} (h : Alone K s) (hlimits : s₁.limits = s.limits)
    (hflows : ∀ k ∈ s₁.flows, k ∈ s.flows) (htombstones : ∀ k ∈ s₁.tombstones, k ∈ s.tombstones) :
    Alone K s₁ := by
  refine ⟨?_, fun k hk => h.flows k (hflows k hk), fun k hk => h.tombstones k (htombstones k hk), ?_⟩
  · rw [hlimits]
    exact h.accepted
  · intro hk hmem
    exact h.apart (hflows K hk) (htombstones K hmem)

/-- The byte counters are exact, unless the limit is the largest there is. -/
def Sized (s : SessionReorder) : Prop :=
  s.limits.max_bytes_per_session < u64Max → s.Bounded

theorem Sized.perform (h : s.Sized) (call : ReorderCall) : (call.perform s).1.Sized := by
  have happly : (call.perform s).1 = (call.apply s).1 := by
    cases call <;> rfl
  have hlimits : (call.apply s).1.limits = s.limits := by
    cases call with
    | receive key traffic_class packet_id payload now order =>
      exact s.receive_limits order key traffic_class packet_id payload now
    | expire now order => exact s.expire_limits order now
  rw [happly]
  intro hlt
  rw [hlimits] at hlt
  refine ReorderCall.apply_bounded call (h hlt) ?_
  -- a packet that is held fits under the limit, so nothing saturates
  intro hover
  cases call with
  | expire => exact hover
  | receive key traffic_class packet_id payload now order =>
    obtain ⟨_, flow, hl, hid, hr, hover⟩ := hover
    have hsession := (admissible_of_refusal hr hid).session_bytes
    unfold saturatingAdd at hsession
    omega

/-- The session that has seen `K` alone holds no more bytes. -/
theorem Alone.bytes_le (h : Alone K s') (hsame : SameFlow K s s') (hs : s.Bounded)
    (hs' : s'.Bounded) : s'.buffered_bytes_session ≤ s.buffered_bytes_session := by
  rw [hs'.bytes]
  cases hl : s'.flows.lookup K with
  | none =>
    have hempty : s'.flows = ∅ := by
      refine AList.eq_empty ?_
      intro k hk
      rw [h.flows k hk] at hk
      exact AList.lookup_eq_none.mp hl hk
    rw [hempty]
    exact Nat.zero_le _
  | some flow =>
    have hempty : s'.flows.erase K = ∅ := by
      refine AList.eq_empty ?_
      intro k hk
      obtain ⟨hne, hk⟩ := AList.mem_erase.mp hk
      exact hne (h.flows k hk)
    have hsum := AList.sum_erase (fun _ (flow : FlowState) => flow.buffered_bytes) hl
    rw [hempty, AList.sum_empty, add_zero] at hsum
    rw [← hsum]
    exact hs.flow_le_session (hsame.flow.symm.trans hl)

theorem Alone.bytes (h : Alone K s') (hsame : SameFlow K s s') (hs : s.Sized) (hs' : s'.Sized) :
    s'.buffered_bytes_session ≤ s.buffered_bytes_session ∨
      u64Max ≤ s.limits.max_bytes_per_session := by
  by_cases hlt : s.limits.max_bytes_per_session < u64Max
  · refine .inl (h.bytes_le hsame (hs hlt) (hs' ?_))
    rw [hsame.limits]
    exact hlt
  · exact .inr (not_lt.mp hlt)

end Relation

/-! ## Calls -/

section Calls

variable {s s' : SessionReorder} {K key : ReceiveKey} {now_ms : ℕ} {order order' : Orders}
  {traffic_class : TrafficClass} {packet_id : PacketId} {payload : Bytes}

/-- A flow that is opened without taking another out needs no room. -/
theorem make_room_of_kept (hl : s.flows.lookup key = none)
    (hkept : ∀ k ∈ s.flows,
      k ∈ (open_flow order s key traffic_class packet_id payload now_ms).1.flows) :
    make_room order s now_ms = s := by
  have hmem : ∀ k ∈ s.flows, k ∈ (make_room order s now_ms).flows := by
    intro k hk
    rcases (AList.mem_insert _).mp (hkept k hk) with rfl | hk'
    · exact absurd hk (AList.lookup_eq_none.mp hl)
    · exact hk'
  unfold make_room at hmem ⊢
  split at hmem
  · next hfull =>
    rw [if_pos hfull]
    rcases evict_oldest_flow_cases order s now_ms with he | ⟨k, flow, m, hk, he⟩
    · exact he
    · -- the flow taken out would have to be there still
      have hgone := hmem k (AList.mem_of_lookup hk)
      rw [he, insert_tombstone_flows] at hgone
      obtain ⟨f, hf⟩ := AList.mem_iff_lookup.mp hgone
      have hf : (s.remove_flow k).flows.lookup k = some f := hf
      rw [remove_flow_lookup, if_pos rfl] at hf
      contradiction
  · next hroom => rw [if_neg hroom]

/-- **An arrival of another key** leaves what the session has of `K`. -/
theorem receive_other (hne : key ≠ K)
    (hkept : ∀ k ∈ s.flows,
      k ∈ (s.receive order key traffic_class packet_id payload now_ms).1.flows) :
    (s.receive order key traffic_class packet_id payload now_ms).1.flows.lookup K =
        s.flows.lookup K ∧
      (s.receive order key traffic_class packet_id payload now_ms).1.tombstones.lookup K =
        s.tombstones.lookup K := by
  unfold receive at hkept ⊢
  by_cases hcontrol : traffic_class = .Control
  · rw [if_pos hcontrol]
    exact ⟨rfl, rfl⟩
  rw [if_neg hcontrol] at hkept ⊢
  cases hl : s.flows.lookup key with
  | none =>
    rw [hl] at hkept
    dsimp only at hkept ⊢
    rw [receive_unknown_eq] at hkept ⊢
    split at hkept
    · next hreplayed =>
      rw [if_pos hreplayed]
      exact ⟨rfl, rfl⟩
    · next hopens =>
      rw [if_neg hopens]
      have hroom := make_room_of_kept (s := s.forget_tombstone key now_ms) hl hkept
      unfold open_flow
      rw [hroom]
      exact ⟨AList.lookup_insert_ne hne.symm, AList.lookup_erase_ne hne.symm⟩
  | some flow =>
    dsimp only
    have hupdates : Updates s
        (receive_known s key flow traffic_class packet_id payload now_ms).1 key _ :=
      receive_known_updates hl
    exact ⟨hupdates.others K hne.symm, by rw [hupdates.tombstones]⟩

/-- An arrival of `K` without a flow. -/
theorem Alike.receive_unknown (h : Alike K now_ms s s') (halone : Alone K s')
    (hl : s.flows.lookup K = none)
    (hkept : ∀ k ∈ s.flows,
      k ∈ (receive_unknown order s K traffic_class packet_id payload now_ms).1.flows) :
    Alike K now_ms (receive_unknown order s K traffic_class packet_id payload now_ms).1
        (receive_unknown order' s' K traffic_class packet_id payload now_ms).1 ∧
      Alone K (receive_unknown order' s' K traffic_class packet_id payload now_ms).1 ∧
      (receive_unknown order' s' K traffic_class packet_id payload now_ms).2 =
        (receive_unknown order s K traffic_class packet_id payload now_ms).2 := by
  have hl' : s'.flows.lookup K = none := h.flow.trans hl
  have hreplayed : s'.replayed K packet_id.get now_ms ↔ s.replayed K packet_id.get now_ms := by
    rw [replayed_iff, replayed_iff, h.tombstone]
  rw [receive_unknown_eq] at hkept ⊢
  rw [receive_unknown_eq]
  by_cases hr : s.replayed K packet_id.get now_ms
  · rw [if_pos hr, if_pos (hreplayed.mpr hr)]
    exact ⟨⟨⟨h.limits, h.flow⟩, h.tombstone⟩, halone.of_mem rfl (fun _ hk => hk) (fun _ hk => hk),
      rfl⟩
  · rw [if_neg hr] at hkept ⊢
    rw [if_neg (fun hr' => hr (hreplayed.mp hr'))]
    have hroom := make_room_of_kept (s := s.forget_tombstone K now_ms) hl hkept
    -- the session that knows `K` alone has no flow and so no need for room
    have hroom' : make_room order' (s'.forget_tombstone K now_ms) now_ms =
        s'.forget_tombstone K now_ms := by
      refine if_neg ?_
      have hempty : s'.flows = ∅ := by
        refine AList.eq_empty ?_
        intro k hk
        rw [halone.flows k hk] at hk
        exact AList.lookup_eq_none.mp hl' hk
      have hpos := (validate_pos halone.accepted).1
      rw [show (s'.forget_tombstone K now_ms).flows = ∅ from hempty]
      exact not_le.mpr hpos
    unfold open_flow
    rw [hroom, hroom']
    refine ⟨⟨⟨h.limits, ?_⟩, ?_⟩, ⟨halone.accepted, ?_, ?_, ?_⟩, rfl⟩
    · dsimp only
      rw [AList.lookup_insert, AList.lookup_insert]
    · unfold live_tombstone forget_tombstone
      dsimp only
      rw [AList.lookup_erase, AList.lookup_erase]
    · intro k hk
      rcases (AList.mem_insert _).mp hk with rfl | hk
      · rfl
      · exact halone.flows k hk
    · intro k hk
      exact halone.tombstones k (AList.mem_erase.mp hk).2
    · intro _ hmem
      exact (AList.mem_erase.mp hmem).1 rfl

/-- An arrival of `K` on its flow. -/
theorem Alike.receive_known {flow : FlowState} (h : Alike K now_ms s s') (halone : Alone K s')
    (hl : s.flows.lookup K = some flow)
    (hbytes : s'.buffered_bytes_session ≤ s.buffered_bytes_session ∨
      u64Max ≤ s.limits.max_bytes_per_session)
    (hnot : (receive_known s K flow traffic_class packet_id payload now_ms).2.dropped ≠
      some .SessionByteCapacity) :
    Alike K now_ms (receive_known s K flow traffic_class packet_id payload now_ms).1
        (receive_known s' K flow traffic_class packet_id payload now_ms).1 ∧
      Alone K (receive_known s' K flow traffic_class packet_id payload now_ms).1 ∧
      (receive_known s' K flow traffic_class packet_id payload now_ms).2 =
        (receive_known s K flow traffic_class packet_id payload now_ms).2 := by
  have hl' : s'.flows.lookup K = some flow := h.flow.trans hl
  have hupdates : Updates s
      (SessionReorder.receive_known s K flow traffic_class packet_id payload now_ms).1 K _ :=
    receive_known_updates hl
  have hupdates' : Updates s'
      (SessionReorder.receive_known s' K flow traffic_class packet_id payload now_ms).1 K _ :=
    receive_known_updates hl'
  -- the flow and the outcome
  have hsame : SameFlow K
        (SessionReorder.receive_known s K flow traffic_class packet_id payload now_ms).1
        (SessionReorder.receive_known s' K flow traffic_class packet_id payload now_ms).1 ∧
      (SessionReorder.receive_known s' K flow traffic_class packet_id payload now_ms).2 =
        (SessionReorder.receive_known s K flow traffic_class packet_id payload now_ms).2 := by
    rw [receive_known_eq] at hnot ⊢
    rw [receive_known_eq]
    have hrefusal : refusal s' flow traffic_class packet_id.get payload =
        refusal s flow traffic_class packet_id.get payload := by
      refine h.toSameFlow.refusal packet_id.get payload hbytes ?_
      intro hr
      rw [hr] at hnot
      exact hnot rfl
    rw [hrefusal]
    cases hr : refusal s flow traffic_class packet_id.get payload with
    | some reason => exact h.toSameFlow.refuse now_ms reason
    | none =>
      dsimp only
      split
      · exact h.toSameFlow.receive_head packet_id payload now_ms
      · exact h.toSameFlow.hold packet_id.get payload now_ms
  refine ⟨⟨hsame.1, ?_⟩, ?_, hsame.2⟩
  · unfold live_tombstone
    rw [hupdates.tombstones, hupdates'.tombstones]
    exact h.tombstone
  · refine halone.of_mem ?_ (fun k hk => hupdates'.mem_flows.mp hk) ?_
    · exact receive_known_limits s' K flow traffic_class packet_id payload now_ms
    · rw [hupdates'.tombstones]
      exact fun _ hk => hk

/-- **An arrival of `K`** has the same outcome in both sessions. -/
theorem Alike.receive (h : Alike K now_ms s s') (order' : Orders) (halone : Alone K s')
    (hbytes : s'.buffered_bytes_session ≤ s.buffered_bytes_session ∨
      u64Max ≤ s.limits.max_bytes_per_session)
    (hkept : ∀ k ∈ s.flows,
      k ∈ (s.receive order K traffic_class packet_id payload now_ms).1.flows)
    (hnot : (s.receive order K traffic_class packet_id payload now_ms).2.dropped ≠
      some .SessionByteCapacity) :
    Alike K now_ms (s.receive order K traffic_class packet_id payload now_ms).1
        (s'.receive order' K traffic_class packet_id payload now_ms).1 ∧
      Alone K (s'.receive order' K traffic_class packet_id payload now_ms).1 ∧
      (s'.receive order' K traffic_class packet_id payload now_ms).2 =
        (s.receive order K traffic_class packet_id payload now_ms).2 := by
  unfold SessionReorder.receive at hkept hnot ⊢
  by_cases hcontrol : traffic_class = .Control
  · rw [if_pos hcontrol, if_pos hcontrol]
    exact ⟨⟨⟨h.limits, h.flow⟩, h.tombstone⟩, halone.of_mem rfl (fun _ hk => hk) (fun _ hk => hk),
      rfl⟩
  rw [if_neg hcontrol] at hkept hnot
  rw [if_neg hcontrol, if_neg hcontrol, h.flow]
  cases hl : s.flows.lookup K with
  | none =>
    rw [hl] at hkept
    exact h.receive_unknown halone hl hkept
  | some flow =>
    rw [hl] at hnot
    exact h.receive_known halone hl hbytes hnot

/-- The deadline pass of `expire` leaves the tombstones. -/
theorem expire_tombstones (s : SessionReorder) (order : Orders) (now_ms : ℕ) :
    (s.expire order now_ms).1.tombstones = (s.after_idle order now_ms).tombstones := by
  obtain ⟨s₁, n, hs₁, _, hstate, _⟩ := expire_eq s order now_ms
  rw [hstate]
  refine (skip_flows_induct (P := fun s' => s'.tombstones = s₁.tombstones) ?_ _ rfl).trans ?_
  · intro s' key h
    exact (skip_head_gap_updates s' key now_ms).tombstones.trans h
  · rw [hs₁]

/-- The tombstone of `K` after `expire`: that of its flow if it was idle, else the
one it had. -/
theorem expire_live (hroom : ¬ IdleEvicts order now_ms (s.purge_expired_tombstones now_ms)
      (idle_flows order (s.purge_expired_tombstones now_ms) now_ms)) :
    (s.expire order now_ms).1.live_tombstone K now_ms =
      match (s.flows.lookup K).filter
        (fun flow => s.limits.flow_idle_ttl_ms ≤ now_ms - flow.last_activity_ms) with
      | some flow =>
        (some ⟨max_observed_for_flow flow, saturatingAdd now_ms s.limits.tombstone_ttl_ms⟩ :
          Option ReorderTombstone).filter (fun t => now_ms < t.expires_at_ms)
      | none => s.live_tombstone K now_ms := by
  unfold live_tombstone
  rw [expire_tombstones]
  cases hidle : (s.flows.lookup K).filter
      (fun flow => s.limits.flow_idle_ttl_ms ≤ now_ms - flow.last_activity_ms) with
  | some flow =>
    obtain ⟨hl, hidle⟩ := Option.filter_eq_some_iff.mp hidle
    exact expire_idle_live_self hroom (nodup_idle_flows order _ now_ms)
      (mem_idle_flows_watermark hl (of_decide_eq_true hidle))
  | none =>
    have hnot : K ∉ (idle_flows order (s.purge_expired_tombstones now_ms) now_ms).map (·.1) := by
      intro hmem
      obtain ⟨flow, hl, hflow⟩ := mem_idle_flows.mp hmem
      have hsome := Option.filter_eq_none_iff.mp hidle flow hl
      exact hsome (decide_eq_true hflow)
    exact (expire_idle_live_other hroom hnot).trans (purge_live s K now_ms)

/-- The idle keys of a session that knows `K` alone. -/
theorem Alone.idle (h : Alone K s) (hmem : key ∈ (idle_flows order s now_ms).map (·.1)) :
    key = K ∧ K ∈ s.flows := by
  obtain ⟨flow, hl, _⟩ := mem_idle_flows.mp hmem
  have hkey := h.flows key (AList.mem_of_lookup hl)
  exact ⟨hkey, hkey ▸ AList.mem_of_lookup hl⟩

theorem Alone.purge (h : Alone K s) (now_ms : ℕ) : Alone K (s.purge_expired_tombstones now_ms) := by
  refine h.of_mem rfl (fun _ hk => hk) ?_
  intro k hk
  obtain ⟨t, ht⟩ := AList.mem_iff_lookup.mp hk
  exact AList.mem_of_lookup (AList.lookup_retain_eq_some.mp ht).1

/-- The session that knows `K` alone evicts no tombstone: the flow of `K` can idle out
only while there is no tombstone. -/
theorem Alone.not_idleEvicts (h : Alone K s) :
    ¬ IdleEvicts order now_ms s (idle_flows order s now_ms) := by
  have hidle := fun key => @Alone.idle s K key now_ms order h
  have hnodup := nodup_idle_flows order s now_ms
  generalize idle_flows order s now_ms = idle at hidle hnodup ⊢
  cases idle with
  | nil => exact id
  | cons entry rest =>
    obtain ⟨hkey, hflow⟩ := hidle entry.1 List.mem_cons_self
    have hrest : rest = [] := by
      refine List.eq_nil_iff_forall_not_mem.mpr ?_
      intro e he
      have hmem : e.1 ∈ rest.map (·.1) := List.mem_map_of_mem he
      have he' := (hidle e.1 (List.mem_cons_of_mem _ hmem)).1
      rw [he', ← hkey] at hmem
      exact (List.nodup_cons.mp hnodup).1 hmem
    have hempty : s.tombstones = ∅ := by
      refine AList.eq_empty ?_
      intro k hk
      have hk' := h.tombstones k hk
      subst hk'
      exact h.apart hflow hk
    have hlen := purge_len_le (s.remove_flow entry.1) now_ms
    rw [remove_flow_tombstones, hempty, AList.len_empty] at hlen
    have hpos := (validate_pos h.accepted).2
    subst hrest
    rintro (hfull | hfalse)
    · unfold TombstonesFull at hfull
      rw [remove_flow_limits] at hfull
      omega
    · exact hfalse

theorem expire_idle_tombstones {idle : List (ReceiveKey × U64)}
    (hmem : key ∈ (expire_idle order s now_ms idle).tombstones) :
    key ∈ idle.map (·.1) ∨ key ∈ s.tombstones := by
  induction idle generalizing s with
  | nil => exact .inr hmem
  | cons entry idle ih =>
    unfold expire_idle at hmem
    rcases ih hmem with hidle | hmem
    · exact .inl (List.mem_cons_of_mem _ hidle)
    · obtain ⟨t, ht⟩ := AList.mem_iff_lookup.mp hmem
      rcases insert_tombstone_lookup ht with ⟨rfl, _⟩ | ⟨_, hold⟩
      · exact .inl List.mem_cons_self
      · rw [remove_flow_tombstones] at hold
        exact .inr (AList.mem_of_lookup hold)

/-- `expire` brings in no other key, and no tombstone beside a flow. -/
theorem Alone.expire (h : Alone K s) : Alone K (s.expire order now_ms).1 := by
  have hidle := fun key => @Alone.idle (s.purge_expired_tombstones now_ms) K key now_ms order
    (h.purge now_ms)
  refine ⟨?_, ?_, ?_, ?_⟩
  · rw [expire_limits]
    exact h.accepted
  · intro k hk
    obtain ⟨f, hf⟩ := AList.mem_iff_lookup.mp hk
    obtain ⟨flow, hl, _⟩ := of_expire_lookup hf
    exact h.flows k (AList.mem_of_lookup hl)
  · intro k hk
    rw [expire_tombstones] at hk
    rcases expire_idle_tombstones hk with hmem | hold
    · exact (hidle k hmem).1
    · exact (h.purge now_ms).tombstones k hold
  · intro hflow hmem
    obtain ⟨f, hf⟩ := AList.mem_iff_lookup.mp hflow
    obtain ⟨flow, hl, hactive⟩ := of_expire_lookup hf
    rw [expire_tombstones] at hmem
    rcases expire_idle_tombstones hmem with hidle | hold
    · obtain ⟨flow', hl', hexpired⟩ := mem_idle_flows.mp hidle
      have hl' : s.flows.lookup K = some flow' := hl'
      have hexpired : s.limits.flow_idle_ttl_ms ≤ now_ms - flow'.last_activity_ms := hexpired
      rw [hl] at hl'
      obtain rfl := Option.some.inj hl'
      omega
    · exact (h.purge now_ms).apart (AList.mem_of_lookup hl) hold

/-- **`expire`** reports the same deliveries of `K` in both sessions. -/
theorem Alike.expire (h : Alike K now_ms s s') (order' : Orders) (halone : Alone K s')
    (hroom : ¬ IdleEvicts order now_ms (s.purge_expired_tombstones now_ms)
      (idle_flows order (s.purge_expired_tombstones now_ms) now_ms)) :
    Alike K now_ms (s.expire order now_ms).1 (s'.expire order' now_ms).1 ∧
      Alone K (s'.expire order' now_ms).1 ∧
      under K (s'.expire order' now_ms).2.delivered =
        under K (s.expire order now_ms).2.delivered := by
  have hidle : (s'.after_idle order' now_ms).flows.lookup K =
      (s.after_idle order now_ms).flows.lookup K := by
    rw [after_idle_lookup, after_idle_lookup, h.flow, h.limits]
  have hlive : (s'.expire order' now_ms).1.live_tombstone K now_ms =
      (s.expire order now_ms).1.live_tombstone K now_ms := by
    rw [expire_live hroom, expire_live (halone.purge now_ms).not_idleEvicts, h.flow, h.limits,
      h.tombstone]
  have hlimits : (s'.expire order' now_ms).1.limits = (s.expire order now_ms).1.limits := by
    rw [expire_limits, expire_limits, h.limits]
  have hflow : (s'.expire order' now_ms).1.flows.lookup K =
        (s.expire order now_ms).1.flows.lookup K ∧
      under K (s'.expire order' now_ms).2.delivered =
        under K (s.expire order now_ms).2.delivered := by
    cases hl : (s.after_idle order now_ms).flows.lookup K with
    | none =>
      obtain ⟨hflow, hout⟩ := expire_of_absent hl
      obtain ⟨hflow', hout'⟩ := expire_of_absent (hidle.trans hl)
      rw [hflow, hflow', hout, hout']
      exact ⟨rfl, rfl⟩
    | some flow =>
      obtain ⟨s₁, hlimits₁, hl₁, hflow, hout⟩ := expire_of_present hl
      obtain ⟨s₁', hlimits₁', hl₁', hflow', hout'⟩ := expire_of_present (hidle.trans hl)
      have hsame : SameFlow K s₁ s₁' :=
        ⟨hlimits₁'.trans (h.limits.trans hlimits₁.symm), hl₁'.trans hl₁.symm⟩
      obtain ⟨hskips, hds⟩ := hsame.skip_expired_gaps (s₁.held K + 1) now_ms
      rw [hflow, hflow', hout, hout', hsame.held, hds]
      exact ⟨hskips.flow, rfl⟩
  exact ⟨⟨⟨hlimits, hflow.1⟩, hlive⟩, halone.expire, hflow.2⟩

end Calls

end SessionReorder

/-! ## Runs -/

namespace ReorderCall

/-- The call evicts a flow or a tombstone for capacity. -/
def evicts (s : SessionReorder) : ReorderCall → Prop
  | .receive key traffic_class packet_id payload now order =>
    ∃ k ∈ s.flows.keys, k ∉ (s.receive order key traffic_class packet_id payload now).1.flows
  | .expire now order =>
    SessionReorder.IdleEvicts order now (s.purge_expired_tombstones now)
      (SessionReorder.idle_flows order (s.purge_expired_tombstones now) now)

instance (s : SessionReorder) : DecidablePred (ReorderCall.evicts s)
  | .receive _ _ _ _ _ _ => inferInstanceAs (Decidable (∃ k ∈ s.flows.keys, _))
  | .expire now order => inferInstanceAs (Decidable (SessionReorder.IdleEvicts order now _ _))

/-- The arrival is dropped for the bytes of the session. -/
def exceeds_session (s : SessionReorder) : ReorderCall → Prop
  | .receive key traffic_class packet_id payload now order =>
    (s.receive order key traffic_class packet_id payload now).2.dropped =
      some .SessionByteCapacity
  | .expire _ _ => False

instance (s : SessionReorder) : DecidablePred (ReorderCall.exceeds_session s)
  | .receive _ _ _ _ _ _ => inferInstanceAs (Decidable (_ = _))
  | .expire _ _ => inferInstanceAs (Decidable False)

/-- The call stays when the arrivals of all keys but `K` are deleted. -/
def concerns (K : ReceiveKey) : ReorderCall → Bool
  | .receive key _ _ _ _ _ => key = K
  | .expire _ _ => true

/-- The same call; the hash maps may be iterated in another order. -/
inductive SameCall : ReorderCall → ReorderCall → Prop where
  | receive (key : ReceiveKey) (traffic_class : TrafficClass) (packet_id : PacketId)
      (payload : Bytes) (now_ms : ℕ) (order order' : SessionReorder.Orders) :
      SameCall (.receive key traffic_class packet_id payload now_ms order)
        (.receive key traffic_class packet_id payload now_ms order')
  | expire (now_ms : ℕ) (order order' : SessionReorder.Orders) :
      SameCall (.expire now_ms order) (.expire now_ms order')

theorem SameCall.refl (call : ReorderCall) : call.SameCall call := by
  cases call with
  | receive => exact .receive _ _ _ _ _ _ _
  | expire => exact .expire _ _ _

end ReorderCall

/-- What one key sees of a call: the outcome of its own `receive`, or its own entries
in the report of an `expire`. -/
inductive Seen where
  | outcome (outcome : ReorderOutcome)
  | entries (entries : List (ReceiveKey × PacketId × Bytes))

def ReorderTurn.seen (K : ReceiveKey) (turn : ReorderTurn) : Option Seen :=
  match turn.call, turn.reply with
  | .receive key _ _ _ _ _, .outcome outcome => if key = K then some (.outcome outcome) else none
  | .expire _ _, .report report => some (.entries (SessionReorder.under K report.delivered))
  | _, _ => none

section Runs

variable {K : ReceiveKey} {s s' t t' : SessionReorder} {now_ms : ℕ} {calls calls' : List ReorderCall}
  {turns turns' : List ReorderTurn}

/-- What the two runs have in common after the same calls of `K`. -/
structure Isolated (K : ReceiveKey) (now_ms : ℕ) (s s' : SessionReorder) : Prop where
  alike : SessionReorder.Alike K now_ms s s'
  alone : SessionReorder.Alone K s'
  sized : s.Sized
  sized' : s'.Sized

/-- **A deleted call.** -/
theorem Isolated.other (h : Isolated K now_ms s s') {call : ReorderCall}
    (hle : now_ms ≤ call.now_ms) (hnot : call.concerns K = false) (hevicts : ¬ call.evicts s) :
    Isolated K call.now_ms (call.perform s).1 s' := by
  cases call with
  | expire => contradiction
  | receive key traffic_class packet_id payload now order =>
    have hne : key ≠ K := by simpa [ReorderCall.concerns] using hnot
    have hkept : ∀ k ∈ s.flows,
        k ∈ (s.receive order key traffic_class packet_id payload now).1.flows := by
      intro k hk
      by_contra hgone
      exact hevicts ⟨k, hk, hgone⟩
    obtain ⟨hflow, htombstone⟩ := SessionReorder.receive_other hne hkept
    have hlater := h.alike.mono hle
    refine ⟨⟨⟨?_, hlater.flow.trans hflow.symm⟩, ?_⟩, h.alone, h.sized.perform _, h.sized'⟩
    · exact hlater.limits.trans (s.receive_limits order key traffic_class packet_id payload now).symm
    · refine hlater.tombstone.trans ?_
      unfold SessionReorder.live_tombstone
      exact congrArg _ htombstone.symm

/-- **A call that both runs make.** -/
theorem Isolated.same (h : Isolated K now_ms s s') {call call' : ReorderCall}
    (hsame : call.SameCall call') (hle : now_ms ≤ call.now_ms) (hconcerns : call.concerns K = true)
    (hevicts : ¬ call.evicts s) (hexceeds : ¬ call.exceeds_session s) :
    Isolated K call.now_ms (call.perform s).1 (call'.perform s').1 ∧
      (ReorderTurn.mk call' (call'.perform s').2).seen K =
        (ReorderTurn.mk call (call.perform s).2).seen K := by
  have hlater := h.alike.mono hle
  have hbytes := h.alone.bytes h.alike.toSameFlow h.sized h.sized'
  cases hsame with
  | expire now order order' =>
    obtain ⟨halike, halone, hout⟩ := hlater.expire order' h.alone hevicts
    exact ⟨⟨halike, halone, h.sized.perform _, h.sized'.perform _⟩,
      congrArg (fun entries => some (Seen.entries entries)) hout⟩
  | receive key traffic_class packet_id payload now order order' =>
    have hkey : key = K := by simpa [ReorderCall.concerns] using hconcerns
    subst hkey
    have hkept : ∀ k ∈ s.flows,
        k ∈ (s.receive order key traffic_class packet_id payload now).1.flows := by
      intro k hk
      by_contra hgone
      exact hevicts ⟨k, hk, hgone⟩
    obtain ⟨halike, halone, hout⟩ := hlater.receive order' h.alone hbytes hkept hexceeds
    have hout : (s'.receive order' key traffic_class packet_id payload now).2 =
        (s.receive order key traffic_class packet_id payload now).2 := hout
    refine ⟨⟨halike, halone, h.sized.perform _, h.sized'.perform _⟩, ?_⟩
    unfold ReorderTurn.seen ReorderCall.perform
    dsimp only
    rw [hout]

/-- **The run lemma**, by induction on the calls of the longer run. -/
theorem Isolated.run (h : Isolated K now_ms s s')
    (hclock : (now_ms :: calls.map ReorderCall.now_ms).Pairwise (· ≤ ·))
    (hquiet : Along ReorderCall.turn (fun s call => ¬ call.evicts s ∧ ¬ call.exceeds_session s) s
      calls)
    (hcalls : List.Forall₂ ReorderCall.SameCall (calls.filter (ReorderCall.concerns K)) calls')
    (hrun : exec ReorderCall.turn s calls = some (t, turns))
    (hrun' : exec ReorderCall.turn s' calls' = some (t', turns')) :
    turns'.filterMap (ReorderTurn.seen K) = turns.filterMap (ReorderTurn.seen K) := by
  induction calls generalizing s s' now_ms calls' turns turns' with
  | nil =>
    obtain rfl := List.forall₂_nil_left_iff.mp hcalls
    obtain ⟨_, rfl⟩ := step_inj hrun
    obtain ⟨_, rfl⟩ := step_inj hrun'
    rfl
  | cons call calls ih =>
    have hstep : ReorderCall.turn s call = some ((call.perform s).1, [⟨call, (call.perform s).2⟩]) :=
      rfl
    obtain ⟨s₁, o, rest, hs, hrest, rfl⟩ := exec_cons_eq_some.mp hrun
    obtain ⟨rfl, rfl⟩ := step_inj (hstep.symm.trans hs)
    obtain ⟨⟨hevicts, hexceeds⟩, hquiet⟩ := (along_cons hstep).mp hquiet
    obtain ⟨hfirst, hclock⟩ := List.pairwise_cons.mp hclock
    have hle : now_ms ≤ call.now_ms := hfirst _ List.mem_cons_self
    cases hconcerns : call.concerns K with
    | false =>
      rw [List.filter_cons_of_neg (by simp [hconcerns])] at hcalls
      have hnone : (ReorderTurn.mk call (call.perform s).2).seen K = none := by
        cases call with
        | expire => contradiction
        | receive key =>
          have hne : key ≠ K := by simpa [ReorderCall.concerns] using hconcerns
          exact if_neg hne
      rw [List.singleton_append, List.filterMap_cons_none hnone]
      exact ih (h.other hle hconcerns hevicts) hclock hquiet hcalls hrest hrun'
    | true =>
      rw [List.filter_cons_of_pos hconcerns] at hcalls
      obtain ⟨call', calls'', hsame, hothers, rfl⟩ := List.forall₂_cons_left_iff.mp hcalls
      have hstep' : ReorderCall.turn s' call' =
          some ((call'.perform s').1, [⟨call', (call'.perform s').2⟩]) := rfl
      obtain ⟨s₁', o', rest', hs', hrest', rfl⟩ := exec_cons_eq_some.mp hrun'
      obtain ⟨rfl, rfl⟩ := step_inj (hstep'.symm.trans hs')
      obtain ⟨hnext, hseen⟩ := h.same hsame hle hconcerns hevicts hexceeds
      rw [List.filterMap_append, List.filterMap_append, ih hnext hclock hquiet hothers hrest hrest']
      simp only [List.filterMap_cons, List.filterMap_nil, hseen]

theorem new_isolated {limits : ReorderLimits} (hnew : SessionReorder.new limits = .ok s) :
    Isolated K 0 s s := by
  obtain ⟨hbounded, hlimits⟩ := SessionReorder.new_bounded hnew
  have hempty : s.flows = ∅ ∧ s.tombstones = ∅ := by
    unfold SessionReorder.new at hnew
    split at hnew
    · contradiction
    obtain rfl := Except.ok.inj hnew
    exact ⟨rfl, rfl⟩
  refine ⟨⟨⟨rfl, rfl⟩, rfl⟩, ⟨hbounded.accepted, ?_, ?_, ?_⟩, fun _ => hbounded, fun _ => hbounded⟩
  · rw [hempty.1]
    exact fun k hk => absurd hk (AList.notMem_empty k)
  · rw [hempty.2]
    exact fun k hk => absurd hk (AList.notMem_empty k)
  · rw [hempty.1]
    exact fun hk => absurd hk (AList.notMem_empty K)

/-- **No interference between keys.** Take a run in time order in which nothing is
evicted for capacity and nothing dropped for the bytes of the session, and delete the
arrivals of all keys but `K`. The outcomes of the arrivals of `K` and its entries in
the reports are the same. -/
theorem keys_isolated {limits : ReorderLimits} (K : ReceiveKey)
    (hnew : SessionReorder.new limits = .ok s)
    (hclock : (calls.map ReorderCall.now_ms).Pairwise (· ≤ ·))
    (hquiet : Along ReorderCall.turn (fun s call => ¬ call.evicts s ∧ ¬ call.exceeds_session s) s
      calls)
    (hcalls : List.Forall₂ ReorderCall.SameCall (calls.filter (ReorderCall.concerns K)) calls')
    (hrun : exec ReorderCall.turn s calls = some (t, turns))
    (hrun' : exec ReorderCall.turn s calls' = some (t', turns')) :
    turns'.filterMap (ReorderTurn.seen K) = turns.filterMap (ReorderTurn.seen K) := by
  refine (new_isolated hnew).run ?_ hquiet hcalls hrun hrun'
  exact List.pairwise_cons.mpr ⟨fun _ _ => Nat.zero_le _, hclock⟩

end Runs

namespace Sample

/-- Room for four flows. -/
def wide : ReorderLimits := ⟨4, 8, 1024, 4096, 1000, 10, 20, 30, 4, 5000, 16⟩

def wide_start : SessionReorder := ⟨wide, ∅, ∅, 0, .default⟩

/-- Two flows with a gap each, which `expire` skips; both idle out, and key 1 replays. -/
def mixed : List ReorderCall :=
  [.receive (key 1) .Bulk ⟨5⟩ [] 0 default, .receive (key 2) .Bulk ⟨1⟩ [] 0 default,
    .receive (key 1) .Bulk ⟨8⟩ [1] 1 default, .receive (key 2) .Bulk ⟨3⟩ [2] 2 default,
    .expire 40 default, .expire 2000 default, .receive (key 1) .Bulk ⟨7⟩ [] 2001 default]

end Sample

open Sample in
/-- The run of `Sample.mixed`, and the same without the arrivals of key 2. -/
theorem keys_isolated_mixed :
    ∃ t turns t' turns', exec ReorderCall.turn wide_start mixed = some (t, turns) ∧
      exec ReorderCall.turn wide_start (mixed.filter (ReorderCall.concerns (key 1))) =
        some (t', turns') ∧
      turns'.filterMap (ReorderTurn.seen (key 1)) = turns.filterMap (ReorderTurn.seen (key 1)) := by
  have hnew : SessionReorder.new wide = .ok wide_start := rfl
  have hclock : (mixed.map ReorderCall.now_ms).Pairwise (· ≤ ·) := by
    decide
  have hquiet : Along ReorderCall.turn
      (fun s call => ¬ call.evicts s ∧ ¬ call.exceeds_session s) wide_start mixed := by
    decide
  have hcalls : List.Forall₂ ReorderCall.SameCall (mixed.filter (ReorderCall.concerns (key 1)))
      (mixed.filter (ReorderCall.concerns (key 1))) :=
    List.forall₂_same.mpr (fun call _ => .refl call)
  cases hrun : exec ReorderCall.turn wide_start mixed with
  | none => contradiction
  | some r =>
    cases hrun' : exec ReorderCall.turn wide_start
        (mixed.filter (ReorderCall.concerns (key 1))) with
    | none => contradiction
    | some r' =>
      exact ⟨r.1, r.2, r'.1, r'.2, rfl, rfl,
        keys_isolated (key 1) hnew hclock hquiet hcalls hrun hrun'⟩

end StreamGuard.Multipath
