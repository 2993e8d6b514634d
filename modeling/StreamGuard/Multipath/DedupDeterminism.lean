/-
Two runs of `SessionDedup` that differ in the iteration order of the hash maps, and the
result for both layers.

The relation is that of the reorder layer without its byte and skip counters. The tables of
tombstones are shared, so the only operation with a lemma of its own here is the eviction
of a flow.
-/
import StreamGuard.Multipath.DedupReplay
import StreamGuard.Multipath.ReorderDeterminism

set_option autoImplicit false

namespace StreamGuard.Multipath

open StreamGuard StreamGuard.Lib

namespace SessionDedup

open SessionReorder (min_by evicts_before min_by_mem min_by_isSome)

/-- The same session up to the order of its hash maps. -/
structure Agree (s s' : SessionDedup) : Prop where
  limits : s'.limits = s.limits
  flows : ∀ k, s'.flows.lookup k = s.flows.lookup k
  tombstones : ∀ k, s'.tombstones.lookup k = s.tombstones.lookup k

/-- No key has a flow and a tombstone, and the tombstones are within their limit. -/
def Kept (s : SessionDedup) : Prop :=
  Tabled s.flows s.tombstones s.limits.max_tombstones s.limits.tombstone_ttl_ms

section Steps

variable {s s' : SessionDedup} {key : ReceiveKey} {flow : FlowDedup} {id : U64} {now_ms : ℕ}
  {order order' : Orders}

/-! ## Retiring keys -/

theorem insert_tombstone_tombstones (order : Traversal ReceiveKey DedupTombstone)
    (s : SessionDedup) (key : ReceiveKey) (watermark : U64) (now_ms : ℕ) :
    (insert_tombstone order s key watermark now_ms).tombstones =
      retired order s.limits.max_tombstones s.tombstones key
        (tombstone s.limits.tombstone_ttl_ms now_ms watermark) now_ms := by
  have hlimits : (evict_tombstone order (s.purge_expired_tombstones now_ms)).limits = s.limits :=
    (insert_tombstone_frame order s key watermark now_ms).2
  simp only [insert_tombstone, hlimits]
  unfold evict_tombstone
  exact retired_eq SessionDedup.tombstones (s := s.purge_expired_tombstones now_ms) rfl
    (fun _ => by rfl) key _

/-- A flow makes way for its tombstone, in both. -/
theorem Agree.retire {r r' : SessionDedup} (h : Agree s s') (key : ReceiveKey)
    (hmax : 0 < s.limits.max_tombstones)
    (hlimits : r.limits = s.limits) (hlimits' : r'.limits = s'.limits)
    (hflows : r.flows = s.flows.erase key) (hflows' : r'.flows = s'.flows.erase key)
    (htombstones : r.tombstones = s.tombstones) (htombstones' : r'.tombstones = s'.tombstones)
    {order order' : Traversal ReceiveKey DedupTombstone} (watermark : U64) (now_ms : ℕ) :
    Agree (insert_tombstone order r key watermark now_ms)
      (insert_tombstone order' r' key watermark now_ms) := by
  obtain ⟨hf, hl⟩ := insert_tombstone_frame order r key watermark now_ms
  obtain ⟨hf', hl'⟩ := insert_tombstone_frame order' r' key watermark now_ms
  refine ⟨?_, ?_, ?_⟩
  · rw [hl, hl', hlimits, hlimits', h.limits]
  · intro k
    rw [hf, hf', hflows, hflows', AList.lookup_erase_of, AList.lookup_erase_of, h.flows]
  · intro k
    rw [insert_tombstone_tombstones, insert_tombstone_tombstones, hlimits, hlimits', h.limits,
      htombstones, htombstones']
    exact retired_congr hmax h.tombstones k

theorem Kept.retire {r : SessionDedup} (h : s.Kept) (key : ReceiveKey) (hlimits : r.limits = s.limits)
    (hflows : r.flows = s.flows.erase key) (htombstones : r.tombstones = s.tombstones)
    {order : Traversal ReceiveKey DedupTombstone} {watermark : U64} :
    (insert_tombstone order r key watermark now_ms).Kept := by
  unfold Kept
  rw [(insert_tombstone_frame _ _ _ _ _).1, (insert_tombstone_frame _ _ _ _ _).2,
    insert_tombstone_tombstones, hlimits, hflows, htombstones]
  exact Tabled.retire h

theorem Kept.make_room (h : s.Kept) : (make_room order s now_ms).Kept := by
  unfold SessionDedup.make_room evict_oldest_flow
  split
  · split
    · next oldest _ =>
      refine h.retire oldest.1 ?_ ?_ ?_ <;> rfl
    · exact h
  · exact h

theorem Agree.make_room (h : Agree s s') (order order' : Orders) (hmax : 0 < s.limits.max_tombstones)
    (holdest : s.limits.max_flows ≤ s.flows.len →
      UniqueOldest FlowDedup.last_activity_ms s.flows) :
    Agree (make_room order s now_ms) (make_room order' s' now_ms) := by
  have hlen := AList.len_congr h.flows
  unfold SessionDedup.make_room
  by_cases hfull : s.limits.max_flows ≤ s.flows.len
  · rw [if_pos hfull, h.limits, hlen, if_pos hfull]
    unfold evict_oldest_flow
    have hsame : min_by older_activity (order'.flows.visit s'.flows.entries) =
        min_by older_activity (order.flows.visit s.flows.entries) :=
      (holdest hfull).min_by_eq h.flows
    rw [hsame]
    split
    · next oldest _ =>
      refine h.retire oldest.1 hmax ?_ ?_ ?_ ?_ ?_ ?_ _ now_ms <;> rfl
    · exact h
  · rw [if_neg hfull, h.limits, hlen, if_neg hfull]
    exact h

/-! ## `observe` -/

/-- Writing the same flow to both. -/
theorem Agree.write {r r' : SessionDedup} (h : Agree s s') (hlimits : r.limits = s.limits)
    (hlimits' : r'.limits = s'.limits) (hflows : r.flows = s.flows.insert key flow)
    (hflows' : r'.flows = s'.flows.insert key flow) (htombstones : r.tombstones = s.tombstones)
    (htombstones' : r'.tombstones = s'.tombstones) : Agree r r' := by
  refine ⟨?_, ?_, ?_⟩
  · rw [hlimits, hlimits', h.limits]
  · intro k
    rw [hflows, hflows', AList.lookup_insert_of, AList.lookup_insert_of, h.flows]
  · intro k
    rw [htombstones, htombstones', h.tombstones]

/-- What `observe` writes for a key whose flow is held: the flow alone. -/
theorem observe_known_eq (s : SessionDedup) (key : ReceiveKey) (flow : FlowDedup) (id : U64)
    (now_ms : ℕ) : ∃ m, (observe_known s key flow id now_ms).1 =
      { s with
        flows := s.flows.insert key
          (if id ∈ flow.seen then { flow with last_activity_ms := now_ms }
          else ⟨(if s.limits.max_packets_per_flow ≤ flow.seen.len then
              match flow.seen.firstKey with
              | some smallest => flow.seen.erase smallest
              | none => flow.seen
            else flow.seen).insert id (), now_ms⟩)
        metrics := m } ∧
      (observe_known s key flow id now_ms).2 = if id ∈ flow.seen then .Duplicate else .New := by
  unfold SessionDedup.observe_known
  by_cases hid : id ∈ flow.seen
  · rw [if_pos hid, if_pos hid, if_pos hid]
    exact ⟨_, rfl, rfl⟩
  · rw [if_neg hid, if_neg hid, if_neg hid]
    by_cases hfull : s.limits.max_packets_per_flow ≤ flow.seen.len
    · rw [if_pos hfull, if_pos hfull]
      cases flow.seen.firstKey with
      | some smallest => exact ⟨_, rfl, rfl⟩
      | none => exact ⟨_, rfl, rfl⟩
    · rw [if_neg hfull, if_neg hfull]
      exact ⟨_, rfl, rfl⟩

theorem Agree.observe_known (h : Agree s s') :
    Agree (observe_known s key flow id now_ms).1 (observe_known s' key flow id now_ms).1 ∧
      (observe_known s' key flow id now_ms).2 = (observe_known s key flow id now_ms).2 := by
  obtain ⟨m, he, hout⟩ := observe_known_eq s key flow id now_ms
  obtain ⟨m', he', hout'⟩ := observe_known_eq s' key flow id now_ms
  refine ⟨?_, hout'.trans hout.symm⟩
  rw [he, he', h.limits]
  exact h.write rfl h.limits.symm rfl rfl rfl rfl

theorem Kept.observe_known (h : s.Kept) (hl : s.flows.lookup key = some flow) :
    (observe_known s key flow id now_ms).1.Kept := by
  obtain ⟨m, he, _⟩ := observe_known_eq s key flow id now_ms
  rw [he]
  exact Tabled.write h (h.apart key (AList.mem_of_lookup hl)) _

/-- A key that was forgotten opens a flow, in both. -/
theorem Agree.open_flow (h : Agree s s') (order order' : Orders) (hmax : 0 < s.limits.max_tombstones)
    (holdest : s.limits.max_flows ≤ s.flows.len →
      UniqueOldest FlowDedup.last_activity_ms s.flows) :
    Agree (open_flow order s key id now_ms).1 (open_flow order' s' key id now_ms).1 :=
  (h.make_room order order' hmax holdest).write rfl rfl rfl rfl rfl rfl

theorem Agree.forget (h : Agree s s') (key : ReceiveKey) (m m' : DedupMetrics) :
    Agree { s with tombstones := s.tombstones.erase key, metrics := m }
      { s' with tombstones := s'.tombstones.erase key, metrics := m' } := by
  refine ⟨h.limits, h.flows, ?_⟩
  intro k
  dsimp only
  rw [AList.lookup_erase_of, AList.lookup_erase_of, h.tombstones]

/-- The tombstone of `key` rejects the packet ID as a replay. -/
def replayed (s : SessionDedup) (key : ReceiveKey) (id : U64) (now_ms : ℕ) : Prop :=
  ∃ t ∈ s.tombstones.lookup key, now_ms < t.expires_at_ms ∧ id ≤ t.watermark

instance (s : SessionDedup) (key : ReceiveKey) (id : U64) (now_ms : ℕ) :
    Decidable (s.replayed key id now_ms) :=
  inferInstanceAs (Decidable (∃ t ∈ s.tombstones.lookup key, _))

/-- **An ID for a key without a flow** is a replay, or opens a flow once the tombstone is
forgotten. -/
theorem observe_unknown_cases (order : Orders) (s : SessionDedup) (key : ReceiveKey) (id : U64)
    (now_ms : ℕ) :
    s.replayed key id now_ms ∧ (∃ m, observe_unknown order s key id now_ms =
        ({ s with metrics := m }, .Duplicate)) ∨
      ¬ s.replayed key id now_ms ∧ ∃ m, observe_unknown order s key id now_ms =
        open_flow order { s with tombstones := s.tombstones.erase key, metrics := m } key id
          now_ms := by
  unfold SessionDedup.observe_unknown replayed
  rcases Option.eq_none_or_eq_some (s.tombstones.lookup key) with ht | ⟨t, ht⟩
  · have herase : s.tombstones.erase key = s.tombstones :=
      AList.erase_of_notMem (AList.lookup_eq_none.mp ht)
    rw [ht, herase]
    exact .inr ⟨by simp, s.metrics, rfl⟩
  · rw [ht]
    dsimp only
    by_cases hexp : t.expires_at_ms ≤ now_ms
    · rw [if_pos hexp]
      refine .inr ⟨?_, _, rfl⟩
      rintro ⟨u, hu, hlive, _⟩
      obtain rfl := Option.some.inj hu
      omega
    · rw [if_neg hexp]
      by_cases hid : id ≤ t.watermark
      · rw [if_pos hid]
        exact .inl ⟨⟨t, rfl, by omega, hid⟩, _, rfl⟩
      · rw [if_neg hid]
        refine .inr ⟨?_, s.metrics, rfl⟩
        rintro ⟨u, hu, _, hle⟩
        obtain rfl := Option.some.inj hu
        exact hid hle

/-- **One packet ID.** -/
theorem Agree.observe {packet_id : PacketId} (h : Agree s s') (order order' : Orders)
    (hmax : 0 < s.limits.max_tombstones)
    (holdest : key ∉ s.flows → ¬ s.replayed key packet_id.get now_ms →
      s.limits.max_flows ≤ s.flows.len → UniqueOldest FlowDedup.last_activity_ms s.flows) :
    Agree (s.observe order key packet_id now_ms).1 (s'.observe order' key packet_id now_ms).1 ∧
      (s'.observe order' key packet_id now_ms).2 = (s.observe order key packet_id now_ms).2 := by
  unfold SessionDedup.observe
  rw [h.flows]
  cases hl : s.flows.lookup key with
  | some flow => exact h.observe_known
  | none =>
    dsimp only
    have hreplayed : s'.replayed key packet_id.get now_ms ↔ s.replayed key packet_id.get now_ms := by
      unfold replayed
      rw [h.tombstones]
    rcases observe_unknown_cases order s key packet_id.get now_ms with ⟨hr, m, he⟩ | ⟨hr, m, he⟩
    · rcases observe_unknown_cases order' s' key packet_id.get now_ms with
        ⟨_, m', he'⟩ | ⟨hr', _⟩
      · rw [he, he']
        exact ⟨⟨h.limits, h.flows, h.tombstones⟩, rfl⟩
      · exact absurd (hreplayed.mpr hr) hr'
    · rcases observe_unknown_cases order' s' key packet_id.get now_ms with
        ⟨hr', _⟩ | ⟨_, m', he'⟩
      · exact absurd (hreplayed.mp hr') hr
      · rw [he, he']
        have hforget : Agree { s with tombstones := s.tombstones.erase key, metrics := m }
            { s' with tombstones := s'.tombstones.erase key, metrics := m' } :=
          h.forget key m m'
        refine ⟨hforget.open_flow order order' hmax ?_, rfl⟩
        exact holdest (AList.lookup_eq_none.mp hl) hr

theorem Kept.observe {packet_id : PacketId} (h : s.Kept) :
    (s.observe order key packet_id now_ms).1.Kept := by
  unfold SessionDedup.observe
  cases hl : s.flows.lookup key with
  | some flow => exact h.observe_known hl
  | none =>
    dsimp only
    rcases observe_unknown_cases order s key packet_id.get now_ms with ⟨_, m, he⟩ | ⟨_, m, he⟩
    · rw [he]
      exact h
    · rw [he]
      have hforget : SessionDedup.Kept
          { s with tombstones := s.tombstones.erase key, metrics := m } := Tabled.forget h key
      have hroom : (SessionDedup.make_room order
          { s with tombstones := s.tombstones.erase key, metrics := m } now_ms).Kept :=
        hforget.make_room
      refine Tabled.write hroom ?_ _
      exact AList.lookup_eq_none.mp (make_room_absent order now_ms hl
        (AList.lookup_erase key s.tombstones))

/-! ## `expire` -/

theorem expire_idle_table (idle : List (ReceiveKey × U64)) (s : SessionDedup) :
    (expire_idle order s now_ms idle).limits = s.limits ∧
      (expire_idle order s now_ms idle).tombstones =
        retire_all order.tombstones s.limits.max_tombstones s.limits.tombstone_ttl_ms now_ms
          s.tombstones idle := by
  induction idle generalizing s with
  | nil => exact ⟨rfl, rfl⟩
  | cons e idle ih =>
    unfold expire_idle retire_all
    obtain ⟨hlimits, htable⟩ := ih (insert_tombstone order.tombstones
      { s with flows := s.flows.erase e.1 } e.1 e.2 now_ms)
    rw [hlimits, htable, (insert_tombstone_frame _ _ _ _ _).2, insert_tombstone_tombstones]
    exact ⟨rfl, rfl⟩

theorem expire_idle_lookup (idle : List (ReceiveKey × U64)) (s : SessionDedup) (k : ReceiveKey) :
    (expire_idle order s now_ms idle).flows.lookup k =
      if k ∈ idle.map (·.1) then none else s.flows.lookup k := by
  induction idle generalizing s with
  | nil => rfl
  | cons e idle ih =>
    unfold expire_idle
    rw [ih, (insert_tombstone_frame _ _ _ _ _).1]
    dsimp only
    rw [AList.lookup_erase_of]
    by_cases hk : k = e.1
    · simp [hk]
    · simp [hk]

/-- **One pass of time**: a batch of idle flows that fits. -/
theorem Agree.expire (h : Agree s s') (order order' : Orders) (hkept : s.Kept)
    (hfits : IdleFits s.limits.max_tombstones s.limits.tombstone_ttl_ms now_ms
      (live_tombstones s.tombstones now_ms)
      (idle_flows order (s.purge_expired_tombstones now_ms) now_ms)) :
    Agree (s.expire order now_ms).1 (s'.expire order' now_ms).1 ∧
      (s'.expire order' now_ms).2 = (s.expire order now_ms).2 := by
  have hp : Agree (s.purge_expired_tombstones now_ms) (s'.purge_expired_tombstones now_ms) :=
    ⟨h.limits, h.flows, live_tombstones_congr h.tombstones now_ms⟩
  have hperm : (idle_flows order' (s'.purge_expired_tombstones now_ms) now_ms).Perm
      (idle_flows order (s.purge_expired_tombstones now_ms) now_ms) := by
    unfold idle_flows
    have hvisit : (order'.flows.visit (s'.purge_expired_tombstones now_ms).flows.entries).Perm
        (order.flows.visit (s.purge_expired_tombstones now_ms).flows.entries) :=
      ((order'.flows.perm _).trans (AList.entries_perm hp.flows)).trans (order.flows.perm _).symm
    rw [hp.limits]
    exact (hvisit.filter _).map _
  refine ⟨⟨?_, ?_, ?_⟩, hperm.length_eq⟩
  · exact (expire_idle_table _ _).1.trans (hp.limits.trans (expire_idle_table _ _).1.symm)
  · intro k
    unfold SessionDedup.expire
    dsimp only
    rw [expire_idle_lookup, expire_idle_lookup, hp.flows]
    have hmem := (hperm.map (·.1)).mem_iff (a := k)
    simp only [hmem]
  · intro k
    unfold SessionDedup.expire
    dsimp only
    rw [(expire_idle_table _ _).2, (expire_idle_table _ _).2, hp.limits]
    refine retire_all_perm hkept.max_pos hkept.ttl_pos (hkept.purge now_ms).bound ?_
      (nodup_idle_flows order _ now_ms) ?_ hfits hp.tombstones hperm k
    · intro e he
      obtain ⟨flow, hl, _⟩ := mem_idle_flows he
      exact (hkept.purge now_ms).apart e.1 (AList.mem_of_lookup hl)
    · intro k t hl
      exact of_decide_eq_true (AList.lookup_retain_eq_some.mp hl).2

theorem Kept.expire (h : s.Kept) : (s.expire order now_ms).1.Kept := by
  have hidle : ∀ idle : List (ReceiveKey × U64), ∀ {s : SessionDedup}, s.Kept →
      (expire_idle order s now_ms idle).Kept := by
    intro idle
    induction idle with
    | nil => exact fun h => h
    | cons e idle ih =>
      intro s h
      refine ih (h.retire e.1 ?_ ?_ ?_) <;> rfl
  have hpurge : (s.purge_expired_tombstones now_ms).Kept := Tabled.purge h now_ms
  exact hidle _ hpurge

end Steps

end SessionDedup

/-! ## Runs -/

namespace DedupCall

/-- The same call; the hash maps may be iterated in another order. -/
inductive SameCall : DedupCall → DedupCall → Prop where
  | observe (key : ReceiveKey) (packet_id : PacketId) (now_ms : ℕ)
      (order order' : SessionDedup.Orders) :
      SameCall (.observe key packet_id now_ms order) (.observe key packet_id now_ms order')
  | expire (now_ms : ℕ) (order order' : SessionDedup.Orders) :
      SameCall (.expire now_ms order) (.expire now_ms order')

/-- A call whose result no iteration order can change, as for the reorder layer. -/
def OrderFree (s : SessionDedup) : DedupCall → Prop
  | .observe key packet_id now_ms _ =>
    key ∉ s.flows → ¬ s.replayed key packet_id.get now_ms → s.limits.max_flows ≤ s.flows.len →
      UniqueOldest FlowDedup.last_activity_ms s.flows
  | .expire now_ms order =>
    IdleFits s.limits.max_tombstones s.limits.tombstone_ttl_ms now_ms
      (live_tombstones s.tombstones now_ms)
      (SessionDedup.idle_flows order (s.purge_expired_tombstones now_ms) now_ms)

instance (s : SessionDedup) : DecidablePred (DedupCall.OrderFree s)
  | .observe _ _ _ _ => inferInstanceAs (Decidable (_ → _ → _ → _))
  | .expire _ _ => inferInstanceAs (Decidable (IdleFits _ _ _ _ _))

/-- **One call in two iteration orders.** -/
theorem agree_perform {s s' : SessionDedup} (h : SessionDedup.Agree s s') (hkept : s.Kept)
    {call call' : DedupCall} (hsame : call.SameCall call') (hfree : call.OrderFree s) :
    SessionDedup.Agree (call.perform s).1 (call'.perform s').1 ∧
      (call'.perform s').2 = (call.perform s).2 := by
  cases hsame with
  | observe key packet_id now order order' =>
    obtain ⟨hagree, hout⟩ := h.observe order order' hkept.max_pos hfree
    exact ⟨hagree, congrArg DedupReply.outcome hout⟩
  | expire now order order' =>
    obtain ⟨hagree, hout⟩ := h.expire order order' hkept hfree
    exact ⟨hagree, congrArg DedupReply.expired hout⟩

theorem kept_perform {s : SessionDedup} (h : s.Kept) (call : DedupCall) :
    (call.perform s).1.Kept := by
  cases call with
  | observe => exact h.observe
  | expire => exact h.expire

end DedupCall

theorem dedup_runs_agree {s s' t t' : SessionDedup} {calls calls' : List DedupCall}
    {replies replies' : List DedupReply} (h : SessionDedup.Agree s s') (hkept : s.Kept)
    (hsame : List.Forall₂ DedupCall.SameCall calls calls')
    (hfree : Along DedupCall.run (fun s call => call.OrderFree s) s calls)
    (hrun : exec DedupCall.run s calls = some (t, replies))
    (hrun' : exec DedupCall.run s' calls' = some (t', replies')) :
    SessionDedup.Agree t t' ∧ replies' = replies := by
  induction hsame generalizing s s' replies replies' with
  | nil =>
    obtain ⟨rfl, rfl⟩ := step_inj hrun
    obtain ⟨rfl, rfl⟩ := step_inj hrun'
    exact ⟨h, rfl⟩
  | @cons call call' calls calls' hcall _ ih =>
    obtain ⟨s₁, out, rest, hstep, hrest, rfl⟩ := exec_cons_eq_some.mp hrun
    obtain ⟨s₁', out', rest', hstep', hrest', rfl⟩ := exec_cons_eq_some.mp hrun'
    obtain ⟨hnow, hlater⟩ := (along_cons hstep).mp hfree
    obtain ⟨rfl, rfl⟩ := step_inj hstep
    obtain ⟨rfl, rfl⟩ := step_inj hstep'
    obtain ⟨hagree, hreply⟩ := DedupCall.agree_perform h hkept hcall hnow
    obtain ⟨hend, rfl⟩ := ih hagree (DedupCall.kept_perform hkept call) hlater hrest hrest'
    exact ⟨hend, congrArg (fun r => [r] ++ rest') hreply⟩

theorem new_dedup_kept {limits : DedupLimits} {s : SessionDedup}
    (h : SessionDedup.new limits = .ok s) : s.Kept := by
  unfold SessionDedup.new at h
  split at h
  · contradiction
  · next hvalid =>
    obtain rfl := Except.ok.inj h
    unfold DedupLimits.validate at hvalid
    split at hvalid
    · contradiction
    · refine ⟨?_, ?_, ?_, Nat.zero_le _⟩
      · dsimp only
        omega
      · dsimp only
        omega
      · intro k hk
        contradiction

/-- Two runs of a `SessionReorder` that nobody can tell apart: the same outcomes and reports,
the same flows and the same tombstones at the end. -/
structure ReorderRunsEqual (r r' : SessionReorder × List ReorderTurn) : Prop where
  replies : r'.2.map ReorderTurn.reply = r.2.map ReorderTurn.reply
  flows : ∀ k, r'.1.flows.lookup k = r.1.flows.lookup k
  tombstones : ∀ k, r'.1.tombstones.lookup k = r.1.tombstones.lookup k

/-- The same for two runs of a `SessionDedup`. -/
structure DedupRunsEqual (r r' : SessionDedup × List DedupReply) : Prop where
  replies : r'.2 = r.2
  flows : ∀ k, r'.1.flows.lookup k = r.1.flows.lookup k
  tombstones : ∀ k, r'.1.tombstones.lookup k = r.1.tombstones.lookup k

/-- **No iteration order shows** in a run whose calls are all order free, of either layer. -/
theorem iteration_order_invisible (limits : ReorderLimits) (s : SessionReorder)
    (dedup_limits : DedupLimits) (d : SessionDedup) :
    (SessionReorder.new limits = .ok s →
      ∀ (calls calls' : List ReorderCall) (r r' : SessionReorder × List ReorderTurn),
        List.Forall₂ ReorderCall.SameCall calls calls' →
        Along ReorderCall.turn (fun s call => call.OrderFree s) s calls →
        exec ReorderCall.turn s calls = some r → exec ReorderCall.turn s calls' = some r' →
        ReorderRunsEqual r r') ∧
    (SessionDedup.new dedup_limits = .ok d →
      ∀ (calls calls' : List DedupCall) (r r' : SessionDedup × List DedupReply),
        List.Forall₂ DedupCall.SameCall calls calls' →
        Along DedupCall.run (fun d call => call.OrderFree d) d calls →
        exec DedupCall.run d calls = some r → exec DedupCall.run d calls' = some r' →
        DedupRunsEqual r r') := by
  constructor
  · intro hnew calls calls' r r' hsame hfree hrun hrun'
    obtain ⟨hagree, hreplies⟩ :=
      reorder_runs_agree (SessionReorder.Agree.refl s) (new_kept hnew) hsame hfree hrun hrun'
    exact ⟨hreplies, hagree.flows, hagree.tombstones⟩
  · intro hnew calls calls' r r' hsame hfree hrun hrun'
    obtain ⟨hagree, hreplies⟩ :=
      dedup_runs_agree ⟨rfl, fun _ => rfl, fun _ => rfl⟩ (new_dedup_kept hnew) hsame hfree hrun hrun'
    exact ⟨hreplies, hagree.flows, hagree.tombstones⟩

/-! ### Orders that show -/

namespace OrderSample

/-- Room for two flows and one tombstone, idle after 10, a deadline of 5. -/
def limits : ReorderLimits := ⟨2, 8, 1024, 4096, 10, 5, 5, 5, 1, 1000, 16⟩

def start : SessionReorder := ⟨limits, ∅, ∅, 0, .default⟩

def dedup_limits : DedupLimits := ⟨2, 8, 10, 1, 1000⟩

def dedup_start : SessionDedup := ⟨dedup_limits, ∅, ∅, .default⟩

def backwards {V : Type} : Traversal ReceiveKey V := ⟨List.reverse, List.reverse_perm⟩

def reversed : SessionReorder.Orders := ⟨backwards, backwards⟩

/-- Three flows in turn: the third evicts the oldest of two. -/
def three (order : SessionReorder.Orders) : List ReorderCall :=
  [.receive (Sample.key 1) .Bulk ⟨5⟩ [] 0 order, .receive (Sample.key 2) .Bulk ⟨5⟩ [] 1 order,
    .receive (Sample.key 3) .Bulk ⟨5⟩ [] 2 order, .expire 3 order]

def dedup_three (order : SessionDedup.Orders) : List DedupCall :=
  [.observe (Sample.key 1) ⟨5⟩ 0 order, .observe (Sample.key 2) ⟨5⟩ 1 order,
    .observe (Sample.key 3) ⟨5⟩ 2 order, .expire 3 order]

/-- The first two flows are opened at the same time; key 1 arrives again after the eviction. -/
def tied (order : SessionReorder.Orders) : List ReorderCall :=
  [.receive (Sample.key 1) .Bulk ⟨5⟩ [] 0 order, .receive (Sample.key 2) .Bulk ⟨5⟩ [] 0 order,
    .receive (Sample.key 3) .Bulk ⟨5⟩ [] 1 order, .receive (Sample.key 1) .Bulk ⟨7⟩ [] 2 order]

/-- Two flows idle out together, and the table holds one tombstone; then key 1 is replayed. -/
def idle_together (order : SessionReorder.Orders) : List ReorderCall :=
  [.receive (Sample.key 1) .Bulk ⟨5⟩ [] 0 order, .receive (Sample.key 2) .Bulk ⟨5⟩ [] 0 order,
    .expire 20 order, .receive (Sample.key 1) .Bulk ⟨5⟩ [] 21 order]

/-- Two sessions hold a packet behind a gap on the same flow, and both deadlines pass. -/
def twins (order : SessionReorder.Orders) : List ReorderCall :=
  let other : ReceiveKey := { Sample.key 1 with session := ⟨8⟩ }
  [.receive (Sample.key 1) .Bulk ⟨5⟩ [] 0 order, .receive other .Bulk ⟨5⟩ [] 0 order,
    .receive (Sample.key 1) .Bulk ⟨7⟩ [] 0 order, .receive other .Bulk ⟨7⟩ [] 0 order,
    .expire 6 order]

end OrderSample

open OrderSample in
/-- An eviction and a pass of time that no iteration order changes, in both layers. -/
theorem iteration_order_invisible_three :
    (∃ r r', exec ReorderCall.turn start (three default) = some r ∧
      exec ReorderCall.turn start (three reversed) = some r' ∧ ReorderRunsEqual r r') ∧
    ∃ r r', exec DedupCall.run dedup_start (dedup_three default) = some r ∧
      exec DedupCall.run dedup_start (dedup_three ⟨backwards, backwards⟩) = some r' ∧
      DedupRunsEqual r r' := by
  constructor
  · have hfree : Along ReorderCall.turn (fun s call => call.OrderFree s) start (three default) := by
      decide
    have hsame : List.Forall₂ ReorderCall.SameCall (three default) (three reversed) :=
      .cons (.receive ..) (.cons (.receive ..) (.cons (.receive ..) (.cons (.expire ..) .nil)))
    cases hrun : exec ReorderCall.turn start (three default) with
    | none => contradiction
    | some r =>
      cases hrun' : exec ReorderCall.turn start (three reversed) with
      | none => contradiction
      | some r' =>
        exact ⟨r, r', rfl, rfl,
          (iteration_order_invisible limits start dedup_limits dedup_start).1 rfl _ _ r r' hsame
            hfree hrun hrun'⟩
  · have hfree : Along DedupCall.run (fun s call => call.OrderFree s) dedup_start
        (dedup_three default) := by
      decide
    have hsame : List.Forall₂ DedupCall.SameCall (dedup_three default)
        (dedup_three ⟨backwards, backwards⟩) :=
      .cons (.observe ..) (.cons (.observe ..) (.cons (.observe ..) (.cons (.expire ..) .nil)))
    cases hrun : exec DedupCall.run dedup_start (dedup_three default) with
    | none => contradiction
    | some r =>
      cases hrun' : exec DedupCall.run dedup_start (dedup_three ⟨backwards, backwards⟩) with
      | none => contradiction
      | some r' =>
        exact ⟨r, r', rfl, rfl,
          (iteration_order_invisible limits start dedup_limits dedup_start).2 rfl _ _ r r' hsame
            hfree hrun hrun'⟩

open OrderSample in
/-- The iteration order shows in the replies: of an eviction among two flows of the same age,
of a batch of idle flows that does not fit, and of twins. -/
theorem iteration_order_shows :
    SessionReorder.new limits = .ok start ∧
    ∀ calls : SessionReorder.Orders → List ReorderCall,
      calls = tied ∨ calls = idle_together ∨ calls = twins →
      List.Forall₂ ReorderCall.SameCall (calls default) (calls reversed) ∧
      ∃ r r', exec ReorderCall.turn start (calls default) = some r ∧
        exec ReorderCall.turn start (calls reversed) = some r' ∧ ¬ ReorderRunsEqual r r' := by
  refine ⟨rfl, ?_⟩
  have hshows : ∀ calls : SessionReorder.Orders → List ReorderCall,
      ((exec ReorderCall.turn start (calls default)).map (fun r => r.2.map ReorderTurn.reply)) ≠
        (exec ReorderCall.turn start (calls reversed)).map (fun r => r.2.map ReorderTurn.reply) →
      (exec ReorderCall.turn start (calls default)).isSome = true →
      (exec ReorderCall.turn start (calls reversed)).isSome = true →
      ∃ r r', exec ReorderCall.turn start (calls default) = some r ∧
        exec ReorderCall.turn start (calls reversed) = some r' ∧ ¬ ReorderRunsEqual r r' := by
    intro calls hne hsome hsome'
    obtain ⟨r, hr⟩ := Option.isSome_iff_exists.mp hsome
    obtain ⟨r', hr'⟩ := Option.isSome_iff_exists.mp hsome'
    refine ⟨r, r', hr, hr', ?_⟩
    intro hequal
    rw [hr, hr', Option.map_some, Option.map_some, hequal.replies] at hne
    exact hne rfl
  rintro calls (rfl | rfl | rfl)
  · refine ⟨?_, hshows tied (by decide) rfl rfl⟩
    exact .cons (.receive ..) (.cons (.receive ..) (.cons (.receive ..) (.cons (.receive ..) .nil)))
  · refine ⟨?_, hshows idle_together (by decide) rfl rfl⟩
    exact .cons (.receive ..) (.cons (.receive ..) (.cons (.expire ..) (.cons (.receive ..) .nil)))
  · refine ⟨?_, hshows twins (by decide) rfl rfl⟩
    exact .cons (.receive ..) (.cons (.receive ..) (.cons (.receive ..) (.cons (.receive ..)
      (.cons (.expire ..) .nil))))

end StreamGuard.Multipath
