/-
Replay protection of `SessionDedup`.

The watermark of a tombstone is the largest ID its flow remembered, and what it has to
bound is every ID the flow has seen. The two agree as long as the largest ID is never
forgotten: a full flow forgets its smallest ID, which is the largest only in a flow that
remembers a single one. `Covers` is the invariant of a flow and its history, `Guarded`
that of the whole table.
-/
import StreamGuard.Lib.Run
import StreamGuard.Multipath.Dedup
import StreamGuard.Multipath.ReorderDelivery

set_option autoImplicit false

namespace StreamGuard.Multipath

open StreamGuard StreamGuard.Lib

/-! ## One flow -/

section Flow

variable {flow : FlowDedup} {past : List U64} {id : U64} {now_ms : ℕ}

/-- Some remembered ID is at least as large as everything observed. -/
def FlowDedup.Covers (flow : FlowDedup) (past : List U64) : Prop :=
  ∃ top ∈ flow.seen, ∀ id ∈ past, id ≤ top

theorem lastKey_eq_some {m : Map U64 Unit} {a : U64} (h : a ∈ m) :
    ∃ b, m.lastKey = some b ∧ a ≤ b := by
  cases hlast : m.lastKey with
  | none =>
    have hnil : m.keys = [] := List.max?_eq_none_iff.mp hlast
    have hmem : a ∈ m.keys := h
    rw [hnil] at hmem
    contradiction
  | some b => exact ⟨b, rfl, (List.max?_eq_some_iff.mp hlast).2 a h⟩

/-- The watermark bounds everything observed. -/
theorem FlowDedup.Covers.le_watermark (h : flow.Covers past) : ∀ id ∈ past, id ≤ flow.watermark := by
  obtain ⟨top, htop, hpast⟩ := h
  obtain ⟨b, hb, hle⟩ := lastKey_eq_some htop
  intro id hid
  unfold FlowDedup.watermark
  rw [hb]
  exact (hpast id hid).trans hle

/-- Remembering one more ID beside a covering one. -/
theorem covers_insert {seen : Map U64 Unit} {top : U64} (htop : top ∈ seen)
    (hpast : ∀ id ∈ past, id ≤ top) (id : U64) (now_ms : ℕ) :
    FlowDedup.Covers ⟨seen.insert id (), now_ms⟩ (past ++ [id]) := by
  rcases le_total id top with hle | hle
  · refine ⟨top, (AList.mem_insert _).mpr (.inr htop), ?_⟩
    intro x hx
    rcases List.mem_append.mp hx with hx | hx
    · exact hpast x hx
    · rw [List.mem_singleton.mp hx]
      exact hle
  · refine ⟨id, (AList.mem_insert _).mpr (.inl rfl), ?_⟩
    intro x hx
    rcases List.mem_append.mp hx with hx | hx
    · exact (hpast x hx).trans hle
    · rw [List.mem_singleton.mp hx]

/-- An ID above a covering one covers on its own. -/
theorem covers_above {seen : Map U64 Unit} {top : U64} (hpast : ∀ id ∈ past, id ≤ top) {id : U64}
    (hle : top ≤ id) (now_ms : ℕ) :
    FlowDedup.Covers ⟨seen.insert id (), now_ms⟩ (past ++ [id]) := by
  refine ⟨id, (AList.mem_insert _).mpr (.inl rfl), ?_⟩
  intro x hx
  rcases List.mem_append.mp hx with hx | hx
  · exact (hpast x hx).trans hle
  · rw [List.mem_singleton.mp hx]

/-- **Forgetting the smallest ID of a full flow** keeps a covering ID, unless the flow
remembers that single ID and the new one is below it. -/
theorem FlowDedup.Covers.evict {capacity : ℕ} (h : flow.Covers past) (hpos : 0 < capacity)
    (hfull : capacity ≤ flow.seen.len) {smallest : U64}
    (hfirst : flow.seen.firstKey = some smallest)
    (hkeeps : capacity = 1 → ∀ x ∈ flow.seen, ¬ id < x) :
    FlowDedup.Covers ⟨(flow.seen.erase smallest).insert id (), now_ms⟩ (past ++ [id]) := by
  obtain ⟨top, htop, hpast⟩ := h
  have hmin := (List.min?_eq_some_iff.mp hfirst).2
  by_cases hid : top ≤ id
  · exact covers_above hpast hid now_ms
  have hlt : id < top := not_le.mp hid
  by_cases hother : ∃ b ∈ flow.seen, b ≠ smallest ∧ top ≤ b
  · -- a covering ID stays
    obtain ⟨b, hb, hne, hle⟩ := hother
    refine covers_insert (AList.mem_erase.mpr ⟨hne, hb⟩) (fun x hx => (hpast x hx).trans hle) id
      now_ms
  · -- the smallest ID is the only one
    have honly : ∀ b ∈ flow.seen, b = smallest := by
      intro b hb
      by_contra hne
      have htop_eq : top = smallest := by
        by_contra hne'
        exact hother ⟨top, htop, hne', le_rfl⟩
      refine hother ⟨b, hb, hne, ?_⟩
      rw [htop_eq]
      exact hmin b hb
    have hempty : flow.seen.erase smallest = ∅ := by
      refine AList.eq_empty ?_
      intro b hb
      obtain ⟨hne, hb⟩ := AList.mem_erase.mp hb
      exact hne (honly b hb)
    have hlen := AList.len_erase (List.min?_eq_some_iff.mp hfirst).1
    rw [hempty, AList.len_empty] at hlen
    exact absurd hlt (hkeeps (by omega) top htop)

end Flow

namespace SessionDedup

/-! ## The table -/

/-- **What the table knows of `K`** bounds `past`, the IDs observed since the flow of
`K` was opened: the flow covers them, or the tombstone does. -/
structure Guarded (s : SessionDedup) (K : ReceiveKey) (past : List U64) : Prop where
  capacity : 0 < s.limits.max_packets_per_flow
  flow : ∀ flow, s.flows.lookup K = some flow →
    flow.Covers past ∧ s.tombstones.lookup K = none
  tombstone : ∀ t, s.tombstones.lookup K = some t → ∀ id ∈ past, id ≤ t.watermark

section Table

variable {s s' : SessionDedup} {K key : ReceiveKey} {past : List U64} {watermark id : U64}
  {now_ms : ℕ} {flow : FlowDedup} {order : Orders} {t : DedupTombstone}

theorem purge_lookup (h : (s.purge_expired_tombstones now_ms).tombstones.lookup K = some t) :
    s.tombstones.lookup K = some t :=
  (AList.lookup_retain_eq_some.mp h).1

/-- The entries after `insert_tombstone`: the new one, and some of the old ones. -/
theorem insert_tombstone_lookup {order : Traversal ReceiveKey DedupTombstone}
    (h : (insert_tombstone order s key watermark now_ms).tombstones.lookup K = some t) :
    K = key ∧ t.watermark = watermark ∨ K ≠ key ∧ s.tombstones.lookup K = some t := by
  unfold insert_tombstone at h
  dsimp only at h
  rw [AList.lookup_insert_of] at h
  by_cases hk : K = key
  · rw [if_pos hk] at h
    obtain rfl := Option.some.inj h
    exact .inl ⟨hk, rfl⟩
  · rw [if_neg hk] at h
    refine .inr ⟨hk, ?_⟩
    unfold evict_tombstone at h
    split at h
    · split at h
      · exact purge_lookup (AList.lookup_of_erase h)
      · exact purge_lookup h
    · exact purge_lookup h

theorem insert_tombstone_frame (order : Traversal ReceiveKey DedupTombstone) (s : SessionDedup)
    (key : ReceiveKey) (watermark : U64) (now_ms : ℕ) :
    (insert_tombstone order s key watermark now_ms).flows = s.flows ∧
      (insert_tombstone order s key watermark now_ms).limits = s.limits := by
  unfold insert_tombstone evict_tombstone
  dsimp only
  split
  · split <;> exact ⟨rfl, rfl⟩
  · exact ⟨rfl, rfl⟩

/-- A step that keeps the flow and the tombstone of `K`. -/
theorem Guarded.congr (h : s.Guarded K past) (hlimits : s'.limits = s.limits)
    (hflow : s'.flows.lookup K = s.flows.lookup K)
    (htombstone : ∀ t, s'.tombstones.lookup K = some t → s.tombstones.lookup K = some t) :
    s'.Guarded K past := by
  refine ⟨hlimits ▸ h.capacity, ?_, fun t ht => h.tombstone t (htombstone t ht)⟩
  intro flow hl
  rw [hflow] at hl
  obtain ⟨hcovers, hnone⟩ := h.flow flow hl
  refine ⟨hcovers, Option.eq_none_iff_forall_ne_some.mpr ?_⟩
  intro t ht
  rw [htombstone t ht] at hnone
  contradiction

/-- A flow makes way for its tombstone. -/
theorem Guarded.retire {order : Traversal ReceiveKey DedupTombstone} (h : s.Guarded K past)
    (hw : K = key → ∀ id ∈ past, id ≤ watermark) (hlimits : s'.limits = s.limits)
    (hflows : s'.flows = s.flows.erase key) (htombstones : s'.tombstones = s.tombstones) :
    (insert_tombstone order s' key watermark now_ms).Guarded K past := by
  obtain ⟨hf, hl⟩ := insert_tombstone_frame order s' key watermark now_ms
  have hold : ∀ t, (insert_tombstone order s' key watermark now_ms).tombstones.lookup K = some t →
      K = key ∧ t.watermark = watermark ∨ K ≠ key ∧ s.tombstones.lookup K = some t := by
    intro t ht
    rw [← htombstones]
    exact insert_tombstone_lookup ht
  refine ⟨?_, ?_, ?_⟩
  · rw [hl, hlimits]
    exact h.capacity
  · intro flow hflow
    rw [hf, hflows, AList.lookup_erase_of] at hflow
    by_cases hk : K = key
    · rw [if_pos hk] at hflow
      contradiction
    · rw [if_neg hk] at hflow
      obtain ⟨hcovers, hnone⟩ := h.flow flow hflow
      refine ⟨hcovers, Option.eq_none_iff_forall_ne_some.mpr ?_⟩
      intro t ht
      rcases hold t ht with ⟨hk', _⟩ | ⟨_, ht⟩
      · exact hk hk'
      · rw [ht] at hnone
        contradiction
  · intro t ht
    rcases hold t ht with ⟨hk, hwatermark⟩ | ⟨_, ht⟩
    · rw [hwatermark]
      exact hw hk
    · exact h.tombstone t ht

theorem Guarded.make_room (h : s.Guarded K past) : (make_room order s now_ms).Guarded K past := by
  unfold SessionDedup.make_room evict_oldest_flow
  split
  · split
    · next oldest holdest =>
      refine h.retire ?_ rfl rfl rfl
      rintro rfl
      have hmem := order.flows.mem_visit.mp (SessionReorder.min_by_mem holdest)
      exact (h.flow oldest.2 (AList.mem_entries_iff.mp hmem)).1.le_watermark
    · exact h
  · exact h

/-- The tombstone of `K` is not there after room was made, if neither it nor the flow
was there before. -/
theorem make_room_absent (order : Orders) (now_ms : ℕ) (hl : s.flows.lookup K = none)
    (ht : s.tombstones.lookup K = none) :
    (SessionDedup.make_room order s now_ms).tombstones.lookup K = none := by
  unfold SessionDedup.make_room evict_oldest_flow
  split
  · split
    · next oldest holdest =>
      have hmem := order.flows.mem_visit.mp (SessionReorder.min_by_mem holdest)
      refine Option.eq_none_iff_forall_ne_some.mpr ?_
      intro t hl'
      rcases insert_tombstone_lookup hl' with ⟨rfl, _⟩ | ⟨_, hold⟩
      · rw [AList.mem_entries_iff.mp hmem] at hl
        contradiction
      · rw [ht] at hold
        contradiction
    · exact ht
  · exact ht

theorem make_room_limits (order : Orders) (s : SessionDedup) (now_ms : ℕ) :
    (SessionDedup.make_room order s now_ms).limits = s.limits := by
  unfold SessionDedup.make_room evict_oldest_flow
  split
  · split
    · exact (insert_tombstone_frame _ _ _ _ _).2
    · rfl
  · rfl

/-! ## Calls -/

/-- An ID observed on a flow that is held. -/
theorem Guarded.observe_known (h : s.Guarded K past) (id : U64) (now_ms : ℕ)
    (hl : s.flows.lookup key = some flow)
    (hkeeps : key = K → s.limits.max_packets_per_flow = 1 → ∀ x ∈ flow.seen, ¬ id < x) :
    (observe_known s key flow id now_ms).1.Guarded K (if key = K then past ++ [id] else past) := by
  by_cases hk : key = K
  · subst hk
    rw [if_pos rfl]
    obtain ⟨hcovers, hnone⟩ := h.flow flow hl
    obtain ⟨top, htop, hpast⟩ := hcovers
    unfold SessionDedup.observe_known
    split
    · next hseen =>
      refine ⟨h.capacity, ?_, ?_⟩
      · intro flow' hl'
        rw [AList.lookup_insert] at hl'
        obtain rfl := Option.some.inj hl'
        refine ⟨?_, hnone⟩
        rcases le_total id top with hle | hle
        · refine ⟨top, htop, ?_⟩
          intro x hx
          rcases List.mem_append.mp hx with hx | hx
          · exact hpast x hx
          · rw [List.mem_singleton.mp hx]
            exact hle
        · refine ⟨id, hseen, ?_⟩
          intro x hx
          rcases List.mem_append.mp hx with hx | hx
          · exact (hpast x hx).trans hle
          · rw [List.mem_singleton.mp hx]
      · intro t ht
        change s.tombstones.lookup key = some t at ht
        rw [hnone] at ht
        contradiction
    · refine ⟨h.capacity, ?_, ?_⟩
      · intro flow' hl'
        rw [AList.lookup_insert] at hl'
        obtain rfl := Option.some.inj hl'
        refine ⟨?_, hnone⟩
        split
        · next hfull =>
          cases hfirst : flow.seen.firstKey with
          | some smallest =>
            exact FlowDedup.Covers.evict ⟨top, htop, hpast⟩ h.capacity hfull hfirst (hkeeps rfl)
          | none => exact covers_insert htop hpast id now_ms
        · exact covers_insert htop hpast id now_ms
      · intro t ht
        change s.tombstones.lookup key = some t at ht
        rw [hnone] at ht
        contradiction
  · rw [if_neg hk]
    unfold SessionDedup.observe_known
    split
    · exact h.congr rfl (AList.lookup_insert_ne (Ne.symm hk)) (fun t ht => ht)
    · exact h.congr rfl (AList.lookup_insert_ne (Ne.symm hk)) (fun t ht => ht)

/-- A flow opened for `K`, whose tombstone is gone. -/
theorem Guarded.open_flow (h : s.Guarded K past) (order : Orders) (id : U64) (now_ms : ℕ)
    (hl : s.flows.lookup key = none)
    (ht : s.tombstones.lookup key = none) :
    (open_flow order s key id now_ms).1.Guarded K (if key = K then [id] else past) := by
  unfold SessionDedup.open_flow
  dsimp only
  by_cases hk : key = K
  · subst hk
    rw [if_pos rfl]
    have hnone := make_room_absent order now_ms hl ht
    refine ⟨h.make_room.capacity, ?_, ?_⟩
    · intro flow hflow
      rw [AList.lookup_insert] at hflow
      obtain rfl := Option.some.inj hflow
      refine ⟨⟨id, (AList.mem_insert _).mpr (.inl rfl), ?_⟩, hnone⟩
      intro x hx
      rw [List.mem_singleton.mp hx]
    · intro t ht'
      change (SessionDedup.make_room order s now_ms).tombstones.lookup key = some t at ht'
      rw [hnone] at ht'
      contradiction
  · rw [if_neg hk]
    exact h.make_room.congr rfl (AList.lookup_insert_ne (Ne.symm hk)) (fun t ht => ht)

/-- The tombstone of `key` is dropped. -/
theorem Guarded.drop_tombstone (h : s.Guarded K past) (hlimits : s'.limits = s.limits)
    (hflows : s'.flows = s.flows) (htombstones : s'.tombstones = s.tombstones.erase key) :
    s'.Guarded K past := by
  refine h.congr hlimits (by rw [hflows]) ?_
  intro t ht
  rw [htombstones] at ht
  exact AList.lookup_of_erase ht

/-- An ID observed on a key without a flow. -/
theorem Guarded.observe_unknown (h : s.Guarded K past) (order : Orders) (id : U64) (now_ms : ℕ)
    (hl : s.flows.lookup key = none) :
    (observe_unknown order s key id now_ms).1.Guarded K
      (if key = K ∧ (observe_unknown order s key id now_ms).2 = .New then [id] else past) := by
  have hopen : ∀ s' : SessionDedup, s'.Guarded K past → s'.flows.lookup key = none →
      s'.tombstones.lookup key = none →
      (SessionDedup.open_flow order s' key id now_ms).1.Guarded K
        (if key = K ∧ (SessionDedup.open_flow order s' key id now_ms).2 = .New then [id]
          else past) := by
    intro s' h' hl' ht'
    simpa [SessionDedup.open_flow] using h'.open_flow order id now_ms hl' ht'
  unfold SessionDedup.observe_unknown
  split
  · next hnone => exact hopen s h hl hnone
  · next t ht =>
    split
    · exact hopen _ (h.drop_tombstone rfl rfl rfl) hl (AList.lookup_erase key s.tombstones)
    · split
      · rw [if_neg (fun hnew => DedupOutcome.noConfusion hnew.2)]
        exact h.congr rfl rfl (fun t ht => ht)
      · exact hopen _ (h.drop_tombstone rfl rfl rfl) hl (AList.lookup_erase key s.tombstones)

/-- The idle flows listed are those held, with their watermarks. -/
theorem mem_idle_flows {key : ReceiveKey} {watermark : U64}
    (h : (key, watermark) ∈ idle_flows order s now_ms) :
    ∃ flow, s.flows.lookup key = some flow ∧ watermark = flow.watermark := by
  unfold idle_flows at h
  obtain ⟨e, he, heq⟩ := List.mem_map.mp h
  obtain ⟨rfl, rfl⟩ := Prod.mk.inj heq
  have hmem := order.flows.mem_visit.mp (List.mem_filter.mp he).1
  exact ⟨e.2, AList.mem_entries_iff.mp hmem, rfl⟩

theorem nodup_idle_flows (order : Orders) (s : SessionDedup) (now_ms : ℕ) :
    ((idle_flows order s now_ms).map Prod.fst).Nodup := by
  unfold idle_flows
  rw [List.map_map]
  have hkeys : ((order.flows.visit s.flows.entries).map (·.1)).Nodup := by
    rw [((order.flows.perm s.flows.entries).map (·.1)).nodup_iff]
    exact s.flows.keys_nodup
  exact hkeys.sublist (List.filter_sublist.map _)

/-- The idle flows leave one after the other; those that still have to leave are held. -/
theorem Guarded.expire_idle {idle : List (ReceiveKey × U64)} :
    ∀ {s : SessionDedup}, s.Guarded K past → (idle.map Prod.fst).Nodup →
      (∀ watermark, (K, watermark) ∈ idle →
        ∃ flow, s.flows.lookup K = some flow ∧ watermark = flow.watermark) →
      (expire_idle order s now_ms idle).Guarded K past := by
  induction idle with
  | nil =>
    intro s h _ _
    exact h
  | cons e idle ih =>
    intro s h hnodup hheld
    obtain ⟨key, watermark⟩ := e
    obtain ⟨hnotMem, hnodup⟩ := List.nodup_cons.mp hnodup
    unfold SessionDedup.expire_idle
    refine ih (h.retire ?_ rfl rfl rfl) hnodup ?_
    · rintro rfl
      obtain ⟨flow, hl, hw⟩ := hheld watermark List.mem_cons_self
      rw [hw]
      exact (h.flow flow hl).1.le_watermark
    · intro watermark' hmem
      have hne : K ≠ key := by
        rintro rfl
        exact hnotMem (List.mem_map.mpr ⟨_, hmem, rfl⟩)
      obtain ⟨flow, hl, hw⟩ := hheld watermark' (List.mem_cons_of_mem _ hmem)
      refine ⟨flow, ?_, hw⟩
      rw [(insert_tombstone_frame _ _ _ _ _).1]
      exact (AList.lookup_erase_ne hne).trans hl

theorem Guarded.expire (h : s.Guarded K past) : (s.expire order now_ms).1.Guarded K past := by
  unfold SessionDedup.expire
  dsimp only
  have hpurge : (s.purge_expired_tombstones now_ms).Guarded K past :=
    h.congr rfl rfl (fun t ht => purge_lookup ht)
  refine (hpurge.expire_idle (nodup_idle_flows order _ now_ms) ?_).congr rfl rfl (fun t ht => ht)
  intro watermark hmem
  exact mem_idle_flows hmem

end Table

/-! ## Runs -/

/-- **Replay protection** of `K` against `past`, the IDs observed since the flow of `K` was
opened: a flow that is held would leave a watermark that bounds them, the tombstone that
is held has such a watermark, and while it is live it rejects every ID that one of them
bounds. -/
structure ReplayProtected (s : SessionDedup) (K : ReceiveKey) (past : List U64) : Prop where
  installs : ∀ flow, s.flows.lookup K = some flow → ∀ id ∈ past, id ≤ flow.watermark
  bounds : ∀ t, s.tombstones.lookup K = some t → ∀ id ∈ past, id ≤ t.watermark
  rejects : ∀ t, s.tombstones.lookup K = some t → ∀ order now_ms, now_ms < t.expires_at_ms →
    ∀ packet_id : PacketId, (∃ top ∈ past, packet_id.get ≤ top) →
      (s.observe order K packet_id now_ms).2 = .Duplicate ∧
        (s.observe order K packet_id now_ms).1.flows = s.flows

theorem Guarded.replayProtected {s : SessionDedup} {K : ReceiveKey} {past : List U64}
    (h : s.Guarded K past) : s.ReplayProtected K past := by
  refine ⟨fun flow hl => (h.flow flow hl).1.le_watermark, h.tombstone, ?_⟩
  intro t ht order now_ms hlive packet_id hle
  obtain ⟨top, htop, hid⟩ := hle
  -- a key with a tombstone has no flow, so the tombstone is consulted
  have hflow : s.flows.lookup K = none := by
    cases hl : s.flows.lookup K with
    | none => rfl
    | some flow =>
      have hnone := (h.flow flow hl).2
      rw [ht] at hnone
      contradiction
  have hbound : packet_id.get ≤ t.watermark := hid.trans (h.tombstone t ht top htop)
  unfold observe SessionDedup.observe_unknown
  rw [hflow]
  dsimp only
  rw [ht]
  dsimp only
  rw [if_neg (by omega), if_pos hbound]
  exact ⟨rfl, rfl⟩

end SessionDedup

namespace DedupCall

section Runs

variable {K : ReceiveKey} {s : SessionDedup} {past : List U64}

/-- The IDs observed for `K` since its flow was opened, after one more call. They stay the
same from the removal of the flow to the opening of the next. -/
def observed (K : ReceiveKey) (s : SessionDedup) (past : List U64) : DedupCall → List U64
  | .observe key packet_id now_ms order =>
    if key = K then
      if K ∈ s.flows then past ++ [packet_id.get]
      else if (s.observe order key packet_id now_ms).2 = .New then [packet_id.get]
      else past
    else past
  | .expire _ _ => past

/-- `run` beside the IDs observed for `K`. -/
def watch (K : ReceiveKey) (w : SessionDedup × List U64) (call : DedupCall) :
    Option ((SessionDedup × List U64) × List DedupReply) :=
  (call.run w.1).map (fun r => ((r.1, call.observed K w.1 w.2), r.2))

/-- The call replaces the only ID that the flow of `K` may remember by a smaller one. -/
def ReplacesLargest (K : ReceiveKey) (s : SessionDedup) : DedupCall → Prop
  | .observe key packet_id _ _ => key = K ∧ s.limits.max_packets_per_flow = 1 ∧
      (s.flows.lookup K).any (fun flow => flow.seen.keys.any (fun id => packet_id.get < id))
  | .expire _ _ => False

instance (K : ReceiveKey) (s : SessionDedup) : DecidablePred (ReplacesLargest K s)
  | .observe key packet_id _ _ =>
    inferInstanceAs (Decidable (key = K ∧ s.limits.max_packets_per_flow = 1 ∧
      (s.flows.lookup K).any (fun flow => flow.seen.keys.any (fun id => packet_id.get < id))))
  | .expire _ _ => inferInstanceAs (Decidable False)

/-- One call. -/
theorem guarded_perform (h : s.Guarded K past) (call : DedupCall)
    (hkeeps : ¬ call.ReplacesLargest K s) :
    (call.perform s).1.Guarded K (call.observed K s past) := by
  cases call with
  | expire now_ms order => exact h.expire
  | observe key packet_id now_ms order =>
    unfold perform observed SessionDedup.observe
    dsimp only
    cases hl : s.flows.lookup key with
    | some flow =>
      have hobserved := h.observe_known packet_id.get now_ms hl (by
        rintro rfl hone x hx hlt
        refine hkeeps ⟨rfl, hone, ?_⟩
        rw [hl, Option.any_some, List.any_eq_true]
        exact ⟨x, hx, decide_eq_true hlt⟩)
      by_cases hk : key = K
      · subst hk
        rw [if_pos rfl] at hobserved ⊢
        rw [if_pos (AList.mem_of_lookup hl)]
        exact hobserved
      · rw [if_neg hk] at hobserved ⊢
        exact hobserved
    | none =>
      have hobserved := h.observe_unknown order packet_id.get now_ms hl
      by_cases hk : key = K
      · subst hk
        rw [if_pos rfl, if_neg (AList.lookup_eq_none.mp hl)]
        simpa using hobserved
      · rw [if_neg hk]
        rw [if_neg (fun hnew => hk hnew.1)] at hobserved
        exact hobserved

end Runs

end DedupCall

/-- A watched run in which no call replaces the only remembered ID of `K` by a smaller one
ends in a state that is protected against every ID observed since the flow of `K` was
opened. -/
theorem replay_protected {limits : DedupLimits} {s t : SessionDedup}
    (hnew : SessionDedup.new limits = .ok s) (K : ReceiveKey) {calls : List DedupCall}
    {past : List U64} {replies : List DedupReply}
    (hrun : exec (DedupCall.watch K) (s, []) calls = some ((t, past), replies))
    (hkeeps : Along (DedupCall.watch K) (fun w call => ¬ call.ReplacesLargest K w.1) (s, [])
      calls) :
    t.ReplayProtected K past := by
  have hstart : s.Guarded K [] := by
    unfold SessionDedup.new at hnew
    split at hnew
    · contradiction
    · next hvalid =>
      obtain rfl := Except.ok.inj hnew
      refine ⟨?_, ?_, ?_⟩
      · unfold DedupLimits.validate at hvalid
        split at hvalid
        · contradiction
        · dsimp only
          omega
      · intro flow hl
        contradiction
      · intro t ht
        contradiction
  have hend : t.Guarded K past := by
    refine exec_along_invariant (I := fun w => w.1.Guarded K w.2) ?_ hstart hkeeps hrun
    intro w call w₁ out hw hcall hstep
    obtain rfl := congrArg Prod.fst (Option.some.inj hstep)
    exact DedupCall.guarded_perform hw call hcall
  exact hend.replayProtected

/-! ### A flow of capacity 1 -/

namespace DedupSample

/-- One remembered ID per flow; idle after 10, tombstones for 1000. -/
def limits : DedupLimits := ⟨4, 1, 10, 4, 1000⟩

def start : SessionDedup := ⟨limits, ∅, ∅, .default⟩

def key : ReceiveKey := ⟨⟨7⟩, .ClientToGateway, 0, ⟨1⟩⟩

/-- `10` replaces `5`, then the flow idles out. -/
def rising : List DedupCall :=
  [.observe key ⟨5⟩ 0 default, .observe key ⟨10⟩ 1 default, .expire 20 default]

/-- `5` replaces `10`, then the flow idles out. -/
def falling : List DedupCall :=
  [.observe key ⟨10⟩ 0 default, .observe key ⟨5⟩ 1 default, .expire 20 default]

end DedupSample

open DedupSample in
/-- The tombstone after `rising` rejects both IDs. -/
theorem replay_protected_rising :
    ∃ t replies, exec (DedupCall.watch key) (start, []) rising = some ((t, [5, 10]), replies) ∧
      t.ReplayProtected key [5, 10] := by
  have hnew : SessionDedup.new limits = .ok start := rfl
  have hpast : (exec (DedupCall.watch key) (start, []) rising).map (fun r => r.1.2)
      = some [5, 10] := by
    decide
  have hkeeps : Along (DedupCall.watch key) (fun w call => ¬ call.ReplacesLargest key w.1)
      (start, []) rising := by
    decide
  cases hrun : exec (DedupCall.watch key) (start, []) rising with
  | none =>
    rw [hrun] at hpast
    contradiction
  | some r =>
    obtain ⟨⟨t, past⟩, replies⟩ := r
    rw [hrun] at hpast
    obtain rfl := Option.some.inj hpast
    exact ⟨t, replies, rfl, replay_protected hnew key hrun hkeeps⟩

open DedupSample in
/-- The tombstone after `falling` has the watermark 5: at time 21 it is live and does not
reject `10`. -/
theorem replayed_after_falling :
    SessionDedup.new limits = .ok start ∧
    ∃ t replies, exec (DedupCall.watch key) (start, []) falling = some ((t, [10, 5]), replies) ∧
      ¬ t.ReplayProtected key [10, 5] := by
  have hends : (exec (DedupCall.watch key) (start, []) falling).map (fun r =>
      (r.1.2, r.1.1.tombstones.lookup key)) = some ([10, 5], some ⟨5, 1020⟩) := by
    decide
  cases hrun : exec (DedupCall.watch key) (start, []) falling with
  | none =>
    rw [hrun] at hends
    contradiction
  | some r =>
    obtain ⟨⟨t, past⟩, replies⟩ := r
    rw [hrun] at hends
    obtain ⟨hpast, htombstone⟩ := step_inj hends
    dsimp only at hpast htombstone
    subst hpast
    refine ⟨rfl, t, replies, rfl, ?_⟩
    intro hprotected
    exact absurd (hprotected.bounds _ htombstone 10 (by decide)) (by decide)

end StreamGuard.Multipath
