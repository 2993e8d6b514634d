/-
The representation invariant of `SessionReorder`.

The byte counters repeat what the buffers say, and every admission decision reads
the counters. `Bounded` says that the counters are the sums they stand for, that a key
is a flow or a tombstone and not both, and that no table, buffer or counter is larger
than its limit; where the held packets lie is `Windowed`. `Bounded` holds in every state
of every run in which no held packet makes the session's counter saturate, which
only a session limit of `usize::MAX` allows; from then on the counters are wrong.
-/
import StreamGuard.Multipath.ReorderWindow

set_option autoImplicit false

namespace StreamGuard.Multipath

open StreamGuard StreamGuard.Lib

/-! ## One flow -/

/-- The payload bytes a buffer holds. -/
def held_bytes (buffer : Map U64 BufferedPacket) : ℕ :=
  buffer.sum (fun _ held => held.payload.length)

/-- The payload bytes of some deliveries. -/
def delivered_bytes (delivered : List (PacketId × Bytes)) : ℕ :=
  (delivered.map (fun d => d.2.length)).sum

theorem delivered_bytes_snoc (delivered : List (PacketId × Bytes)) (d : PacketId × Bytes) :
    delivered_bytes (delivered ++ [d]) = delivered_bytes delivered + d.2.length := by
  simp [delivered_bytes]

namespace FlowState

variable {limits : ReorderLimits} {flow : FlowState}

/-- **The counters of a flow.** -/
structure Bounded (limits : ReorderLimits) (flow : FlowState) : Prop where
  bytes : flow.buffered_bytes = held_bytes flow.buffer
  packets : flow.buffer.len ≤ limits.max_packets_per_flow
  flow_bytes : flow.buffered_bytes ≤ limits.max_bytes_per_flow

/-- The invariant reads the buffer and the counter only. -/
theorem Bounded.congr {f : FlowState} (h : flow.Bounded limits) (hbuffer : f.buffer = flow.buffer)
    (hbytes : f.buffered_bytes = flow.buffered_bytes) : f.Bounded limits := by
  refine ⟨?_, ?_, ?_⟩
  · rw [hbytes, hbuffer]
    exact h.bytes
  · rw [hbuffer]
    exact h.packets
  · rw [hbytes]
    exact h.flow_bytes

theorem payload_le_held {id : U64} {held : BufferedPacket} (h : flow.buffer.lookup id = some held) :
    held.payload.length ≤ held_bytes flow.buffer :=
  AList.le_sum (fun _ held => held.payload.length) h

/-- Taking a packet out of the buffer keeps the byte count exact. -/
theorem held_bytes_erase {id : U64} {held : BufferedPacket}
    (h : flow.buffer.lookup id = some held) :
    held.payload.length + held_bytes (flow.buffer.erase id) = held_bytes flow.buffer :=
  AList.sum_erase (fun _ held => held.payload.length) h

end FlowState

namespace SessionReorder

/-! ## Draining -/

section Drain

variable {limits : ReorderLimits} {flow : FlowState} {bytes : ℕ}

/-- A drain from `flow`, with `bytes` in the session, has come to `flow'` and
`bytes'` and delivered `past`: every byte it gave out it took off both counters. -/
structure Draining (limits : ReorderLimits) (flow : FlowState) (bytes : ℕ) (flow' : FlowState)
    (bytes' : ℕ) (past : List (PacketId × Bytes)) : Prop where
  bounded : flow'.Bounded limits
  flow_bytes : flow'.buffered_bytes + delivered_bytes past = flow.buffered_bytes
  session_bytes : bytes' + delivered_bytes past = bytes
  covered : flow'.buffered_bytes ≤ bytes'

/-- One held packet is taken out and given out. -/
theorem Draining.take {flow' f : FlowState} {bytes' : ℕ} {past : List (PacketId × Bytes)}
    {held : BufferedPacket} (h : Draining limits flow bytes flow' bytes' past)
    (hl : flow'.buffer.lookup flow'.next_expected = some held)
    (hbuffer : f.buffer = flow'.buffer.erase flow'.next_expected)
    (hbytes : f.buffered_bytes = flow'.buffered_bytes - held.payload.length) :
    Draining limits flow bytes f (bytes' - held.payload.length)
      (past ++ [(⟨flow'.next_expected⟩, held.payload)]) := by
  have hpayload := FlowState.payload_le_held hl
  have herase := FlowState.held_bytes_erase hl
  have hlen := AList.len_erase (AList.mem_of_lookup hl)
  have hold := h.bounded.bytes
  have hpackets := h.bounded.packets
  have hlimit := h.bounded.flow_bytes
  have hflow := h.flow_bytes
  have hsession := h.session_bytes
  have hcovered := h.covered
  refine ⟨⟨?_, ?_, ?_⟩, ?_, ?_, ?_⟩
  · rw [hbuffer]
    omega
  · rw [hbuffer]
    omega
  · omega
  · rw [delivered_bytes_snoc]
    dsimp only
    omega
  · rw [delivered_bytes_snoc]
    dsimp only
    omega
  · omega

/-- **A drain keeps the counters exact**, round by round. -/
theorem drain_draining (fuel : ℕ) (h : flow.Bounded limits) (hle : flow.buffered_bytes ≤ bytes) :
    Draining limits flow bytes (drain fuel flow bytes).flow
      (drain fuel flow bytes).buffered_bytes_session (drain fuel flow bytes).delivered := by
  refine drain_induct (P := Draining limits flow bytes) ?_ ?_ fuel [] ⟨h, rfl, rfl, hle⟩
  · intro flow' bytes' past held hP _ hl _
    exact hP.take hl rfl rfl
  · intro flow' bytes' past held hP _ hl _
    exact hP.take hl rfl rfl

end Drain

/-! ## The invariant -/

/-- **The representation invariant.** -/
structure Bounded (s : SessionReorder) : Prop where
  accepted : s.limits.validate = .ok ()
  flow : ∀ {key flow}, s.flows.lookup key = some flow → flow.Bounded s.limits
  bytes : s.buffered_bytes_session = s.flows.sum (fun _ flow => flow.buffered_bytes)
  apart : ∀ {key}, key ∈ s.flows → key ∉ s.tombstones
  flows : s.flows.len ≤ s.limits.max_flows
  tombstones : s.tombstones.len ≤ s.limits.max_tombstones
  session_bytes : s.buffered_bytes_session ≤ s.limits.max_bytes_per_session

theorem validate_pos {limits : ReorderLimits} (h : limits.validate = .ok ()) :
    0 < limits.max_flows ∧ 0 < limits.max_tombstones := by
  unfold ReorderLimits.validate at h
  split at h
  · contradiction
  · omega

section Steps

variable {s s' : SessionReorder} {key : ReceiveKey} {flow flow' : FlowState} {now_ms : ℕ}
  {order : Orders} {traffic_class : TrafficClass} {packet_id : PacketId} {payload : Bytes}

/-- A flow's bytes are among the session's. -/
theorem Bounded.flow_le_session (h : s.Bounded) (hl : s.flows.lookup key = some flow) :
    flow.buffered_bytes ≤ s.buffered_bytes_session := by
  rw [h.bytes]
  exact AList.le_sum (fun _ flow => flow.buffered_bytes) hl

/-- Counting is no part of the invariant. -/
theorem Bounded.with_metrics (h : s.Bounded) (m : ReorderMetrics) :
    Bounded { s with metrics := m } :=
  ⟨h.accepted, h.flow, h.bytes, h.apart, h.flows, h.tombstones, h.session_bytes⟩

/-- Writing a flow back, with the session's bytes changed as the flow's. -/
theorem Bounded.write (h : s.Bounded) (hl : s.flows.lookup key = some flow)
    (hflow : flow'.Bounded s.limits) {bytes : ℕ}
    (hbytes : bytes + flow.buffered_bytes = s.buffered_bytes_session + flow'.buffered_bytes)
    (hsession : bytes ≤ s.limits.max_bytes_per_session) (m : ReorderMetrics) :
    Bounded { s with
      flows := s.flows.insert key flow', buffered_bytes_session := bytes, metrics := m } := by
  have hmem : key ∈ s.flows := AList.mem_of_lookup hl
  refine ⟨h.accepted, ?_, ?_, ?_, ?_, h.tombstones, hsession⟩
  · intro k f hk
    rw [AList.lookup_insert_of] at hk
    split at hk
    · obtain rfl := Option.some.inj hk
      exact hflow
    · exact h.flow hk
  · have hsum := AList.sum_insert_add (w := flow') (fun _ flow => flow.buffered_bytes) hl
    have hold := h.bytes
    dsimp only at hsum ⊢
    omega
  · intro k hk
    rcases (AList.mem_insert _).mp hk with rfl | hk
    · exact h.apart hmem
    · exact h.apart hk
  · rw [AList.len_insert_of_mem hmem]
    exact h.flows

/-! ## Tombstones -/

theorem purge_len_le (s : SessionReorder) (now_ms : ℕ) :
    (s.purge_expired_tombstones now_ms).tombstones.len ≤ s.tombstones.len :=
  AList.len_retain_le

theorem min_by_isSome {α : Type*} (le : α → α → Bool) {l : List α} (h : l ≠ []) :
    ∃ a, min_by le l = some a := by
  cases l with
  | nil => contradiction
  | cons a l =>
    unfold min_by
    split
    · exact ⟨_, rfl⟩
    · split <;> exact ⟨_, rfl⟩

/-- Evicting makes room for one tombstone. -/
theorem evict_tombstone_len (order : Traversal ReceiveKey ReorderTombstone)
    (s : SessionReorder) (hpos : 0 < s.limits.max_tombstones)
    (h : s.tombstones.len ≤ s.limits.max_tombstones) :
    (evict_tombstone order s).tombstones.len < s.limits.max_tombstones := by
  unfold evict_tombstone
  by_cases hfull : s.limits.max_tombstones ≤ s.tombstones.len
  · rw [if_pos hfull]
    have hvisit : order.visit s.tombstones.entries ≠ [] := by
      intro hnil
      have hlen := (order.perm s.tombstones.entries).length_eq
      rw [hnil] at hlen
      have hzero : s.tombstones.len = 0 := hlen.symm
      omega
    obtain ⟨oldest, holdest⟩ := min_by_isSome evicts_before hvisit
    have hmem : oldest ∈ s.tombstones.entries := order.mem_visit.mp (min_by_mem holdest)
    have hlen := AList.len_erase (AList.mem_of_lookup (AList.mem_entries_iff.mp hmem))
    rw [holdest]
    dsimp only
    omega
  · rw [if_neg hfull]
    omega

/-- **A flow makes way for its tombstone**, and the invariant stays. -/
theorem Bounded.retire (h : s.Bounded) (key : ReceiveKey) (watermark : U64) (m : ReorderMetrics) :
    (insert_tombstone order.tombstones { s.remove_flow key with metrics := m } key watermark
      now_ms).Bounded := by
  have hpos := (validate_pos h.accepted).2
  generalize hs₁ : ({ s.remove_flow key with metrics := m } : SessionReorder) = s₁
  -- the table without the flow
  have hlimits : s₁.limits = s.limits := by
    subst hs₁
    unfold remove_flow
    split <;> rfl
  have htombstones : s₁.tombstones = s.tombstones := by
    subst hs₁
    exact remove_flow_tombstones
  have hlookup : ∀ k, s₁.flows.lookup k = if k = key then none else s.flows.lookup k := by
    intro k
    subst hs₁
    exact remove_flow_lookup
  have hbytes : s₁.buffered_bytes_session = s₁.flows.sum (fun _ flow => flow.buffered_bytes) ∧
      s₁.buffered_bytes_session ≤ s.buffered_bytes_session ∧ s₁.flows.len ≤ s.flows.len := by
    subst hs₁
    unfold remove_flow
    split
    · next flow hl =>
      have hsum := AList.sum_erase (fun _ flow => flow.buffered_bytes) hl
      have hlen := AList.len_erase (AList.mem_of_lookup hl)
      have hold := h.bytes
      dsimp only at hsum ⊢
      omega
    · exact ⟨h.bytes, le_rfl, le_rfl⟩
  obtain ⟨hframe, hsession⟩ :=
    insert_tombstone_frame order.tombstones s₁ key watermark now_ms
  refine ⟨?_, ?_, ?_, ?_, ?_, ?_, ?_⟩
  · rw [hframe, hlimits]
    exact h.accepted
  · intro k f hk
    rw [insert_tombstone_flows, hlookup] at hk
    split at hk
    · contradiction
    · rw [hframe, hlimits]
      exact h.flow hk
  · rw [hsession, insert_tombstone_flows]
    exact hbytes.1
  · intro k hk hmem
    rw [insert_tombstone_flows] at hk
    obtain ⟨f, hf⟩ := AList.mem_iff_lookup.mp hk
    rw [hlookup] at hf
    split at hf
    · contradiction
    next hne =>
    obtain ⟨t, ht⟩ := AList.mem_iff_lookup.mp hmem
    rcases insert_tombstone_lookup ht with ⟨heq, _⟩ | ⟨_, hold⟩
    · exact hne heq
    · rw [htombstones] at hold
      exact h.apart (AList.mem_of_lookup hf) (AList.mem_of_lookup hold)
  · rw [insert_tombstone_flows, hframe, hlimits]
    have hflows := h.flows
    omega
  · rw [hframe, hlimits]
    have hpurged := purge_len_le s₁ now_ms
    have htable := h.tombstones
    rw [htombstones] at hpurged
    have hroom := evict_tombstone_len order.tombstones (s₁.purge_expired_tombstones now_ms)
      (by rw [show (s₁.purge_expired_tombstones now_ms).limits = s₁.limits from rfl, hlimits]
          exact hpos)
      (by rw [show (s₁.purge_expired_tombstones now_ms).limits = s₁.limits from rfl, hlimits]
          omega)
    rw [show (s₁.purge_expired_tombstones now_ms).limits = s₁.limits from rfl, hlimits] at hroom
    unfold insert_tombstone
    dsimp only
    generalize (evict_tombstone order.tombstones
      (s₁.purge_expired_tombstones now_ms)).tombstones = table at hroom ⊢
    by_cases hk : key ∈ table
    · rw [AList.len_insert_of_mem hk]
      omega
    · rw [AList.len_insert_of_notMem hk]
      omega
  · rw [hsession, hframe, hlimits]
    have hlimit := h.session_bytes
    omega

/-! ## Calls -/

/-- Draining a flow, wherever it stands, and writing it back. -/
theorem Bounded.write_drained (h : s.Bounded) (hl : s.flows.lookup key = some flow)
    (f : FlowState) (hbuffer : f.buffer = flow.buffer)
    (hbytes : f.buffered_bytes = flow.buffered_bytes)
    (fuel now_ms : ℕ) (m : ReorderMetrics) :
    Bounded { s with
      flows := s.flows.insert key
        { (drain fuel f s.buffered_bytes_session).flow with last_activity_ms := now_ms }
      buffered_bytes_session := (drain fuel f s.buffered_bytes_session).buffered_bytes_session
      metrics := m } := by
  have hle := h.flow_le_session hl
  rw [← hbytes] at hle
  have hdraining := drain_draining fuel ((h.flow hl).congr hbuffer hbytes) hle
  have hcount := hdraining.flow_bytes
  have hsession := hdraining.session_bytes
  have hlimit := h.session_bytes
  refine h.write hl ?_ ?_ ?_ m
  · exact hdraining.bounded.congr rfl rfl
  · dsimp only
    omega
  · omega

theorem Bounded.skip_head_gap (h : s.Bounded) (key : ReceiveKey) (now_ms : ℕ) :
    (skip_head_gap_if_expired s key now_ms).1.Bounded := by
  rcases skip_head_gap_cases s key now_ms with ⟨_, he⟩ | ⟨flow, smallest, head, hdue, he⟩
  · rw [he]
    exact h
  · rw [he]
    exact h.write_drained hdue.found { flow with next_expected := smallest } rfl rfl _ now_ms _

theorem Bounded.refuse (h : s.Bounded) (hl : s.flows.lookup key = some flow)
    (reason : DropReason) : (refuse s key flow now_ms reason).1.Bounded := by
  unfold SessionReorder.refuse
  by_cases hclass : reason = .ClassMismatch
  · rw [if_pos hclass]
    exact h.with_metrics _
  · rw [if_neg hclass]
    refine h.write hl ?_ ?_ h.session_bytes _
    · exact (h.flow hl).congr rfl rfl
    · rfl

theorem Bounded.receive_head (h : s.Bounded) (hl : s.flows.lookup key = some flow) :
    (receive_head s key flow packet_id payload now_ms).1.Bounded := by
  unfold SessionReorder.receive_head
  dsimp only
  split
  · refine h.write hl ?_ ?_ h.session_bytes _
    · exact (h.flow hl).congr rfl rfl
    · rfl
  · exact h.write_drained hl { flow with next_expected := flow.next_expected.succSat } rfl rfl _
      now_ms _

/-- Holding an admissible packet, as long as the session's byte count has room. -/
theorem Bounded.hold (h : s.Bounded) (hl : s.flows.lookup key = some flow)
    (hroom : s.buffered_bytes_session + payload.length ≤ u64Max)
    (hadmissible : s.Admissible flow traffic_class packet_id.get payload) :
    (hold s key flow packet_id.get payload now_ms).1.Bounded := by
  have hflow := h.flow hl
  have hle := h.flow_le_session hl
  have hsession : saturatingAdd s.buffered_bytes_session payload.length =
      s.buffered_bytes_session + payload.length := saturatingAdd_eq hroom
  have hcount : saturatingAdd flow.buffered_bytes payload.length =
      flow.buffered_bytes + payload.length := saturatingAdd_eq (by omega)
  have hsession_limit := hadmissible.session_bytes
  have hflow_limit := hadmissible.flow_bytes
  have hinsert : FlowState.Bounded s.limits { flow with
      buffer := flow.buffer.insert packet_id.get ⟨payload, now_ms⟩
      buffered_bytes := saturatingAdd flow.buffered_bytes payload.length
      last_activity_ms := now_ms } := by
    refine ⟨?_, ?_, hflow_limit⟩
    · have hsum := AList.sum_insert_of_notMem (fun _ held => held.payload.length)
        (⟨payload, now_ms⟩ : BufferedPacket) hadmissible.fresh
      have hbytes := hflow.bytes
      unfold held_bytes at *
      dsimp only at hsum ⊢
      omega
    · have hpackets := hadmissible.packets
      rw [AList.len_insert_of_notMem hadmissible.fresh]
      omega
  have hbytes : saturatingAdd s.buffered_bytes_session payload.length + flow.buffered_bytes =
      s.buffered_bytes_session + saturatingAdd flow.buffered_bytes payload.length := by
    omega
  have hheld := h.write hl hinsert hbytes hsession_limit s.metrics
  have hskip := hheld.skip_head_gap key now_ms
  unfold SessionReorder.hold
  dsimp only
  split
  · next he => rwa [he] at hskip
  · next he => rwa [he] at hskip

theorem Bounded.forget_tombstone (h : s.Bounded) (key : ReceiveKey) (now_ms : ℕ) :
    (s.forget_tombstone key now_ms).Bounded := by
  refine ⟨h.accepted, h.flow, h.bytes, ?_, h.flows, ?_, h.session_bytes⟩
  · intro k hk hmem
    exact h.apart hk (AList.mem_erase.mp hmem).2
  · have htable := h.tombstones
    unfold SessionReorder.forget_tombstone
    dsimp only
    by_cases hmem : key ∈ s.tombstones
    · have hlen := AList.len_erase hmem
      omega
    · rw [AList.erase_of_notMem hmem]
      exact htable

/-- Evicting the oldest flow makes room for one flow. -/
theorem make_room_len (h : s.Bounded) :
    (make_room order s now_ms).flows.len < (make_room order s now_ms).limits.max_flows := by
  have hpos := (validate_pos h.accepted).1
  unfold make_room
  by_cases hfull : s.limits.max_flows ≤ s.flows.len
  · rw [if_pos hfull]
    have hvisit : order.flows.visit s.flows.entries ≠ [] := by
      intro hnil
      have hlen := (order.flows.perm s.flows.entries).length_eq
      rw [hnil] at hlen
      have hzero : s.flows.len = 0 := hlen.symm
      omega
    obtain ⟨oldest, holdest⟩ := min_by_isSome older_activity hvisit
    have hmem : oldest ∈ s.flows.entries := order.flows.mem_visit.mp (min_by_mem holdest)
    have hl := AList.mem_entries_iff.mp hmem
    have hlen := AList.len_erase (AList.mem_of_lookup hl)
    have hflows := h.flows
    unfold evict_oldest_flow
    rw [holdest]
    dsimp only
    rw [insert_tombstone_flows, (insert_tombstone_frame _ _ _ _ _).1]
    unfold remove_flow
    rw [hl]
    dsimp only
    omega
  · rw [if_neg hfull]
    omega

theorem Bounded.make_room (h : s.Bounded) : (make_room order s now_ms).Bounded := by
  unfold SessionReorder.make_room
  split
  · rcases evict_oldest_flow_cases order s now_ms with he | ⟨key, flow, m, _, he⟩
    · rw [he]
      exact h
    · rw [he]
      exact h.retire key _ m
  · exact h

/-- A flow is opened for a key that has neither a flow nor a tombstone. -/
theorem Bounded.open_flow (h : s.Bounded) (hf : s.flows.lookup key = none)
    (ht : s.tombstones.lookup key = none) :
    (open_flow order s key traffic_class packet_id payload now_ms).1.Bounded := by
  have hroom : (SessionReorder.make_room order s now_ms).Bounded := h.make_room
  have hlen : (SessionReorder.make_room order s now_ms).flows.len <
      (SessionReorder.make_room order s now_ms).limits.max_flows := make_room_len h
  have hnone : (SessionReorder.make_room order s now_ms).tombstones.lookup key = none :=
    make_room_absent hf ht
  -- the key has no flow: making room only takes flows out
  have hfresh : key ∉ (SessionReorder.make_room order s now_ms).flows := by
    unfold SessionReorder.make_room
    split
    · rcases evict_oldest_flow_cases order s now_ms with he | ⟨k, flow, m, _, he⟩
      · rw [he]
        exact AList.lookup_eq_none.mp hf
      · rw [he, insert_tombstone_flows]
        apply AList.lookup_eq_none.mp
        rw [show ({ s.remove_flow k with metrics := m } : SessionReorder).flows =
          (s.remove_flow k).flows from rfl, remove_flow_lookup, hf, ite_self]
    · exact AList.lookup_eq_none.mp hf
  unfold SessionReorder.open_flow
  dsimp only
  generalize SessionReorder.make_room order s now_ms = s₁ at hroom hlen hnone hfresh
  refine ⟨hroom.accepted, ?_, ?_, ?_, ?_, hroom.tombstones, hroom.session_bytes⟩
  · intro k f hk
    rw [AList.lookup_insert_of] at hk
    split at hk
    · obtain rfl := Option.some.inj hk
      exact ⟨rfl, Nat.zero_le _, Nat.zero_le _⟩
    · exact hroom.flow hk
  · have hsum := AList.sum_insert_of_notMem (fun _ flow => flow.buffered_bytes)
      (⟨traffic_class, if packet_id.get = U64.max then U64.max else packet_id.get.succSat,
        packet_id.get = U64.max, ∅, 0, now_ms⟩ : FlowState) hfresh
    have hbytes := hroom.bytes
    dsimp only at hsum ⊢
    omega
  · intro k hk
    rcases (AList.mem_insert _).mp hk with rfl | hk
    · exact AList.lookup_eq_none.mp hnone
    · exact hroom.apart hk
  · rw [AList.len_insert_of_notMem hfresh]
    exact hlen

/-- **`receive` keeps the invariant** while the session's byte count has room for
what is held. -/
theorem Bounded.receive (h : s.Bounded)
    (hroom : ∀ flow, traffic_class ≠ .Control → s.flows.lookup key = some flow →
      packet_id.get ≠ flow.next_expected →
      s.refusal flow traffic_class packet_id.get payload = none →
      s.buffered_bytes_session + payload.length ≤ u64Max) :
    (s.receive order key traffic_class packet_id payload now_ms).1.Bounded := by
  unfold SessionReorder.receive
  split
  · exact h.with_metrics _
  next hclass =>
  cases hl : s.flows.lookup key with
  | none =>
    dsimp only
    rw [receive_unknown_eq]
    split
    · exact h.with_metrics _
    · refine (h.forget_tombstone key now_ms).open_flow hl ?_
      exact AList.lookup_erase key s.tombstones
  | some flow =>
    dsimp only
    rw [receive_known_eq]
    cases hr : refusal s flow traffic_class packet_id.get payload with
    | some reason => exact h.refuse hl reason
    | none =>
      dsimp only
      split
      · exact h.receive_head hl
      · next hid =>
        exact h.hold hl (hroom flow hclass hl hid hr) (admissible_of_refusal hr hid)

theorem Bounded.purge (h : s.Bounded) (now_ms : ℕ) :
    (s.purge_expired_tombstones now_ms).Bounded := by
  refine ⟨h.accepted, h.flow, h.bytes, ?_, h.flows, ?_, h.session_bytes⟩
  · intro k hk hmem
    obtain ⟨t, ht⟩ := AList.mem_iff_lookup.mp hmem
    exact h.apart hk (AList.mem_of_lookup (AList.lookup_retain_eq_some.mp ht).1)
  · have hpurged := purge_len_le s now_ms
    have htable := h.tombstones
    exact hpurged.trans htable

theorem Bounded.expire_idle (h : s.Bounded) (idle : List (ReceiveKey × U64)) :
    (expire_idle order s now_ms idle).Bounded := by
  induction idle generalizing s with
  | nil => exact h
  | cons entry idle ih => exact ih (h.retire entry.1 entry.2 (s.remove_flow entry.1).metrics)

/-- **`expire` keeps the invariant.** -/
theorem Bounded.expire (h : s.Bounded) : (s.expire order now_ms).1.Bounded := by
  unfold SessionReorder.expire
  refine skip_flows_induct (fun s key h => h.skip_head_gap key now_ms) _ ?_
  exact ((h.purge now_ms).expire_idle _).with_metrics _

end Steps

/-- No subtraction from a byte counter saturates: a removed flow gives back no more
than the session holds, and a drain takes off both counters what it delivers. -/
structure Exact (s : SessionReorder) : Prop where
  removal : ∀ {key flow}, s.flows.lookup key = some flow →
    flow.buffered_bytes ≤ s.buffered_bytes_session
  drain : ∀ {key flow}, s.flows.lookup key = some flow → ∀ next fuel d,
    d = drain fuel { flow with next_expected := next } s.buffered_bytes_session →
    d.buffered_bytes_session + delivered_bytes d.delivered = s.buffered_bytes_session ∧
      d.flow.buffered_bytes + delivered_bytes d.delivered = flow.buffered_bytes

theorem Bounded.exact {s : SessionReorder} (h : s.Bounded) : s.Exact := by
  refine ⟨h.flow_le_session, ?_⟩
  rintro key flow hl next fuel d rfl
  have hcovered : flow.buffered_bytes ≤ s.buffered_bytes_session := h.flow_le_session hl
  have hbounded : FlowState.Bounded s.limits { flow with next_expected := next } :=
    (h.flow hl).congr rfl rfl
  have hdraining := drain_draining fuel hbounded hcovered
  exact ⟨hdraining.session_bytes, hdraining.flow_bytes⟩

theorem new_bounded {limits : ReorderLimits} {s : SessionReorder} (h : new limits = .ok s) :
    s.Bounded ∧ s.limits = limits := by
  unfold new at h
  split at h
  · contradiction
  next haccepted =>
  obtain rfl := Except.ok.inj h
  refine ⟨⟨haccepted, ?_, rfl, ?_, Nat.zero_le _, Nat.zero_le _, Nat.zero_le _⟩, rfl⟩
  · intro key flow hl
    contradiction
  · intro key hk
    exact absurd hk (AList.notMem_empty key)

end SessionReorder

/-! ## Runs -/

/-- The arrival is held, and the byte counter of the session saturates on it. -/
def ReorderCall.overflows (s : SessionReorder) : ReorderCall → Prop
  | .receive key traffic_class packet_id payload _ _ =>
    traffic_class ≠ .Control ∧ ∃ flow ∈ s.flows.lookup key, packet_id.get ≠ flow.next_expected ∧
      s.refusal flow traffic_class packet_id.get payload = none ∧
      u64Max < s.buffered_bytes_session + payload.length
  | .expire _ _ => False

instance (s : SessionReorder) : DecidablePred (ReorderCall.overflows s)
  | .receive _ _ _ _ _ _ => inferInstanceAs (Decidable (_ ∧ _))
  | .expire _ _ => inferInstanceAs (Decidable False)

/-- **Step lemma.** -/
theorem ReorderCall.apply_bounded {s : SessionReorder} (call : ReorderCall) (h : s.Bounded)
    (hroom : ¬ call.overflows s) : (call.apply s).1.Bounded := by
  cases call with
  | receive key traffic_class packet_id payload now order =>
    refine h.receive ?_
    intro flow hclass hl hid hr
    by_contra hover
    exact hroom ⟨hclass, flow, hl, hid, hr, not_le.mp hover⟩
  | expire now order => exact h.expire

/-- **The representation invariant and the bounds** hold in every state of every run
in which the session's byte counter is never made to saturate, and what they say of the
held packet IDs in every state of every run. -/
theorem representation_bounded {limits : ReorderLimits} {s t : SessionReorder}
    {calls : List ReorderCall} {out : List (ReceiveKey × PacketId × Bytes)}
    (hnew : SessionReorder.new limits = .ok s)
    (hrun : exec ReorderCall.run s calls = some (t, out)) :
    t.Windowed ∧ t.limits = limits ∧
      (Along ReorderCall.run (fun s call => ¬ call.overflows s) s calls → t.Bounded ∧ t.Exact) := by
  obtain ⟨hstart, hlimits⟩ := SessionReorder.new_bounded hnew
  refine ⟨exec_windowed hnew hrun, (exec_limits hrun).trans hlimits, fun hroom => ?_⟩
  have hbounded : t.Bounded := by
    refine exec_along_invariant ?_ hstart hroom hrun
    intro s call s₁ o hb hfits hs
    obtain rfl : (call.apply s).1 = s₁ := congrArg Prod.fst (Option.some.inj hs)
    exact call.apply_bounded hb hfits
  exact ⟨hbounded, hbounded.exact⟩

open Sample in
/-- The run of `Sample.calls`, with an eviction and a reopening. -/
theorem representation_bounded_sample :
    ∃ t out, exec ReorderCall.run start calls = some (t, out) ∧
      t.Windowed ∧ t.limits = limits ∧ t.Bounded ∧ t.Exact := by
  have hnew : SessionReorder.new limits = .ok start := rfl
  obtain ⟨⟨t, out⟩, hrun⟩ : ∃ r, exec ReorderCall.run start calls = some r := ⟨_, rfl⟩
  obtain ⟨hwindowed, hlimits, hbounded⟩ := representation_bounded hnew hrun
  exact ⟨t, out, hrun, hwindowed, hlimits, hbounded (by decide)⟩

namespace Sample

/-- No limit on bytes but the largest there is. -/
def unlimited : ReorderLimits :=
  ⟨1, 2 ^ 25, u64Max, u64Max, 1000, 10, 20, 30, 4, 5000, 2 ^ 25⟩

def unlimited_start : SessionReorder := ⟨unlimited, ∅, ∅, 0, .default⟩

/-- The table after packet 5 opened a flow, with the buffer and byte count given. -/
def holding (buffer : Map U64 BufferedPacket) (bytes : ℕ) : SessionReorder :=
  ⟨unlimited, (∅ : Map ReceiveKey FlowState).insert (key 1) ⟨.Bulk, 6, false, buffer, bytes, 0⟩, ∅,
    bytes, { ReorderMetrics.default with delivered := 1 }⟩

/-- A packet that arrives at time 0 behind the gap at 6 is held, whatever its length. -/
theorem receive_holding (buffer : Map U64 BufferedPacket) (bytes : ℕ) (id : U64)
    (payload : Bytes) (hid : 6 < id) (hwindow : id.val ≤ 2 ^ 25) (hfresh : id ∉ buffer)
    (hlen : buffer.len < 2 ^ 25) :
    (holding buffer bytes).receive default (key 1) .Bulk ⟨id⟩ payload 0 =
      (holding (buffer.insert id ⟨payload, 0⟩) (saturatingAdd bytes payload.length),
        .ofBuffered) := by
  have hrefusal : SessionReorder.refusal (holding buffer bytes) ⟨.Bulk, 6, false, buffer, bytes, 0⟩
      .Bulk id payload = none := by
    have hle : saturatingAdd bytes payload.length ≤ u64Max := saturatingAdd_le_max _ _
    have hgap : id.val - (6 : U64).val ≤ 2 ^ 25 := (Nat.sub_le _ _).trans hwindow
    exact SessionReorder.refusal_of_admissible ⟨rfl, rfl, hid, hfresh, hgap, hlen, hle, hle⟩
  have hheld : SessionReorder.skip_head_gap_if_expired
      (holding (buffer.insert id ⟨payload, 0⟩) (saturatingAdd bytes payload.length)) (key 1) 0 =
        (holding (buffer.insert id ⟨payload, 0⟩) (saturatingAdd bytes payload.length), none) := by
    rcases SessionReorder.skip_head_gap_cases
      (holding (buffer.insert id ⟨payload, 0⟩) (saturatingAdd bytes payload.length)) (key 1) 0 with
      ⟨_, he⟩ | ⟨flow, smallest, head, hdue, _⟩
    · exact he
    · -- at time 0 no deadline has passed
      have hoverdue := hdue.overdue
      have hpos : 0 < unlimited.deadline_for flow.traffic_class := by
        cases flow.traffic_class <;> decide
      rw [Nat.zero_sub] at hoverdue
      exact absurd hpos (not_lt.mpr hoverdue)
  unfold SessionReorder.receive
  rw [if_neg (by decide)]
  rw [show (holding buffer bytes).flows.lookup (key 1) = some ⟨.Bulk, 6, false, buffer, bytes, 0⟩
    from AList.lookup_insert _]
  dsimp only
  rw [SessionReorder.receive_known_eq, hrefusal]
  dsimp only
  rw [if_neg hid.ne']
  refine SessionReorder.hold_of_none ?_
  have hinsert : ∀ flow : FlowState, (holding buffer bytes).flows.insert (key 1) flow =
      (∅ : Map ReceiveKey FlowState).insert (key 1) flow := by
    intro flow
    exact AList.insert_insert _
  rw [hinsert]
  exact hheld

/-- One terabyte. -/
def terabyte : Bytes := List.replicate (2 ^ 40) 0

theorem length_terabyte : terabyte.length = 2 ^ 40 := List.length_replicate

/-- The packet that arrives as number `n` behind the gap. -/
def late (n : ℕ) : U64 := Fin.ofNat _ (7 + n)

theorem val_late {n : ℕ} (h : n < 2 ^ 24) : (late n).val = 7 + n :=
  Nat.mod_eq_of_lt (by omega)

/-- The same terabyte, held under `n` packet IDs. -/
def terabytes : ℕ → Map U64 BufferedPacket
  | 0 => ∅
  | n + 1 => (terabytes n).insert (late n) ⟨terabyte, 0⟩

theorem mem_terabytes {n : ℕ} {id : U64} (h : id ∈ terabytes n) : ∃ m < n, id = late m := by
  induction n with
  | zero => exact absurd h (AList.notMem_empty id)
  | succ n ih =>
    rcases (AList.mem_insert _).mp h with rfl | h
    · exact ⟨n, Nat.lt_succ_self n, rfl⟩
    · obtain ⟨m, hm, rfl⟩ := ih h
      exact ⟨m, hm.trans (Nat.lt_succ_self n), rfl⟩

theorem late_notMem {n : ℕ} (h : n < 2 ^ 24) : late n ∉ terabytes n := by
  intro hmem
  obtain ⟨m, hm, he⟩ := mem_terabytes hmem
  have hval := congrArg Fin.val he
  rw [val_late h, val_late (hm.trans h)] at hval
  omega

theorem len_terabytes {n : ℕ} (h : n ≤ 2 ^ 24) : (terabytes n).len = n := by
  induction n with
  | zero => rfl
  | succ n ih =>
    unfold terabytes
    rw [AList.len_insert_of_notMem (late_notMem (by omega)), ih (by omega)]

theorem held_bytes_terabytes {n : ℕ} (h : n ≤ 2 ^ 24) :
    held_bytes (terabytes n) = n * 2 ^ 40 := by
  induction n with
  | zero => exact (Nat.zero_mul _).symm
  | succ n ih =>
    have hrest := ih (by omega)
    unfold held_bytes at hrest
    unfold held_bytes terabytes
    rw [AList.sum_insert_of_notMem _ _ (late_notMem (by omega)), hrest, length_terabyte]
    omega

/-- Packet 5 opens a flow; then `n` packets arrive behind the gap at 6, all with the
same terabyte. -/
def arrivals (n : ℕ) : List ReorderCall :=
  .receive (key 1) .Bulk ⟨5⟩ [] 0 default ::
    (List.range n).map (fun i => .receive (key 1) .Bulk ⟨late i⟩ terabyte 0 default)

/-- Every arrival is held. -/
theorem exec_arrivals {n : ℕ} (h : n ≤ 2 ^ 24) :
    ∃ bytes ≤ u64Max, ∃ out, exec ReorderCall.run unlimited_start (arrivals n) =
      some (holding (terabytes n) bytes, out) := by
  induction n with
  | zero =>
    have hopen : ReorderCall.run unlimited_start (.receive (key 1) .Bulk ⟨5⟩ [] 0 default) =
        some (holding ∅ 0, [(key 1, ⟨5⟩, [])]) := rfl
    exact ⟨0, Nat.zero_le _, _, exec_singleton hopen⟩
  | succ n ih =>
    obtain ⟨bytes, _, out, hrun⟩ := ih (by omega)
    have hval : (late n).val = 7 + n := val_late (by omega)
    have hid : 6 < late n := Fin.lt_def.mpr (by rw [hval]; exact Nat.lt_add_right n (by decide))
    have hlen : (terabytes n).len < 2 ^ 25 := by
      rw [len_terabytes (by omega)]
      omega
    have hstep : ReorderCall.run (holding (terabytes n) bytes)
        (.receive (key 1) .Bulk ⟨late n⟩ terabyte 0 default) =
        some (holding (terabytes (n + 1)) (saturatingAdd bytes terabyte.length), []) := by
      unfold ReorderCall.run ReorderCall.apply
      dsimp only
      rw [receive_holding _ _ _ terabyte hid (by omega) (late_notMem (by omega)) hlen]
      rfl
    refine ⟨saturatingAdd bytes terabyte.length, saturatingAdd_le_max _ _, out ++ [], ?_⟩
    unfold arrivals at hrun ⊢
    rw [List.range_succ, List.map_append, ← List.cons_append]
    exact exec_append hrun (exec_singleton hstep)

end Sample

open Sample in
/-- With the largest limits there are, the byte counters saturate below the bytes held:
`2 ^ 24` packets share one terabyte. -/
theorem byte_counters_saturate :
    SessionReorder.new unlimited = .ok unlimited_start ∧
    ∃ t out, exec ReorderCall.run unlimited_start (arrivals (2 ^ 24)) = some (t, out) ∧
      ∃ flow, t.flows.lookup (key 1) = some flow ∧
        flow.buffered_bytes < held_bytes flow.buffer := by
  obtain ⟨bytes, hle, out, hrun⟩ := exec_arrivals le_rfl
  refine ⟨rfl, _, out, hrun, _, AList.lookup_insert _, ?_⟩
  dsimp only
  rw [held_bytes_terabytes le_rfl]
  unfold u64Max at hle
  omega

end StreamGuard.Multipath
