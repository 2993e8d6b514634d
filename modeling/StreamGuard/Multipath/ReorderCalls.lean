/-
What one call on a `SessionReorder` does.

`receive` and `skip_head_gap_if_expired` have many branches, and every property of
a run needs all of them. They are sorted out once here: `refusal` is the drop
reason of an arrival on a held flow, `HeadOverdue` the state in which a deadline
skip happens, and the equations `receive_known_eq`, `receive_unknown_eq` and
`skip_head_gap_cases` say what the call is in terms of them. The modules that
follow prove one lemma for each part and never look at the branches again.

`ReorderTurn` records one call of a run with everything it returned.
-/
import StreamGuard.Multipath.ReorderDelivery

set_option autoImplicit false

namespace StreamGuard.Multipath

open StreamGuard StreamGuard.Lib

/-! ## Counters by drop reason -/

namespace ReorderMetrics

/-- The counter of the arrivals dropped for a reason. -/
def dropped (m : ReorderMetrics) : DropReason → ℕ
  | .Duplicate => m.duplicates_dropped
  | .ClassMismatch => m.class_mismatch_dropped
  | .FlowPacketCapacity => m.flow_packet_capacity_dropped
  | .FlowByteCapacity => m.flow_byte_capacity_dropped
  | .SessionByteCapacity => m.session_byte_capacity_dropped
  | .FarAhead => m.far_ahead_dropped
  | .Exhausted => m.exhausted_dropped

/-- One more arrival dropped for a reason. -/
def count (m : ReorderMetrics) : DropReason → ReorderMetrics
  | .Duplicate => { m with duplicates_dropped := saturatingAdd m.duplicates_dropped 1 }
  | .ClassMismatch => { m with class_mismatch_dropped := saturatingAdd m.class_mismatch_dropped 1 }
  | .FlowPacketCapacity =>
    { m with flow_packet_capacity_dropped := saturatingAdd m.flow_packet_capacity_dropped 1 }
  | .FlowByteCapacity =>
    { m with flow_byte_capacity_dropped := saturatingAdd m.flow_byte_capacity_dropped 1 }
  | .SessionByteCapacity =>
    { m with session_byte_capacity_dropped := saturatingAdd m.session_byte_capacity_dropped 1 }
  | .FarAhead => { m with far_ahead_dropped := saturatingAdd m.far_ahead_dropped 1 }
  | .Exhausted => { m with exhausted_dropped := saturatingAdd m.exhausted_dropped 1 }

end ReorderMetrics

namespace SessionReorder

variable {s : SessionReorder} {key : ReceiveKey} {flow : FlowState} {now_ms : ℕ}

/-! ## Draining -/

/-- The flow after the drain has taken the expected packet. -/
def taken (flow : FlowState) (held : BufferedPacket) : FlowState :=
  { flow with
    buffer := flow.buffer.erase flow.next_expected
    buffered_bytes := flow.buffered_bytes - held.payload.length
    next_expected := flow.next_expected.succSat }

/-- One round of a drain that is not the last one. -/
theorem drain_round {fuel bytes : ℕ} {held : BufferedPacket} (hex : flow.exhausted = false)
    (hl : flow.buffer.lookup flow.next_expected = some held) (hmax : flow.next_expected ≠ U64.max) :
    drain (fuel + 1) flow bytes =
      { drain fuel (taken flow held) (bytes - held.payload.length) with
        delivered := (⟨flow.next_expected⟩, held.payload) ::
          (drain fuel (taken flow held) (bytes - held.payload.length)).delivered } := by
  rw [drain, if_neg (by simp [hex])]
  simp only [hl, if_neg hmax, taken]

/-- **What holds of a flow through a drain.** `P` relates the flow, the bytes of
the session and the deliveries so far; it is enough to follow it through one
round. -/
theorem drain_induct {P : FlowState → ℕ → List (PacketId × Bytes) → Prop}
    (hnext : ∀ flow bytes past held, P flow bytes past → flow.exhausted = false →
      flow.buffer.lookup flow.next_expected = some held → flow.next_expected ≠ U64.max →
      P (taken flow held) (bytes - held.payload.length)
        (past ++ [(⟨flow.next_expected⟩, held.payload)]))
    (hlast : ∀ flow bytes past held, P flow bytes past → flow.exhausted = false →
      flow.buffer.lookup flow.next_expected = some held → flow.next_expected = U64.max →
      P { flow with
          buffer := flow.buffer.erase flow.next_expected
          buffered_bytes := flow.buffered_bytes - held.payload.length
          exhausted := true } (bytes - held.payload.length)
        (past ++ [(⟨flow.next_expected⟩, held.payload)]))
    (fuel : ℕ) {flow : FlowState} {bytes : ℕ} (past : List (PacketId × Bytes))
    (h : P flow bytes past) :
    P (drain fuel flow bytes).flow (drain fuel flow bytes).buffered_bytes_session
      (past ++ (drain fuel flow bytes).delivered) := by
  induction fuel generalizing flow bytes past with
  | zero => simpa [drain] using h
  | succ fuel ih =>
    by_cases hex : flow.exhausted = true
    · simpa [drain_exhausted hex] using h
    have hex : flow.exhausted = false := by simpa using hex
    cases hl : flow.buffer.lookup flow.next_expected with
    | none => simpa [drain_gap hl] using h
    | some held =>
      by_cases hmax : flow.next_expected = U64.max
      · rw [drain_last hex hl hmax]
        exact hlast flow bytes past held h hex hl hmax
      · rw [drain_round hex hl hmax]
        have hround := ih _ (hnext flow bytes past held h hex hl hmax)
        simpa using hround

/-- A drain that starts at a held packet delivers it. -/
theorem drain_delivers {fuel bytes : ℕ} {held : BufferedPacket} (hex : flow.exhausted = false)
    (hl : flow.buffer.lookup flow.next_expected = some held) :
    (drain (fuel + 1) flow bytes).delivered ≠ [] := by
  by_cases hmax : flow.next_expected = U64.max
  · rw [drain_last hex hl hmax]
    simp
  · rw [drain_round hex hl hmax]
    simp

/-! ## Skipping the head gap -/

/-- The head gap of `key` is due: `head`, the held packet with the smallest ID,
has outlived the deadline of the flow's class. -/
structure HeadOverdue (s : SessionReorder) (key : ReceiveKey) (now_ms : ℕ) (flow : FlowState)
    (smallest : U64) (head : BufferedPacket) : Prop where
  found : s.flows.lookup key = some flow
  unexhausted : flow.exhausted = false
  first : flow.buffer.firstKey = some smallest
  held : flow.buffer.lookup smallest = some head
  gap : flow.next_expected < smallest
  overdue : s.limits.deadline_for flow.traffic_class ≤ now_ms - head.arrived_at_ms

/-- What a skip to `smallest` drains. -/
def skip_drain (s : SessionReorder) (flow : FlowState) (smallest : U64) : Drained :=
  drain flow.buffer.len { flow with next_expected := smallest } s.buffered_bytes_session

/-- The state after a skip to `smallest`. -/
def skip_to (s : SessionReorder) (key : ReceiveKey) (flow : FlowState) (smallest : U64)
    (now_ms : ℕ) : SessionReorder :=
  { s with
    flows := s.flows.insert key { (skip_drain s flow smallest).flow with last_activity_ms := now_ms }
    buffered_bytes_session := (skip_drain s flow smallest).buffered_bytes_session
    metrics := { s.metrics with
      gaps_skipped := saturatingAdd s.metrics.gaps_skipped 1
      packets_skipped := saturatingAdd s.metrics.packets_skipped
        (smallest.val - flow.next_expected.val)
      delivered := saturatingAdd s.metrics.delivered
        (skip_drain s flow smallest).delivered.length } }

theorem HeadOverdue.delivers {smallest : U64} {head : BufferedPacket}
    (h : s.HeadOverdue key now_ms flow smallest head) :
    (skip_drain s flow smallest).delivered ≠ [] := by
  have hlen : 0 < flow.buffer.len :=
    List.length_pos_of_mem (AList.mem_entries_iff.mpr h.held)
  obtain ⟨fuel, hfuel⟩ := Nat.exists_eq_succ_of_ne_zero hlen.ne'
  rw [skip_drain, hfuel]
  exact drain_delivers h.unexhausted h.held

/-- Only the flow of the key and the limits matter. -/
theorem HeadOverdue.congr {s' : SessionReorder} {smallest : U64} {head : BufferedPacket}
    (h : s.HeadOverdue key now_ms flow smallest head)
    (hl : s'.flows.lookup key = s.flows.lookup key) (hlimits : s'.limits = s.limits) :
    s'.HeadOverdue key now_ms flow smallest head := by
  refine ⟨hl.trans h.found, h.unexhausted, h.first, h.held, h.gap, ?_⟩
  rw [hlimits]
  exact h.overdue

/-- **What a deadline skip does**: nothing, or it moves on to an overdue head and
delivers what is contiguous from there. -/
theorem skip_head_gap_cases (s : SessionReorder) (key : ReceiveKey) (now_ms : ℕ) :
    ((∀ flow smallest head, ¬ s.HeadOverdue key now_ms flow smallest head) ∧
        skip_head_gap_if_expired s key now_ms = (s, none)) ∨
      ∃ flow smallest head, s.HeadOverdue key now_ms flow smallest head ∧
        skip_head_gap_if_expired s key now_ms =
          (s.skip_to key flow smallest now_ms, some (skip_drain s flow smallest).delivered) := by
  unfold skip_head_gap_if_expired
  split
  · next hl =>
    refine .inl ⟨?_, rfl⟩
    intro flow smallest head h
    rw [h.found] at hl
    contradiction
  next flow hl =>
  -- the flow of an overdue head is this one
  have hsame : ∀ {flow' smallest head}, s.HeadOverdue key now_ms flow' smallest head →
      flow' = flow := by
    intro flow' smallest head h
    rw [h.found] at hl
    exact Option.some.inj hl
  split
  · next hex =>
    refine .inl ⟨?_, rfl⟩
    intro flow' smallest head h
    obtain rfl := hsame h
    rw [h.unexhausted] at hex
    contradiction
  next hex =>
  split
  · next hfirst =>
    refine .inl ⟨?_, rfl⟩
    intro flow' smallest head h
    obtain rfl := hsame h
    rw [h.first] at hfirst
    contradiction
  next smallest hfirst =>
  split
  · next hhead =>
    exact absurd (firstKey_le hfirst).1 (AList.lookup_eq_none.mp hhead)
  next head hhead =>
  -- and so are its smallest packet ID and head
  have hhere : ∀ {flow' smallest' head'}, s.HeadOverdue key now_ms flow' smallest' head' →
      flow' = flow ∧ smallest' = smallest ∧ head' = head := by
    intro flow' smallest' head' h
    obtain rfl := hsame h
    have hfirst' := h.first
    rw [hfirst] at hfirst'
    obtain rfl := Option.some.inj hfirst'
    have hhead' := h.held
    rw [hhead] at hhead'
    exact ⟨rfl, rfl, (Option.some.inj hhead').symm⟩
  split
  · next hle =>
    refine .inl ⟨?_, rfl⟩
    intro flow' smallest' head' h
    obtain ⟨rfl, rfl, rfl⟩ := hhere h
    exact absurd h.gap (not_lt.mpr hle)
  next hgap =>
  split
  · next hyoung =>
    refine .inl ⟨?_, rfl⟩
    intro flow' smallest' head' h
    obtain ⟨rfl, rfl, rfl⟩ := hhere h
    exact absurd h.overdue (not_le.mpr hyoung)
  next hdue =>
  have h : s.HeadOverdue key now_ms flow smallest head :=
    ⟨hl, by simpa using hex, hfirst, hhead, not_le.mp hgap, not_lt.mp hdue⟩
  refine .inr ⟨flow, smallest, head, h, ?_⟩
  exact if_neg h.delivers

/-- **What holds through the skip loop**: it is enough to follow it through one skip. -/
theorem skip_expired_gaps_induct {P : SessionReorder → Prop} {key : ReceiveKey} {now_ms : ℕ}
    (hskip : ∀ s, P s → P (skip_head_gap_if_expired s key now_ms).1) (fuel : ℕ)
    {s : SessionReorder} (h : P s) : P (skip_expired_gaps fuel s key now_ms).1 := by
  induction fuel generalizing s with
  | zero => exact h
  | succ fuel ih =>
    have hone := hskip s h
    unfold skip_expired_gaps
    split
    · next he => rwa [he] at hone
    · next he =>
      rw [he] at hone
      exact ih hone

/-- The same for the deadline pass over any keys. -/
theorem skip_flows_induct {P : SessionReorder → Prop} {now_ms : ℕ}
    (hskip : ∀ s key, P s → P (skip_head_gap_if_expired s key now_ms).1)
    (keys : List ReceiveKey) {s : SessionReorder} (h : P s) : P (skip_flows s now_ms keys).1 := by
  induction keys generalizing s with
  | nil => exact h
  | cons key keys ih => exact ih (skip_expired_gaps_induct (fun s => hskip s key) _ h)

/-! ## Arrivals on a held flow -/

/-- Why an arrival on a held flow is dropped, if it is. -/
def refusal (s : SessionReorder) (flow : FlowState) (traffic_class : TrafficClass) (id : U64)
    (payload : Bytes) : Option DropReason :=
  if flow.exhausted then some .Exhausted
  else if flow.traffic_class ≠ traffic_class then some .ClassMismatch
  else if id < flow.next_expected ∨ id ∈ flow.buffer then some .Duplicate
  else if id = flow.next_expected then none
  else if s.limits.max_future_gap < id.val - flow.next_expected.val then some .FarAhead
  else if s.limits.max_packets_per_flow ≤ flow.buffer.len then some .FlowPacketCapacity
  else if s.limits.max_bytes_per_flow < saturatingAdd flow.buffered_bytes payload.length then
    some .FlowByteCapacity
  else if s.limits.max_bytes_per_session <
      saturatingAdd s.buffered_bytes_session payload.length then some .SessionByteCapacity
  else none

/-- A dropped arrival is counted; all but a class mismatch touch the flow's clock. -/
def refuse (s : SessionReorder) (key : ReceiveKey) (flow : FlowState) (now_ms : ℕ)
    (reason : DropReason) : SessionReorder × ReorderOutcome :=
  ({ s with
      flows := if reason = .ClassMismatch then s.flows
        else s.flows.insert key { flow with last_activity_ms := now_ms }
      metrics := s.metrics.count reason }, .ofDropped reason)

variable {traffic_class : TrafficClass} {packet_id : PacketId} {payload : Bytes}

/-- **An arrival on a held flow** is refused, is the head, or is held. -/
theorem receive_known_eq (s : SessionReorder) (key : ReceiveKey) (flow : FlowState)
    (traffic_class : TrafficClass) (packet_id : PacketId) (payload : Bytes) (now_ms : ℕ) :
    receive_known s key flow traffic_class packet_id payload now_ms =
      match refusal s flow traffic_class packet_id.get payload with
      | some reason => refuse s key flow now_ms reason
      | none =>
        if packet_id.get = flow.next_expected then
          receive_head s key flow packet_id payload now_ms
        else hold s key flow packet_id.get payload now_ms := by
  unfold receive_known refusal receive_gap
  by_cases hex : flow.exhausted = true
  · rw [if_pos hex, if_pos hex]
    rfl
  rw [if_neg hex, if_neg hex]
  by_cases hclass : flow.traffic_class ≠ traffic_class
  · rw [if_pos hclass, if_pos hclass]
    rfl
  rw [if_neg hclass, if_neg hclass]
  by_cases hlt : packet_id.get < flow.next_expected
  · rw [if_pos hlt, if_pos (.inl hlt)]
    rfl
  by_cases hmem : packet_id.get ∈ flow.buffer
  · rw [if_neg hlt, if_pos hmem, if_pos (.inr hmem)]
    rfl
  rw [if_neg hlt, if_neg hmem, if_neg (not_or.mpr ⟨hlt, hmem⟩)]
  by_cases hid : packet_id.get = flow.next_expected
  · rw [if_pos hid, if_pos hid]
    exact (if_pos hid).symm
  rw [if_neg hid, if_neg hid]
  by_cases hgap : s.limits.max_future_gap < packet_id.get.val - flow.next_expected.val
  · rw [if_pos hgap, if_pos hgap]
    rfl
  rw [if_neg hgap, if_neg hgap]
  by_cases hfull : s.limits.max_packets_per_flow ≤ flow.buffer.len
  · rw [if_pos hfull, if_pos hfull]
    rfl
  rw [if_neg hfull, if_neg hfull]
  by_cases hbytes : s.limits.max_bytes_per_flow <
      saturatingAdd flow.buffered_bytes payload.length
  · rw [if_pos hbytes, if_pos hbytes]
    rfl
  rw [if_neg hbytes, if_neg hbytes]
  by_cases hsession : s.limits.max_bytes_per_session <
      saturatingAdd s.buffered_bytes_session payload.length
  · rw [if_pos hsession, if_pos hsession]
    rfl
  rw [if_neg hsession, if_neg hsession]
  exact (if_neg hid).symm

/-- What an arrival that is neither refused nor the head has passed. -/
structure Admissible (s : SessionReorder) (flow : FlowState) (traffic_class : TrafficClass)
    (id : U64) (payload : Bytes) : Prop where
  unexhausted : flow.exhausted = false
  same_class : flow.traffic_class = traffic_class
  ahead : flow.next_expected < id
  fresh : id ∉ flow.buffer
  window : id.val - flow.next_expected.val ≤ s.limits.max_future_gap
  packets : flow.buffer.len < s.limits.max_packets_per_flow
  flow_bytes : saturatingAdd flow.buffered_bytes payload.length ≤ s.limits.max_bytes_per_flow
  session_bytes :
    saturatingAdd s.buffered_bytes_session payload.length ≤ s.limits.max_bytes_per_session

theorem admissible_of_refusal {id : U64}
    (h : refusal s flow traffic_class id payload = none) (hid : id ≠ flow.next_expected) :
    s.Admissible flow traffic_class id payload := by
  unfold refusal at h
  split at h
  · contradiction
  next hex =>
  split at h
  · contradiction
  next hclass =>
  split at h
  · contradiction
  next hnew =>
  split at h
  · contradiction
  next hgap =>
  split at h
  · contradiction
  next hfull =>
  split at h
  · contradiction
  next hbytes =>
  split at h
  · contradiction
  next hsession =>
  obtain ⟨hge, hmem⟩ := not_or.mp hnew
  exact ⟨by simpa using hex, not_not.mp hclass, lt_of_le_of_ne (not_lt.mp hge) hid.symm, hmem,
    not_lt.mp hgap, not_le.mp hfull, not_lt.mp hbytes, not_lt.mp hsession⟩

theorem refusal_of_admissible {id : U64} (h : s.Admissible flow traffic_class id payload) :
    refusal s flow traffic_class id payload = none := by
  unfold refusal
  rw [if_neg (by simp [h.unexhausted]), if_neg (not_not.mpr h.same_class),
    if_neg (not_or.mpr ⟨not_lt.mpr h.ahead.le, h.fresh⟩), if_neg h.ahead.ne',
    if_neg (not_lt.mpr h.window), if_neg (not_le.mpr h.packets), if_neg (not_lt.mpr h.flow_bytes),
    if_neg (not_lt.mpr h.session_bytes)]

/-! ## Arrivals without a flow -/

/-- The tombstone of `key` rejects the packet ID as a replay. -/
def replayed (s : SessionReorder) (key : ReceiveKey) (id : U64) (now_ms : ℕ) : Prop :=
  ∃ t ∈ s.tombstones.lookup key, now_ms < t.expires_at_ms ∧ id ≤ t.watermark

instance (s : SessionReorder) (key : ReceiveKey) (id : U64) (now_ms : ℕ) :
    Decidable (s.replayed key id now_ms) :=
  inferInstanceAs (Decidable (∃ t ∈ s.tombstones.lookup key, _))

/-- The state with the tombstone of `key` forgotten, which is counted if it has
expired. -/
def forget_tombstone (s : SessionReorder) (key : ReceiveKey) (now_ms : ℕ) : SessionReorder :=
  { s with
    tombstones := s.tombstones.erase key
    metrics := { s.metrics with
      tombstones_expired :=
        if ∃ t ∈ s.tombstones.lookup key, t.expires_at_ms ≤ now_ms then
          saturatingAdd s.metrics.tombstones_expired 1
        else s.metrics.tombstones_expired } }

/-- A replay that the tombstone rejects. -/
def reject_replay (s : SessionReorder) : SessionReorder × ReorderOutcome :=
  ({ s with
      metrics := { s.metrics with
        duplicates_dropped := saturatingAdd s.metrics.duplicates_dropped 1
        tombstone_hits := saturatingAdd s.metrics.tombstone_hits 1 } }, .ofDropped .Duplicate)

/-- **An arrival without a flow** is a replay or opens a flow. -/
theorem receive_unknown_eq (order : Orders) (s : SessionReorder) (key : ReceiveKey)
    (traffic_class : TrafficClass) (packet_id : PacketId) (payload : Bytes) (now_ms : ℕ) :
    receive_unknown order s key traffic_class packet_id payload now_ms =
      if s.replayed key packet_id.get now_ms then s.reject_replay
      else open_flow order (s.forget_tombstone key now_ms) key traffic_class packet_id payload
        now_ms := by
  unfold receive_unknown replayed forget_tombstone
  rcases Option.eq_none_or_eq_some (s.tombstones.lookup key) with ht | ⟨t, ht⟩
  · have herase : s.tombstones.erase key = s.tombstones :=
      AList.erase_of_notMem (AList.lookup_eq_none.mp ht)
    simp [ht, herase]
  · by_cases hexp : t.expires_at_ms ≤ now_ms
    · have hdead : ¬ now_ms < t.expires_at_ms := not_lt.mpr hexp
      simp [ht, hexp, hdead]
    · have hlive : now_ms < t.expires_at_ms := not_le.mp hexp
      by_cases hid : packet_id.get ≤ t.watermark
      · simp [ht, hexp, hlive, hid, reject_replay]
      · simp [ht, hexp, hlive, hid]

end SessionReorder

/-! ## Runs with everything returned -/

/-- What one call returns: the outcome of a `receive` or the report of an `expire`. -/
inductive ReorderReply where
  | outcome (outcome : ReorderOutcome)
  | report (report : ExpireReport)
  deriving DecidableEq

/-- One call of a run and its reply. -/
structure ReorderTurn where
  call : ReorderCall
  reply : ReorderReply

namespace ReorderCall

/-- The call with its reply; `apply` keeps the deliveries alone. -/
def perform (s : SessionReorder) : ReorderCall → SessionReorder × ReorderReply
  | .receive key traffic_class packet_id payload now order =>
    let r := s.receive order key traffic_class packet_id payload now
    (r.1, .outcome r.2)
  | .expire now order =>
    let r := s.expire order now
    (r.1, .report r.2)

/-- `perform` as the step of a machine; every call is enabled. -/
def turn (s : SessionReorder) (call : ReorderCall) : Option (SessionReorder × List ReorderTurn) :=
  let r := call.perform s
  some (r.1, [⟨call, r.2⟩])

end ReorderCall

end StreamGuard.Multipath
