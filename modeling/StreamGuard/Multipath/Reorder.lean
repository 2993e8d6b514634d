/-
`SessionReorder`: per-flow deadline reordering, `sg-multipath/src/v2/reorder.rs`.

One ordered queue per receive key. The first packet of a key opens its flow and
is delivered; later packets are delivered at the head, held in a gap, or dropped
with a reason. A flow that is evicted or idles out leaves a tombstone with the
largest packet ID it saw.

The two hash maps are association maps, and every pass over one of them takes a
`Traversal` for its iteration order. The `BTreeMap` buffer is the same map read
through its smallest and largest key. Loops carry their bound as fuel: each
round of a drain removes one held packet, so the number of held packets is
enough.
-/
import Mathlib.Data.List.Sort
import StreamGuard.Core.V2
import StreamGuard.Lib.AssocMap

set_option autoImplicit false

namespace StreamGuard.Multipath

open StreamGuard StreamGuard.Lib

/-! ## Keys, limits and outcomes -/

/-- The complete receive key of the delivery state. -/
structure ReceiveKey where
  session : SessionId
  direction : Direction
  key_epoch : U32
  flow : FlowId
  deriving DecidableEq

/-- `ReceiveKey::deterministic_cmp`, as "is `a` before or equal to `b`". -/
def ReceiveKey.deterministic_le (a b : ReceiveKey) : Bool :=
  if a.session.bytes ≠ b.session.bytes then a.session.bytes.toNat < b.session.bytes.toNat
  else if a.direction.to_wire ≠ b.direction.to_wire then
    a.direction.to_wire < b.direction.to_wire
  else if a.key_epoch ≠ b.key_epoch then a.key_epoch < b.key_epoch
  else a.flow.get ≤ b.flow.get

/-- The key `expire` sorts by, as "is `a` before or equal to `b`". The session
is not part of it. -/
def ReceiveKey.expire_le (a b : ReceiveKey) : Bool :=
  if a.flow.get ≠ b.flow.get then a.flow.get < b.flow.get
  else if a.key_epoch ≠ b.key_epoch then a.key_epoch < b.key_epoch
  else a.direction.to_wire ≤ b.direction.to_wire

structure ReorderLimits where
  max_flows : ℕ
  max_packets_per_flow : ℕ
  max_bytes_per_flow : ℕ
  max_bytes_per_session : ℕ
  flow_idle_ttl_ms : ℕ
  realtime_deadline_ms : ℕ
  interactive_deadline_ms : ℕ
  bulk_deadline_ms : ℕ
  max_tombstones : ℕ
  tombstone_ttl_ms : ℕ
  max_future_gap : ℕ
  deriving DecidableEq

inductive ReorderError where
  | InvalidLimits

/-- `ReorderLimits::validate`: no limit or deadline is zero. -/
def ReorderLimits.validate (l : ReorderLimits) : Except ReorderError Unit :=
  if l.max_flows = 0 ∨ l.max_packets_per_flow = 0 ∨ l.max_bytes_per_flow = 0
      ∨ l.max_bytes_per_session = 0 ∨ l.flow_idle_ttl_ms = 0 ∨ l.realtime_deadline_ms = 0
      ∨ l.interactive_deadline_ms = 0 ∨ l.bulk_deadline_ms = 0 ∨ l.max_tombstones = 0
      ∨ l.tombstone_ttl_ms = 0 ∨ l.max_future_gap = 0 then
    .error .InvalidLimits
  else .ok ()

def ReorderLimits.deadline_for (l : ReorderLimits) : TrafficClass → ℕ
  | .Realtime | .Control => l.realtime_deadline_ms
  | .Interactive => l.interactive_deadline_ms
  | .Bulk => l.bulk_deadline_ms

/-- Why one arrival was dropped. -/
inductive DropReason where
  | Duplicate
  | ClassMismatch
  | FlowPacketCapacity
  | FlowByteCapacity
  | SessionByteCapacity
  | FarAhead
  | Exhausted
  deriving DecidableEq

/-- Outcome of one `receive`. -/
structure ReorderOutcome where
  delivered : List (PacketId × Bytes)
  buffered : Bool
  dropped : Option DropReason
  deriving DecidableEq

namespace ReorderOutcome

def ofDelivered (delivered : List (PacketId × Bytes)) : ReorderOutcome := ⟨delivered, false, none⟩
def ofBuffered : ReorderOutcome := ⟨[], true, none⟩
def ofDropped (reason : DropReason) : ReorderOutcome := ⟨[], false, some reason⟩

end ReorderOutcome

/-- The counters of `ReorderMetrics` that the calls write; the gauges are read
off the state. -/
structure ReorderMetrics where
  delivered : ℕ
  duplicates_dropped : ℕ
  tombstone_hits : ℕ
  class_mismatch_dropped : ℕ
  flow_packet_capacity_dropped : ℕ
  flow_byte_capacity_dropped : ℕ
  session_byte_capacity_dropped : ℕ
  far_ahead_dropped : ℕ
  exhausted_dropped : ℕ
  gaps_skipped : ℕ
  packets_skipped : ℕ
  flows_evicted_capacity : ℕ
  flows_expired_idle : ℕ
  tombstones_evicted_capacity : ℕ
  tombstones_expired : ℕ

def ReorderMetrics.default : ReorderMetrics := ⟨0, 0, 0, 0, 0, 0, 0, 0, 0, 0, 0, 0, 0, 0, 0⟩

/-- What one `expire` released or reaped. -/
structure ExpireReport where
  delivered : List (ReceiveKey × PacketId × Bytes)
  gaps_skipped : ℕ
  packets_skipped : ℕ
  flows_expired : ℕ
  deriving DecidableEq

/-! ## State -/

structure BufferedPacket where
  payload : Bytes
  arrived_at_ms : ℕ
  deriving DecidableEq

structure FlowState where
  traffic_class : TrafficClass
  next_expected : U64
  /-- Set once `u64::MAX` has been delivered. -/
  exhausted : Bool
  buffer : Map U64 BufferedPacket
  buffered_bytes : ℕ
  last_activity_ms : ℕ

structure ReorderTombstone where
  /-- Maximum packet ID observed for the evicted or expired key. -/
  watermark : U64
  expires_at_ms : ℕ
  deriving DecidableEq

structure SessionReorder where
  limits : ReorderLimits
  flows : Map ReceiveKey FlowState
  tombstones : Map ReceiveKey ReorderTombstone
  buffered_bytes_session : ℕ
  metrics : ReorderMetrics

namespace SessionReorder

def new (limits : ReorderLimits) : Except ReorderError SessionReorder :=
  match limits.validate with
  | .error e => .error e
  | .ok () => .ok ⟨limits, ∅, ∅, 0, .default⟩

/-- The iteration orders of the passes of one call. -/
structure Orders where
  flows : Traversal ReceiveKey FlowState
  tombstones : Traversal ReceiveKey ReorderTombstone

instance : Inhabited Orders := ⟨⟨.stored, .stored⟩⟩

/-! ## Tombstones -/

/-- The largest packet ID a flow has seen: the end of the delivered or skipped
prefix, or the largest held ID. -/
def max_observed_for_flow (flow : FlowState) : U64 :=
  if flow.exhausted then U64.max
  else
    match flow.buffer.lastKey with
    | some max_buffered => max flow.next_expected.predSat max_buffered
    | none => flow.next_expected.predSat

def purge_expired_tombstones (s : SessionReorder) (now_ms : ℕ) : SessionReorder :=
  let kept := s.tombstones.retain (fun _ t => now_ms < t.expires_at_ms)
  { s with
    tombstones := kept
    metrics := { s.metrics with
      tombstones_expired :=
        saturatingAdd s.metrics.tombstones_expired (s.tombstones.len - kept.len) } }

/-- Is tombstone entry `a` evicted before `b`? Soonest expiry, then smaller
watermark, then the key order. -/
def evicts_before (a b : Σ _ : ReceiveKey, ReorderTombstone) : Bool :=
  if a.2.expires_at_ms ≠ b.2.expires_at_ms then a.2.expires_at_ms < b.2.expires_at_ms
  else if a.2.watermark ≠ b.2.watermark then a.2.watermark < b.2.watermark
  else a.1.deterministic_le b.1

/-- `Iterator::min_by`: the first of the smallest entries. -/
def min_by {α : Type*} (le : α → α → Bool) : List α → Option α
  | [] => none
  | a :: l =>
    match min_by le l with
    | none => some a
    | some b => if le a b then some a else some b

/-- Evicts one tombstone when the table is full. -/
def evict_tombstone (order : Traversal ReceiveKey ReorderTombstone) (s : SessionReorder) :
    SessionReorder :=
  if s.limits.max_tombstones ≤ s.tombstones.len then
    match min_by evicts_before (order.visit s.tombstones.entries) with
    | some oldest =>
      { s with
        tombstones := s.tombstones.erase oldest.1
        metrics := { s.metrics with
          tombstones_evicted_capacity :=
            saturatingAdd s.metrics.tombstones_evicted_capacity 1 } }
    | none => s
  else s

def insert_tombstone (order : Traversal ReceiveKey ReorderTombstone) (s : SessionReorder)
    (key : ReceiveKey) (watermark : U64) (now_ms : ℕ) : SessionReorder :=
  let s := evict_tombstone order (s.purge_expired_tombstones now_ms)
  { s with
    tombstones := s.tombstones.insert key
      ⟨watermark, saturatingAdd now_ms s.limits.tombstone_ttl_ms⟩ }

/-! ## Removing a flow -/

/-- Takes a flow out of the table and returns its bytes to the session. -/
def remove_flow (s : SessionReorder) (key : ReceiveKey) : SessionReorder :=
  match s.flows.lookup key with
  | some flow =>
    { s with
      flows := s.flows.erase key
      buffered_bytes_session := s.buffered_bytes_session - flow.buffered_bytes }
  | none => s

/-- Does flow entry `a` have the older activity, ties going to the first? -/
def older_activity (a b : Σ _ : ReceiveKey, FlowState) : Bool :=
  a.2.last_activity_ms ≤ b.2.last_activity_ms

def evict_oldest_flow (order : Orders) (s : SessionReorder) (now_ms : ℕ) : SessionReorder :=
  match min_by older_activity (order.flows.visit s.flows.entries) with
  | some oldest =>
    let watermark := max_observed_for_flow oldest.2
    let s := s.remove_flow oldest.1
    let s := { s with
      metrics := { s.metrics with
        flows_evicted_capacity := saturatingAdd s.metrics.flows_evicted_capacity 1 } }
    insert_tombstone order.tombstones s oldest.1 watermark now_ms
  | none => s

/-! ## Draining a flow -/

/-- What a drain leaves: the flow, the session byte count and the payloads that
became deliverable. -/
structure Drained where
  flow : FlowState
  buffered_bytes_session : ℕ
  delivered : List (PacketId × Bytes)

/-- The contiguous chain from `next_expected`, without wrapping past `u64::MAX`. -/
def drain : ℕ → FlowState → ℕ → Drained
  | 0, flow, bytes => ⟨flow, bytes, []⟩
  | fuel + 1, flow, bytes =>
    if flow.exhausted then ⟨flow, bytes, []⟩
    else
      let current := flow.next_expected
      match flow.buffer.lookup current with
      | none => ⟨flow, bytes, []⟩
      | some held =>
        let flow := { flow with
          buffer := flow.buffer.erase current
          buffered_bytes := flow.buffered_bytes - held.payload.length }
        let bytes := bytes - held.payload.length
        if current = U64.max then
          ⟨{ flow with exhausted := true }, bytes, [(⟨current⟩, held.payload)]⟩
        else
          let rest := drain fuel { flow with next_expected := current.succSat } bytes
          { rest with delivered := (⟨current⟩, held.payload) :: rest.delivered }

/-- Skips the head gap when the first held packet outlived the flow's deadline. -/
def skip_head_gap_if_expired (s : SessionReorder) (key : ReceiveKey) (now_ms : ℕ) :
    SessionReorder × Option (List (PacketId × Bytes)) :=
  match s.flows.lookup key with
  | none => (s, none)
  | some flow =>
    if flow.exhausted then (s, none)
    else
      match flow.buffer.firstKey with
      | none => (s, none)
      | some smallest_id =>
        match flow.buffer.lookup smallest_id with
        | none => (s, none)
        | some head =>
          if smallest_id ≤ flow.next_expected then (s, none)
          else if now_ms - head.arrived_at_ms < s.limits.deadline_for flow.traffic_class then
            (s, none)
          else
            let skipped := smallest_id.val - flow.next_expected.val
            let d := drain flow.buffer.len { flow with next_expected := smallest_id }
              s.buffered_bytes_session
            let metrics := { s.metrics with
              gaps_skipped := saturatingAdd s.metrics.gaps_skipped 1
              packets_skipped := saturatingAdd s.metrics.packets_skipped skipped }
            if d.delivered = [] then
              ({ s with
                  flows := s.flows.insert key d.flow
                  buffered_bytes_session := d.buffered_bytes_session
                  metrics := metrics }, none)
            else
              ({ s with
                  flows := s.flows.insert key { d.flow with last_activity_ms := now_ms }
                  buffered_bytes_session := d.buffered_bytes_session
                  metrics := { metrics with
                    delivered := saturatingAdd metrics.delivered d.delivered.length } },
                some d.delivered)

/-! ## `receive` -/

/-- Drops an arrival of a held flow: the drop is counted and the flow's activity
clock is touched. -/
def drop_touching (s : SessionReorder) (key : ReceiveKey) (flow : FlowState) (now_ms : ℕ)
    (reason : DropReason) (metrics : ReorderMetrics) : SessionReorder × ReorderOutcome :=
  ({ s with
      flows := s.flows.insert key { flow with last_activity_ms := now_ms }
      metrics := metrics }, .ofDropped reason)

/-- Evicts one flow when the flow table is full. -/
def make_room (order : Orders) (s : SessionReorder) (now_ms : ℕ) : SessionReorder :=
  if s.limits.max_flows ≤ s.flows.len then evict_oldest_flow order s now_ms else s

/-- Opens a fresh flow for `key` at `packet_id` and delivers the packet. -/
def open_flow (order : Orders) (s : SessionReorder) (key : ReceiveKey)
    (traffic_class : TrafficClass) (packet_id : PacketId) (payload : Bytes) (now_ms : ℕ) :
    SessionReorder × ReorderOutcome :=
  let s := make_room order s now_ms
  let id := packet_id.get
  let flow : FlowState :=
    { traffic_class := traffic_class
      next_expected := if id = U64.max then U64.max else id.succSat
      exhausted := id = U64.max
      buffer := ∅
      buffered_bytes := 0
      last_activity_ms := now_ms }
  ({ s with
      flows := s.flows.insert key flow
      metrics := { s.metrics with delivered := saturatingAdd s.metrics.delivered 1 } },
    .ofDelivered [(packet_id, payload)])

/-- `receive` for a key without a flow: the tombstone is consulted first. -/
def receive_unknown (order : Orders) (s : SessionReorder) (key : ReceiveKey)
    (traffic_class : TrafficClass) (packet_id : PacketId) (payload : Bytes) (now_ms : ℕ) :
    SessionReorder × ReorderOutcome :=
  match s.tombstones.lookup key with
  | none => open_flow order s key traffic_class packet_id payload now_ms
  | some tombstone =>
    if tombstone.expires_at_ms ≤ now_ms then
      let s := { s with
        tombstones := s.tombstones.erase key
        metrics := { s.metrics with
          tombstones_expired := saturatingAdd s.metrics.tombstones_expired 1 } }
      open_flow order s key traffic_class packet_id payload now_ms
    else if packet_id.get ≤ tombstone.watermark then
      ({ s with
          metrics := { s.metrics with
            duplicates_dropped := saturatingAdd s.metrics.duplicates_dropped 1
            tombstone_hits := saturatingAdd s.metrics.tombstone_hits 1 } },
        .ofDropped .Duplicate)
    else
      let s := { s with tombstones := s.tombstones.erase key }
      open_flow order s key traffic_class packet_id payload now_ms

/-- The arrival is the contiguous head: it is delivered with the chain behind it. -/
def receive_head (s : SessionReorder) (key : ReceiveKey) (flow : FlowState)
    (packet_id : PacketId) (payload : Bytes) (now_ms : ℕ) : SessionReorder × ReorderOutcome :=
  let next := flow.next_expected
  if next = U64.max then
    ({ s with
        flows := s.flows.insert key { flow with exhausted := true, last_activity_ms := now_ms }
        metrics := { s.metrics with delivered := saturatingAdd s.metrics.delivered 1 } },
      .ofDelivered [(packet_id, payload)])
  else
    let d := drain flow.buffer.len { flow with next_expected := next.succSat }
      s.buffered_bytes_session
    let delivered := (packet_id, payload) :: d.delivered
    ({ s with
        flows := s.flows.insert key { d.flow with last_activity_ms := now_ms }
        buffered_bytes_session := d.buffered_bytes_session
        metrics := { s.metrics with
          delivered := saturatingAdd s.metrics.delivered delivered.length } },
      .ofDelivered delivered)

/-- The arrival is held, and a gap that already outlived its deadline is skipped
at once. -/
def hold (s : SessionReorder) (key : ReceiveKey) (flow : FlowState) (id : U64)
    (payload : Bytes) (now_ms : ℕ) : SessionReorder × ReorderOutcome :=
  let flow := { flow with
    buffer := flow.buffer.insert id ⟨payload, now_ms⟩
    buffered_bytes := saturatingAdd flow.buffered_bytes payload.length
    last_activity_ms := now_ms }
  let s := { s with
    flows := s.flows.insert key flow
    buffered_bytes_session := saturatingAdd s.buffered_bytes_session payload.length }
  match skip_head_gap_if_expired s key now_ms with
  | (s, some delivered) => (s, .ofDelivered delivered)
  | (s, none) => (s, .ofBuffered)

/-- What is held, where no gap is skipped after that. -/
theorem hold_of_none {s s' : SessionReorder} {key : ReceiveKey} {flow : FlowState} {id : U64}
    {payload : Bytes} {now_ms : ℕ}
    (h : skip_head_gap_if_expired { s with
      flows := s.flows.insert key { flow with
        buffer := flow.buffer.insert id ⟨payload, now_ms⟩
        buffered_bytes := saturatingAdd flow.buffered_bytes payload.length
        last_activity_ms := now_ms }
      buffered_bytes_session := saturatingAdd s.buffered_bytes_session payload.length } key now_ms =
        (s', none)) : hold s key flow id payload now_ms = (s', .ofBuffered) := by
  unfold hold
  dsimp only
  rw [h]

theorem hold_of_some {s s' : SessionReorder} {key : ReceiveKey} {flow : FlowState} {id : U64}
    {payload : Bytes} {now_ms : ℕ} {delivered : List (PacketId × Bytes)}
    (h : skip_head_gap_if_expired { s with
      flows := s.flows.insert key { flow with
        buffer := flow.buffer.insert id ⟨payload, now_ms⟩
        buffered_bytes := saturatingAdd flow.buffered_bytes payload.length
        last_activity_ms := now_ms }
      buffered_bytes_session := saturatingAdd s.buffered_bytes_session payload.length } key now_ms =
        (s', some delivered)) : hold s key flow id payload now_ms = (s', .ofDelivered delivered) := by
  unfold hold
  dsimp only
  rw [h]

/-- The arrival leaves a gap: window, packet and byte bounds in the order of the
source. -/
def receive_gap (s : SessionReorder) (key : ReceiveKey) (flow : FlowState) (id : U64)
    (payload : Bytes) (now_ms : ℕ) : SessionReorder × ReorderOutcome :=
  let m := s.metrics
  if s.limits.max_future_gap < id.val - flow.next_expected.val then
    drop_touching s key flow now_ms .FarAhead
      { m with far_ahead_dropped := saturatingAdd m.far_ahead_dropped 1 }
  else if s.limits.max_packets_per_flow ≤ flow.buffer.len then
    drop_touching s key flow now_ms .FlowPacketCapacity
      { m with flow_packet_capacity_dropped := saturatingAdd m.flow_packet_capacity_dropped 1 }
  else if s.limits.max_bytes_per_flow < saturatingAdd flow.buffered_bytes payload.length then
    drop_touching s key flow now_ms .FlowByteCapacity
      { m with flow_byte_capacity_dropped := saturatingAdd m.flow_byte_capacity_dropped 1 }
  else if s.limits.max_bytes_per_session <
      saturatingAdd s.buffered_bytes_session payload.length then
    drop_touching s key flow now_ms .SessionByteCapacity
      { m with session_byte_capacity_dropped := saturatingAdd m.session_byte_capacity_dropped 1 }
  else hold s key flow id payload now_ms

/-- `receive` for a key whose flow is held. -/
def receive_known (s : SessionReorder) (key : ReceiveKey) (flow : FlowState)
    (traffic_class : TrafficClass) (packet_id : PacketId) (payload : Bytes) (now_ms : ℕ) :
    SessionReorder × ReorderOutcome :=
  let id := packet_id.get
  let m := s.metrics
  if flow.exhausted then
    drop_touching s key flow now_ms .Exhausted
      { m with exhausted_dropped := saturatingAdd m.exhausted_dropped 1 }
  else if flow.traffic_class ≠ traffic_class then
    ({ s with metrics :=
        { m with class_mismatch_dropped := saturatingAdd m.class_mismatch_dropped 1 } },
      .ofDropped .ClassMismatch)
  else if id < flow.next_expected then
    drop_touching s key flow now_ms .Duplicate
      { m with duplicates_dropped := saturatingAdd m.duplicates_dropped 1 }
  else if id ∈ flow.buffer then
    drop_touching s key flow now_ms .Duplicate
      { m with duplicates_dropped := saturatingAdd m.duplicates_dropped 1 }
  else if id = flow.next_expected then receive_head s key flow packet_id payload now_ms
  else receive_gap s key flow id payload now_ms

/-- Feeds one arrival into its flow at `now_ms`. -/
def receive (s : SessionReorder) (order : Orders) (key : ReceiveKey)
    (traffic_class : TrafficClass) (packet_id : PacketId) (payload : Bytes) (now_ms : ℕ) :
    SessionReorder × ReorderOutcome :=
  if traffic_class = .Control then
    ({ s with metrics := { s.metrics with
        class_mismatch_dropped := saturatingAdd s.metrics.class_mismatch_dropped 1 } },
      .ofDropped .ClassMismatch)
  else
    match s.flows.lookup key with
    | none => receive_unknown order s key traffic_class packet_id payload now_ms
    | some flow => receive_known s key flow traffic_class packet_id payload now_ms

/-! ## `expire` -/

/-- The idle flows with their watermarks, in iteration order. -/
def idle_flows (order : Orders) (s : SessionReorder) (now_ms : ℕ) : List (ReceiveKey × U64) :=
  ((order.flows.visit s.flows.entries).filter
    (fun e => s.limits.flow_idle_ttl_ms ≤ now_ms - e.2.last_activity_ms)).map
    (fun e => (e.1, max_observed_for_flow e.2))

/-- Removes the idle flows one after the other, each leaving a tombstone. -/
def expire_idle (order : Orders) (s : SessionReorder) (now_ms : ℕ) :
    List (ReceiveKey × U64) → SessionReorder
  | [] => s
  | (key, watermark) :: idle =>
    expire_idle order (insert_tombstone order.tombstones (s.remove_flow key) key watermark now_ms)
      now_ms idle

/-- `while let Some(delivered) = skip_head_gap_if_expired(key, now)`. Every round
takes at least one held packet. -/
def skip_expired_gaps : ℕ → SessionReorder → ReceiveKey → ℕ →
    SessionReorder × List (PacketId × Bytes)
  | 0, s, _, _ => (s, [])
  | fuel + 1, s, key, now_ms =>
    match skip_head_gap_if_expired s key now_ms with
    | (s, none) => (s, [])
    | (s, some delivered) =>
      let rest := skip_expired_gaps fuel s key now_ms
      (rest.1, delivered ++ rest.2)

/-- The number of packets the flow of `key` holds. -/
def held (s : SessionReorder) (key : ReceiveKey) : ℕ :=
  match s.flows.lookup key with
  | some flow => flow.buffer.len
  | none => 0

/-- The deadline pass over the surviving flows, in the order given. -/
def skip_flows (s : SessionReorder) (now_ms : ℕ) :
    List ReceiveKey → SessionReorder × List (ReceiveKey × PacketId × Bytes)
  | [] => (s, [])
  | key :: keys =>
    let r := skip_expired_gaps (s.held key + 1) s key now_ms
    let rest := skip_flows r.1 now_ms keys
    (rest.1, r.2.map (fun d => (key, d.1, d.2)) ++ rest.2)

/-- The surviving keys, sorted by flow, key epoch and direction; keys that
differ in the session only stay in iteration order (`sort_by_key` is stable). -/
def expire_keys (order : Orders) (s : SessionReorder) : List ReceiveKey :=
  ((order.flows.visit s.flows.entries).map (·.1)).insertionSort
    (fun a b => ReceiveKey.expire_le a b)

/-- Advances time: reaps tombstones, expires idle flows, skips the head gaps that
outlived their deadline. -/
def expire (s : SessionReorder) (order : Orders) (now_ms : ℕ) : SessionReorder × ExpireReport :=
  let gaps_before := s.metrics.gaps_skipped
  let skipped_before := s.metrics.packets_skipped
  let s := s.purge_expired_tombstones now_ms
  let idle := idle_flows order s now_ms
  let s := expire_idle order s now_ms idle
  let s := { s with metrics := { s.metrics with
    flows_expired_idle := saturatingAdd s.metrics.flows_expired_idle idle.length } }
  let r := skip_flows s now_ms (expire_keys order s)
  (r.1,
    { delivered := r.2
      gaps_skipped := r.1.metrics.gaps_skipped - gaps_before
      packets_skipped := r.1.metrics.packets_skipped - skipped_before
      flows_expired := idle.length })

end SessionReorder

/-! ## Calls -/

/-- One call on a `SessionReorder`, with the iteration orders of its passes. -/
inductive ReorderCall where
  | receive (key : ReceiveKey) (traffic_class : TrafficClass) (packet_id : PacketId)
      (payload : Bytes) (now_ms : ℕ) (order : SessionReorder.Orders)
  | expire (now_ms : ℕ) (order : SessionReorder.Orders)

namespace ReorderCall

/-- The clock value passed to the call. -/
def now_ms : ReorderCall → ℕ
  | .receive _ _ _ _ now _ => now
  | .expire now _ => now

/-- One call: the next state and the deliveries in the order returned, each under
its key. -/
def apply (s : SessionReorder) :
    ReorderCall → SessionReorder × List (ReceiveKey × PacketId × Bytes)
  | .receive key traffic_class packet_id payload now order =>
    let r := s.receive order key traffic_class packet_id payload now
    (r.1, r.2.delivered.map (fun d => (key, d.1, d.2)))
  | .expire now order =>
    let r := s.expire order now
    (r.1, r.2.delivered)

/-- `apply` as the step of a machine; every call is enabled. -/
def run (s : SessionReorder) (call : ReorderCall) :
    Option (SessionReorder × List (ReceiveKey × PacketId × Bytes)) :=
  some (call.apply s)

end ReorderCall

end StreamGuard.Multipath
