/-
`SessionDedup`: per-flow duplicate suppression, `sg-multipath/src/v2/dedup.rs`.

A flow remembers the packet IDs it has seen, at most `max_packets_per_flow` of them:
when it is full the smallest makes way. A flow that is evicted or idles out leaves a
tombstone with the largest ID it remembers, and a live tombstone rejects every ID at
or below its watermark.

The table of tombstones is that of the reorder layer, entry for entry; the set of IDs
is a map without values, as a `BTreeSet` is a `BTreeMap` without values.
-/
import StreamGuard.Multipath.Reorder

set_option autoImplicit false

namespace StreamGuard.Multipath

open StreamGuard StreamGuard.Lib

/-! ## Limits and outcomes -/

structure DedupLimits where
  max_flows : ℕ
  max_packets_per_flow : ℕ
  flow_idle_ttl_ms : ℕ
  max_tombstones : ℕ
  tombstone_ttl_ms : ℕ

inductive DedupError where
  | InvalidLimits

/-- `DedupLimits::validate`: no limit is zero. -/
def DedupLimits.validate (l : DedupLimits) : Except DedupError Unit :=
  if l.max_flows = 0 ∨ l.max_packets_per_flow = 0 ∨ l.flow_idle_ttl_ms = 0 ∨ l.max_tombstones = 0
      ∨ l.tombstone_ttl_ms = 0 then
    .error .InvalidLimits
  else .ok ()

/-- Outcome of one `observe`. -/
inductive DedupOutcome where
  | New
  | Duplicate
  deriving DecidableEq

/-- The counters of `DedupMetrics`; the gauges are read off the state. -/
structure DedupMetrics where
  packets_seen : ℕ
  duplicates_dropped : ℕ
  tombstone_hits : ℕ
  packets_evicted_capacity : ℕ
  flows_evicted_capacity : ℕ
  flows_expired_idle : ℕ
  tombstones_evicted_capacity : ℕ
  tombstones_expired : ℕ

def DedupMetrics.default : DedupMetrics := ⟨0, 0, 0, 0, 0, 0, 0, 0⟩

/-! ## State -/

structure FlowDedup where
  seen : Map U64 Unit
  last_activity_ms : ℕ

/-- `DedupTombstone` has the fields of `ReorderTombstone`. -/
abbrev DedupTombstone := ReorderTombstone

structure SessionDedup where
  limits : DedupLimits
  flows : Map ReceiveKey FlowDedup
  tombstones : Map ReceiveKey DedupTombstone
  metrics : DedupMetrics

/-- The largest ID the flow remembers: `seen.iter().next_back().copied().unwrap_or(0)`. -/
def FlowDedup.watermark (flow : FlowDedup) : U64 := flow.seen.lastKey.getD 0

namespace SessionDedup

def new (limits : DedupLimits) : Except DedupError SessionDedup :=
  match limits.validate with
  | .error e => .error e
  | .ok () => .ok ⟨limits, ∅, ∅, .default⟩

/-- The iteration orders of the passes of one call. -/
structure Orders where
  flows : Traversal ReceiveKey FlowDedup
  tombstones : Traversal ReceiveKey DedupTombstone

instance : Inhabited Orders := ⟨⟨.stored, .stored⟩⟩

/-! ## Tombstones -/

def purge_expired_tombstones (s : SessionDedup) (now_ms : ℕ) : SessionDedup :=
  let kept := s.tombstones.retain (fun _ t => now_ms < t.expires_at_ms)
  { s with
    tombstones := kept
    metrics := { s.metrics with
      tombstones_expired :=
        saturatingAdd s.metrics.tombstones_expired (s.tombstones.len - kept.len) } }

/-- Evicts one tombstone when the table is full: soonest expiry, then smaller
watermark, then the key order. -/
def evict_tombstone (order : Traversal ReceiveKey DedupTombstone) (s : SessionDedup) :
    SessionDedup :=
  if s.limits.max_tombstones ≤ s.tombstones.len then
    match SessionReorder.min_by SessionReorder.evicts_before
        (order.visit s.tombstones.entries) with
    | some oldest =>
      { s with
        tombstones := s.tombstones.erase oldest.1
        metrics := { s.metrics with
          tombstones_evicted_capacity :=
            saturatingAdd s.metrics.tombstones_evicted_capacity 1 } }
    | none => s
  else s

def insert_tombstone (order : Traversal ReceiveKey DedupTombstone) (s : SessionDedup)
    (key : ReceiveKey) (watermark : U64) (now_ms : ℕ) : SessionDedup :=
  let s := evict_tombstone order (s.purge_expired_tombstones now_ms)
  { s with
    tombstones := s.tombstones.insert key
      ⟨watermark, saturatingAdd now_ms s.limits.tombstone_ttl_ms⟩ }

/-- Does flow entry `a` have the older activity, ties going to the first? -/
def older_activity (a b : Σ _ : ReceiveKey, FlowDedup) : Bool :=
  a.2.last_activity_ms ≤ b.2.last_activity_ms

def evict_oldest_flow (order : Orders) (s : SessionDedup) (now_ms : ℕ) : SessionDedup :=
  match SessionReorder.min_by older_activity (order.flows.visit s.flows.entries) with
  | some oldest =>
    let s := { s with
      flows := s.flows.erase oldest.1
      metrics := { s.metrics with
        flows_evicted_capacity := saturatingAdd s.metrics.flows_evicted_capacity 1 } }
    insert_tombstone order.tombstones s oldest.1 oldest.2.watermark now_ms
  | none => s

/-! ## `observe` -/

/-- `observe` for a key whose flow is held. -/
def observe_known (s : SessionDedup) (key : ReceiveKey) (flow : FlowDedup) (id : U64)
    (now_ms : ℕ) : SessionDedup × DedupOutcome :=
  let m := s.metrics
  if id ∈ flow.seen then
    ({ s with
        flows := s.flows.insert key { flow with last_activity_ms := now_ms }
        metrics := { m with duplicates_dropped := saturatingAdd m.duplicates_dropped 1 } },
      .Duplicate)
  else
    let (seen, evicted) :=
      if s.limits.max_packets_per_flow ≤ flow.seen.len then
        match flow.seen.firstKey with
        | some smallest =>
          (flow.seen.erase smallest, saturatingAdd m.packets_evicted_capacity 1)
        | none => (flow.seen, m.packets_evicted_capacity)
      else (flow.seen, m.packets_evicted_capacity)
    ({ s with
        flows := s.flows.insert key ⟨seen.insert id (), now_ms⟩
        metrics := { m with
          packets_evicted_capacity := evicted
          packets_seen := saturatingAdd m.packets_seen 1 } }, .New)

/-- Evicts one flow when the flow table is full. -/
def make_room (order : Orders) (s : SessionDedup) (now_ms : ℕ) : SessionDedup :=
  if s.limits.max_flows ≤ s.flows.len then evict_oldest_flow order s now_ms else s

/-- Opens a fresh flow for `key` that has seen `id`. -/
def open_flow (order : Orders) (s : SessionDedup) (key : ReceiveKey) (id : U64) (now_ms : ℕ) :
    SessionDedup × DedupOutcome :=
  let s := make_room order s now_ms
  ({ s with
      flows := s.flows.insert key ⟨AList.insert id () ∅, now_ms⟩
      metrics := { s.metrics with packets_seen := saturatingAdd s.metrics.packets_seen 1 } }, .New)

/-- `observe` for a key without a flow: the tombstone is consulted first. -/
def observe_unknown (order : Orders) (s : SessionDedup) (key : ReceiveKey) (id : U64)
    (now_ms : ℕ) : SessionDedup × DedupOutcome :=
  match s.tombstones.lookup key with
  | none => open_flow order s key id now_ms
  | some tombstone =>
    if tombstone.expires_at_ms ≤ now_ms then
      let s := { s with
        tombstones := s.tombstones.erase key
        metrics := { s.metrics with
          tombstones_expired := saturatingAdd s.metrics.tombstones_expired 1 } }
      open_flow order s key id now_ms
    else if id ≤ tombstone.watermark then
      ({ s with
          metrics := { s.metrics with
            duplicates_dropped := saturatingAdd s.metrics.duplicates_dropped 1
            tombstone_hits := saturatingAdd s.metrics.tombstone_hits 1 } }, .Duplicate)
    else
      let s := { s with tombstones := s.tombstones.erase key }
      open_flow order s key id now_ms

/-- Observes one packet ID for `key` at `now_ms`. -/
def observe (s : SessionDedup) (order : Orders) (key : ReceiveKey) (packet_id : PacketId)
    (now_ms : ℕ) : SessionDedup × DedupOutcome :=
  match s.flows.lookup key with
  | some flow => observe_known s key flow packet_id.get now_ms
  | none => observe_unknown order s key packet_id.get now_ms

/-! ## `expire` -/

/-- The idle flows with their watermarks, in iteration order. -/
def idle_flows (order : Orders) (s : SessionDedup) (now_ms : ℕ) : List (ReceiveKey × U64) :=
  ((order.flows.visit s.flows.entries).filter
    (fun e => s.limits.flow_idle_ttl_ms ≤ now_ms - e.2.last_activity_ms)).map
    (fun e => (e.1, e.2.watermark))

/-- Removes the idle flows one after the other, each leaving a tombstone. -/
def expire_idle (order : Orders) (s : SessionDedup) (now_ms : ℕ) :
    List (ReceiveKey × U64) → SessionDedup
  | [] => s
  | (key, watermark) :: idle =>
    expire_idle order
      (insert_tombstone order.tombstones { s with flows := s.flows.erase key } key watermark now_ms)
      now_ms idle

/-- Removes the flows idle for at least the TTL and returns their number. -/
def expire (s : SessionDedup) (order : Orders) (now_ms : ℕ) : SessionDedup × ℕ :=
  let s := s.purge_expired_tombstones now_ms
  let idle := idle_flows order s now_ms
  let s := expire_idle order s now_ms idle
  ({ s with metrics := { s.metrics with
      flows_expired_idle := saturatingAdd s.metrics.flows_expired_idle idle.length } },
    idle.length)

end SessionDedup

/-! ## Calls -/

/-- One call on a `SessionDedup`, with the iteration orders of its passes. -/
inductive DedupCall where
  | observe (key : ReceiveKey) (packet_id : PacketId) (now_ms : ℕ) (order : SessionDedup.Orders)
  | expire (now_ms : ℕ) (order : SessionDedup.Orders)

/-- What a call returns. -/
inductive DedupReply where
  | outcome (outcome : DedupOutcome)
  | expired (count : ℕ)
  deriving DecidableEq

namespace DedupCall

/-- One call: the next state and the reply. -/
def perform (s : SessionDedup) : DedupCall → SessionDedup × DedupReply
  | .observe key packet_id now order =>
    let r := s.observe order key packet_id now
    (r.1, .outcome r.2)
  | .expire now order =>
    let r := s.expire order now
    (r.1, .expired r.2)

/-- `perform` as the step of a machine; every call is enabled. -/
def run (s : SessionDedup) (call : DedupCall) : Option (SessionDedup × List DedupReply) :=
  let r := call.perform s
  some (r.1, [r.2])

end DedupCall

end StreamGuard.Multipath
