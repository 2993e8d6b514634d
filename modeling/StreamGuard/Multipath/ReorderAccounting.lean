/-
Packet accounting of `SessionReorder`.

Every packet that goes into `receive` is delivered, dropped, still held, or was held
in a flow when that flow was evicted or idled out. `balanced` states this for the
packets themselves, as an equation between multisets for one call; the counters and
the origin of every delivered payload follow from it.
-/
import Mathlib.Algebra.Order.Group.Multiset
import StreamGuard.Lib.Matching
import StreamGuard.Multipath.ReorderWindow

set_option autoImplicit false

namespace StreamGuard.Multipath

open StreamGuard StreamGuard.Lib

/-! ## Packets -/

/-- A packet under its key. -/
abbrev Packet := ReceiveKey × PacketId × Bytes

/-- The packets a flow holds. -/
def FlowState.packets (flow : FlowState) (key : ReceiveKey) : Multiset Packet :=
  flow.buffer.sum (fun id held => {(key, ⟨id⟩, held.payload)})

namespace SessionReorder

/-- The packets all flows hold. -/
def packets (s : SessionReorder) : Multiset Packet :=
  s.flows.sum (fun key flow => flow.packets key)

/-- `metrics().buffered_packets`. -/
def buffered_packets (s : SessionReorder) : ℕ := s.flows.sum (fun _ flow => flow.buffer.len)

/-- The packets that were held in the flows of `s` that `s'` no longer has. -/
def lost (s s' : SessionReorder) : Multiset Packet :=
  s.flows.sum (fun key flow => if key ∈ s'.flows then 0 else flow.packets key)

theorem card_packets (s : SessionReorder) : s.packets.card = s.buffered_packets := by
  have hflow : ∀ (key : ReceiveKey) (flow : FlowState),
      Multiset.cardHom (flow.packets key) = flow.buffer.len := by
    intro key flow
    unfold FlowState.packets
    rw [AList.map_sum_hom]
    unfold AList.sum AList.len
    simp
  have hsum := AList.map_sum_hom Multiset.cardHom (fun key (flow : FlowState) => flow.packets key)
    s.flows
  unfold packets buffered_packets
  refine hsum.trans (AList.sum_congr ?_)
  intro key flow _
  exact hflow key flow

section Flows

variable {s s₁ s' : SessionReorder} {key : ReceiveKey} {flow flow' : FlowState}
  {incoming outgoing : Multiset Packet}

/-- What one flow takes in and gives out, the session takes in and gives out. -/
theorem packets_write (hl : s.flows.lookup key = some flow)
    (hflows : s'.flows = s.flows.insert key flow')
    (h : flow.packets key + incoming = flow'.packets key + outgoing) :
    s.packets + incoming = s'.packets + outgoing := by
  have hsum := AList.sum_insert_add (w := flow') (fun key (flow : FlowState) => flow.packets key) hl
  rw [← hflows] at hsum
  refine add_left_cancel (a := flow.packets key) ?_
  calc flow.packets key + (s.packets + incoming)
      = s.packets + (flow.packets key + incoming) := add_left_comm _ _ _
    _ = s.packets + (flow'.packets key + outgoing) := by rw [h]
    _ = (flow'.packets key + s.packets) + outgoing := by rw [← add_assoc, add_comm s.packets]
    _ = (flow.packets key + s'.packets) + outgoing := by rw [show flow'.packets key + s.packets =
        flow.packets key + s'.packets from hsum.symm]
    _ = flow.packets key + (s'.packets + outgoing) := add_assoc _ _ _

/-- The flows that leave take their packets along. -/
theorem packets_lost (hpart : ∀ k f, s₁.flows.lookup k = some f → s.flows.lookup k = some f)
    (hkeys : ∀ k ∈ s.flows, k ∈ s'.flows ↔ k ∈ s₁.flows) :
    s.packets = s₁.packets + s.lost s' := by
  unfold packets lost
  rw [AList.sum_split _ hpart]
  congr 1
  refine AList.sum_congr ?_
  intro k f hk
  have hiff := hkeys k (AList.mem_of_lookup hk)
  by_cases hmem : k ∈ s₁.flows
  · rw [if_pos hmem, if_pos (hiff.mpr hmem)]
  · rw [if_neg hmem, if_neg (fun h => hmem (hiff.mp h))]

/-- A drain gives out what it takes from the buffer. -/
theorem drain_packets (key : ReceiveKey) (fuel : ℕ) (flow : FlowState) (bytes : ℕ) :
    flow.packets key = (drain fuel flow bytes).flow.packets key +
      ((drain fuel flow bytes).delivered.map (fun d => (key, d.1, d.2)) : List Packet) := by
  refine drain_induct (P := fun flow' _ past => flow.packets key = flow'.packets key +
    (past.map (fun d => (key, d.1, d.2)) : List Packet)) ?_ ?_ fuel [] (by simp)
  all_goals
    intro flow' bytes' past held h _ hl _
    have herase := AList.sum_erase
      (fun id (held : BufferedPacket) => ({(key, ⟨id⟩, held.payload)} : Multiset Packet)) hl
    rw [h, List.map_append, ← Multiset.coe_add]
    unfold FlowState.packets
    rw [← herase]
    simp only [taken, List.map_cons, List.map_nil, Multiset.coe_singleton]
    rw [add_comm ({_} : Multiset Packet), add_assoc, add_comm ({_} : Multiset Packet)]

end Flows

/-! ## Counters -/

/-- From `s` to `s'` the counter of the deliveries went up by `n` and the one of
`reason` by one, as far as they had room. -/
structure Counts (s s' : SessionReorder) (n : ℕ) (reason : Option DropReason) : Prop where
  delivered : s.metrics.delivered + n ≤ u64Max →
    s'.metrics.delivered = s.metrics.delivered + n
  dropped : ∀ r, reason = some r → s.metrics.dropped r + 1 ≤ u64Max →
    s'.metrics.dropped r = s.metrics.dropped r + 1
  others : ∀ r, reason ≠ some r → s'.metrics.dropped r = s.metrics.dropped r

section Counts

variable {s s₁ s' : SessionReorder} {n n' : ℕ} {reason : Option DropReason}

theorem Counts.of_eq (hdelivered : s'.metrics.delivered = s.metrics.delivered)
    (hdropped : s'.metrics.dropped = s.metrics.dropped) : s.Counts s' 0 none :=
  ⟨fun _ => hdelivered, fun r _ _ => by contradiction, fun r _ => congrFun hdropped r⟩

theorem Counts.trans (h : s.Counts s₁ n none) (h' : s₁.Counts s' n' reason) :
    s.Counts s' (n + n') reason := by
  have hfirst : ∀ r, s₁.metrics.dropped r = s.metrics.dropped r :=
    fun r => h.others r (Option.some_ne_none r).symm
  refine ⟨?_, ?_, ?_⟩
  · intro hroom
    have hdelivered := h.delivered (by omega)
    rw [h'.delivered (by omega), hdelivered, add_assoc]
  · intro r hr hroom
    rw [h'.dropped r hr (by rw [hfirst]; exact hroom), hfirst]
  · intro r hr
    rw [h'.others r hr, hfirst]

/-- `n` more deliveries. -/
theorem Counts.of_delivered
    (hdelivered : s'.metrics.delivered = saturatingAdd s.metrics.delivered n)
    (hdropped : s'.metrics.dropped = s.metrics.dropped) : s.Counts s' n none :=
  ⟨fun hroom => hdelivered.trans (saturatingAdd_eq hroom), fun r _ _ => by contradiction,
    fun r _ => congrFun hdropped r⟩

/-- One more drop. -/
theorem Counts.of_count {r : DropReason}
    (hdelivered : s'.metrics.delivered = s.metrics.delivered)
    (hdropped : s'.metrics.dropped = (s.metrics.count r).dropped) : s.Counts s' 0 (some r) := by
  refine ⟨fun _ => hdelivered, ?_, ?_⟩
  · intro r' hr hroom
    obtain rfl := Option.some.inj hr
    rw [hdropped, ← saturatingAdd_eq hroom]
    cases r <;> rfl
  · intro r' hr
    rw [hdropped]
    cases r <;> cases r' <;> first | rfl | contradiction

end Counts

/-- Retiring a key counts evictions and expiries only. -/
theorem insert_tombstone_counts (order : Traversal ReceiveKey ReorderTombstone)
    (s : SessionReorder) (key : ReceiveKey) (watermark : U64) (now_ms : ℕ) :
    s.Counts (insert_tombstone order s key watermark now_ms) 0 none := by
  refine .of_eq ?_ ?_
  all_goals
    unfold insert_tombstone evict_tombstone
    dsimp only
    split
    · split <;> rfl
    · rfl

theorem remove_flow_counts (s : SessionReorder) (key : ReceiveKey) :
    s.Counts (s.remove_flow key) 0 none := by
  refine .of_eq ?_ ?_
  all_goals
    unfold remove_flow
    split <;> rfl

theorem make_room_counts (order : Orders) (s : SessionReorder) (now_ms : ℕ) :
    s.Counts (make_room order s now_ms) 0 none := by
  unfold make_room evict_oldest_flow
  split
  · split
    · next oldest _ =>
      have hevicted : (s.remove_flow oldest.1).Counts { s.remove_flow oldest.1 with
          metrics := { (s.remove_flow oldest.1).metrics with
            flows_evicted_capacity :=
              saturatingAdd (s.remove_flow oldest.1).metrics.flows_evicted_capacity 1 } } 0 none :=
        .of_eq rfl rfl
      exact ((remove_flow_counts s oldest.1).trans hevicted).trans
        (insert_tombstone_counts _ _ _ _ _)
    · exact .of_eq rfl rfl
  · exact .of_eq rfl rfl

theorem expire_idle_counts (order : Orders) (now_ms : ℕ) (idle : List (ReceiveKey × U64))
    (s : SessionReorder) : s.Counts (expire_idle order s now_ms idle) 0 none := by
  induction idle generalizing s with
  | nil => exact .of_eq rfl rfl
  | cons entry idle ih =>
    exact ((remove_flow_counts s _).trans (insert_tombstone_counts _ _ _ _ _)).trans (ih _)

/-! ## Deliveries and drops -/

/-- From `s` to `s'` every flow stayed; what came in and was held before is delivered,
dropped or held now, and the counters say so. -/
structure Transfers (s s' : SessionReorder) (received : Multiset Packet)
    (delivered : List Packet) (reason : Option DropReason) (dropped : Multiset Packet) :
    Prop where
  packets : s.packets + received = s'.packets + delivered + dropped
  keys : ∀ key, key ∈ s'.flows ↔ key ∈ s.flows
  counts : s.Counts s' delivered.length reason

section Transfers

variable {s s₁ s' : SessionReorder} {key : ReceiveKey} {flow flow' : FlowState} {now_ms : ℕ}
  {received dropped : Multiset Packet} {out out' : List Packet} {reason : Option DropReason}
  {traffic_class : TrafficClass} {packet_id : PacketId} {payload : Bytes}

theorem Transfers.refl (s : SessionReorder) : s.Transfers s 0 [] none 0 :=
  ⟨by simp, fun _ => Iff.rfl, .of_eq rfl rfl⟩

theorem Transfers.trans (h : s.Transfers s₁ received out none 0)
    (h' : s₁.Transfers s' 0 out' none 0) : s.Transfers s' received (out ++ out') none 0 := by
  refine ⟨?_, fun key => (h'.keys key).trans (h.keys key), ?_⟩
  · have hfirst := h.packets
    have hsecond := h'.packets
    rw [add_zero] at hfirst
    rw [add_zero, add_zero] at hsecond
    rw [hfirst, hsecond, add_zero, ← Multiset.coe_add, add_assoc, add_comm (out' : Multiset Packet)]
  · rw [List.length_append]
    exact h.counts.trans h'.counts

/-- Writing back the flow of a key. -/
theorem Transfers.of_write (hl : s.flows.lookup key = some flow)
    (hflows : s'.flows = s.flows.insert key flow')
    (hflow : flow.packets key + received = flow'.packets key + (out + dropped))
    (hcounts : s.Counts s' out.length reason) : s.Transfers s' received out reason dropped := by
  refine ⟨?_, ?_, hcounts⟩
  · rw [add_assoc]
    exact packets_write hl hflows hflow
  · intro k
    rw [hflows, AList.mem_insert]
    constructor
    · rintro (rfl | hk)
      · exact AList.mem_of_lookup hl
      · exact hk
    · exact .inr

/-- **One deadline skip** delivers what it takes from the buffer. -/
theorem skip_head_gap_transfers (s : SessionReorder) (key : ReceiveKey) (now_ms : ℕ) :
    s.Transfers (skip_head_gap_if_expired s key now_ms).1 0
      (((skip_head_gap_if_expired s key now_ms).2.getD []).map (fun d => (key, d.1, d.2)))
      none 0 := by
  rcases skip_head_gap_cases s key now_ms with ⟨_, he⟩ | ⟨flow, smallest, head, hdue, he⟩
  · rw [he]
    exact .refl s
  · rw [he]
    refine .of_write hdue.found rfl ?_ ?_
    · have hdrain := drain_packets key flow.buffer.len { flow with next_expected := smallest }
        s.buffered_bytes_session
      rw [add_zero, add_zero]
      exact hdrain
    · rw [List.length_map]
      exact .of_delivered rfl rfl

theorem skip_expired_gaps_transfers (fuel : ℕ) (s : SessionReorder) (key : ReceiveKey)
    (now_ms : ℕ) :
    s.Transfers (skip_expired_gaps fuel s key now_ms).1 0
      ((skip_expired_gaps fuel s key now_ms).2.map (fun d => (key, d.1, d.2))) none 0 := by
  induction fuel generalizing s with
  | zero => exact .refl s
  | succ fuel ih =>
    have hskip := skip_head_gap_transfers s key now_ms
    unfold skip_expired_gaps
    split
    · next he => rwa [he] at hskip
    · next he =>
      rw [he] at hskip
      rw [List.map_append]
      exact hskip.trans (ih _)

theorem skip_flows_transfers (keys : List ReceiveKey) (s : SessionReorder) :
    s.Transfers (skip_flows s now_ms keys).1 0 (skip_flows s now_ms keys).2 none 0 := by
  induction keys generalizing s with
  | nil => exact .refl s
  | cons key keys ih =>
    exact (skip_expired_gaps_transfers (s.held key + 1) s key now_ms).trans (ih _)

/-- An arrival that is dropped. -/
theorem refuse_transfers (hl : s.flows.lookup key = some flow) (reason : DropReason)
    (p : Packet) :
    s.Transfers (refuse s key flow now_ms reason).1 {p} [] (some reason) {p} := by
  unfold refuse
  have hcounts : ∀ flows : Map ReceiveKey FlowState,
      s.Counts { s with flows := flows, metrics := s.metrics.count reason } 0 (some reason) := by
    intro flows
    refine .of_count ?_ rfl
    cases reason <;> rfl
  by_cases hclass : reason = .ClassMismatch
  · refine ⟨?_, ?_, hcounts _⟩
    · rw [if_pos hclass, Multiset.coe_nil, add_zero]
      rfl
    · rw [if_pos hclass]
      exact fun _ => Iff.rfl
  · refine .of_write hl (if_neg hclass) ?_ (hcounts _)
    rw [Multiset.coe_nil, zero_add]
    rfl

/-- The head is delivered with what it makes contiguous. -/
theorem receive_head_transfers (hl : s.flows.lookup key = some flow) :
    s.Transfers (receive_head s key flow packet_id payload now_ms).1 {(key, packet_id, payload)}
      ((receive_head s key flow packet_id payload now_ms).2.delivered.map
        (fun d => (key, d.1, d.2))) none 0 := by
  unfold receive_head
  dsimp only
  split
  · refine .of_write hl rfl ?_ (.of_delivered rfl rfl)
    rw [add_zero]
    rfl
  · refine .of_write hl rfl ?_ ?_
    · have hdrain := drain_packets key flow.buffer.len
        { flow with next_expected := flow.next_expected.succSat } s.buffered_bytes_session
      have hdrain : flow.packets key = _ := hdrain
      rw [hdrain, add_zero]
      unfold ReorderOutcome.ofDelivered
      rw [List.map_cons, ← Multiset.cons_coe, ← Multiset.singleton_add, add_assoc,
        add_comm _ ({_} : Multiset Packet)]
      rfl
    · rw [List.length_map]
      exact .of_delivered rfl rfl

/-- An admissible packet is held, or delivered at once with what a skip releases. -/
theorem hold_transfers (hl : s.flows.lookup key = some flow)
    (hfresh : packet_id.get ∉ flow.buffer) :
    s.Transfers (hold s key flow packet_id.get payload now_ms).1 {(key, packet_id, payload)}
      ((hold s key flow packet_id.get payload now_ms).2.delivered.map
        (fun d => (key, d.1, d.2))) none 0 := by
  have hheld : s.Transfers { s with
      flows := s.flows.insert key { flow with
        buffer := flow.buffer.insert packet_id.get ⟨payload, now_ms⟩
        buffered_bytes := saturatingAdd flow.buffered_bytes payload.length
        last_activity_ms := now_ms }
      buffered_bytes_session := saturatingAdd s.buffered_bytes_session payload.length }
      {(key, packet_id, payload)} [] none 0 := by
    refine .of_write hl rfl ?_ (.of_eq rfl rfl)
    unfold FlowState.packets
    dsimp only
    rw [AList.sum_insert_of_notMem _ _ hfresh, add_comm, Multiset.coe_nil, add_zero, add_zero]
  have hskip := hheld.trans (skip_head_gap_transfers _ key now_ms)
  unfold hold
  dsimp only
  split
  · next he =>
    rw [he] at hskip
    exact hskip
  · next he =>
    rw [he] at hskip
    exact hskip

end Transfers

end SessionReorder

/-! ## One call -/

/-- One call of a run with its reply and the packets that were held in the flows it
evicted or let idle out. -/
structure ReorderLine where
  call : ReorderCall
  reply : ReorderReply
  lost : Multiset Packet

namespace ReorderLine

/-- The packet passed to a `receive`. -/
def received (line : ReorderLine) : Option Packet :=
  match line.call with
  | .receive key _ packet_id payload _ _ => some (key, packet_id, payload)
  | .expire _ _ => none

/-- The packets returned. -/
def delivered (line : ReorderLine) : List Packet :=
  match line.call, line.reply with
  | .receive key _ _ _ _ _, .outcome outcome =>
    outcome.delivered.map (fun d => (key, d.1, d.2))
  | .expire _ _, .outcome _ => []
  | _, .report report => report.delivered

/-- Why the arrival was dropped, if it was. -/
def reason (line : ReorderLine) : Option DropReason :=
  match line.reply with
  | .outcome outcome => outcome.dropped
  | .report _ => none

/-- The packet dropped. -/
def dropped (line : ReorderLine) : Multiset Packet :=
  match line.reason with
  | none => 0
  | some _ => (line.received.toList : Multiset Packet)

end ReorderLine

namespace ReorderCall

/-- The line that a call adds to the record of a run. -/
def line (s : SessionReorder) (call : ReorderCall) : ReorderLine :=
  ⟨call, (call.perform s).2, s.lost (call.perform s).1⟩

/-- `perform` as the step of a machine that keeps the record. -/
def record (s : SessionReorder) (call : ReorderCall) :
    Option (SessionReorder × List ReorderLine) :=
  some ((call.perform s).1, [call.line s])

end ReorderCall

namespace SessionReorder

/-- What a call takes in and what was held is delivered, dropped, held or lost. -/
structure Balanced (s s' : SessionReorder) (line : ReorderLine) : Prop where
  packets : s.packets + (line.received.toList : Multiset Packet) =
    s'.packets + line.delivered + line.dropped + line.lost
  counts : s.Counts s' line.delivered.length line.reason

section Balanced

variable {s s' : SessionReorder} {line : ReorderLine}

/-- A call that keeps every flow loses nothing. -/
theorem Transfers.balanced
    (h : s.Transfers s' (line.received.toList : Multiset Packet) line.delivered line.reason
      line.dropped) (hlost : line.lost = s.lost s') : s.Balanced s' line := by
  refine ⟨?_, h.counts⟩
  have hnone : s.packets = s.packets + s.lost s' :=
    packets_lost (fun _ _ hl => hl) (fun k _ => h.keys k)
  have hzero : s.lost s' = 0 := left_eq_add.mp hnone
  rw [hlost, hzero, add_zero]
  exact h.packets

/-- An arrival without a flow. -/
theorem receive_unknown_balanced (order : Orders) (s : SessionReorder) (key : ReceiveKey)
    (traffic_class : TrafficClass) (packet_id : PacketId) (payload : Bytes) (now_ms : ℕ)
    (hl : s.flows.lookup key = none) :
    let r := receive_unknown order s key traffic_class packet_id payload now_ms
    s.Balanced r.1 ⟨.receive key traffic_class packet_id payload now_ms order, .outcome r.2,
      s.lost r.1⟩ := by
  rw [receive_unknown_eq]
  dsimp only
  split
  · refine Transfers.balanced ?_ rfl
    refine ⟨?_, fun _ => Iff.rfl, .of_count rfl ?_⟩
    · rw [add_assoc]
      rfl
    · funext r
      cases r <;> rfl
  · generalize hroom : make_room order (s.forget_tombstone key now_ms) now_ms = s₁
    have hpart : ∀ k f, s₁.flows.lookup k = some f → s.flows.lookup k = some f := by
      intro k f hk
      rw [← hroom] at hk
      exact @make_room_lookup (s.forget_tombstone key now_ms) order now_ms k f hk
    have hcounts : s.Counts s₁ 0 none := by
      rw [← hroom]
      have hforget : s.Counts (s.forget_tombstone key now_ms) 0 none := .of_eq rfl rfl
      exact hforget.trans (make_room_counts order _ now_ms)
    have hfresh : key ∉ s₁.flows := by
      intro hmem
      obtain ⟨f, hf⟩ := AList.mem_iff_lookup.mp hmem
      rw [hpart key f hf] at hl
      contradiction
    unfold open_flow
    rw [hroom]
    dsimp only
    generalize hs' : ({ s₁ with flows := _, metrics := _ } : SessionReorder) = s'
    have hopened : s₁.Counts s' 1 none ∧
        ∃ flow : FlowState, flow.buffer = ∅ ∧ s'.flows = s₁.flows.insert key flow := by
      rw [← hs']
      exact ⟨.of_delivered rfl rfl, _, rfl, rfl⟩
    obtain ⟨hone, flow, hempty, hflows⟩ := hopened
    have hkeys : ∀ k ∈ s.flows, k ∈ s'.flows ↔ k ∈ s₁.flows := by
      intro k hk
      rw [hflows, AList.mem_insert]
      refine ⟨?_, .inr⟩
      rintro (rfl | hk₁)
      · exact absurd hk (AList.lookup_eq_none.mp hl)
      · exact hk₁
    have hpackets : s'.packets = s₁.packets := by
      unfold packets
      rw [hflows, AList.sum_insert_of_notMem _ _ hfresh]
      unfold FlowState.packets
      rw [hempty, AList.sum_empty, zero_add]
    refine ⟨?_, ?_⟩
    · rw [packets_lost hpart hkeys, hpackets, add_right_comm]
      exact congrArg (· + s.lost s') (add_zero _).symm
    · have htotal := hcounts.trans hone
      rw [zero_add] at htotal
      exact htotal

/-- An arrival on a held flow. -/
theorem receive_known_balanced (order : Orders) {key : ReceiveKey} {flow : FlowState}
    (traffic_class : TrafficClass) (packet_id : PacketId) (payload : Bytes) (now_ms : ℕ)
    (hl : s.flows.lookup key = some flow) :
    let r := receive_known s key flow traffic_class packet_id payload now_ms
    s.Balanced r.1 ⟨.receive key traffic_class packet_id payload now_ms order, .outcome r.2,
      s.lost r.1⟩ := by
  rw [receive_known_eq]
  dsimp only
  cases hr : refusal s flow traffic_class packet_id.get payload with
  | some reason => exact Transfers.balanced (refuse_transfers hl reason _) rfl
  | none =>
    dsimp only
    split
    · have hnone : (receive_head s key flow packet_id payload now_ms).2.dropped = none := by
        unfold receive_head
        dsimp only
        split <;> rfl
      refine Transfers.balanced ?_ rfl
      unfold ReorderLine.dropped ReorderLine.reason
      dsimp only
      rw [hnone]
      exact receive_head_transfers hl
    · next hid =>
      have hnone : (hold s key flow packet_id.get payload now_ms).2.dropped = none := by
        unfold hold
        dsimp only
        split <;> rfl
      refine Transfers.balanced ?_ rfl
      unfold ReorderLine.dropped ReorderLine.reason
      dsimp only
      rw [hnone]
      exact hold_transfers hl (admissible_of_refusal hr hid).fresh

/-- `expire` loses what the idle flows hold and delivers what it skips to. -/
theorem expire_balanced (order : Orders) (s : SessionReorder) (now_ms : ℕ) :
    s.Balanced (s.expire order now_ms).1 ⟨.expire now_ms order, .report (s.expire order now_ms).2,
      s.lost (s.expire order now_ms).1⟩ := by
  obtain ⟨s₁, n, hs₁, _, hstate, hout⟩ := expire_eq s order now_ms
  have hpart : ∀ k f, s₁.flows.lookup k = some f → s.flows.lookup k = some f := by
    intro k f hk
    rw [hs₁] at hk
    have hk : (s.after_idle order now_ms).flows.lookup k = some f := hk
    rw [after_idle_lookup] at hk
    exact (Option.filter_eq_some_iff.mp hk).1
  have hcounts : s.Counts s₁ 0 none := by
    have hpurged : s.Counts (s.purge_expired_tombstones now_ms) 0 none := .of_eq rfl rfl
    have hidle := hpurged.trans (expire_idle_counts order now_ms
      (idle_flows order (s.purge_expired_tombstones now_ms) now_ms) _)
    have hlast : (s.after_idle order now_ms).Counts s₁ 0 none := by
      rw [hs₁]
      exact .of_eq rfl rfl
    exact hidle.trans hlast
  have hskips : s₁.Transfers (s.expire order now_ms).1 0 (s.expire order now_ms).2.delivered
      none 0 := by
    rw [hstate, hout]
    exact skip_flows_transfers _ s₁
  have hkeys : ∀ k ∈ s.flows, k ∈ (s.expire order now_ms).1.flows ↔ k ∈ s₁.flows :=
    fun k _ => hskips.keys k
  refine ⟨?_, ?_⟩
  · have hpackets := hskips.packets
    rw [add_zero] at hpackets
    rw [packets_lost hpart hkeys, hpackets]
    exact add_zero _
  · have htotal := hcounts.trans hskips.counts
    rw [zero_add] at htotal
    exact htotal

/-- **The balance of one call.** -/
theorem balanced (s : SessionReorder) (call : ReorderCall) :
    s.Balanced (call.perform s).1 (call.line s) := by
  cases call with
  | expire now order => exact expire_balanced order s now
  | receive key traffic_class packet_id payload now order =>
    unfold ReorderCall.line ReorderCall.perform receive
    dsimp only
    by_cases hcontrol : traffic_class = .Control
    · rw [if_pos hcontrol]
      refine Transfers.balanced ⟨?_, fun _ => Iff.rfl, .of_count rfl ?_⟩ rfl
      · rw [add_assoc]
        rfl
      · funext r
        cases r <;> rfl
    · rw [if_neg hcontrol]
      cases hl : s.flows.lookup key with
      | none =>
        exact receive_unknown_balanced order s key traffic_class packet_id payload now hl
      | some flow => exact receive_known_balanced order traffic_class packet_id payload now hl

end Balanced

end SessionReorder

/-! ## Runs -/

/-- The packets the counters account for: those delivered and those dropped. -/
def ReorderMetrics.settled (m : ReorderMetrics) : ℕ :=
  m.delivered + m.duplicates_dropped + m.class_mismatch_dropped + m.flow_packet_capacity_dropped +
    m.flow_byte_capacity_dropped + m.session_byte_capacity_dropped + m.far_ahead_dropped +
    m.exhausted_dropped

/-- The call makes the counter of the deliveries or of its drop reason saturate. -/
def ReorderCall.saturates (s : SessionReorder) (call : ReorderCall) : Prop :=
  u64Max < s.metrics.delivered + (call.line s).delivered.length ∨
    ∃ r ∈ (call.line s).reason, u64Max < s.metrics.dropped r + 1

instance (s : SessionReorder) (call : ReorderCall) : Decidable (call.saturates s) :=
  inferInstanceAs (Decidable (_ ∨ ∃ r ∈ (call.line s).reason, _))

namespace SessionReorder

section Runs

variable {s s' : SessionReorder} {call : ReorderCall} {n : ℕ} {reason : Option DropReason}

/-- The counters together. -/
theorem Counts.settled (h : s.Counts s' n reason) (hdelivered : s.metrics.delivered + n ≤ u64Max)
    (hdropped : ∀ r, reason = some r → s.metrics.dropped r + 1 ≤ u64Max) :
    s'.metrics.settled = s.metrics.settled + n + reason.toList.length := by
  have hd := h.delivered hdelivered
  have hall : ∀ r, s'.metrics.dropped r =
      s.metrics.dropped r + if reason = some r then 1 else 0 := by
    intro r
    by_cases hr : reason = some r
    · rw [if_pos hr, h.dropped r hr (hdropped r hr)]
    · rw [if_neg hr, h.others r hr, add_zero]
  have h₁ := hall .Duplicate
  have h₂ := hall .ClassMismatch
  have h₃ := hall .FlowPacketCapacity
  have h₄ := hall .FlowByteCapacity
  have h₅ := hall .SessionByteCapacity
  have h₆ := hall .FarAhead
  have h₇ := hall .Exhausted
  unfold ReorderMetrics.settled
  simp only [ReorderMetrics.dropped] at h₁ h₂ h₃ h₄ h₅ h₆ h₇
  cases reason with
  | none =>
    simp only [reduceCtorEq, if_false, Option.toList_none, List.length_nil] at *
    omega
  | some r =>
    cases r <;>
      simp only [Option.some.injEq, reduceCtorEq, if_true, if_false, Option.toList_some,
        List.length_singleton] at * <;>
      omega

/-- Whatever is dropped was received. -/
theorem card_dropped (s : SessionReorder) (call : ReorderCall) :
    (call.line s).dropped.card = (call.line s).reason.toList.length := by
  unfold ReorderLine.dropped
  cases hr : (call.line s).reason with
  | none => rfl
  | some r =>
    cases call with
    | receive => rfl
    | expire => contradiction

/-- The balance of one call, counted. -/
theorem balanced_card (s : SessionReorder) (call : ReorderCall) (hroom : ¬ call.saturates s) :
    (call.perform s).1.metrics.settled + (call.perform s).1.buffered_packets +
        (call.line s).lost.card =
      s.metrics.settled + s.buffered_packets + (call.line s).received.toList.length ∧
    (call.perform s).1.metrics.delivered =
      s.metrics.delivered + (call.line s).delivered.length := by
  obtain ⟨hdelivered, hdropped⟩ := not_or.mp hroom
  have hbalanced := balanced s call
  have hcard := congrArg Multiset.card hbalanced.packets
  have hsettled := hbalanced.counts.settled (not_lt.mp hdelivered)
    (fun r hr => not_lt.mp (fun h => hdropped ⟨r, hr, h⟩))
  simp only [Multiset.card_add, Multiset.coe_card, card_packets, card_dropped] at hcard
  exact ⟨by omega, hbalanced.counts.delivered (not_lt.mp hdelivered)⟩

/-- What the record of a run accounts for. -/
structure Accounted (s : SessionReorder) (log : List ReorderLine) : Prop where
  calls : (log.map (fun line => line.received.toList.length)).sum =
    s.metrics.settled + s.buffered_packets + (log.map (fun line => line.lost.card)).sum
  delivered : s.metrics.delivered = (log.map (fun line => line.delivered.length)).sum

/-- **Step lemma.** -/
theorem Accounted.step {log : List ReorderLine} (h : s.Accounted log) (call : ReorderCall)
    (hroom : ¬ call.saturates s) : (call.perform s).1.Accounted (log ++ [call.line s]) := by
  obtain ⟨hcard, hdelivered⟩ := balanced_card s call hroom
  have hcalls := h.calls
  have hold := h.delivered
  refine ⟨?_, ?_⟩
  · simp only [List.map_append, List.map_cons, List.map_nil, List.sum_append, List.sum_cons,
      List.sum_nil]
    omega
  · simp only [List.map_append, List.map_cons, List.map_nil, List.sum_append, List.sum_cons,
      List.sum_nil]
    omega

theorem new_accounted {limits : ReorderLimits} (h : new limits = .ok s) :
    s.Accounted [] ∧ s.packets = 0 := by
  unfold new at h
  split at h
  · contradiction
  obtain rfl := Except.ok.inj h
  exact ⟨⟨rfl, rfl⟩, rfl⟩

end Runs

end SessionReorder

/-- The record lists the calls of the run. -/
theorem record_calls {s t : SessionReorder} {calls : List ReorderCall} {log : List ReorderLine}
    (h : exec ReorderCall.record s calls = some (t, log)) : log.map (·.call) = calls := by
  induction calls generalizing s log with
  | nil =>
    obtain ⟨_, rfl⟩ := step_inj h
    rfl
  | cons call calls ih =>
    obtain ⟨s₁, o, o', hs, he, rfl⟩ := exec_cons_eq_some.mp h
    obtain ⟨_, rfl⟩ := step_inj hs
    rw [List.map_append, ih he]
    rfl

theorem countP_received (log : List ReorderLine) :
    log.countP (fun line => line.received.isSome) =
      (log.map (fun line => line.received.toList.length)).sum := by
  induction log with
  | nil => rfl
  | cons line log ih =>
    rw [List.countP_cons, ih, List.map_cons, List.sum_cons, add_comm]
    cases line.received <;> rfl

/-- Every payload returned came from a `receive` of its own. -/
theorem record_origins {limits : ReorderLimits} {s t : SessionReorder}
    {calls : List ReorderCall} {log : List ReorderLine}
    (hnew : SessionReorder.new limits = .ok s)
    (hrun : exec ReorderCall.record s calls = some (t, log)) :
    ∃ origins, Origins ReorderLine.received ReorderLine.delivered log origins := by
  refine exec_origins (C := fun _ _ => True) ?_ (SessionReorder.new_accounted hnew).2
    (along_true s calls) hrun
  rintro s call s₁ o - hs
  obtain ⟨rfl, rfl⟩ := step_inj hs
  refine ⟨call.line s, rfl, ?_⟩
  rw [(SessionReorder.balanced s call).packets, add_assoc,
    add_comm ((call.line s).delivered : Multiset Packet)]
  exact Multiset.le_add_right _ _

/-- **Packet accounting.** In every run in which no counter of the deliveries or drops
saturates, every `receive` is accounted for, the deliveries are counted, and every
payload returned was passed to a `receive` of its own under the same key and ID. -/
theorem packets_accounted {limits : ReorderLimits} {s t : SessionReorder}
    {calls : List ReorderCall} {log : List ReorderLine}
    (hnew : SessionReorder.new limits = .ok s)
    (hroom : Along ReorderCall.record (fun s call => ¬ call.saturates s) s calls)
    (hrun : exec ReorderCall.record s calls = some (t, log)) :
    log.map (·.call) = calls ∧
    log.countP (fun line => line.received.isSome) =
      t.metrics.delivered + t.metrics.duplicates_dropped + t.metrics.class_mismatch_dropped +
        t.metrics.flow_packet_capacity_dropped + t.metrics.flow_byte_capacity_dropped +
        t.metrics.session_byte_capacity_dropped + t.metrics.far_ahead_dropped +
        t.metrics.exhausted_dropped + t.buffered_packets +
        (log.map (fun line => line.lost.card)).sum ∧
    t.metrics.delivered = (log.map (fun line => line.delivered.length)).sum ∧
    ∃ origins, Origins ReorderLine.received ReorderLine.delivered log origins := by
  have hstep : ∀ (s : SessionReorder) (call : ReorderCall) (s₁ : SessionReorder)
      (o past : List ReorderLine), s.Accounted past → ¬ call.saturates s →
      ReorderCall.record s call = some (s₁, o) → s₁.Accounted (past ++ o) := by
    intro s call s₁ o past h hfits hs
    obtain ⟨rfl, rfl⟩ := step_inj hs
    exact h.step call hfits
  have haccounted : t.Accounted log :=
    exec_along_induct (a := []) hstep (SessionReorder.new_accounted hnew).1 hroom hrun
  refine ⟨record_calls hrun, ?_, haccounted.delivered, record_origins hnew hrun⟩
  rw [countP_received]
  exact haccounted.calls

open Sample in
/-- The run of `Sample.calls`, with an eviction and a replay. -/
theorem packets_accounted_sample :
    ∃ t log, exec ReorderCall.record start calls = some (t, log) ∧
      log.map (·.call) = calls ∧
      log.countP (fun line => line.received.isSome) =
        t.metrics.delivered + t.metrics.duplicates_dropped + t.metrics.class_mismatch_dropped +
          t.metrics.flow_packet_capacity_dropped + t.metrics.flow_byte_capacity_dropped +
          t.metrics.session_byte_capacity_dropped + t.metrics.far_ahead_dropped +
          t.metrics.exhausted_dropped + t.buffered_packets +
          (log.map (fun line => line.lost.card)).sum ∧
      t.metrics.delivered = (log.map (fun line => line.delivered.length)).sum ∧
      ∃ origins, Origins ReorderLine.received ReorderLine.delivered log origins := by
  have hnew : SessionReorder.new limits = .ok start := rfl
  have hroom : Along ReorderCall.record (fun s call => ¬ call.saturates s) start calls := by
    decide
  cases hrun : exec ReorderCall.record start calls with
  | none => contradiction
  | some r => exact ⟨r.1, r.2, rfl, packets_accounted hnew hroom hrun⟩

end StreamGuard.Multipath
