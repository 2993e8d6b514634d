/-
What the outcome of `receive` says about the arrival.

An arrival is dropped, delivered or held, and its outcome says which, but for one case:
`hold` puts the arrival into the buffer and then skips an overdue gap, and the outcome is
built from the packets the skip released. When a packet is missing between the overdue head
and the arrival the skip stops there: the arrival stays in the buffer under an outcome that
says neither delivered nor buffered. Such an arrival is `Stranded`.
-/
import StreamGuard.Multipath.ReorderDeadlines

set_option autoImplicit false

namespace StreamGuard.Multipath

open StreamGuard StreamGuard.Lib

namespace SessionReorder

variable {s t : SessionReorder} {key : ReceiveKey} {flow : FlowState} {now_ms gap : ℕ}
  {traffic_class : TrafficClass} {id smallest : U64} {head : BufferedPacket}
  {packet_id : PacketId} {payload : Bytes}

/-! ## What an outcome tells -/

/-- The packet held for `key` under `id`. -/
def held_under (s : SessionReorder) (key : ReceiveKey) (id : U64) : Option BufferedPacket :=
  (s.flows.lookup key).bind (fun flow => flow.buffer.lookup id)

/-- A packet is held under `id` after a call that made `t` of `s`, and none was before. -/
def newly_held (s t : SessionReorder) (key : ReceiveKey) (id : U64) : Prop :=
  s.held_under key id = none ∧ t.held_under key id ≠ none

/-- Where an arrival can end up. -/
inductive Place where
  | dropped
  | delivered
  | buffered

/-- The arrival is at this place after the call, and the outcome says so. -/
def Place.told (s : SessionReorder) (r : SessionReorder × ReorderOutcome) (key : ReceiveKey)
    (packet_id : PacketId) (payload : Bytes) : Place → Prop
  | .dropped => r.2.dropped.isSome ∧ (packet_id, payload) ∉ r.2.delivered ∧
      ¬ newly_held s r.1 key packet_id.get
  | .delivered => (packet_id, payload) ∈ r.2.delivered
  | .buffered => r.2.buffered = true ∧
      ∃ held ∈ r.1.held_under key packet_id.get, held.payload = payload

/-- **The outcome tells where the arrival is.** -/
structure Tells (s : SessionReorder) (r : SessionReorder × ReorderOutcome) (key : ReceiveKey)
    (packet_id : PacketId) (payload : Bytes) : Prop where
  one : ∃! place : Place, place.told s r key packet_id payload
  held : newly_held s r.1 key packet_id.get → r.2.buffered = true

theorem tells_dropped {reason : DropReason}
    (hkept : t.held_under key packet_id.get = s.held_under key packet_id.get) :
    Tells s (t, .ofDropped reason) key packet_id payload := by
  have hold : ¬ newly_held s t key packet_id.get := by
    rintro ⟨hnone, hsome⟩
    exact hsome (hkept.trans hnone)
  refine ⟨⟨.dropped, ⟨rfl, List.not_mem_nil, hold⟩, ?_⟩, fun h => absurd h hold⟩
  intro place htold
  cases place with
  | dropped => rfl
  | delivered => exact absurd htold List.not_mem_nil
  | buffered => exact absurd htold.1 Bool.false_ne_true

theorem tells_delivered {delivered : List (PacketId × Bytes)}
    (hmem : (packet_id, payload) ∈ delivered)
    (hnone : t.held_under key packet_id.get = none) :
    Tells s (t, .ofDelivered delivered) key packet_id payload := by
  refine ⟨⟨.delivered, hmem, ?_⟩, fun h => absurd hnone h.2⟩
  intro place htold
  cases place with
  | dropped => exact absurd htold.1 Bool.false_ne_true
  | delivered => rfl
  | buffered => exact absurd htold.1 Bool.false_ne_true

theorem tells_buffered {held : BufferedPacket}
    (hheld : t.held_under key packet_id.get = some held) (hpayload : held.payload = payload) :
    Tells s (t, .ofBuffered) key packet_id payload := by
  refine ⟨⟨.buffered, ⟨rfl, held, hheld, hpayload⟩, ?_⟩, fun _ => rfl⟩
  intro place htold
  cases place with
  | dropped => exact absurd htold.1 Bool.false_ne_true
  | delivered => exact absurd htold List.not_mem_nil
  | buffered => rfl

/-- Deliveries without the arrival tell nothing about it. -/
theorem not_tells_delivered {delivered : List (PacketId × Bytes)}
    (hnot : (packet_id, payload) ∉ delivered) :
    ¬ Tells s (t, .ofDelivered delivered) key packet_id payload := by
  rintro ⟨⟨place, htold, _⟩, _⟩
  cases place with
  | dropped => exact Bool.false_ne_true htold.1
  | delivered => exact hnot htold
  | buffered => exact Bool.false_ne_true htold.1

/-! ## What a drain delivers -/

section Drain

variable {flow flow' f : FlowState} {past : List (PacketId × Bytes)}

/-- A drain from `flow` has come to `flow'` and delivered `past`: a packet is still held or
has been delivered, and not both. -/
structure Handed (flow flow' : FlowState) (past : List (PacketId × Bytes)) : Prop where
  kept : ∀ {id x}, flow'.buffer.lookup id = some x → flow.buffer.lookup id = some x
  left : ∀ {id x}, flow.buffer.lookup id = some x → id ∉ flow'.buffer → (⟨id⟩, x.payload) ∈ past
  gone : ∀ d ∈ past, d.1.get ∉ flow'.buffer

theorem Handed.take {held : BufferedPacket} (h : Handed flow flow' past)
    (hl : flow'.buffer.lookup flow'.next_expected = some held)
    (hbuffer : f.buffer = flow'.buffer.erase flow'.next_expected) :
    Handed flow f (past ++ [(⟨flow'.next_expected⟩, held.payload)]) := by
  refine ⟨?_, ?_, ?_⟩
  · intro id x hx
    rw [hbuffer] at hx
    exact h.kept (AList.lookup_of_erase hx)
  · intro id x hx hnot
    rw [hbuffer, AList.mem_erase, not_and_or, not_not] at hnot
    rcases hnot with rfl | hnot
    · -- the packet this round takes out
      have hsame := h.kept hl
      rw [hx] at hsame
      obtain rfl := Option.some.inj hsame
      exact List.mem_append_right past (List.mem_singleton.mpr rfl)
    · exact List.mem_append_left _ (h.left hx hnot)
  · intro d hd hmem
    rw [hbuffer, AList.mem_erase] at hmem
    rcases List.mem_append.mp hd with hd | hd
    · exact h.gone d hd hmem.2
    · rw [List.mem_singleton] at hd
      exact hmem.1 (by rw [hd])

/-- **A drain delivers what it takes out**, round by round. -/
theorem drain_handed (fuel : ℕ) (flow : FlowState) (bytes : ℕ) :
    Handed flow (drain fuel flow bytes).flow (drain fuel flow bytes).delivered := by
  refine drain_induct (P := fun flow' _ past => Handed flow flow' past) ?_ ?_ fuel [] ?_
  · intro flow' bytes' past held h _ hl _
    exact h.take hl rfl
  · intro flow' bytes' past held h _ hl _
    exact h.take hl rfl
  · exact ⟨fun h => h, fun hx hnot => absurd (AList.mem_of_lookup hx) hnot, fun _ hd => by simp at hd⟩

theorem Handed.delivered_iff {x : BufferedPacket} (h : Handed flow flow' past)
    (hx : flow.buffer.lookup id = some x) : (⟨id⟩, x.payload) ∈ past ↔ id ∉ flow'.buffer :=
  ⟨h.gone _, h.left hx⟩

end Drain

/-! ## What is held when the arrival is -/

section Hold

/-- The flow of an arrival that is held. -/
def with_arrival (flow : FlowState) (id : U64) (payload : Bytes) (now_ms : ℕ) : FlowState :=
  { flow with
    buffer := flow.buffer.insert id ⟨payload, now_ms⟩
    buffered_bytes := saturatingAdd flow.buffered_bytes payload.length
    last_activity_ms := now_ms }

/-- The state in which a held arrival looks for an overdue gap. -/
def with_held (s : SessionReorder) (key : ReceiveKey) (flow : FlowState) (id : U64)
    (payload : Bytes) (now_ms : ℕ) : SessionReorder :=
  { s with
    flows := s.flows.insert key (with_arrival flow id payload now_ms)
    buffered_bytes_session := saturatingAdd s.buffered_bytes_session payload.length }

/-- **The stranded arrivals**: the arrival is held, the head before it is overdue, and a packet
is missing in between. -/
structure Stranded (s : SessionReorder) (key : ReceiveKey) (traffic_class : TrafficClass)
    (id : U64) (payload : Bytes) (now_ms : ℕ) (flow : FlowState) (smallest : U64)
    (head : BufferedPacket) : Prop where
  data : traffic_class ≠ .Control
  admissible : s.Admissible flow traffic_class id payload
  due : s.HeadOverdue key now_ms flow smallest head
  before : smallest < id
  hole : ∃ j, smallest < j ∧ j < id ∧ j ∉ flow.buffer

/-- The arrival is stranded behind the head of its flow. -/
def strands (s : SessionReorder) (key : ReceiveKey) (traffic_class : TrafficClass) (id : U64)
    (payload : Bytes) (now_ms : ℕ) : Prop :=
  ∃ flow smallest head, s.Stranded key traffic_class id payload now_ms flow smallest head

theorem firstKey_eq_some {m : Map U64 BufferedPacket} {a : U64} (hmem : a ∈ m)
    (hle : ∀ id ∈ m, a ≤ id) : m.firstKey = some a :=
  List.min?_eq_some_iff.mpr ⟨hmem, hle⟩

/-- A head stays the head when an arrival behind it is held. -/
theorem HeadOverdue.with_held (h : s.HeadOverdue key now_ms flow smallest head)
    (hlt : smallest < id) :
    (s.with_held key flow id payload now_ms).HeadOverdue key now_ms
      (with_arrival flow id payload now_ms) smallest head := by
  obtain ⟨hmem, hle⟩ := firstKey_le h.first
  refine ⟨AList.lookup_insert _, h.unexhausted, ?_, ?_, h.gap, h.overdue⟩
  · refine firstKey_eq_some ((AList.mem_insert _).mpr (.inr hmem)) ?_
    intro j hj
    rcases (AList.mem_insert _).mp hj with rfl | hj
    · exact hlt.le
    · exact hle j hj
  · show (flow.buffer.insert id _).lookup smallest = some head
    rw [AList.lookup_insert_ne hlt.ne]
    exact h.held

/-- The arrival itself is not overdue, so an overdue head was held before it. -/
theorem HeadOverdue.of_with_held (hfound : s.flows.lookup key = some flow)
    (hpos : 0 < s.limits.deadline_for flow.traffic_class) {flow' : FlowState}
    (h : (s.with_held key flow id payload now_ms).HeadOverdue key now_ms flow' smallest head) :
    flow' = with_arrival flow id payload now_ms ∧ smallest < id ∧
      s.HeadOverdue key now_ms flow smallest head := by
  have hsame := h.found
  rw [show (s.with_held key flow id payload now_ms).flows.lookup key =
    some (with_arrival flow id payload now_ms) from AList.lookup_insert _] at hsame
  obtain rfl := Option.some.inj hsame
  obtain ⟨hmem, hle⟩ := firstKey_le h.first
  have hheld : (flow.buffer.insert id ⟨payload, now_ms⟩).lookup smallest = some head := h.held
  have hne : smallest ≠ id := by
    rintro rfl
    rw [AList.lookup_insert] at hheld
    have hdue : s.limits.deadline_for flow.traffic_class ≤ now_ms - head.arrived_at_ms := h.overdue
    rw [← Option.some.inj hheld] at hdue
    dsimp only at hdue
    omega
  rw [AList.lookup_insert_ne hne] at hheld
  refine ⟨rfl, lt_of_le_of_ne (hle id ((AList.mem_insert _).mpr (.inl rfl))) hne, ?_⟩
  refine ⟨hfound, h.unexhausted, firstKey_eq_some (AList.mem_of_lookup hheld) ?_, hheld, h.gap,
    h.overdue⟩
  intro j hj
  exact hle j ((AList.mem_insert _).mpr (.inr hj))

/-- **A drain stops at a hole**: a packet behind the start stays held exactly if a packet
between the start and it is missing. -/
theorem kept_iff_hole {start : FlowState} (hdrain : Consecutive start flow)
    (hw : flow.Windowed gap) (hstart : start.next_expected ∈ start.buffer)
    (hid : id ∈ start.buffer) :
    id ∈ flow.buffer ↔ ∃ j, start.next_expected < j ∧ j < id ∧ j ∉ start.buffer := by
  constructor
  · intro hkept
    have hahead := (hw.window id hkept).1
    have hmissing : flow.next_expected ∉ start.buffer := by
      intro hmem
      by_cases hstill : flow.next_expected ∈ flow.buffer
      · exact lt_irrefl _ (hw.window _ hstill).1
      · rcases hdrain.taken _ hmem hstill with h | ⟨hex, _⟩
        · exact lt_irrefl _ h
        · exact hw.exhausted hex id hkept
    refine ⟨flow.next_expected, lt_of_le_of_ne hdrain.forward ?_, hahead, hmissing⟩
    intro heq
    exact hmissing (heq ▸ hstart)
  · rintro ⟨j, hgt, hj, hmissing⟩
    have hstops : flow.next_expected ≤ j := by
      by_contra h
      exact hmissing (hdrain.behind j hgt.le (not_le.mp h))
    by_contra htaken
    rcases hdrain.taken id hid htaken with h | ⟨_, heq⟩
    · exact lt_irrefl _ (h.trans (lt_of_le_of_lt hstops hj))
    · exact lt_irrefl id (lt_of_le_of_lt (heq ▸ hstops) hj)

theorem windowed_with_arrival (hw : flow.Windowed s.limits.max_future_gap)
    (hadmissible : s.Admissible flow traffic_class id payload) (now_ms : ℕ) :
    (with_arrival flow id payload now_ms).Windowed s.limits.max_future_gap := by
  refine ⟨?_, fun hex => absurd hex (by simp [with_arrival, hadmissible.unexhausted])⟩
  intro j hj
  rcases (AList.mem_insert _).mp hj with rfl | hj
  · exact ⟨hadmissible.ahead, hadmissible.window⟩
  · exact hw.window j hj

/-- **The skip after an arrival** delivers the arrival exactly if no packet is missing between
the overdue head and it; else the arrival stays held. -/
theorem HeadOverdue.arrival_delivered_iff {s' : SessionReorder}
    (h : s'.HeadOverdue key now_ms (with_arrival flow id payload now_ms) smallest head)
    (hw : (with_arrival flow id payload now_ms).Windowed gap) :
    ((⟨id⟩, payload) ∈ (skip_drain s' (with_arrival flow id payload now_ms) smallest).delivered ↔
        id ∉ (skip_drain s' (with_arrival flow id payload now_ms) smallest).flow.buffer) ∧
      (id ∈ (skip_drain s' (with_arrival flow id payload now_ms) smallest).flow.buffer ↔
        ∃ j, smallest < j ∧ j < id ∧ j ∉ flow.buffer) := by
  generalize hstart : { with_arrival flow id payload now_ms with next_expected := smallest } = start
  have hdrain : skip_drain s' (with_arrival flow id payload now_ms) smallest =
      drain start.buffer.len start s'.buffered_bytes_session := by
    subst hstart
    rfl
  have hnext : start.next_expected = smallest := by rw [← hstart]
  have hbuffer : start.buffer = flow.buffer.insert id ⟨payload, now_ms⟩ := by
    rw [← hstart]
    rfl
  have hlookup : start.buffer.lookup id = some ⟨payload, now_ms⟩ := by
    rw [hbuffer]
    exact AList.lookup_insert _
  rw [hdrain]
  refine ⟨(drain_handed _ start _).delivered_iff hlookup, ?_⟩
  have hloose : start.Loose gap := by
    rw [← hstart]
    exact hw.advance h.gap.le (firstKey_le h.first).2
  have hmem : smallest ∈ start.buffer := by
    rw [← hstart]
    exact AList.mem_of_lookup h.held
  rw [kept_iff_hole (drain_consecutive _ start _) (drain_windowed hloose _) (hnext ▸ hmem)
    (AList.mem_of_lookup hlookup), hnext]
  -- the arrival fills no hole before itself
  refine exists_congr fun j => and_congr_right fun _ => and_congr_right fun hj => ?_
  rw [hbuffer, AList.mem_insert, not_or, and_iff_right hj.ne]

/-- **A held arrival** is told about unless it is stranded. -/
theorem hold_tells_iff (hw : flow.Windowed s.limits.max_future_gap)
    (hfound : s.flows.lookup key = some flow) (hdata : traffic_class ≠ .Control)
    (hpos : 0 < s.limits.deadline_for flow.traffic_class)
    (hadmissible : s.Admissible flow traffic_class packet_id.get payload) :
    Tells s (hold s key flow packet_id.get payload now_ms) key packet_id payload ↔
      ¬ s.strands key traffic_class packet_id.get payload now_ms := by
  -- a stranded arrival is on this flow
  have hflow : ∀ {f smallest head}, s.HeadOverdue key now_ms f smallest head → f = flow := by
    intro f smallest head h
    have hsame := h.found
    rw [hfound] at hsame
    exact (Option.some.inj hsame).symm
  rcases skip_head_gap_cases (s.with_held key flow packet_id.get payload now_ms) key now_ms with
    ⟨hnone, he⟩ | ⟨flow', smallest, head, hdue, he⟩
  · -- no gap is skipped, and the arrival is buffered
    rw [hold_of_none he]
    have hheld : (s.with_held key flow packet_id.get payload now_ms).held_under key
        packet_id.get = some ⟨payload, now_ms⟩ := by
      unfold held_under
      rw [show (s.with_held key flow packet_id.get payload now_ms).flows.lookup key =
        some (with_arrival flow packet_id.get payload now_ms) from AList.lookup_insert _]
      exact AList.lookup_insert _
    refine iff_of_true (tells_buffered hheld rfl) ?_
    · rintro ⟨f, smallest, head, hstranded⟩
      obtain rfl := hflow hstranded.due
      exact hnone _ _ _ (hstranded.due.with_held hstranded.before)
  · rw [hold_of_some he]
    obtain ⟨rfl, hlt, hbefore⟩ := hdue.of_with_held hfound hpos
    obtain ⟨hdelivered, hkept⟩ :=
      hdue.arrival_delivered_iff (windowed_with_arrival hw hadmissible now_ms)
    by_cases hhole : ∃ j, smallest < j ∧ j < packet_id.get ∧ j ∉ flow.buffer
    · refine iff_of_false (not_tells_delivered ?_) (not_not.mpr ?_)
      · exact fun hmem => hdelivered.mp hmem (hkept.mpr hhole)
      · exact ⟨flow, smallest, head, hdata, hadmissible, hbefore, hlt, hhole⟩
    · have hgone := fun h => hhole (hkept.mp h)
      refine iff_of_true (tells_delivered (hdelivered.mpr hgone) ?_) ?_
      · unfold held_under skip_to
        rw [AList.lookup_insert]
        exact AList.lookup_eq_none.mpr hgone
      · rintro ⟨f, smallest', head', hstranded⟩
        obtain rfl := hflow hstranded.due
        have hsame := hstranded.due.first
        rw [hbefore.first] at hsame
        obtain rfl := Option.some.inj hsame
        exact hhole hstranded.hole

end Hold

/-! ## `receive` -/

section Receive

variable {order : Orders}

theorem deadline_pos {limits : ReorderLimits} (h : limits.validate = .ok ())
    (traffic_class : TrafficClass) : 0 < limits.deadline_for traffic_class := by
  unfold ReorderLimits.validate at h
  by_cases hzero : limits.realtime_deadline_ms = 0 ∨ limits.interactive_deadline_ms = 0 ∨
      limits.bulk_deadline_ms = 0
  · rw [if_pos (by tauto)] at h
    contradiction
  · cases traffic_class <;> simp only [ReorderLimits.deadline_for] <;> omega

theorem held_under_of_lookup (h : s.flows.lookup key = some flow) :
    s.held_under key id = flow.buffer.lookup id := by
  unfold held_under
  rw [h]
  rfl

/-- A refused arrival leaves the buffer of its flow alone. -/
theorem refuse_held_under (hl : s.flows.lookup key = some flow) (reason : DropReason) :
    (refuse s key flow now_ms reason).1.held_under key id = s.held_under key id := by
  rw [held_under_of_lookup hl]
  unfold refuse
  by_cases hclass : reason = .ClassMismatch
  · simp only [if_pos hclass]
    exact held_under_of_lookup hl
  · simp only [if_neg hclass]
    rw [held_under_of_lookup (AList.lookup_insert _)]

/-- An arrival at the head is delivered. -/
theorem receive_head_tells (hw : flow.Windowed gap) (hid : packet_id.get = flow.next_expected) :
    Tells s (receive_head s key flow packet_id payload now_ms) key packet_id payload := by
  have hfresh : packet_id.get ∉ flow.buffer := by
    intro hmem
    exact absurd hid (hw.window _ hmem).1.ne'
  unfold receive_head
  dsimp only
  split
  · refine tells_delivered (List.mem_singleton.mpr rfl) ?_
    rw [held_under_of_lookup (AList.lookup_insert _)]
    exact AList.lookup_eq_none.mpr hfresh
  · refine tells_delivered List.mem_cons_self ?_
    rw [held_under_of_lookup (AList.lookup_insert _), AList.lookup_eq_none]
    intro hmem
    obtain ⟨x, hx⟩ := AList.mem_iff_lookup.mp hmem
    have hhanded := drain_handed flow.buffer.len
      { flow with next_expected := flow.next_expected.succSat } s.buffered_bytes_session
    exact hfresh (AList.mem_of_lookup (hhanded.kept hx))

/-- **One arrival** is told about unless it is stranded. -/
theorem receive_tells_iff (hlimits : s.limits.validate = .ok ()) (hw : s.Windowed) :
    Tells s (s.receive order key traffic_class packet_id payload now_ms) key packet_id payload ↔
      ¬ s.strands key traffic_class packet_id.get payload now_ms := by
  unfold SessionReorder.receive
  by_cases hcontrol : traffic_class = .Control
  · rw [if_pos hcontrol]
    refine iff_of_true (tells_dropped rfl) ?_
    rintro ⟨_, _, _, hstranded⟩
    exact hstranded.data hcontrol
  rw [if_neg hcontrol]
  cases hl : s.flows.lookup key with
  | none =>
    have hnot : ¬ s.strands key traffic_class packet_id.get payload now_ms := by
      rintro ⟨_, _, _, hstranded⟩
      have hfound := hstranded.due.found
      rw [hl] at hfound
      contradiction
    dsimp only
    rw [receive_unknown_eq]
    refine iff_of_true ?_ hnot
    by_cases hreplayed : s.replayed key packet_id.get now_ms
    · rw [if_pos hreplayed]
      exact tells_dropped rfl
    · rw [if_neg hreplayed]
      refine tells_delivered (List.mem_singleton.mpr rfl) ?_
      rw [held_under_of_lookup (AList.lookup_insert _)]
      rfl
  | some flow =>
    dsimp only
    rw [receive_known_eq]
    have hadmissible : s.strands key traffic_class packet_id.get payload now_ms →
        s.Admissible flow traffic_class packet_id.get payload := by
      rintro ⟨f, _, _, hstranded⟩
      have hfound := hstranded.due.found
      rw [hl] at hfound
      obtain rfl := Option.some.inj hfound
      exact hstranded.admissible
    cases hr : refusal s flow traffic_class packet_id.get payload with
    | some reason =>
      dsimp only
      refine iff_of_true (tells_dropped (refuse_held_under hl reason)) ?_
      · intro hstrands
        rw [refusal_of_admissible (hadmissible hstrands)] at hr
        contradiction
    | none =>
      dsimp only
      by_cases hid : packet_id.get = flow.next_expected
      · rw [if_pos hid]
        refine iff_of_true (receive_head_tells (hw key flow hl) hid) ?_
        intro hstrands
        exact absurd hid (hadmissible hstrands).ahead.ne'
      · rw [if_neg hid]
        exact hold_tells_iff (hw key flow hl) hl hcontrol (deadline_pos hlimits _)
          (admissible_of_refusal hr hid)

end Receive

end SessionReorder

/-! ## Runs -/

/-- The limits of a run are those it was made with, and they were accepted. -/
theorem exec_limits_accepted {limits : ReorderLimits} {s t : SessionReorder}
    {calls : List ReorderCall} {out : List (ReceiveKey × PacketId × Bytes)}
    (hnew : SessionReorder.new limits = .ok s)
    (hrun : exec ReorderCall.run s calls = some (t, out)) : t.limits.validate = .ok () := by
  rw [exec_limits hrun]
  unfold SessionReorder.new at hnew
  split at hnew
  · contradiction
  next hvalid =>
    rw [← Except.ok.inj hnew]
    exact hvalid

/-- **The outcome of `receive`.** In every state of every run the outcome tells where the
arrival is, exactly unless the arrival is held behind an overdue head with a packet missing in
between. -/
theorem outcome_tells_iff {limits : ReorderLimits} {s t : SessionReorder}
    {calls : List ReorderCall} {out : List (ReceiveKey × PacketId × Bytes)}
    (hnew : SessionReorder.new limits = .ok s)
    (hrun : exec ReorderCall.run s calls = some (t, out)) (order : SessionReorder.Orders)
    (key : ReceiveKey) (traffic_class : TrafficClass) (packet_id : PacketId) (payload : Bytes)
    (now_ms : ℕ) :
    t.Tells (t.receive order key traffic_class packet_id payload now_ms) key packet_id payload ↔
      ¬ t.strands key traffic_class packet_id.get payload now_ms :=
  SessionReorder.receive_tells_iff (exec_limits_accepted hnew hrun) (exec_windowed hnew hrun)

namespace Sample

/-- `5` opens the flow and `8` is held from time 0. -/
def waiting : List ReorderCall :=
  [.receive (key 1) .Bulk ⟨5⟩ [] 0 default, .receive (key 1) .Bulk ⟨8⟩ [] 0 default]

end Sample

open Sample in
/-- The deadline is 30. At time 31 the arrival `9` pushes `8` out and follows it. -/
theorem outcome_tells_waiting :
    ∃ t out, exec ReorderCall.run start waiting = some (t, out) ∧
      (t.Tells (t.receive default (key 1) .Bulk ⟨9⟩ [1] 31) (key 1) ⟨9⟩ [1] ↔
        ¬ t.strands (key 1) .Bulk 9 [1] 31) := by
  have hnew : SessionReorder.new limits = .ok start := rfl
  cases hrun : exec ReorderCall.run start waiting with
  | none => contradiction
  | some r =>
    exact ⟨r.1, r.2, rfl, outcome_tells_iff hnew hrun default (key 1) .Bulk ⟨9⟩ [1] 31⟩

open Sample in
/-- The arrival `10` pushes `8` out as well, and stays held behind the missing `9`: it is not
delivered, and `buffered` is false. -/
theorem outcome_forgets_arrival :
    SessionReorder.new limits = .ok start ∧
    ∃ t out, exec ReorderCall.run start waiting = some (t, out) ∧
      (t.receive default (key 1) .Bulk ⟨10⟩ [1] 31).2 = .ofDelivered [(⟨8⟩, [])] ∧
      t.newly_held (t.receive default (key 1) .Bulk ⟨10⟩ [1] 31).1 (key 1) 10 ∧
      ¬ t.Tells (t.receive default (key 1) .Bulk ⟨10⟩ [1] 31) (key 1) ⟨10⟩ [1] := by
  have hends : (exec ReorderCall.run start waiting).map (fun r =>
      ((r.1.receive default (key 1) .Bulk ⟨10⟩ [1] 31).2, r.1.held_under (key 1) 10,
        (r.1.receive default (key 1) .Bulk ⟨10⟩ [1] 31).1.held_under (key 1) 10)) =
      some (.ofDelivered [(⟨8⟩, [])], none, some ⟨[1], 31⟩) := by
    decide
  obtain ⟨r, hrun, hr⟩ := Option.map_eq_some_iff.mp hends
  simp only [Prod.mk.injEq] at hr
  obtain ⟨houtcome, hbefore, hafter⟩ := hr
  have hheld : r.1.newly_held (r.1.receive default (key 1) .Bulk ⟨10⟩ [1] 31).1 (key 1) 10 := by
    refine ⟨hbefore, ?_⟩
    rw [hafter]
    simp
  refine ⟨rfl, r.1, r.2, hrun, houtcome, hheld, ?_⟩
  intro htells
  have hbuffered := htells.held hheld
  rw [houtcome] at hbuffered
  contradiction

end StreamGuard.Multipath
