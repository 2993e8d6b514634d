/-
What `expire` leaves behind its deadlines.

The deadline pass looks at the held packet with the smallest ID and stops when that
packet is young. It therefore walks over the stretches of consecutive held packets
one after the other and releases a stretch when its first packet is overdue. `Skipped`
is what any number of such steps makes of a flow. A packet is still held past its
deadline exactly when a younger packet begins its stretch or an earlier one.
-/
import StreamGuard.Multipath.ReorderWindow

set_option autoImplicit false

namespace StreamGuard.Multipath

open StreamGuard StreamGuard.Lib

/-! ## One flow -/

namespace FlowState

variable {limits : ReorderLimits} {flow flow₁ flow' : FlowState} {now_ms gap : ℕ}

/-- A held packet has outlived the deadline of the flow's class. -/
def overdue (limits : ReorderLimits) (flow : FlowState) (now_ms : ℕ) (held : BufferedPacket) :
    Prop :=
  limits.deadline_for flow.traffic_class ≤ now_ms - held.arrived_at_ms

/-- `id` begins a stretch of consecutive held packets. -/
structure Begins (flow : FlowState) (id : U64) : Prop where
  held : id ∈ flow.buffer
  first : ∀ j ∈ flow.buffer, j.val + 1 ≠ id.val

/-- Every stretch that begins at or before `id` begins with an overdue packet. -/
def ReleasedUpTo (limits : ReorderLimits) (flow : FlowState) (now_ms : ℕ) (id : U64) : Prop :=
  ∀ p held, flow.Begins p → flow.buffer.lookup p = some held → p ≤ id →
    flow.overdue limits now_ms held

/-- Deadline skips at `now_ms` have made `flow'` of `flow`. -/
structure Skipped (limits : ReorderLimits) (now_ms : ℕ) (flow flow' : FlowState) : Prop where
  same_class : flow'.traffic_class = flow.traffic_class
  held : ∀ {id x}, flow'.buffer.lookup id = some x → flow.buffer.lookup id = some x
  released : ∀ id ∈ flow.buffer, id ∉ flow'.buffer → flow.ReleasedUpTo limits now_ms id
  begins : ∀ id, flow'.Begins id → flow.Begins id

theorem Skipped.refl (limits : ReorderLimits) (now_ms : ℕ) (flow : FlowState) :
    flow.Skipped limits now_ms flow :=
  ⟨rfl, fun hl => hl, fun _ hid hnot => absurd hid hnot, fun _ h => h⟩

theorem Skipped.trans (h : flow.Skipped limits now_ms flow₁)
    (h' : flow₁.Skipped limits now_ms flow') : flow.Skipped limits now_ms flow' := by
  refine ⟨h'.same_class.trans h.same_class, fun hl => h.held (h'.held hl), ?_,
    fun id hid => h.begins id (h'.begins id hid)⟩
  intro id hid hnot p held hp hl hle
  by_cases hp₁ : p ∈ flow₁.buffer
  · -- `p` still begins a stretch after the first skips
    have hbegins : flow₁.Begins p := by
      refine ⟨hp₁, ?_⟩
      intro j hj
      obtain ⟨x, hx⟩ := AList.mem_iff_lookup.mp hj
      exact hp.first j (AList.mem_of_lookup (h.held hx))
    obtain ⟨held₁, hl₁⟩ := AList.mem_iff_lookup.mp hp₁
    have hsame := h.held hl₁
    rw [hl] at hsame
    obtain rfl := Option.some.inj hsame
    by_cases hid₁ : id ∈ flow₁.buffer
    · have hoverdue := h'.released id hid₁ hnot p held hbegins hl₁ hle
      unfold overdue at hoverdue ⊢
      rwa [h.same_class] at hoverdue
    · exact h.released id hid hid₁ p held hp hl hle
  · exact h.released p hp.held hp₁ p held hp hl le_rfl

/-- The clock of the flow is not looked at. -/
theorem Skipped.touch (h : flow.Skipped limits now_ms flow') (now : ℕ) :
    flow.Skipped limits now_ms { flow' with last_activity_ms := now } :=
  ⟨h.same_class, h.held, h.released, fun id hid => h.begins id ⟨hid.held, hid.first⟩⟩

end FlowState

namespace SessionReorder

/-! ## One drain -/

section Drain

variable {flow flow' f : FlowState} {gap fuel bytes : ℕ}

/-- A drain from `flow` has come to `flow'`: what it took out is consecutive. -/
structure Consecutive (flow flow' : FlowState) : Prop where
  same_class : flow'.traffic_class = flow.traffic_class
  held : ∀ {id x}, flow'.buffer.lookup id = some x → flow.buffer.lookup id = some x
  forward : flow.next_expected ≤ flow'.next_expected
  behind : ∀ j, flow.next_expected ≤ j → j < flow'.next_expected → j ∈ flow.buffer
  taken : ∀ id ∈ flow.buffer, id ∉ flow'.buffer →
    id < flow'.next_expected ∨ flow'.exhausted = true ∧ id = flow'.next_expected

theorem Consecutive.take {held : BufferedPacket} (h : Consecutive flow flow')
    (hex : flow'.exhausted = false) (hl : flow'.buffer.lookup flow'.next_expected = some held)
    (hclass : f.traffic_class = flow'.traffic_class)
    (hbuffer : f.buffer = flow'.buffer.erase flow'.next_expected)
    (hnext : f.next_expected.val = flow'.next_expected.val + 1 ∨
      f.exhausted = true ∧ f.next_expected = flow'.next_expected) : Consecutive flow f := by
  have hcurrent : flow'.next_expected ∈ flow.buffer := AList.mem_of_lookup (h.held hl)
  have hforward := h.forward
  have hle : flow'.next_expected ≤ f.next_expected := by
    rcases hnext with hnext | ⟨_, hnext⟩
    · rw [Fin.le_def]
      omega
    · exact hnext.ge
  refine ⟨hclass.trans h.same_class, ?_, hforward.trans hle, ?_, ?_⟩
  · intro id x hx
    rw [hbuffer] at hx
    exact h.held (AList.lookup_of_erase hx)
  · intro j hge hlt
    by_cases hj : j < flow'.next_expected
    · exact h.behind j hge hj
    · rcases hnext with hnext | ⟨_, hnext⟩
      · have heq : j = flow'.next_expected := by
          rw [Fin.lt_def] at hj hlt
          exact Fin.ext (by omega)
        rwa [heq]
      · rw [hnext] at hlt
        exact absurd hlt hj
  · intro id hid hnot
    rw [hbuffer, AList.mem_erase, not_and_or, not_not] at hnot
    have hat : id ≤ flow'.next_expected := by
      rcases hnot with rfl | hnot
      · exact le_rfl
      · rcases h.taken id hid hnot with hlt | ⟨hex', _⟩
        · exact hlt.le
        · rw [hex] at hex'
          contradiction
    rcases hnext with hnext | ⟨hex', hnext⟩
    · refine .inl ?_
      rw [Fin.le_def] at hat
      rw [Fin.lt_def]
      omega
    · rw [hnext]
      rcases lt_or_eq_of_le hat with hlt | heq
      · exact .inl hlt
      · exact .inr ⟨hex', heq⟩

/-- **A drain takes out consecutive packets**, round by round. -/
theorem drain_consecutive (fuel : ℕ) (flow : FlowState) (bytes : ℕ) :
    Consecutive flow (drain fuel flow bytes).flow := by
  have hstart : Consecutive flow flow := by
    refine ⟨rfl, fun hl => hl, le_rfl, ?_, fun _ hid hnot => absurd hid hnot⟩
    intro j hge hlt
    exact absurd hlt (not_lt.mpr hge)
  refine drain_induct (P := fun flow' _ _ => Consecutive flow flow') ?_ ?_ fuel [] hstart
  · intro flow' bytes' past held h hex hl hmax
    exact h.take hex hl rfl rfl (.inl (U64.val_succSat hmax))
  · intro flow' bytes' past held h hex hl _
    exact h.take hex hl rfl rfl (.inr ⟨rfl, rfl⟩)

end Drain

/-! ## One skip -/

section Skip

variable {s : SessionReorder} {key : ReceiveKey} {flow : FlowState} {now_ms gap : ℕ}
  {smallest : U64} {head : BufferedPacket}

/-- **One deadline skip** releases the first stretch, whose first packet is overdue. -/
theorem HeadOverdue.skipped (h : s.HeadOverdue key now_ms flow smallest head)
    (hw : flow.Windowed gap) :
    flow.Skipped s.limits now_ms (skip_drain s flow smallest).flow := by
  have hsmallest := (firstKey_le h.first).2
  have hloose := hw.advance h.gap.le hsmallest
  have hend := drain_windowed hloose s.buffered_bytes_session
  have hdrain := drain_consecutive flow.buffer.len { flow with next_expected := smallest }
    s.buffered_bytes_session
  rw [← show skip_drain s flow smallest = drain flow.buffer.len
    { flow with next_expected := smallest } s.buffered_bytes_session from rfl] at hdrain
  have hend : (skip_drain s flow smallest).flow.Windowed gap := hend
  refine ⟨hdrain.same_class, hdrain.held, ?_, ?_⟩
  · intro id hid hnot p held hp hl hle
    -- from the smallest held ID up to `id` everything is held
    have hstretch : ∀ j, smallest ≤ j → j ≤ id → j ∈ flow.buffer := by
      intro j hge hj
      rcases hdrain.taken id hid hnot with hlt | ⟨_, heq⟩
      · exact hdrain.behind j hge (lt_of_le_of_lt hj hlt)
      · rcases lt_or_eq_of_le hj with hj | rfl
        · exact hdrain.behind j hge (heq ▸ hj)
        · exact hid
    have hpge := hsmallest p hp.held
    rcases lt_or_eq_of_le hpge with hlt | heq
    · -- the packet before `p` is held as well
      rw [Fin.lt_def] at hlt
      rw [Fin.le_def] at hle
      have hpred : (p.predSat).val + 1 = p.val := by
        show p.val - 1 + 1 = p.val
        omega
      refine absurd hpred (hp.first _ (hstretch _ ?_ ?_))
      · rw [Fin.le_def]
        omega
      · rw [Fin.le_def]
        omega
    · subst heq
      have hsame := h.held
      rw [hl] at hsame
      obtain rfl := Option.some.inj hsame
      exact h.overdue
  · intro id hid
    obtain ⟨x, hx⟩ := AList.mem_iff_lookup.mp hid.held
    refine ⟨AList.mem_of_lookup (hdrain.held hx), ?_⟩
    intro j hj hsucc
    by_cases hkept : j ∈ (skip_drain s flow smallest).flow.buffer
    · exact hid.first j hkept hsucc
    · -- the packet after a packet that was taken out is taken out or expected
      have hahead := (hend.window id hid.held).1
      rw [Fin.lt_def] at hahead
      rcases hdrain.taken j hj hkept with hlt | ⟨hex, _⟩
      · rw [Fin.lt_def] at hlt
        omega
      · exact hend.exhausted hex id hid.held

/-- When a skip does nothing, no head is overdue. -/
theorem not_headOverdue_of_skip (h : (skip_head_gap_if_expired s key now_ms).2 = none) :
    ∀ flow smallest head, ¬ s.HeadOverdue key now_ms flow smallest head := by
  rcases skip_head_gap_cases s key now_ms with ⟨hnone, _⟩ | ⟨_, _, _, _, he⟩
  · exact hnone
  · rw [he] at h
    contradiction

/-- Deadline skips keep the stretches that are left. -/
theorem skip_head_gap_skipped {s' : SessionReorder} {flow' : FlowState}
    (hlimits : s'.limits = s.limits) (hl : s'.flows.lookup key = some flow')
    (hw : flow'.Windowed gap) (h : flow.Skipped s.limits now_ms flow') :
    ∃ flow₁, (skip_head_gap_if_expired s' key now_ms).1.flows.lookup key = some flow₁ ∧
      flow₁.Windowed gap ∧ flow.Skipped s.limits now_ms flow₁ := by
  rcases skip_head_gap_cases s' key now_ms with ⟨_, he⟩ | ⟨f, smallest, head, hdue, he⟩
  · rw [he]
    exact ⟨flow', hl, hw, h⟩
  · rw [he]
    have hf := hdue.found
    rw [hl] at hf
    obtain rfl := Option.some.inj hf
    have hone := hdue.skipped hw
    rw [hlimits] at hone
    have hloose := hw.advance hdue.gap.le (firstKey_le hdue.first).2
    have hwindowed := drain_windowed hloose s'.buffered_bytes_session
    exact ⟨_, AList.lookup_insert _, hwindowed.touch now_ms, h.trans (hone.touch now_ms)⟩

/-- **The skip loop of a key** ends with a head that is not overdue. -/
theorem skip_expired_gaps_skipped (hw : flow.Windowed gap) (hl : s.flows.lookup key = some flow) :
    ∃ flow', (skip_expired_gaps (s.held key + 1) s key now_ms).1.flows.lookup key = some flow' ∧
      flow'.Windowed gap ∧ flow.Skipped s.limits now_ms flow' ∧
      ∀ smallest head, ¬ (skip_expired_gaps (s.held key + 1) s key now_ms).1.HeadOverdue key now_ms
        flow' smallest head := by
  have hloop : (skip_expired_gaps (s.held key + 1) s key now_ms).1.limits = s.limits ∧
      ∃ flow', (skip_expired_gaps (s.held key + 1) s key now_ms).1.flows.lookup key =
        some flow' ∧ flow'.Windowed gap ∧ flow.Skipped s.limits now_ms flow' := by
    refine skip_expired_gaps_induct (P := fun s' => s'.limits = s.limits ∧
      ∃ flow', s'.flows.lookup key = some flow' ∧ flow'.Windowed gap ∧
        flow.Skipped s.limits now_ms flow') ?_ _
      ⟨rfl, flow, hl, hw, .refl s.limits now_ms flow⟩
    rintro s' ⟨hlimits, flow', hl', hw', hskipped⟩
    exact ⟨(skip_head_gap_limits s' key now_ms).trans hlimits,
      skip_head_gap_skipped hlimits hl' hw' hskipped⟩
  obtain ⟨_, flow', hl', hw', hskipped⟩ := hloop
  refine ⟨flow', hl', hw', hskipped, ?_⟩
  rcases skip_expired_gaps_done (s.held key + 1) s key now_ms (Nat.lt_succ_self _) with
    hnone | ⟨s₁, hs₁⟩
  · exact not_headOverdue_of_skip hnone flow'
  · -- the last skip did nothing, so it looked at the state the loop ended in
    have hsame : s₁ = (skip_expired_gaps (s.held key + 1) s key now_ms).1 := by
      rcases skip_head_gap_cases s₁ key now_ms with ⟨_, he⟩ | ⟨_, _, _, _, he⟩
      · rw [hs₁] at he
        exact (congrArg Prod.fst he).symm
      · rw [hs₁] at he
        have hsnd := congrArg Prod.snd he
        contradiction
    rw [← hsame]
    exact not_headOverdue_of_skip (by rw [hs₁]) flow'

end Skip

/-! ## `expire` -/

/-- No flow holds a packet past its deadline. -/
def NoneOverdue (s : SessionReorder) (now_ms : ℕ) : Prop :=
  ∀ key flow id held, s.flows.lookup key = some flow → flow.buffer.lookup id = some held →
    ¬ flow.overdue s.limits now_ms held

/-- In every flow that is not idle, all stretches up to an overdue packet begin with
an overdue packet. -/
def StretchesOverdue (s : SessionReorder) (now_ms : ℕ) : Prop :=
  ∀ key flow, s.flows.lookup key = some flow →
    now_ms - flow.last_activity_ms < s.limits.flow_idle_ttl_ms →
    ∀ id held, flow.buffer.lookup id = some held → flow.overdue s.limits now_ms held →
      flow.ReleasedUpTo s.limits now_ms id

section Expire

variable {s : SessionReorder} {key : ReceiveKey} {flow flow' : FlowState} {now_ms : ℕ}
  {order : Orders}

/-- A flow that survives the idle pass comes out of `expire` with its stretches skipped. -/
theorem expire_skipped (hw : s.Windowed) (hl : s.flows.lookup key = some flow)
    (hactive : now_ms - flow.last_activity_ms < s.limits.flow_idle_ttl_ms) :
    ∃ flow', (s.expire order now_ms).1.flows.lookup key = some flow' ∧
      flow'.Windowed s.limits.max_future_gap ∧ flow.Skipped s.limits now_ms flow' ∧
      ∀ smallest head, ¬ (s.expire order now_ms).1.HeadOverdue key now_ms flow' smallest head := by
  have hkept : (s.after_idle order now_ms).flows.lookup key = some flow :=
    after_idle_eq_some.mpr ⟨hl, hactive⟩
  obtain ⟨s₁, hlimits, hl₁, hlookup, _⟩ := expire_of_present hkept
  obtain ⟨flow', hl', hw', hskipped, hdone⟩ :=
    @skip_expired_gaps_skipped s₁ key flow now_ms _ (hw key flow hl) hl₁
  rw [hlimits] at hskipped
  refine ⟨flow', hlookup.trans hl', hw', hskipped, ?_⟩
  intro smallest head h
  refine hdone smallest head (h.congr hlookup.symm ?_)
  rw [skip_expired_gaps_limits, hlimits, expire_limits]

/-- A flow whose head is not overdue begins its first stretch with a packet that is
not overdue. -/
theorem begins_of_not_headOverdue {id : U64} {held : BufferedPacket} {gap : ℕ}
    (hl : s.flows.lookup key = some flow) (hw : flow.Windowed gap)
    (hheld : flow.buffer.lookup id = some held)
    (hdone : ∀ smallest head, ¬ s.HeadOverdue key now_ms flow smallest head) :
    ∃ p head, flow.Begins p ∧ flow.buffer.lookup p = some head ∧ p ≤ id ∧
      ¬ flow.overdue s.limits now_ms head := by
  have hid : id ∈ flow.buffer := AList.mem_of_lookup hheld
  cases hfirst : flow.buffer.firstKey with
  | none =>
    have hnil : flow.buffer.keys = [] := List.min?_eq_none_iff.mp hfirst
    have hkeys : id ∈ flow.buffer.keys := hid
    rw [hnil] at hkeys
    contradiction
  | some p =>
    obtain ⟨hp, hmin⟩ := firstKey_le hfirst
    obtain ⟨head, hhead⟩ := AList.mem_iff_lookup.mp hp
    refine ⟨p, head, ⟨hp, ?_⟩, hhead, hmin id hid, ?_⟩
    · intro j hj hsucc
      have hle := hmin j hj
      rw [Fin.le_def] at hle
      omega
    · intro hoverdue
      have hex : flow.exhausted = false := by
        by_contra hex
        exact hw.exhausted (by simpa using hex) p hp
      exact hdone p head ⟨hl, hex, hfirst, hhead, (hw.window p hp).1, hoverdue⟩

/-- **When `expire` leaves no overdue packet.** -/
theorem none_overdue_iff (hw : s.Windowed) :
    (s.expire order now_ms).1.NoneOverdue now_ms ↔ s.StretchesOverdue now_ms := by
  constructor
  · intro hnone key flow hl hactive id held hheld hoverdue
    obtain ⟨flow', hl', _, hskipped, _⟩ := @expire_skipped s key flow now_ms order hw hl hactive
    refine hskipped.released id (AList.mem_of_lookup hheld) ?_
    intro hmem
    obtain ⟨held', hheld'⟩ := AList.mem_iff_lookup.mp hmem
    have hsame := hskipped.held hheld'
    rw [hheld] at hsame
    obtain rfl := Option.some.inj hsame
    refine hnone key flow' id held hl' hheld' ?_
    rw [expire_limits]
    unfold FlowState.overdue
    rwa [hskipped.same_class]
  · intro hstretches key flow' id held hl' hheld hoverdue
    obtain ⟨flow, hl, hactive⟩ := of_expire_lookup hl'
    obtain ⟨f, hf, hw', hskipped, hdone⟩ := @expire_skipped s key flow now_ms order hw hl hactive
    rw [hl'] at hf
    obtain rfl := Option.some.inj hf
    obtain ⟨p, head, hbegins, hhead, hle, hyoung⟩ :=
      begins_of_not_headOverdue hl' hw' hheld hdone
    rw [expire_limits] at hoverdue hyoung
    -- the overdue packet and the young head were held before, too
    have hbefore : flow.overdue s.limits now_ms held := by
      unfold FlowState.overdue at hoverdue ⊢
      rwa [← hskipped.same_class]
    have hreleased := hstretches key flow hl hactive id held (hskipped.held hheld) hbefore p head
      (hskipped.begins p hbegins) (hskipped.held hhead) hle
    refine hyoung ?_
    unfold FlowState.overdue at hreleased ⊢
    rwa [hskipped.same_class]

end Expire

end SessionReorder

/-! ## Runs -/

/-- **The deadlines.** In every state of every run `expire` leaves no overdue packet
exactly if, in every flow that is not idle, the stretches of consecutive packets up to
an overdue packet all begin with an overdue packet. -/
theorem overdue_released_iff {limits : ReorderLimits} {s t : SessionReorder}
    {calls : List ReorderCall} {out : List (ReceiveKey × PacketId × Bytes)}
    (hnew : SessionReorder.new limits = .ok s)
    (hrun : exec ReorderCall.run s calls = some (t, out)) (order : SessionReorder.Orders)
    (now_ms : ℕ) :
    (t.expire order now_ms).1.NoneOverdue now_ms ↔ t.StretchesOverdue now_ms :=
  SessionReorder.none_overdue_iff (exec_windowed hnew hrun)

namespace Sample

/-- `5` opens the flow; `10` is held from time 0 and `8`, before it, from time 15. -/
def crossed : List ReorderCall :=
  [.receive (key 1) .Bulk ⟨5⟩ [] 0 default, .receive (key 1) .Bulk ⟨10⟩ [] 0 default,
    .receive (key 1) .Bulk ⟨8⟩ [] 15 default]

end Sample

open Sample in
/-- The run of `Sample.crossed`. -/
theorem overdue_released_iff_crossed :
    ∃ t out, exec ReorderCall.run start crossed = some (t, out) ∧
      ((t.expire default 31).1.NoneOverdue 31 ↔ t.StretchesOverdue 31) := by
  have hnew : SessionReorder.new limits = .ok start := rfl
  cases hrun : exec ReorderCall.run start crossed with
  | none => contradiction
  | some r => exact ⟨r.1, r.2, rfl, overdue_released_iff hnew hrun default 31⟩

open Sample in
/-- The deadline is 30. At time 31 packet `10` has been held for 31 and stays held: the
pass stops at `8`, which has been held for 16. -/
theorem overdue_packet_stays :
    SessionReorder.new limits = .ok start ∧
    ∃ t out, exec ReorderCall.run start crossed = some (t, out) ∧
      ¬ (t.expire default 31).1.NoneOverdue 31 := by
  have hends : (exec ReorderCall.run start crossed).map (fun r =>
      ((r.1.expire default 31).1.limits, ((r.1.expire default 31).1.flows.lookup (key 1)).bind
        (fun flow => flow.buffer.lookup 10))) = some (limits, some ⟨[], 0⟩) := by
    decide
  cases hrun : exec ReorderCall.run start crossed with
  | none => contradiction
  | some r =>
    rw [hrun] at hends
    obtain ⟨hlimits, hheld⟩ := step_inj hends
    obtain ⟨flow, hl, hheld⟩ := Option.bind_eq_some_iff.mp hheld
    refine ⟨rfl, r.1, r.2, rfl, ?_⟩
    intro hnone
    refine hnone (key 1) flow 10 ⟨[], 0⟩ hl hheld ?_
    rw [hlimits]
    unfold FlowState.overdue
    cases flow.traffic_class <;> decide

end StreamGuard.Multipath
