/-
Where the held packets of a flow lie.

Every held packet lies ahead of the packet its flow expects, inside the window of
`max_future_gap`, and an exhausted flow holds nothing. `Windowed` says so; it holds
in every state of every run, because a drain stops only at a packet that is not
held. A drain starts from a flow whose expected packet may be held, which is `Loose`.
-/
import StreamGuard.Multipath.ReorderCalls

set_option autoImplicit false

namespace StreamGuard.Multipath

open StreamGuard StreamGuard.Lib

/-! ## One flow -/

namespace FlowState

variable {gap : ℕ} {flow flow' : FlowState}

/-- A flow whose expected packet may be held. -/
structure Loose (gap : ℕ) (flow : FlowState) : Prop where
  window : ∀ id ∈ flow.buffer, flow.next_expected ≤ id ∧
    id.val - flow.next_expected.val ≤ gap
  exhausted : flow.exhausted = true → ∀ id, id ∉ flow.buffer

/-- **The held packets are ahead and in the window.** -/
structure Windowed (gap : ℕ) (flow : FlowState) : Prop where
  window : ∀ id ∈ flow.buffer, flow.next_expected < id ∧
    id.val - flow.next_expected.val ≤ gap
  exhausted : flow.exhausted = true → ∀ id, id ∉ flow.buffer

/-- A loose flow is windowed once its expected packet is not held. -/
theorem Loose.windowed (h : flow.Loose gap) (hnext : flow.next_expected ∉ flow.buffer) :
    flow.Windowed gap := by
  refine ⟨?_, h.exhausted⟩
  intro id hid
  refine ⟨lt_of_le_of_ne (h.window id hid).1 ?_, (h.window id hid).2⟩
  rintro rfl
  exact hnext hid

/-- The clock of a flow is no part of the invariant. -/
theorem Windowed.touch (h : flow.Windowed gap) (now_ms : ℕ) :
    Windowed gap { flow with last_activity_ms := now_ms } :=
  ⟨h.window, h.exhausted⟩

/-- Moving `next_expected` up to a packet below everything held. -/
theorem Windowed.advance (h : flow.Windowed gap) {next : U64} (hge : flow.next_expected ≤ next)
    (hle : ∀ id ∈ flow.buffer, next ≤ id) : Loose gap { flow with next_expected := next } := by
  refine ⟨?_, h.exhausted⟩
  intro id hid
  have hwindow := (h.window id hid).2
  rw [Fin.le_def] at hge
  refine ⟨hle id hid, ?_⟩
  dsimp only
  omega

/-- A step past the expected packet. -/
theorem Windowed.succ (h : flow.Windowed gap) (hmax : flow.next_expected ≠ U64.max) :
    Loose gap { flow with next_expected := flow.next_expected.succSat } := by
  have hsucc := U64.val_succSat hmax
  refine h.advance ?_ ?_
  · rw [Fin.le_def]
    omega
  · intro id hid
    have hlt := (h.window id hid).1
    rw [Fin.lt_def] at hlt
    rw [Fin.le_def]
    omega

/-- A flow that has come to `u64::MAX` holds nothing. -/
theorem Windowed.empty_of_max (h : flow.Windowed gap) (hmax : flow.next_expected = U64.max) :
    ∀ id, id ∉ flow.buffer := by
  intro id hid
  have hlt := (h.window id hid).1
  rw [hmax] at hlt
  exact absurd hlt (not_lt.mpr (U64.le_max id))

end FlowState

namespace SessionReorder

/-! ## Draining -/

section Drain

variable {gap fuel bytes : ℕ} {flow : FlowState}

theorem drain_loose (fuel bytes : ℕ) (h : flow.Loose gap) :
    (drain fuel flow bytes).flow.Loose gap := by
  refine drain_induct (P := fun flow _ _ => flow.Loose gap) ?_ ?_ fuel [] h
  · intro flow' bytes' past held hP hex hl hmax
    refine ⟨?_, ?_⟩
    · intro id hid
      have hid : id ≠ flow'.next_expected ∧ id ∈ flow'.buffer := by simpa [taken] using hid
      obtain ⟨hge, hwindow⟩ := hP.window id hid.2
      have hlt : flow'.next_expected < id := lt_of_le_of_ne hge hid.1.symm
      have hsucc := U64.val_succSat hmax
      simp only [taken, Fin.le_def, Fin.lt_def] at *
      omega
    · intro hex'
      rw [show (taken flow' held).exhausted = flow'.exhausted from rfl, hex] at hex'
      contradiction
  · intro flow' bytes' past held hP hex hl hmax
    -- nothing lies above `u64::MAX`, so the buffer is empty now
    have hempty : ∀ id, id ∉ flow'.buffer.erase flow'.next_expected := by
      intro id hid
      obtain ⟨hne, hid⟩ := AList.mem_erase.mp hid
      refine hne (le_antisymm ?_ (hP.window id hid).1)
      rw [hmax]
      exact U64.le_max id
    exact ⟨fun id hid => absurd hid (hempty id), fun _ => hempty⟩

/-- With a round for every held packet a drain stops at a packet that is not held. -/
theorem drain_windowed (h : flow.Loose gap) (bytes : ℕ) :
    (drain flow.buffer.len flow bytes).flow.Windowed gap := by
  have hloose := drain_loose flow.buffer.len bytes h
  refine hloose.windowed ?_
  rcases drain_done flow.buffer.len flow bytes le_rfl with hex | hnone
  · exact hloose.exhausted hex _
  · exact AList.lookup_eq_none.mp hnone

end Drain

/-! ## The limits are fixed -/

section Limits

variable {s : SessionReorder} {order : Orders} {now_ms : ℕ}

/-- What retiring a key leaves of the other fields. -/
theorem insert_tombstone_frame (order : Traversal ReceiveKey ReorderTombstone)
    (s : SessionReorder) (key : ReceiveKey) (watermark : U64) (now_ms : ℕ) :
    (insert_tombstone order s key watermark now_ms).limits = s.limits ∧
      (insert_tombstone order s key watermark now_ms).buffered_bytes_session =
        s.buffered_bytes_session := by
  unfold insert_tombstone evict_tombstone
  dsimp only
  split
  · split <;> exact ⟨rfl, rfl⟩
  · exact ⟨rfl, rfl⟩

theorem skip_head_gap_limits (s : SessionReorder) (key : ReceiveKey) (now_ms : ℕ) :
    (skip_head_gap_if_expired s key now_ms).1.limits = s.limits := by
  rcases skip_head_gap_cases s key now_ms with ⟨_, he⟩ | ⟨flow, smallest, head, _, he⟩
  · rw [he]
  · rw [he]
    rfl

theorem skip_expired_gaps_limits (fuel : ℕ) (s : SessionReorder) (key : ReceiveKey) :
    (skip_expired_gaps fuel s key now_ms).1.limits = s.limits := by
  refine skip_expired_gaps_induct (P := fun s' => s'.limits = s.limits) ?_ fuel rfl
  intro s' h
  exact (skip_head_gap_limits s' key now_ms).trans h

theorem skip_flows_limits (keys : List ReceiveKey) (s : SessionReorder) :
    (skip_flows s now_ms keys).1.limits = s.limits := by
  refine skip_flows_induct (P := fun s' => s'.limits = s.limits) ?_ keys rfl
  intro s' key h
  exact (skip_head_gap_limits s' key now_ms).trans h

theorem remove_flow_limits (s : SessionReorder) (key : ReceiveKey) :
    (s.remove_flow key).limits = s.limits := by
  unfold remove_flow
  split <;> rfl

theorem retire_limits (order : Orders) (s : SessionReorder) (key : ReceiveKey) (watermark : U64)
    (now_ms : ℕ) (m : ReorderMetrics) :
    (insert_tombstone order.tombstones { s.remove_flow key with metrics := m } key watermark
      now_ms).limits = s.limits := by
  rw [(insert_tombstone_frame _ _ _ _ _).1]
  exact remove_flow_limits s key

/-- Making room only takes flows out. -/
theorem make_room_lookup {k : ReceiveKey} {f : FlowState}
    (h : (make_room order s now_ms).flows.lookup k = some f) : s.flows.lookup k = some f := by
  unfold make_room at h
  split at h
  · rcases evict_oldest_flow_cases order s now_ms with he | ⟨key, flow, m, _, he⟩
    · rwa [he] at h
    · rw [he, insert_tombstone_flows] at h
      have h : (s.remove_flow key).flows.lookup k = some f := h
      rw [remove_flow_lookup] at h
      split at h
      · contradiction
      · exact h
  · exact h

theorem make_room_limits (order : Orders) (s : SessionReorder) (now_ms : ℕ) :
    (make_room order s now_ms).limits = s.limits := by
  unfold make_room
  split
  · rcases evict_oldest_flow_cases order s now_ms with he | ⟨key, flow, m, _, he⟩
    · rw [he]
    · rw [he]
      exact retire_limits order s key _ now_ms m
  · rfl

theorem receive_known_limits (s : SessionReorder) (key : ReceiveKey) (flow : FlowState)
    (traffic_class : TrafficClass) (packet_id : PacketId) (payload : Bytes) (now_ms : ℕ) :
    (receive_known s key flow traffic_class packet_id payload now_ms).1.limits = s.limits := by
  rw [receive_known_eq]
  split
  · rfl
  · split
    · unfold receive_head
      dsimp only
      split <;> rfl
    · unfold hold
      dsimp only
      -- what is held is skipped over at once or not
      split <;> next he =>
        rw [← congrArg (fun r => r.1.limits) he]
        exact skip_head_gap_limits _ key now_ms

theorem receive_limits (s : SessionReorder) (order : Orders) (key : ReceiveKey)
    (traffic_class : TrafficClass) (packet_id : PacketId) (payload : Bytes) (now_ms : ℕ) :
    (s.receive order key traffic_class packet_id payload now_ms).1.limits = s.limits := by
  unfold receive
  split
  · rfl
  cases s.flows.lookup key with
  | none =>
    dsimp only
    rw [receive_unknown_eq]
    split
    · rfl
    · exact make_room_limits order (s.forget_tombstone key now_ms) now_ms
  | some flow => exact receive_known_limits s key flow traffic_class packet_id payload now_ms

theorem expire_idle_limits (idle : List (ReceiveKey × U64)) (s : SessionReorder) :
    (expire_idle order s now_ms idle).limits = s.limits := by
  induction idle generalizing s with
  | nil => rfl
  | cons entry idle ih =>
    unfold expire_idle
    rw [ih]
    exact retire_limits order s entry.1 entry.2 now_ms (s.remove_flow entry.1).metrics

theorem expire_limits (s : SessionReorder) (order : Orders) (now_ms : ℕ) :
    (s.expire order now_ms).1.limits = s.limits := by
  unfold expire
  exact (skip_flows_limits _ _).trans (expire_idle_limits _ _)

end Limits

/-! ## One key through `expire` -/

section OneKey

variable {s : SessionReorder} {order : Orders} {key : ReceiveKey} {now_ms : ℕ}

theorem expire_idle_lookup (idle : List (ReceiveKey × U64)) (s : SessionReorder) :
    (expire_idle order s now_ms idle).flows.lookup key =
      if key ∈ idle.map (·.1) then none else s.flows.lookup key := by
  induction idle generalizing s with
  | nil => rfl
  | cons entry idle ih =>
    unfold expire_idle
    rw [ih, insert_tombstone_flows, remove_flow_lookup]
    by_cases hk : key = entry.1
    · simp [hk]
    · simp [hk]

theorem mem_idle_flows : key ∈ (idle_flows order s now_ms).map (·.1) ↔
    ∃ flow, s.flows.lookup key = some flow ∧
      s.limits.flow_idle_ttl_ms ≤ now_ms - flow.last_activity_ms := by
  unfold idle_flows
  simp only [List.mem_map, List.mem_filter, order.flows.mem_visit, decide_eq_true_eq]
  constructor
  · rintro ⟨_, ⟨⟨k, flow⟩, ⟨hmem, hidle⟩, rfl⟩, rfl⟩
    exact ⟨flow, AList.mem_entries_iff.mp hmem, hidle⟩
  · rintro ⟨flow, hl, hidle⟩
    exact ⟨_, ⟨⟨key, flow⟩, ⟨AList.mem_entries_iff.mpr hl, hidle⟩, rfl⟩, rfl⟩

/-- The flows that survive the idle pass. -/
theorem after_idle_lookup : (s.after_idle order now_ms).flows.lookup key =
    (s.flows.lookup key).filter
      (fun flow => now_ms - flow.last_activity_ms < s.limits.flow_idle_ttl_ms) := by
  unfold after_idle
  dsimp only
  rw [expire_idle_lookup]
  have hmem := @mem_idle_flows (s.purge_expired_tombstones now_ms) order key now_ms
  rw [show (s.purge_expired_tombstones now_ms).flows = s.flows from rfl,
    show (s.purge_expired_tombstones now_ms).limits = s.limits from rfl] at hmem
  rw [show (s.purge_expired_tombstones now_ms).flows = s.flows from rfl]
  cases hl : s.flows.lookup key with
  | none => simp
  | some flow =>
    rw [hl] at hmem
    by_cases hidle : s.limits.flow_idle_ttl_ms ≤ now_ms - flow.last_activity_ms
    · rw [if_pos (hmem.mpr ⟨flow, rfl, hidle⟩)]
      rw [Option.filter_some, if_neg]
      simpa using hidle
    · have hnot : key ∉ (idle_flows order (s.purge_expired_tombstones now_ms) now_ms).map (·.1) := by
        intro h
        obtain ⟨flow', heq, hidle'⟩ := hmem.mp h
        obtain rfl := Option.some.inj heq
        exact hidle hidle'
      rw [if_neg hnot]
      rw [Option.filter_some, if_pos]
      simpa using hidle

theorem after_idle_eq_some {flow : FlowState} :
    (s.after_idle order now_ms).flows.lookup key = some flow ↔ s.flows.lookup key = some flow ∧
      now_ms - flow.last_activity_ms < s.limits.flow_idle_ttl_ms := by
  rw [after_idle_lookup, Option.filter_eq_some_iff, decide_eq_true_eq]

theorem mem_expire_keys : key ∈ expire_keys order s ↔ key ∈ s.flows := by
  unfold expire_keys
  rw [List.mem_insertionSort, AList.mem_iff_lookup]
  simp only [List.mem_map, order.flows.mem_visit]
  constructor
  · rintro ⟨⟨k, flow⟩, hmem, rfl⟩
    exact ⟨flow, AList.mem_entries_iff.mp hmem⟩
  · rintro ⟨flow, hl⟩
    exact ⟨⟨key, flow⟩, AList.mem_entries_iff.mpr hl, rfl⟩

/-- Every surviving key is visited once. -/
theorem nodup_expire_keys (order : Orders) (s : SessionReorder) :
    (expire_keys order s).Nodup := by
  unfold expire_keys
  rw [(List.perm_insertionSort _ _).nodup_iff,
    ((order.flows.perm s.flows.entries).map (·.1)).nodup_iff]
  exact s.flows.keys_nodup

/-- The deliveries of a pass under one key. -/
def under (key : ReceiveKey) (out : List (ReceiveKey × PacketId × Bytes)) :
    List (ReceiveKey × PacketId × Bytes) :=
  out.filter (fun d => d.1 = key)

theorem under_tagged (key k : ReceiveKey) (ds : List (PacketId × Bytes)) :
    under key (ds.map (fun d => (k, d.1, d.2))) =
      if k = key then ds.map (fun d => (k, d.1, d.2)) else [] := by
  unfold under
  by_cases hk : k = key
  · rw [if_pos hk, List.filter_eq_self]
    intro d hd
    obtain ⟨_, _, rfl⟩ := List.mem_map.mp hd
    exact decide_eq_true hk
  · rw [if_neg hk, List.filter_eq_nil_iff]
    intro d hd
    obtain ⟨_, _, rfl⟩ := List.mem_map.mp hd
    exact fun h => hk (of_decide_eq_true h)

/-- A key that is not visited is left alone. -/
theorem skip_flows_of_notMem {keys : List ReceiveKey} (hk : key ∉ keys) (s : SessionReorder) :
    (skip_flows s now_ms keys).1.flows.lookup key = s.flows.lookup key ∧
      under key (skip_flows s now_ms keys).2 = [] := by
  induction keys generalizing s with
  | nil => exact ⟨rfl, rfl⟩
  | cons k keys ih =>
    obtain ⟨hne, hk⟩ := not_or.mp (fun h => hk (List.mem_cons.mpr h))
    obtain ⟨hlookup, hunder⟩ := ih hk (skip_expired_gaps (s.held k + 1) s k now_ms).1
    have hother := (skip_expired_gaps_updates (s.held k + 1) s k now_ms).others key hne
    unfold skip_flows
    dsimp only
    refine ⟨hlookup.trans hother, ?_⟩
    rw [under, List.filter_append, ← under, ← under, hunder, under_tagged, if_neg (Ne.symm hne)]
    rfl

/-- **A visited key is served by its own skip loop**: the others leave its flow alone. -/
theorem skip_flows_of_mem {keys : List ReceiveKey} (hnodup : keys.Nodup) (hk : key ∈ keys)
    (s : SessionReorder) :
    ∃ s₁ : SessionReorder, s₁.limits = s.limits ∧ s₁.flows.lookup key = s.flows.lookup key ∧
      (skip_flows s now_ms keys).1.flows.lookup key =
        (skip_expired_gaps (s₁.held key + 1) s₁ key now_ms).1.flows.lookup key ∧
      under key (skip_flows s now_ms keys).2 =
        (skip_expired_gaps (s₁.held key + 1) s₁ key now_ms).2.map (fun d => (key, d.1, d.2)) := by
  induction keys generalizing s with
  | nil => contradiction
  | cons k keys ih =>
    obtain ⟨hnot, hnodup⟩ := List.nodup_cons.mp hnodup
    unfold skip_flows
    dsimp only
    rw [under, List.filter_append, ← under, ← under]
    rcases List.mem_cons.mp hk with rfl | hk
    · obtain ⟨hlookup, hunder⟩ :=
        @skip_flows_of_notMem key now_ms keys hnot
          (skip_expired_gaps (s.held key + 1) s key now_ms).1
      refine ⟨s, rfl, rfl, hlookup, ?_⟩
      rw [hunder, under_tagged, if_pos rfl, List.append_nil]
    · have hne : key ≠ k := fun he => hnot (he ▸ hk)
      obtain ⟨s₁, hlimits, hsame, hlookup, hunder⟩ :=
        ih hnodup hk (skip_expired_gaps (s.held k + 1) s k now_ms).1
      refine ⟨s₁, ?_, ?_, hlookup, ?_⟩
      · exact hlimits.trans (skip_expired_gaps_limits _ s k)
      · exact hsame.trans ((skip_expired_gaps_updates _ s k now_ms).others key hne)
      · rw [hunder, under_tagged, if_neg hne.symm, List.nil_append]

/-- `expire` after the idle pass: the deadline pass over the surviving keys. -/
theorem expire_eq (s : SessionReorder) (order : Orders) (now_ms : ℕ) :
    ∃ (s₁ : SessionReorder) (n : ℕ), s₁ = { s.after_idle order now_ms with
        metrics := { (s.after_idle order now_ms).metrics with flows_expired_idle := n } } ∧
      s₁.limits = s.limits ∧
      (s.expire order now_ms).1 = (skip_flows s₁ now_ms (expire_keys order s₁)).1 ∧
      (s.expire order now_ms).2.delivered = (skip_flows s₁ now_ms (expire_keys order s₁)).2 := by
  refine ⟨_, saturatingAdd (s.after_idle order now_ms).metrics.flows_expired_idle
    (idle_flows order (s.purge_expired_tombstones now_ms) now_ms).length, rfl, ?_, rfl, rfl⟩
  exact expire_idle_limits (idle_flows order (s.purge_expired_tombstones now_ms) now_ms)
    (s.purge_expired_tombstones now_ms)

/-- A key without a flow after the idle pass has none after `expire`, and no
deliveries. -/
theorem expire_of_absent (hl : (s.after_idle order now_ms).flows.lookup key = none) :
    (s.expire order now_ms).1.flows.lookup key = none ∧
      under key (s.expire order now_ms).2.delivered = [] := by
  obtain ⟨s₁, n, hs₁, _, hstate, hout⟩ := expire_eq s order now_ms
  have hflows : s₁.flows = (s.after_idle order now_ms).flows := by rw [hs₁]
  have hkey : key ∉ expire_keys order s₁ := by
    rw [mem_expire_keys, hflows]
    exact AList.lookup_eq_none.mp hl
  obtain ⟨hlookup, hunder⟩ := @skip_flows_of_notMem key now_ms _ hkey s₁
  rw [hstate, hout, hlookup, hflows]
  exact ⟨hl, hunder⟩

/-- **A surviving key through `expire`**: its flow is served by its own skip loop. -/
theorem expire_of_present {flow : FlowState}
    (hl : (s.after_idle order now_ms).flows.lookup key = some flow) :
    ∃ s₁ : SessionReorder, s₁.limits = s.limits ∧ s₁.flows.lookup key = some flow ∧
      (s.expire order now_ms).1.flows.lookup key =
        (skip_expired_gaps (s₁.held key + 1) s₁ key now_ms).1.flows.lookup key ∧
      under key (s.expire order now_ms).2.delivered =
        (skip_expired_gaps (s₁.held key + 1) s₁ key now_ms).2.map (fun d => (key, d.1, d.2)) := by
  obtain ⟨s₁, n, hs₁, hlimits, hstate, hout⟩ := expire_eq s order now_ms
  have hflows : s₁.flows = (s.after_idle order now_ms).flows := by rw [hs₁]
  have hkey : key ∈ expire_keys order s₁ := by
    rw [mem_expire_keys, hflows]
    exact AList.mem_of_lookup hl
  obtain ⟨s₂, hlimits₂, hsame, hlookup, hunder⟩ :=
    @skip_flows_of_mem key now_ms _ (nodup_expire_keys order s₁) hkey s₁
  rw [hstate, hout]
  refine ⟨s₂, hlimits₂.trans hlimits, ?_, hlookup, hunder⟩
  rw [hsame, hflows]
  exact hl

/-- A flow after `expire` was there before and not idle. -/
theorem of_expire_lookup {flow' : FlowState}
    (hl : (s.expire order now_ms).1.flows.lookup key = some flow') :
    ∃ flow, s.flows.lookup key = some flow ∧
      now_ms - flow.last_activity_ms < s.limits.flow_idle_ttl_ms := by
  cases hidle : (s.after_idle order now_ms).flows.lookup key with
  | none =>
    rw [(expire_of_absent hidle).1] at hl
    contradiction
  | some flow => exact ⟨flow, after_idle_eq_some.mp hidle⟩

end OneKey

/-! ## Every flow of a session -/

/-- **Every flow is windowed.** -/
def Windowed (s : SessionReorder) : Prop :=
  ∀ key flow, s.flows.lookup key = some flow → flow.Windowed s.limits.max_future_gap

section Steps

variable {s s' : SessionReorder} {key : ReceiveKey} {flow flow' : FlowState} {now_ms : ℕ}
  {order : Orders} {traffic_class : TrafficClass} {packet_id : PacketId} {payload : Bytes}

/-- Taking flows out. -/
theorem Windowed.of_lookup (h : s.Windowed) (hlimits : s'.limits = s.limits)
    (hflows : ∀ key flow, s'.flows.lookup key = some flow → s.flows.lookup key = some flow) :
    s'.Windowed := by
  intro key flow hl
  rw [hlimits]
  exact h key flow (hflows key flow hl)

/-- Writing a flow. -/
theorem Windowed.write (h : s.Windowed) (hflow : flow'.Windowed s.limits.max_future_gap)
    (hlimits : s'.limits = s.limits) (hflows : s'.flows = s.flows.insert key flow') :
    s'.Windowed := by
  intro k f hk
  rw [hlimits]
  rw [hflows, AList.lookup_insert_of] at hk
  split at hk
  · obtain rfl := Option.some.inj hk
    exact hflow
  · exact h k f hk

theorem Windowed.skip_head_gap (h : s.Windowed) (key : ReceiveKey) (now_ms : ℕ) :
    (skip_head_gap_if_expired s key now_ms).1.Windowed := by
  rcases skip_head_gap_cases s key now_ms with ⟨_, he⟩ | ⟨flow, smallest, head, hdue, he⟩
  · rwa [he]
  rw [he]
  have hloose := (h key flow hdue.found).advance hdue.gap.le (firstKey_le hdue.first).2
  have hwindowed := drain_windowed hloose s.buffered_bytes_session
  exact h.write (hwindowed.touch now_ms) rfl rfl

theorem Windowed.receive_head (h : s.Windowed) (hl : s.flows.lookup key = some flow) :
    (receive_head s key flow packet_id payload now_ms).1.Windowed := by
  unfold SessionReorder.receive_head
  dsimp only
  split
  · next hmax =>
    have hempty := (h key flow hl).empty_of_max hmax
    have hlast : FlowState.Windowed s.limits.max_future_gap
        { flow with exhausted := true, last_activity_ms := now_ms } :=
      ⟨fun id hid => absurd hid (hempty id), fun _ => hempty⟩
    exact h.write hlast rfl rfl
  · next hmax =>
    have hwindowed := drain_windowed ((h key flow hl).succ hmax) s.buffered_bytes_session
    exact h.write (hwindowed.touch now_ms) rfl rfl

theorem Windowed.hold (h : s.Windowed) (hl : s.flows.lookup key = some flow)
    (hadmissible : s.Admissible flow traffic_class packet_id.get payload) :
    (hold s key flow packet_id.get payload now_ms).1.Windowed := by
  have hinsert : FlowState.Windowed s.limits.max_future_gap { flow with
      buffer := flow.buffer.insert packet_id.get ⟨payload, now_ms⟩
      buffered_bytes := saturatingAdd flow.buffered_bytes payload.length
      last_activity_ms := now_ms } := by
    refine ⟨?_, ?_⟩
    · intro id hid
      rcases (AList.mem_insert _).mp hid with rfl | hid
      · exact ⟨hadmissible.ahead, hadmissible.window⟩
      · exact (h key flow hl).window id hid
    · intro hex
      rw [show FlowState.exhausted { flow with .. } = flow.exhausted from rfl,
        hadmissible.unexhausted] at hex
      contradiction
  have hheld : SessionReorder.Windowed { s with
      flows := s.flows.insert key { flow with
        buffer := flow.buffer.insert packet_id.get ⟨payload, now_ms⟩
        buffered_bytes := saturatingAdd flow.buffered_bytes payload.length
        last_activity_ms := now_ms }
      buffered_bytes_session := saturatingAdd s.buffered_bytes_session payload.length } :=
    h.write hinsert rfl rfl
  have hskip := hheld.skip_head_gap key now_ms
  unfold SessionReorder.hold
  dsimp only
  split
  · next he => rwa [he] at hskip
  · next he => rwa [he] at hskip

/-- A flow that makes way for its tombstone. -/
theorem Windowed.retire (h : s.Windowed) (key : ReceiveKey) (watermark : U64)
    (m : ReorderMetrics) :
    (insert_tombstone order.tombstones { s.remove_flow key with metrics := m } key watermark
      now_ms).Windowed := by
  refine h.of_lookup (retire_limits order s key watermark now_ms m) ?_
  intro k f hk
  rw [insert_tombstone_flows] at hk
  have hk : (s.remove_flow key).flows.lookup k = some f := hk
  rw [remove_flow_lookup] at hk
  split at hk
  · contradiction
  · exact hk

theorem Windowed.make_room (h : s.Windowed) : (make_room order s now_ms).Windowed :=
  h.of_lookup (make_room_limits order s now_ms) (fun _ _ hl => make_room_lookup hl)

theorem Windowed.receive (h : s.Windowed) :
    (s.receive order key traffic_class packet_id payload now_ms).1.Windowed := by
  unfold SessionReorder.receive
  split
  · exact h.of_lookup rfl (fun _ _ hl => hl)
  cases hl : s.flows.lookup key with
  | none =>
    dsimp only
    rw [receive_unknown_eq]
    split
    · exact h.of_lookup rfl (fun _ _ hl => hl)
    · -- the flow that is opened holds nothing
      have hroom : (SessionReorder.make_room order (s.forget_tombstone key now_ms)
          now_ms).Windowed := Windowed.make_room (h.of_lookup rfl (fun _ _ hl => hl))
      have hopened : FlowState.Windowed
          (SessionReorder.make_room order (s.forget_tombstone key now_ms)
            now_ms).limits.max_future_gap
          ⟨traffic_class, if packet_id.get = U64.max then U64.max else packet_id.get.succSat,
            packet_id.get = U64.max, ∅, 0, now_ms⟩ :=
        ⟨fun id hid => absurd hid (AList.notMem_empty id), fun _ id => AList.notMem_empty id⟩
      exact hroom.write hopened rfl rfl
  | some flow =>
    dsimp only
    rw [receive_known_eq]
    cases hr : refusal s flow traffic_class packet_id.get payload with
    | some reason =>
      dsimp only
      unfold refuse
      by_cases hclass : reason = .ClassMismatch
      · exact h.of_lookup rfl (by simp [hclass])
      · exact h.write ((h key flow hl).touch now_ms) rfl (if_neg hclass)
    | none =>
      dsimp only
      split
      · exact h.receive_head hl
      · next hid => exact h.hold hl (admissible_of_refusal hr hid)

theorem Windowed.expire_idle (h : s.Windowed) (idle : List (ReceiveKey × U64)) :
    (expire_idle order s now_ms idle).Windowed := by
  induction idle generalizing s with
  | nil => exact h
  | cons entry idle ih => exact ih (h.retire entry.1 entry.2 (s.remove_flow entry.1).metrics)

/-- What the idle pass of `expire` leaves. -/
theorem Windowed.after_idle (h : s.Windowed) : (s.after_idle order now_ms).Windowed := by
  have hpurged : (s.purge_expired_tombstones now_ms).Windowed :=
    h.of_lookup rfl (fun _ _ hl => hl)
  exact hpurged.expire_idle _

theorem Windowed.expire (h : s.Windowed) : (s.expire order now_ms).1.Windowed := by
  unfold SessionReorder.expire
  refine skip_flows_induct (fun s key h => h.skip_head_gap key now_ms) _ ?_
  exact h.after_idle.of_lookup rfl (fun _ _ hl => hl)

end Steps

theorem new_windowed {limits : ReorderLimits} {s : SessionReorder} (h : new limits = .ok s) :
    s.Windowed := by
  unfold new at h
  split at h
  · contradiction
  obtain rfl := Except.ok.inj h
  intro key flow hl
  contradiction

end SessionReorder

/-! ## Runs -/

/-- **Every flow is windowed** in every state of every run. -/
theorem exec_windowed {limits : ReorderLimits} {s t : SessionReorder} {calls : List ReorderCall}
    {out : List (ReceiveKey × PacketId × Bytes)} (hnew : SessionReorder.new limits = .ok s)
    (hrun : exec ReorderCall.run s calls = some (t, out)) : t.Windowed := by
  refine exec_invariant ?_ (SessionReorder.new_windowed hnew) hrun
  intro s call s₁ o h hs
  obtain rfl : (call.apply s).1 = s₁ := congrArg Prod.fst (Option.some.inj hs)
  cases call with
  | receive key traffic_class packet_id payload now order => exact h.receive
  | expire now order => exact h.expire

/-- A run keeps its limits. -/
theorem exec_limits {s t : SessionReorder} {calls : List ReorderCall}
    {out : List (ReceiveKey × PacketId × Bytes)}
    (hrun : exec ReorderCall.run s calls = some (t, out)) : t.limits = s.limits := by
  refine exec_invariant (I := fun s' => s'.limits = s.limits) ?_ rfl hrun
  intro s' call s₁ o hkept hs
  obtain rfl : (call.apply s').1 = s₁ := congrArg Prod.fst (Option.some.inj hs)
  rw [← hkept]
  cases call with
  | receive key traffic_class packet_id payload now order =>
    exact s'.receive_limits order key traffic_class packet_id payload now
  | expire now order => exact s'.expire_limits order now

end StreamGuard.Multipath
