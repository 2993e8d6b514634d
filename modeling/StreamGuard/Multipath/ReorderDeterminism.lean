/-
Two runs of `SessionReorder` that differ in the iteration order of the hash maps.

`Agree` relates two sessions that a caller cannot tell apart: the same limits, the same
entries in both tables, the same byte count and the same skip counters. One lemma for each
operation carries it along. Three places pick entries by what does not determine them:
the eviction of the least recently active flow, the batch of retirements in `expire`, and
the order of the deadline pass, which does not look at the session of a key.
-/
import StreamGuard.Multipath.TombstoneTable

set_option autoImplicit false

namespace StreamGuard.Multipath

open StreamGuard StreamGuard.Lib

namespace SessionReorder

/-- The same session up to the order of its hash maps. -/
structure Agree (s s' : SessionReorder) : Prop where
  limits : s'.limits = s.limits
  flows : ∀ k, s'.flows.lookup k = s.flows.lookup k
  tombstones : ∀ k, s'.tombstones.lookup k = s.tombstones.lookup k
  bytes : s'.buffered_bytes_session = s.buffered_bytes_session
  gaps : s'.metrics.gaps_skipped = s.metrics.gaps_skipped
  packets : s'.metrics.packets_skipped = s.metrics.packets_skipped

section Agree

variable {s s' s'' : SessionReorder} {key : ReceiveKey} {flow : FlowState} {now_ms : ℕ}
  {order order' : Orders} {traffic_class : TrafficClass} {packet_id : PacketId} {payload : Bytes}

theorem Agree.refl (s : SessionReorder) : Agree s s :=
  ⟨rfl, fun _ => rfl, fun _ => rfl, rfl, rfl, rfl⟩

theorem Agree.trans (h : Agree s s') (h' : Agree s' s'') : Agree s s'' :=
  ⟨h'.limits.trans h.limits, fun k => (h'.flows k).trans (h.flows k),
    fun k => (h'.tombstones k).trans (h.tombstones k), h'.bytes.trans h.bytes,
    h'.gaps.trans h.gaps, h'.packets.trans h.packets⟩

theorem Agree.sameFlow (h : Agree s s') (key : ReceiveKey) : SameFlow key s s' :=
  ⟨h.limits, h.flows key⟩

/-- Counters other than those of the skips do not matter. -/
theorem Agree.with_metrics (h : Agree s s') {m m' : ReorderMetrics}
    (hgaps : m'.gaps_skipped = m.gaps_skipped) (hpackets : m'.packets_skipped = m.packets_skipped) :
    Agree { s with metrics := m } { s' with metrics := m' } :=
  ⟨h.limits, h.flows, h.tombstones, h.bytes, hgaps, hpackets⟩

/-- Writing the same flow to both. -/
theorem Agree.write (h : Agree s s') (key : ReceiveKey) (flow : FlowState) {bytes bytes' : ℕ}
    (hbytes : bytes' = bytes) {m m' : ReorderMetrics} (hgaps : m'.gaps_skipped = m.gaps_skipped)
    (hpackets : m'.packets_skipped = m.packets_skipped) :
    Agree { s with
        flows := s.flows.insert key flow, buffered_bytes_session := bytes, metrics := m }
      { s' with
        flows := s'.flows.insert key flow, buffered_bytes_session := bytes', metrics := m' } := by
  refine ⟨h.limits, ?_, h.tombstones, hbytes, hgaps, hpackets⟩
  intro k
  dsimp only
  rw [AList.lookup_insert_of, AList.lookup_insert_of, h.flows]

/-! ## The skip loop -/

theorem Agree.skip_head_gap (h : Agree s s') (key : ReceiveKey) (now_ms : ℕ) :
    Agree (skip_head_gap_if_expired s key now_ms).1 (skip_head_gap_if_expired s' key now_ms).1 ∧
      (skip_head_gap_if_expired s' key now_ms).2 = (skip_head_gap_if_expired s key now_ms).2 := by
  have hout := ((h.sameFlow key).skip_head_gap now_ms).2
  rcases skip_head_gap_cases s key now_ms with ⟨hnone, he⟩ | ⟨flow, smallest, head, hdue, he⟩
  · rcases skip_head_gap_cases s' key now_ms with ⟨_, he'⟩ | ⟨flow', smallest', head', hdue', _⟩
    · rw [he, he']
      exact ⟨h, rfl⟩
    · exact absurd (hdue'.congr (h.flows key).symm h.limits.symm) (hnone _ _ _)
  · rcases skip_head_gap_cases s' key now_ms with ⟨hnone', _⟩ | ⟨flow', smallest', head', hdue', he'⟩
    · exact absurd (hdue.congr (h.flows key) h.limits) (hnone' _ _ _)
    · have hflow := hdue'.found
      rw [h.flows, hdue.found] at hflow
      obtain rfl := Option.some.inj hflow
      have hfirst := hdue'.first
      rw [hdue.first] at hfirst
      obtain rfl := Option.some.inj hfirst
      have hdrain : skip_drain s' flow smallest = skip_drain s flow smallest := by
        unfold skip_drain
        rw [h.bytes]
      refine ⟨?_, hout⟩
      rw [he, he']
      unfold skip_to
      rw [hdrain]
      refine h.write key _ rfl ?_ ?_
      · exact congrArg (saturatingAdd · 1) h.gaps
      · exact congrArg (saturatingAdd · _) h.packets

theorem Agree.skip_expired_gaps (fuel : ℕ) (h : Agree s s') (key : ReceiveKey) (now_ms : ℕ) :
    Agree (skip_expired_gaps fuel s key now_ms).1 (skip_expired_gaps fuel s' key now_ms).1 := by
  induction fuel generalizing s s' with
  | zero => exact h
  | succ fuel ih =>
    obtain ⟨hskip, hds⟩ := h.skip_head_gap key now_ms
    unfold SessionReorder.skip_expired_gaps
    cases hr : skip_head_gap_if_expired s key now_ms with
    | mk s₁ ds =>
      cases hr' : skip_head_gap_if_expired s' key now_ms with
      | mk s₁' ds' =>
        rw [hr, hr'] at hskip hds
        dsimp only at hskip hds
        subst hds
        cases ds' with
        | none => exact hskip
        | some delivered => exact ih hskip

/-- The deadline pass of one key. -/
def pass (s : SessionReorder) (key : ReceiveKey) (now_ms : ℕ) :
    SessionReorder × List (PacketId × Bytes) :=
  SessionReorder.skip_expired_gaps (s.held key + 1) s key now_ms

theorem Agree.pass (h : Agree s s') (key : ReceiveKey) (now_ms : ℕ) :
    Agree (s.pass key now_ms).1 (s'.pass key now_ms).1 ∧
      (s'.pass key now_ms).2 = (s.pass key now_ms).2 := by
  have hheld : s'.held key = s.held key := (h.sameFlow key).held
  unfold SessionReorder.pass
  rw [hheld]
  exact ⟨h.skip_expired_gaps _ key now_ms, ((h.sameFlow key).skip_expired_gaps _ now_ms).2⟩

theorem Agree.skip_flows (h : Agree s s') (keys : List ReceiveKey) :
    Agree (skip_flows s now_ms keys).1 (skip_flows s' now_ms keys).1 := by
  induction keys generalizing s s' with
  | nil => exact h
  | cons key keys ih => exact ih (h.pass key now_ms).1

end Agree

/-! ## The deadline pass in another order -/

section Passes

variable {s : SessionReorder} {key : ReceiveKey} {now_ms : ℕ}

/-- Saturating additions may be made in any order. -/
theorem foldl_saturatingAdd_perm {l l' : List ℕ} (h : l.Perm l') (n : ℕ) :
    l.foldl saturatingAdd n = l'.foldl saturatingAdd n := by
  refine h.foldl_eq' ?_ n
  intro a _ b _ n
  unfold saturatingAdd
  omega

/-- What the pass of one key does to the session: a new flow under the key, and changes of
the shared counters that do not depend on them. -/
structure Advanced (s : SessionReorder) (key : ReceiveKey) (flow' : FlowState) (freed : ℕ)
    (gaps packets : List ℕ) (s' : SessionReorder) : Prop where
  limits : s'.limits = s.limits
  flows : ∀ k, s'.flows.lookup k = if k = key then some flow' else s.flows.lookup k
  tombstones : s'.tombstones = s.tombstones
  bytes : s'.buffered_bytes_session = s.buffered_bytes_session - freed
  gaps : s'.metrics.gaps_skipped = gaps.foldl saturatingAdd s.metrics.gaps_skipped
  packets : s'.metrics.packets_skipped = packets.foldl saturatingAdd s.metrics.packets_skipped

/-- A pass that stops at once. -/
theorem Advanced.refl {flow : FlowState} (hl : s.flows.lookup key = some flow) :
    Advanced s key flow 0 [] [] s := by
  refine ⟨rfl, ?_, rfl, rfl, rfl, rfl⟩
  intro k
  split
  · next hk => rw [hk, hl]
  · rfl

/-- The bytes a drain frees depend on the flow alone. -/
theorem drain_freed (fuel : ℕ) (flow : FlowState) : ∃ freed, ∀ bytes,
    (drain fuel flow bytes).buffered_bytes_session = bytes - freed := by
  induction fuel generalizing flow with
  | zero => exact ⟨0, fun bytes => rfl⟩
  | succ fuel ih =>
    by_cases hex : flow.exhausted = true
    · exact ⟨0, fun bytes => by rw [drain_exhausted hex]; rfl⟩
    have hex : flow.exhausted = false := by simpa using hex
    cases hl : flow.buffer.lookup flow.next_expected with
    | none => exact ⟨0, fun bytes => by rw [drain_gap hl]; rfl⟩
    | some held =>
      by_cases hmax : flow.next_expected = U64.max
      · exact ⟨held.payload.length, fun bytes => by rw [drain_last hex hl hmax]⟩
      · obtain ⟨freed, hfreed⟩ := ih (taken flow held)
        refine ⟨held.payload.length + freed, fun bytes => ?_⟩
        rw [drain_round hex hl hmax]
        dsimp only
        rw [hfreed, Nat.sub_sub]

/-- **The pass of one key is local**: what it does to the flow and how it moves the counters
depends on the limits and the flow. -/
theorem skip_expired_gaps_advanced (fuel : ℕ) (limits : ReorderLimits) (flow : FlowState)
    (key : ReceiveKey) (now_ms : ℕ) : ∃ flow' freed gaps packets, ∀ s : SessionReorder,
    s.limits = limits → s.flows.lookup key = some flow →
      Advanced s key flow' freed gaps packets (skip_expired_gaps fuel s key now_ms).1 := by
  induction fuel generalizing flow with
  | zero => exact ⟨flow, 0, [], [], fun s _ hl => .refl hl⟩
  | succ fuel ih =>
    by_cases hdue : ∃ smallest head, flow.exhausted = false ∧ flow.buffer.firstKey = some smallest ∧
        flow.buffer.lookup smallest = some head ∧ flow.next_expected < smallest ∧
        limits.deadline_for flow.traffic_class ≤ now_ms - head.arrived_at_ms
    · obtain ⟨smallest, head, hex, hfirst, hhead, hgap, hoverdue⟩ := hdue
      obtain ⟨freed₁, hfreed₁⟩ :=
        drain_freed flow.buffer.len { flow with next_expected := smallest }
      let flow₁ : FlowState :=
        { (drain flow.buffer.len { flow with next_expected := smallest } 0).flow with
          last_activity_ms := now_ms }
      obtain ⟨flow', freed, gaps, packets, hrest⟩ := ih flow₁
      refine ⟨flow', freed₁ + freed, 1 :: gaps, (smallest.val - flow.next_expected.val) :: packets,
        ?_⟩
      intro s hlimits hl
      have hhere : s.HeadOverdue key now_ms flow smallest head :=
        ⟨hl, hex, hfirst, hhead, hgap, by rw [hlimits]; exact hoverdue⟩
      have hskip : skip_head_gap_if_expired s key now_ms =
          (s.skip_to key flow smallest now_ms, some (skip_drain s flow smallest).delivered) := by
        rcases skip_head_gap_cases s key now_ms with ⟨hnone, _⟩ | ⟨flow₂, smallest₂, _, hdue₂, he⟩
        · exact absurd hhere (hnone _ _ _)
        · have hflow := hdue₂.found
          rw [hl] at hflow
          obtain rfl := Option.some.inj hflow
          have hsmallest := hdue₂.first
          rw [hfirst] at hsmallest
          obtain rfl := Option.some.inj hsmallest
          exact he
      have hflow₁ : (s.skip_to key flow smallest now_ms).flows.lookup key = some flow₁ := by
        unfold skip_to skip_drain
        dsimp only
        rw [AList.lookup_insert, (drain_bytes flow.buffer.len { flow with next_expected := smallest }
          s.buffered_bytes_session 0).1]
      have h := hrest (s.skip_to key flow smallest now_ms) hlimits hflow₁
      unfold skip_expired_gaps
      rw [hskip]
      refine ⟨h.limits, ?_, h.tombstones, ?_, h.gaps, h.packets⟩
      · intro k
        rw [h.flows]
        by_cases hk : k = key
        · rw [if_pos hk, if_pos hk]
        · rw [if_neg hk, if_neg hk]
          exact AList.lookup_insert_ne hk
      · rw [h.bytes]
        unfold skip_to skip_drain
        dsimp only
        rw [hfreed₁, Nat.sub_sub]
    · refine ⟨flow, 0, [], [], ?_⟩
      intro s hlimits hl
      have hskip : skip_head_gap_if_expired s key now_ms = (s, none) := by
        rcases skip_head_gap_cases s key now_ms with ⟨_, he⟩ | ⟨flow₂, smallest, head, h, _⟩
        · exact he
        · have hflow := h.found
          rw [hl] at hflow
          obtain rfl := Option.some.inj hflow
          refine absurd ⟨smallest, head, h.unexhausted, h.first, h.held, h.gap, ?_⟩ hdue
          rw [← hlimits]
          exact h.overdue
      unfold skip_expired_gaps
      rw [hskip]
      exact .refl hl

theorem pass_absent (hl : s.flows.lookup key = none) : s.pass key now_ms = (s, []) := by
  have hskip : skip_head_gap_if_expired s key now_ms = (s, none) := by
    unfold skip_head_gap_if_expired
    rw [hl]
  unfold pass skip_expired_gaps
  rw [hskip]

/-- **The passes of two keys commute.** -/
theorem pass_comm (s : SessionReorder) (now_ms : ℕ) {key key' : ReceiveKey} (hne : key ≠ key') :
    Agree ((s.pass key now_ms).1.pass key' now_ms).1
      ((s.pass key' now_ms).1.pass key now_ms).1 := by
  -- what is under another key is not touched by a pass
  have hother : ∀ s : SessionReorder, ∀ {k k' : ReceiveKey}, k' ≠ k →
      (s.pass k now_ms).1.flows.lookup k' = s.flows.lookup k' :=
    fun s k k' hk => (skip_expired_gaps_updates (s.held k + 1) s k now_ms).others k' hk
  cases hl : s.flows.lookup key with
  | none =>
    have hl' := (hother s hne).trans hl
    rw [pass_absent hl, pass_absent hl']
    exact Agree.refl _
  | some flow =>
    cases hl' : s.flows.lookup key' with
    | none =>
      have hl'' := (hother s hne.symm).trans hl'
      rw [pass_absent hl', pass_absent hl'']
      exact Agree.refl _
    | some flow' =>
      obtain ⟨f, freed, gaps, packets, hpass⟩ :=
        skip_expired_gaps_advanced (flow.buffer.len + 1) s.limits flow key now_ms
      obtain ⟨f', freed', gaps', packets', hpass'⟩ :=
        skip_expired_gaps_advanced (flow'.buffer.len + 1) s.limits flow' key' now_ms
      have hheld : ∀ t : SessionReorder, ∀ {k : ReceiveKey} {g : FlowState},
          t.flows.lookup k = some g → t.held k = g.buffer.len := by
        intro t k g hg
        unfold held
        rw [hg]
      have h : ∀ t : SessionReorder, t.limits = s.limits → t.flows.lookup key = some flow →
          Advanced t key f freed gaps packets (t.pass key now_ms).1 := by
        intro t ht hg
        unfold pass
        rw [hheld t hg]
        exact hpass t ht hg
      have h' : ∀ t : SessionReorder, t.limits = s.limits → t.flows.lookup key' = some flow' →
          Advanced t key' f' freed' gaps' packets' (t.pass key' now_ms).1 := by
        intro t ht hg
        unfold pass
        rw [hheld t hg]
        exact hpass' t ht hg
      have h₁ := h s rfl hl
      have h₂ := h' s rfl hl'
      have h₁₂ := h' _ h₁.limits ((hother s hne.symm).trans hl')
      have h₂₁ := h _ h₂.limits ((hother s hne).trans hl)
      refine ⟨?_, ?_, ?_, ?_, ?_, ?_⟩
      · rw [h₂₁.limits, h₂.limits, h₁₂.limits, h₁.limits]
      · intro k
        rw [h₂₁.flows, h₂.flows, h₁₂.flows, h₁.flows]
        by_cases hk : k = key
        · have hk' : k ≠ key' := fun he => hne (hk.symm.trans he)
          rw [if_pos hk, if_neg hk', if_pos hk]
        · rw [if_neg hk, if_neg hk]
      · intro k
        rw [h₂₁.tombstones, h₂.tombstones, h₁₂.tombstones, h₁.tombstones]
      · rw [h₂₁.bytes, h₂.bytes, h₁₂.bytes, h₁.bytes]
        omega
      · rw [h₂₁.gaps, h₂.gaps, h₁₂.gaps, h₁.gaps, ← List.foldl_append, ← List.foldl_append]
        exact foldl_saturatingAdd_perm List.perm_append_comm _
      · rw [h₂₁.packets, h₂.packets, h₁₂.packets, h₁.packets, ← List.foldl_append,
          ← List.foldl_append]
        exact foldl_saturatingAdd_perm List.perm_append_comm _

/-- **The keys may be visited in any order.** -/
theorem skip_flows_perm {keys keys' : List ReceiveKey} (h : keys'.Perm keys) (now_ms : ℕ) :
    ∀ s : SessionReorder, Agree (skip_flows s now_ms keys).1 (skip_flows s now_ms keys').1 := by
  induction h with
  | nil => exact Agree.refl
  | cons key _ ih =>
    intro s
    exact ih (s.pass key now_ms).1
  | swap key key' keys =>
    intro s
    by_cases hk : key = key'
    · rw [hk]
      exact Agree.refl _
    · exact (pass_comm s now_ms hk).skip_flows keys
  | trans _ _ ih ih' =>
    intro s
    exact (ih' s).trans (ih s)

/-! ## What the deadline pass delivers -/

/-- The deliveries of one key under the key. -/
def tagged (s : SessionReorder) (now_ms : ℕ) (key : ReceiveKey) :
    List (ReceiveKey × PacketId × Bytes) :=
  (s.pass key now_ms).2.map (fun d => (key, d.1, d.2))

/-- The pass delivers key after key what each key releases on its own. -/
theorem skip_flows_delivered {keys : List ReceiveKey} (hnodup : keys.Nodup) (s : SessionReorder) :
    (skip_flows s now_ms keys).2 = keys.flatMap (s.tagged now_ms) := by
  induction keys generalizing s with
  | nil => rfl
  | cons key keys ih =>
    obtain ⟨hnot, hnodup⟩ := List.nodup_cons.mp hnodup
    have hrest := ih hnodup (s.pass key now_ms).1
    have hsame : ∀ k ∈ keys, (s.pass key now_ms).1.tagged now_ms k = s.tagged now_ms k := by
      intro k hk
      have hne : k ≠ key := fun he => hnot (he ▸ hk)
      have hflow : SameFlow k s (s.pass key now_ms).1 :=
        ⟨skip_expired_gaps_limits _ s key,
          (skip_expired_gaps_updates (s.held key + 1) s key now_ms).others k hne⟩
      unfold tagged pass at *
      rw [hflow.held, (hflow.skip_expired_gaps _ now_ms).2]
    unfold skip_flows
    dsimp only
    rw [List.flatMap_cons, ← List.flatMap_congr hsame, ← hrest]
    rfl

/-- Does the deadline pass release something of `key`? Its flow is not idle, and the first
held packet has outlived the deadline behind a gap. -/
def releases (s : SessionReorder) (now_ms : ℕ) (key : ReceiveKey) : Bool :=
  (s.flows.lookup key).any (fun flow =>
    now_ms - flow.last_activity_ms < s.limits.flow_idle_ttl_ms && !flow.exhausted &&
      flow.buffer.firstKey.any (fun smallest => flow.next_expected < smallest &&
        (flow.buffer.lookup smallest).any (fun head =>
          s.limits.deadline_for flow.traffic_class ≤ now_ms - head.arrived_at_ms)))

theorem releases_of_tagged (h : s.tagged now_ms key ≠ []) :
    ∃ flow smallest head, s.HeadOverdue key now_ms flow smallest head := by
  rcases skip_head_gap_cases s key now_ms with ⟨_, he⟩ | ⟨flow, smallest, head, hdue, _⟩
  · refine absurd ?_ h
    unfold tagged pass skip_expired_gaps
    rw [he]
    rfl
  · exact ⟨flow, smallest, head, hdue⟩

/-- No two keys that differ in the session alone release something. -/
def NoTwins (s : SessionReorder) (now_ms : ℕ) : Prop :=
  ∀ a ∈ s.flows.keys, ∀ b ∈ s.flows.keys, ReceiveKey.expire_le a b = true →
    ReceiveKey.expire_le b a = true → s.releases now_ms a = true → s.releases now_ms b = true →
      a = b

instance (s : SessionReorder) (now_ms : ℕ) : Decidable (s.NoTwins now_ms) :=
  inferInstanceAs (Decidable (∀ a ∈ s.flows.keys, ∀ b ∈ s.flows.keys, _))

end Passes

/-! ## Retiring keys -/

section Retire

variable {s s' : SessionReorder} {key : ReceiveKey} {now_ms : ℕ} {order order' : Orders}
  {watermark : U64}

theorem insert_tombstone_tombstones (order : Traversal ReceiveKey ReorderTombstone)
    (s : SessionReorder) (key : ReceiveKey) (watermark : U64) (now_ms : ℕ) :
    (insert_tombstone order s key watermark now_ms).tombstones =
      retired order s.limits.max_tombstones s.tombstones key
        (tombstone s.limits.tombstone_ttl_ms now_ms watermark) now_ms := by
  have hlimits : (evict_tombstone order (s.purge_expired_tombstones now_ms)).limits = s.limits :=
    (insert_tombstone_frame order s key watermark now_ms).1
  simp only [insert_tombstone, hlimits]
  unfold evict_tombstone
  exact retired_eq SessionReorder.tombstones (s := s.purge_expired_tombstones now_ms) rfl
    (fun _ => by rfl) key _

/-- Retiring a key skips no gap. -/
theorem insert_tombstone_skips (order : Traversal ReceiveKey ReorderTombstone)
    (s : SessionReorder) (key : ReceiveKey) (watermark : U64) (now_ms : ℕ) :
    (insert_tombstone order s key watermark now_ms).metrics.gaps_skipped = s.metrics.gaps_skipped ∧
      (insert_tombstone order s key watermark now_ms).metrics.packets_skipped =
        s.metrics.packets_skipped := by
  unfold insert_tombstone evict_tombstone
  dsimp only
  split
  · split <;> exact ⟨rfl, rfl⟩
  · exact ⟨rfl, rfl⟩

theorem Agree.insert_tombstone (h : Agree s s') (hmax : 0 < s.limits.max_tombstones)
    {order order' : Traversal ReceiveKey ReorderTombstone} (key : ReceiveKey) (watermark : U64)
    (now_ms : ℕ) :
    Agree (insert_tombstone order s key watermark now_ms)
      (insert_tombstone order' s' key watermark now_ms) := by
  obtain ⟨hl, hb⟩ := insert_tombstone_frame order s key watermark now_ms
  obtain ⟨hl', hb'⟩ := insert_tombstone_frame order' s' key watermark now_ms
  obtain ⟨hg, hp⟩ := insert_tombstone_skips order s key watermark now_ms
  obtain ⟨hg', hp'⟩ := insert_tombstone_skips order' s' key watermark now_ms
  refine ⟨?_, ?_, ?_, ?_, ?_, ?_⟩
  · rw [hl, hl', h.limits]
  · intro k
    rw [insert_tombstone_flows, insert_tombstone_flows, h.flows]
  · intro k
    rw [insert_tombstone_tombstones, insert_tombstone_tombstones, h.limits]
    exact retired_congr hmax h.tombstones k
  · rw [hb, hb', h.bytes]
  · rw [hg, hg', h.gaps]
  · rw [hp, hp', h.packets]

theorem Agree.remove_flow (h : Agree s s') (key : ReceiveKey) :
    Agree (s.remove_flow key) (s'.remove_flow key) := by
  unfold SessionReorder.remove_flow
  rw [h.flows]
  split
  · refine ⟨h.limits, ?_, h.tombstones, ?_, h.gaps, h.packets⟩
    · intro k
      dsimp only
      rw [AList.lookup_erase_of, AList.lookup_erase_of, h.flows]
    · dsimp only
      rw [h.bytes]
  · exact h

theorem Agree.make_room (h : Agree s s') (order order' : Orders) (hmax : 0 < s.limits.max_tombstones)
    (holdest : s.limits.max_flows ≤ s.flows.len →
      UniqueOldest FlowState.last_activity_ms s.flows) :
    Agree (make_room order s now_ms) (make_room order' s' now_ms) := by
  have hlen := AList.len_congr h.flows
  unfold SessionReorder.make_room
  by_cases hfull : s.limits.max_flows ≤ s.flows.len
  · rw [if_pos hfull, h.limits, hlen, if_pos hfull]
    unfold evict_oldest_flow
    have hsame : min_by older_activity (order'.flows.visit s'.flows.entries) =
        min_by older_activity (order.flows.visit s.flows.entries) :=
      (holdest hfull).min_by_eq h.flows
    rw [hsame]
    split
    · next o _ =>
      refine Agree.insert_tombstone ?_ ?_ o.1 _ now_ms
      · exact (h.remove_flow o.1).with_metrics (h.remove_flow o.1).gaps (h.remove_flow o.1).packets
      · dsimp only
        rw [remove_flow_limits]
        exact hmax
    · exact h
  · rw [if_neg hfull, h.limits, hlen, if_neg hfull]
    exact h

end Retire

/-! ## `receive` -/

section Receive

variable {s s' : SessionReorder} {key : ReceiveKey} {flow : FlowState} {now_ms : ℕ}
  {order order' : Orders} {traffic_class : TrafficClass} {packet_id : PacketId} {payload : Bytes}

theorem Agree.receive_head (h : Agree s s') :
    Agree (receive_head s key flow packet_id payload now_ms).1
      (receive_head s' key flow packet_id payload now_ms).1 := by
  unfold SessionReorder.receive_head
  dsimp only
  split
  · exact h.write key _ h.bytes h.gaps h.packets
  · rw [h.bytes]
    exact h.write key _ rfl h.gaps h.packets

theorem Agree.hold (h : Agree s s') {id : U64} :
    Agree (hold s key flow id payload now_ms).1 (hold s' key flow id payload now_ms).1 ∧
      (hold s' key flow id payload now_ms).2 = (hold s key flow id payload now_ms).2 := by
  unfold SessionReorder.hold
  dsimp only
  rw [h.bytes]
  have hwritten := (h.write key
    { flow with
      buffer := flow.buffer.insert id ⟨payload, now_ms⟩
      buffered_bytes := saturatingAdd flow.buffered_bytes payload.length
      last_activity_ms := now_ms }
    (rfl : saturatingAdd s.buffered_bytes_session payload.length = _) h.gaps
    h.packets).skip_head_gap key now_ms
  obtain ⟨hagree, hout⟩ := hwritten
  split <;> split <;> simp_all

theorem Agree.receive_known (h : Agree s s') :
    Agree (receive_known s key flow traffic_class packet_id payload now_ms).1
        (receive_known s' key flow traffic_class packet_id payload now_ms).1 ∧
      (receive_known s' key flow traffic_class packet_id payload now_ms).2 =
        (receive_known s key flow traffic_class packet_id payload now_ms).2 := by
  have hrefusal : refusal s' flow traffic_class packet_id.get payload =
      refusal s flow traffic_class packet_id.get payload := by
    unfold refusal
    rw [h.limits, h.bytes]
  rw [receive_known_eq, receive_known_eq, hrefusal]
  split
  · next reason _ =>
    refine ⟨?_, rfl⟩
    -- no reason counts a skip
    have hcount : ∀ m : ReorderMetrics, (m.count reason).gaps_skipped = m.gaps_skipped ∧
        (m.count reason).packets_skipped = m.packets_skipped := by
      intro m
      cases reason <;> exact ⟨rfl, rfl⟩
    have hgaps : (s'.metrics.count reason).gaps_skipped = (s.metrics.count reason).gaps_skipped := by
      rw [(hcount _).1, (hcount _).1, h.gaps]
    have hpackets : (s'.metrics.count reason).packets_skipped =
        (s.metrics.count reason).packets_skipped := by
      rw [(hcount _).2, (hcount _).2, h.packets]
    unfold refuse
    by_cases hclass : reason = .ClassMismatch
    · rw [if_pos hclass, if_pos hclass]
      exact h.with_metrics hgaps hpackets
    · rw [if_neg hclass, if_neg hclass]
      exact h.write key _ h.bytes hgaps hpackets
  · split
    · exact ⟨h.receive_head, ((h.sameFlow key).receive_head packet_id payload now_ms).2⟩
    · exact h.hold

/-- The arrival opens a flow: its class is one of the three, no flow is held for its key, and
no tombstone rejects it. -/
def opens (s : SessionReorder) (key : ReceiveKey) (traffic_class : TrafficClass) (id : U64)
    (now_ms : ℕ) : Prop :=
  traffic_class ≠ .Control ∧ key ∉ s.flows ∧ ¬ s.replayed key id now_ms

instance (s : SessionReorder) (key : ReceiveKey) (traffic_class : TrafficClass) (id : U64)
    (now_ms : ℕ) : Decidable (s.opens key traffic_class id now_ms) :=
  inferInstanceAs (Decidable (_ ∧ _ ∧ _))

/-- **One arrival.** -/
theorem Agree.receive (h : Agree s s') (order order' : Orders) (payload : Bytes)
    (hmax : 0 < s.limits.max_tombstones)
    (holdest : s.opens key traffic_class packet_id.get now_ms →
      s.limits.max_flows ≤ s.flows.len → UniqueOldest FlowState.last_activity_ms s.flows) :
    Agree (s.receive order key traffic_class packet_id payload now_ms).1
        (s'.receive order' key traffic_class packet_id payload now_ms).1 ∧
      (s'.receive order' key traffic_class packet_id payload now_ms).2 =
        (s.receive order key traffic_class packet_id payload now_ms).2 := by
  unfold SessionReorder.receive
  by_cases hclass : traffic_class = .Control
  · rw [if_pos hclass, if_pos hclass]
    exact ⟨h.with_metrics h.gaps h.packets, rfl⟩
  rw [if_neg hclass, if_neg hclass, h.flows]
  cases hl : s.flows.lookup key with
  | some flow => exact h.receive_known
  | none =>
    dsimp only
    rw [receive_unknown_eq, receive_unknown_eq]
    have hreplayed : s'.replayed key packet_id.get now_ms ↔ s.replayed key packet_id.get now_ms := by
      unfold replayed
      rw [h.tombstones]
    by_cases hr : s.replayed key packet_id.get now_ms
    · rw [if_pos hr, if_pos (hreplayed.mpr hr)]
      exact ⟨h.with_metrics h.gaps h.packets, rfl⟩
    · rw [if_neg hr, if_neg (fun hr' => hr (hreplayed.mp hr'))]
      have hforget : Agree (s.forget_tombstone key now_ms) (s'.forget_tombstone key now_ms) := by
        refine ⟨h.limits, h.flows, ?_, h.bytes, h.gaps, h.packets⟩
        intro k
        unfold forget_tombstone
        dsimp only
        rw [AList.lookup_erase_of, AList.lookup_erase_of, h.tombstones]
      have hroom : Agree (SessionReorder.make_room order (s.forget_tombstone key now_ms) now_ms)
          (SessionReorder.make_room order' (s'.forget_tombstone key now_ms) now_ms) :=
        hforget.make_room order order' hmax
          (fun hfull => holdest ⟨hclass, AList.lookup_eq_none.mp hl, hr⟩ hfull)
      exact ⟨hroom.write key _ hroom.bytes hroom.gaps hroom.packets, rfl⟩

end Receive

/-! ## `expire` -/

section Expire

variable {s s' : SessionReorder} {now_ms : ℕ} {order order' : Orders}

theorem Agree.purge (h : Agree s s') (now_ms : ℕ) :
    Agree (s.purge_expired_tombstones now_ms) (s'.purge_expired_tombstones now_ms) :=
  ⟨h.limits, h.flows, live_tombstones_congr h.tombstones now_ms, h.bytes, h.gaps, h.packets⟩

theorem Agree.idle_flows (h : Agree s s') (order order' : Orders) (now_ms : ℕ) :
    (idle_flows order' s' now_ms).Perm (idle_flows order s now_ms) := by
  unfold SessionReorder.idle_flows
  have hperm : (order'.flows.visit s'.flows.entries).Perm (order.flows.visit s.flows.entries) :=
    ((order'.flows.perm _).trans (AList.entries_perm h.flows)).trans (order.flows.perm _).symm
  rw [h.limits]
  exact (hperm.filter _).map _

/-- The bytes of the flow of a key. -/
def bytes_of (s : SessionReorder) (key : ReceiveKey) : ℕ :=
  (s.flows.lookup key).elim 0 FlowState.buffered_bytes

theorem expire_idle_table (idle : List (ReceiveKey × U64)) (s : SessionReorder) :
    (expire_idle order s now_ms idle).tombstones =
      retire_all order.tombstones s.limits.max_tombstones s.limits.tombstone_ttl_ms now_ms
        s.tombstones idle := by
  induction idle generalizing s with
  | nil => rfl
  | cons e idle ih =>
    unfold expire_idle retire_all
    rw [ih, (insert_tombstone_frame _ _ _ _ _).1, remove_flow_limits, insert_tombstone_tombstones,
      remove_flow_limits]
    have htable : (s.remove_flow e.1).tombstones = s.tombstones := by
      unfold remove_flow
      split <;> rfl
    rw [htable]

theorem expire_idle_bytes (idle : List (ReceiveKey × U64)) (s : SessionReorder)
    (hnodup : (idle.map (·.1)).Nodup) :
    (expire_idle order s now_ms idle).buffered_bytes_session =
      s.buffered_bytes_session - (idle.map (fun e => s.bytes_of e.1)).sum := by
  induction idle generalizing s with
  | nil => rfl
  | cons e idle ih =>
    obtain ⟨hnot, hnodup⟩ := List.nodup_cons.mp hnodup
    have hrest : idle.map (fun x => (insert_tombstone order.tombstones (s.remove_flow e.1) e.1 e.2
        now_ms).bytes_of x.1) = idle.map (fun x => s.bytes_of x.1) := by
      refine List.map_congr_left ?_
      intro x hx
      have hne : x.1 ≠ e.1 := fun he => hnot (List.mem_map.mpr ⟨x, hx, he⟩)
      unfold bytes_of
      rw [insert_tombstone_flows, remove_flow_lookup, if_neg hne]
    have hfirst : (s.remove_flow e.1).buffered_bytes_session =
        s.buffered_bytes_session - s.bytes_of e.1 := by
      unfold remove_flow bytes_of
      split
      · next flow hl => rw [hl]; rfl
      · next hl => rw [hl]; rfl
    unfold expire_idle
    rw [ih _ hnodup, hrest, (insert_tombstone_frame _ _ _ _ _).2, hfirst, List.map_cons,
      List.sum_cons, Nat.sub_sub]

theorem expire_idle_skips (idle : List (ReceiveKey × U64)) (s : SessionReorder) :
    (expire_idle order s now_ms idle).metrics.gaps_skipped = s.metrics.gaps_skipped ∧
      (expire_idle order s now_ms idle).metrics.packets_skipped = s.metrics.packets_skipped := by
  induction idle generalizing s with
  | nil => exact ⟨rfl, rfl⟩
  | cons e idle ih =>
    obtain ⟨hg, hp⟩ := insert_tombstone_skips order.tombstones (s.remove_flow e.1) e.1 e.2 now_ms
    have hmetrics : (s.remove_flow e.1).metrics = s.metrics := by
      unfold remove_flow
      split <;> rfl
    unfold expire_idle
    rw [(ih _).1, (ih _).2, hg, hp, hmetrics]
    exact ⟨rfl, rfl⟩

/-- **The idle pass** of a batch that fits. -/
theorem Agree.after_idle (h : Agree s s') (order order' : Orders)
    (htabled : Tabled s.flows s.tombstones s.limits.max_tombstones s.limits.tombstone_ttl_ms)
    (hfits : IdleFits s.limits.max_tombstones s.limits.tombstone_ttl_ms now_ms
      (live_tombstones s.tombstones now_ms)
      (SessionReorder.idle_flows order (s.purge_expired_tombstones now_ms) now_ms)) :
    Agree (s.after_idle order now_ms) (s'.after_idle order' now_ms) := by
  have hp := h.purge now_ms
  have hperm := hp.idle_flows order order' now_ms
  unfold SessionReorder.after_idle
  dsimp only
  refine ⟨?_, ?_, ?_, ?_, ?_, ?_⟩
  · rw [expire_idle_limits, expire_idle_limits, hp.limits]
  · intro k
    rw [expire_idle_lookup, expire_idle_lookup, hp.flows]
    have hmem := (hperm.map (·.1)).mem_iff (a := k)
    simp only [hmem]
  · intro k
    rw [expire_idle_table, expire_idle_table, hp.limits]
    refine retire_all_perm htabled.max_pos htabled.ttl_pos (htabled.purge now_ms).bound ?_
      (nodup_idle_flows order _ now_ms) ?_ hfits hp.tombstones hperm k
    · intro e he
      have hmem : e.1 ∈ s.flows := by
        obtain ⟨flow, hl, _⟩ := mem_idle_flows.mp (List.mem_map_of_mem he)
        exact AList.mem_of_lookup hl
      exact (htabled.purge now_ms).apart e.1 hmem
    · intro k t hl
      exact of_decide_eq_true (AList.lookup_retain_eq_some.mp hl).2
  · rw [expire_idle_bytes _ _ (nodup_idle_flows order' _ now_ms),
      expire_idle_bytes _ _ (nodup_idle_flows order _ now_ms), hp.bytes]
    have hbytes : (s'.purge_expired_tombstones now_ms).bytes_of =
        (s.purge_expired_tombstones now_ms).bytes_of := by
      funext k
      unfold bytes_of
      rw [hp.flows]
    rw [hbytes, (hperm.map _).sum_eq]
  · rw [(expire_idle_skips _ _).1, (expire_idle_skips _ _).1, hp.gaps]
  · rw [(expire_idle_skips _ _).2, (expire_idle_skips _ _).2, hp.packets]

theorem flatMap_tagged_expire_keys (h : Agree s s') (htwins : ∀ a ∈ s.flows.keys,
      ∀ b ∈ s.flows.keys, ReceiveKey.expire_le a b = true → ReceiveKey.expire_le b a = true →
      s.tagged now_ms a ≠ [] → s.tagged now_ms b ≠ [] → a = b) :
    (expire_keys order' s').flatMap (s.tagged now_ms) =
      (expire_keys order s).flatMap (s.tagged now_ms) := by
  have hperm : ((order'.flows.visit s'.flows.entries).map (·.1)).Perm
      ((order.flows.visit s.flows.entries).map (·.1)) :=
    (((order'.flows.perm _).trans (AList.entries_perm h.flows)).trans
      (order.flows.perm _).symm).map _
  have hmem : ∀ k, k ∈ (order.flows.visit s.flows.entries).map (·.1) → k ∈ s.flows.keys := by
    intro k hk
    exact mem_expire_keys.mp ((List.mem_insertionSort _).mpr hk)
  exact ranking_expire_le.flatMap_insertionSort hperm (s.tagged now_ms)
    (fun a ha b hb => htwins a (hmem a ha) b (hmem b hb))

/-- A key that releases something after the idle pass did so before it. -/
theorem releases_of_after_idle {s₁ : SessionReorder} {key : ReceiveKey}
    (hflows : s₁.flows = (s.after_idle order now_ms).flows) (hlimits : s₁.limits = s.limits)
    (h : s₁.tagged now_ms key ≠ []) : s.releases now_ms key = true := by
  obtain ⟨flow, smallest, head, hdue⟩ := releases_of_tagged h
  have hl := hdue.found
  rw [hflows] at hl
  obtain ⟨hl, hyoung⟩ := after_idle_eq_some.mp hl
  have hdeadline := hdue.overdue
  rw [hlimits] at hdeadline
  unfold releases
  rw [hl, Option.any_some, hdue.first, Option.any_some, hdue.held, Option.any_some]
  simp [hyoung, hdue.unexhausted, hdue.gap, hdeadline]

/-- **One pass of time**: a batch of idle flows that fits, and no twins. -/
theorem Agree.expire (h : Agree s s') (order order' : Orders)
    (htabled : Tabled s.flows s.tombstones s.limits.max_tombstones s.limits.tombstone_ttl_ms)
    (hfits : IdleFits s.limits.max_tombstones s.limits.tombstone_ttl_ms now_ms
      (live_tombstones s.tombstones now_ms)
      (SessionReorder.idle_flows order (s.purge_expired_tombstones now_ms) now_ms))
    (htwins : s.NoTwins now_ms) :
    Agree (s.expire order now_ms).1 (s'.expire order' now_ms).1 ∧
      (s'.expire order' now_ms).2 = (s.expire order now_ms).2 := by
  have hafter := h.after_idle order order' htabled hfits
  have hcount := ((h.purge now_ms).idle_flows order order' now_ms).length_eq
  obtain ⟨s₁, n, hs₁, hlimits₁, hstate, hout⟩ := expire_eq s order now_ms
  obtain ⟨s₁', n', hs₁', hlimits₁', hstate', hout'⟩ := expire_eq s' order' now_ms
  have hagree : Agree s₁ s₁' := by
    rw [hs₁, hs₁']
    exact hafter.with_metrics hafter.gaps hafter.packets
  have hflows : s₁.flows = (s.after_idle order now_ms).flows := by rw [hs₁]
  -- the second run may visit the keys in the order of the first
  have hkeys : (expire_keys order' s₁').Perm (expire_keys order s₁) := by
    refine (List.perm_ext_iff_of_nodup (nodup_expire_keys _ _) (nodup_expire_keys _ _)).mpr ?_
    intro k
    rw [mem_expire_keys, mem_expire_keys, AList.mem_iff_lookup, AList.mem_iff_lookup, hagree.flows]
  have hend : Agree (s.expire order now_ms).1 (s'.expire order' now_ms).1 := by
    rw [hstate, hstate']
    exact (hagree.skip_flows _).trans (skip_flows_perm hkeys now_ms s₁')
  have htagged : ∀ k, s₁'.tagged now_ms k = s₁.tagged now_ms k := by
    intro k
    unfold tagged
    rw [(hagree.pass k now_ms).2]
  have hdelivered : (s'.expire order' now_ms).2.delivered = (s.expire order now_ms).2.delivered := by
    rw [hout, hout', skip_flows_delivered (nodup_expire_keys order s₁),
      skip_flows_delivered (nodup_expire_keys order' s₁'), funext htagged]
    refine flatMap_tagged_expire_keys hagree ?_
    intro a ha b hb hab hba hra hrb
    have hmem : ∀ k, k ∈ s₁.flows.keys → k ∈ s.flows.keys := by
      intro k hk
      obtain ⟨flow, hl⟩ := AList.mem_iff_lookup.mp hk
      rw [hflows] at hl
      exact AList.mem_of_lookup (after_idle_eq_some.mp hl).1
    exact htwins a (hmem a ha) b (hmem b hb) hab hba (releases_of_after_idle hflows hlimits₁ hra)
      (releases_of_after_idle hflows hlimits₁ hrb)
  refine ⟨hend, ?_⟩
  have hreport : ∀ (s : SessionReorder) (order : Orders), (s.expire order now_ms).2 =
      ⟨(s.expire order now_ms).2.delivered,
        (s.expire order now_ms).1.metrics.gaps_skipped - s.metrics.gaps_skipped,
        (s.expire order now_ms).1.metrics.packets_skipped - s.metrics.packets_skipped,
        (SessionReorder.idle_flows order (s.purge_expired_tombstones now_ms) now_ms).length⟩ :=
    fun s order => rfl
  rw [hreport s, hreport s', hdelivered, hend.gaps, h.gaps, hend.packets, h.packets, hcount]

end Expire

/-! ## The tables -/

section Kept

variable {s s' : SessionReorder} {key : ReceiveKey} {now_ms : ℕ} {order : Orders}
  {traffic_class : TrafficClass} {packet_id : PacketId} {payload : Bytes}

/-- No key has a flow and a tombstone, and the tombstones are within their limit. -/
def Kept (s : SessionReorder) : Prop :=
  Tabled s.flows s.tombstones s.limits.max_tombstones s.limits.tombstone_ttl_ms

theorem Kept.of_updates {ds : List (PacketId × Bytes)} (h : s.Kept)
    (hlimits : s'.limits = s.limits) (hu : Updates s s' key ds) : s'.Kept := by
  unfold Kept
  rw [hlimits, hu.tombstones]
  refine ⟨h.max_pos, h.ttl_pos, ?_, h.bound⟩
  intro k hk
  refine h.apart k ?_
  obtain ⟨f', hf'⟩ := AList.mem_iff_lookup.mp hk
  by_cases hne : k = key
  · subst hne
    obtain ⟨f, hf, _⟩ := hu.flow f' hf'
    exact AList.mem_of_lookup hf
  · rw [hu.others k hne] at hf'
    exact AList.mem_of_lookup hf'

theorem remove_flow_flows (s : SessionReorder) (key : ReceiveKey) :
    (s.remove_flow key).flows = s.flows.erase key := by
  unfold remove_flow
  split
  · rfl
  · next hl => exact (AList.erase_of_notMem (AList.lookup_eq_none.mp hl)).symm

theorem Kept.retire {order : Traversal ReceiveKey ReorderTombstone} (h : s.Kept) (key : ReceiveKey)
    (watermark : U64) (m : ReorderMetrics) :
    (insert_tombstone order { s.remove_flow key with metrics := m } key watermark now_ms).Kept := by
  unfold Kept
  rw [insert_tombstone_flows, insert_tombstone_tombstones, (insert_tombstone_frame _ _ _ _ _).1]
  dsimp only
  rw [remove_flow_flows, remove_flow_limits, remove_flow_tombstones]
  exact Tabled.retire h

theorem Kept.make_room (h : s.Kept) : (make_room order s now_ms).Kept := by
  unfold SessionReorder.make_room
  split
  · rcases evict_oldest_flow_cases order s now_ms with he | ⟨key, flow, m, _, he⟩
    · rw [he]
      exact h
    · rw [he]
      exact h.retire key _ m
  · exact h

theorem Kept.receive (h : s.Kept) :
    (s.receive order key traffic_class packet_id payload now_ms).1.Kept := by
  unfold SessionReorder.receive
  split
  · exact h
  cases hl : s.flows.lookup key with
  | some flow => exact h.of_updates (receive_known_limits _ _ _ _ _ _ _) (receive_known_updates hl)
  | none =>
    dsimp only
    rw [receive_unknown_eq]
    split
    · exact h
    · have hforget : (s.forget_tombstone key now_ms).Kept := Tabled.forget h key
      have hroom : (SessionReorder.make_room order (s.forget_tombstone key now_ms) now_ms).Kept :=
        hforget.make_room
      refine Tabled.write hroom (AList.lookup_eq_none.mp (make_room_absent hl ?_)) _
      exact AList.lookup_erase key s.tombstones

theorem Kept.expire (h : s.Kept) : (s.expire order now_ms).1.Kept := by
  unfold SessionReorder.expire
  have hidle : ∀ idle : List (ReceiveKey × U64), ∀ {s : SessionReorder}, s.Kept →
      (expire_idle order s now_ms idle).Kept := by
    intro idle
    induction idle with
    | nil => exact fun h => h
    | cons e idle ih =>
      intro s h
      exact ih (h.retire e.1 e.2 (s.remove_flow e.1).metrics)
  refine skip_flows_induct ?_ _ ?_
  · intro s key h
    exact h.of_updates (skip_head_gap_limits s key now_ms) (skip_head_gap_updates s key now_ms)
  · exact hidle _ (Tabled.purge h now_ms)

end Kept

end SessionReorder

/-! ## Runs -/

namespace ReorderCall

/-- **A call whose result no iteration order can change**: an arrival that evicts a flow finds
a single least recently active one, and a pass of time retires a batch that fits and serves
no twins. -/
def OrderFree (s : SessionReorder) : ReorderCall → Prop
  | .receive key traffic_class packet_id _ now_ms _ =>
    s.opens key traffic_class packet_id.get now_ms → s.limits.max_flows ≤ s.flows.len →
      UniqueOldest FlowState.last_activity_ms s.flows
  | .expire now_ms order =>
    IdleFits s.limits.max_tombstones s.limits.tombstone_ttl_ms now_ms
        (live_tombstones s.tombstones now_ms)
        (SessionReorder.idle_flows order (s.purge_expired_tombstones now_ms) now_ms) ∧
      s.NoTwins now_ms

instance (s : SessionReorder) : DecidablePred (ReorderCall.OrderFree s)
  | .receive _ _ _ _ _ _ => inferInstanceAs (Decidable (_ → _ → _))
  | .expire _ _ => inferInstanceAs (Decidable (_ ∧ _))

theorem kept_perform {s : SessionReorder} (h : s.Kept) (call : ReorderCall) :
    (call.perform s).1.Kept := by
  cases call with
  | receive => exact h.receive
  | expire => exact h.expire

/-- **One call in two iteration orders.** -/
theorem agree_perform {s s' : SessionReorder} (h : SessionReorder.Agree s s') (hkept : s.Kept)
    {call call' : ReorderCall} (hsame : call.SameCall call') (hfree : call.OrderFree s) :
    SessionReorder.Agree (call.perform s).1 (call'.perform s').1 ∧
      (call'.perform s').2 = (call.perform s).2 := by
  cases hsame with
  | receive key traffic_class packet_id payload now order order' =>
    obtain ⟨hagree, hout⟩ := h.receive order order' payload hkept.max_pos hfree
    exact ⟨hagree, congrArg ReorderReply.outcome hout⟩
  | expire now order order' =>
    obtain ⟨hagree, hout⟩ := h.expire order order' hkept hfree.1 hfree.2
    exact ⟨hagree, congrArg ReorderReply.report hout⟩

end ReorderCall

/-- **Two runs of the same calls** reply alike and end in sessions that agree. -/
theorem reorder_runs_agree {s s' t t' : SessionReorder} {calls calls' : List ReorderCall}
    {turns turns' : List ReorderTurn} (h : SessionReorder.Agree s s') (hkept : s.Kept)
    (hsame : List.Forall₂ ReorderCall.SameCall calls calls')
    (hfree : Along ReorderCall.turn (fun s call => call.OrderFree s) s calls)
    (hrun : exec ReorderCall.turn s calls = some (t, turns))
    (hrun' : exec ReorderCall.turn s' calls' = some (t', turns')) :
    SessionReorder.Agree t t' ∧ turns'.map ReorderTurn.reply = turns.map ReorderTurn.reply := by
  induction hsame generalizing s s' turns turns' with
  | nil =>
    obtain ⟨rfl, rfl⟩ := step_inj hrun
    obtain ⟨rfl, rfl⟩ := step_inj hrun'
    exact ⟨h, rfl⟩
  | @cons call call' calls calls' hcall _ ih =>
    obtain ⟨s₁, out, rest, hstep, hrest, rfl⟩ := exec_cons_eq_some.mp hrun
    obtain ⟨s₁', out', rest', hstep', hrest', rfl⟩ := exec_cons_eq_some.mp hrun'
    obtain ⟨hnow, hlater⟩ := (along_cons hstep).mp hfree
    obtain ⟨rfl, rfl⟩ := step_inj hstep
    obtain ⟨rfl, rfl⟩ := step_inj hstep'
    obtain ⟨hagree, hreply⟩ := ReorderCall.agree_perform h hkept hcall hnow
    obtain ⟨hend, hreplies⟩ := ih hagree (ReorderCall.kept_perform hkept call) hlater hrest hrest'
    refine ⟨hend, ?_⟩
    rw [List.map_append, List.map_append, hreplies]
    exact congrArg (fun r => [r] ++ rest.map ReorderTurn.reply) hreply

theorem new_kept {limits : ReorderLimits} {s : SessionReorder}
    (h : SessionReorder.new limits = .ok s) : s.Kept := by
  unfold SessionReorder.new at h
  split at h
  · contradiction
  · next hvalid =>
    obtain rfl := Except.ok.inj h
    obtain ⟨_, hmax⟩ := SessionReorder.validate_pos hvalid
    refine ⟨hmax, ?_, ?_, Nat.zero_le _⟩
    · unfold ReorderLimits.validate at hvalid
      split at hvalid
      · contradiction
      · dsimp only
        omega
    · intro k hk
      contradiction

end StreamGuard.Multipath
