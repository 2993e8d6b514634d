/-
What `SessionDedup` remembers of the IDs it accepted for one key.

While a flow is held it knows every ID it accepted, as long as none made way for capacity.
When the flow is removed, its tombstone knows the largest of them, and a larger ID opens the
next flow, which knows nothing of the former ones: an ID of a former flow is accepted again.
`History` keeps what the table forgets. An ID is accepted twice exactly when an ID of a former
flow comes back while a later flow is held.
-/
import StreamGuard.Multipath.DedupDeterminism

set_option autoImplicit false

namespace StreamGuard.Multipath

open StreamGuard StreamGuard.Lib

/-! ## The accepted IDs -/

/-- The IDs of a key that `observe` called new: by the flows that have made way for another,
and by the last one. -/
structure History where
  former : List U64
  current : List U64

/-- All of them, in order. -/
def History.news (h : History) : List U64 := h.former ++ h.current

def History.empty : History := ⟨[], []⟩

namespace DedupCall

/-- The accepted IDs of `K` after one more call. -/
def record (K : ReceiveKey) (s : SessionDedup) (h : History) : DedupCall → History
  | .observe key packet_id now_ms order =>
    if key = K ∧ (s.observe order key packet_id now_ms).2 = .New then
      if K ∈ s.flows then { h with current := h.current ++ [packet_id.get] }
      else ⟨h.news, [packet_id.get]⟩
    else h
  | .expire _ _ => h

/-- A remembered ID of `K` makes way for the new one. -/
def EvictsPacket (K : ReceiveKey) (s : SessionDedup) : DedupCall → Prop
  | .observe key packet_id _ _ => key = K ∧ ∃ flow ∈ s.flows.lookup K,
      packet_id.get ∉ flow.seen ∧ s.limits.max_packets_per_flow ≤ flow.seen.len
  | .expire _ _ => False

/-- A tombstone of `K` expires or is evicted: `K` is no longer known after the call, or the
tombstone that the call looks at has expired. -/
def LosesTombstone (K : ReceiveKey) (s : SessionDedup) (call : DedupCall) : Prop :=
  (K ∈ s.flows ∨ K ∈ s.tombstones) ∧ K ∉ (call.perform s).1.flows ∧
      K ∉ (call.perform s).1.tombstones ∨
    match call with
    | .observe key _ now_ms _ => key = K ∧ ∃ t ∈ s.tombstones.lookup K, t.expires_at_ms ≤ now_ms
    | .expire _ _ => False

/-- An ID of a former flow of `K` comes back while a later one is held. -/
def ReturnsFormer (K : ReceiveKey) (w : SessionDedup × History) : DedupCall → Prop
  | .observe key packet_id _ _ => key = K ∧ K ∈ w.1.flows ∧ packet_id.get ∈ w.2.former
  | .expire _ _ => False

instance (K : ReceiveKey) (s : SessionDedup) : DecidablePred (EvictsPacket K s)
  | .observe key packet_id _ _ => inferInstanceAs (Decidable (key = K ∧
      ∃ flow ∈ s.flows.lookup K, packet_id.get ∉ flow.seen ∧
        s.limits.max_packets_per_flow ≤ flow.seen.len))
  | .expire _ _ => inferInstanceAs (Decidable False)

instance (K : ReceiveKey) (s : SessionDedup) : DecidablePred (LosesTombstone K s)
  | .observe key packet_id now_ms order =>
    inferInstanceAs (Decidable ((K ∈ s.flows ∨ K ∈ s.tombstones) ∧
      K ∉ ((DedupCall.observe key packet_id now_ms order).perform s).1.flows ∧
        K ∉ ((DedupCall.observe key packet_id now_ms order).perform s).1.tombstones ∨
      key = K ∧ ∃ t ∈ s.tombstones.lookup K, t.expires_at_ms ≤ now_ms))
  | .expire now_ms order =>
    inferInstanceAs (Decidable ((K ∈ s.flows ∨ K ∈ s.tombstones) ∧
      K ∉ ((DedupCall.expire now_ms order).perform s).1.flows ∧
        K ∉ ((DedupCall.expire now_ms order).perform s).1.tombstones ∨ False))

instance (K : ReceiveKey) (w : SessionDedup × History) : DecidablePred (ReturnsFormer K w)
  | .observe key packet_id _ _ =>
    inferInstanceAs (Decidable (key = K ∧ K ∈ w.1.flows ∧ packet_id.get ∈ w.2.former))
  | .expire _ _ => inferInstanceAs (Decidable False)

end DedupCall

/-! ## What the table remembers -/

namespace SessionDedup

/-- **The table and the history of `K`**: a held flow remembers what it accepted, the largest
accepted ID is known, and a key of which nothing is known accepted nothing. -/
structure Remembered (s : SessionDedup) (K : ReceiveKey) (h : History) : Prop where
  guarded : s.Guarded K h.news
  seen : ∀ flow, s.flows.lookup K = some flow → ∀ id, id ∈ flow.seen ↔ id ∈ h.current
  absent : K ∉ s.flows → K ∉ s.tombstones → h.news = []

section Steps

variable {s s' : SessionDedup} {K key : ReceiveKey} {h : History} {id : U64} {now_ms : ℕ}
  {flow flow' : FlowDedup} {order : Orders} {past : List U64}

/-- Making room only takes flows out. -/
theorem make_room_lookup (hl : (make_room order s now_ms).flows.lookup K = some flow) :
    s.flows.lookup K = some flow := by
  unfold make_room evict_oldest_flow at hl
  split at hl
  · split at hl
    · rw [(insert_tombstone_frame _ _ _ _ _).1] at hl
      exact AList.lookup_of_erase hl
    · exact hl
  · exact hl

/-- A call on another key only takes the flow of `K` out. -/
theorem observe_lookup_of_ne {packet_id : PacketId} (hk : key ≠ K)
    (hl : (s.observe order key packet_id now_ms).1.flows.lookup K = some flow) :
    s.flows.lookup K = some flow := by
  unfold SessionDedup.observe at hl
  cases hheld : s.flows.lookup key with
  | some held =>
    rw [hheld] at hl
    dsimp only at hl
    obtain ⟨m, he, _⟩ := observe_known_eq s key held packet_id.get now_ms
    rw [he, AList.lookup_insert_ne hk.symm] at hl
    exact hl
  | none =>
    rw [hheld] at hl
    dsimp only at hl
    rcases observe_unknown_cases order s key packet_id.get now_ms with ⟨_, m, he⟩ | ⟨_, m, he⟩
    · rw [he] at hl
      exact hl
    · rw [he] at hl
      unfold open_flow at hl
      rw [AList.lookup_insert_ne hk.symm] at hl
      have hroom := make_room_lookup hl
      exact hroom

theorem expire_lookup (hl : (s.expire order now_ms).1.flows.lookup K = some flow) :
    s.flows.lookup K = some flow := by
  have hl : (expire_idle order (s.purge_expired_tombstones now_ms) now_ms
    (idle_flows order (s.purge_expired_tombstones now_ms) now_ms)).flows.lookup K =
      some flow := hl
  rw [expire_idle_lookup] at hl
  split at hl
  · contradiction
  · exact hl

theorem open_flow_new (order : Orders) (s : SessionDedup) (key : ReceiveKey) (id : U64)
    (now_ms : ℕ) : (open_flow order s key id now_ms).2 = .New := rfl

/-- Writing a flow for `K` that covers `past`. -/
theorem guarded_of_write {flows : Map ReceiveKey FlowDedup}
    (hcapacity : 0 < s'.limits.max_packets_per_flow) (hflows : s'.flows = flows.insert K flow')
    (hnone : s'.tombstones.lookup K = none) (hcovers : flow'.Covers past) : s'.Guarded K past := by
  refine ⟨hcapacity, ?_, ?_⟩
  · intro f hl
    rw [hflows, AList.lookup_insert] at hl
    obtain rfl := Option.some.inj hl
    exact ⟨hcovers, hnone⟩
  · intro t ht
    rw [hnone] at ht
    contradiction

/-- A call that accepts nothing for `K`, and loses nothing of it. -/
theorem Remembered.frame (hr : s.Remembered K h) (hguarded : s'.Guarded K h.news)
    (hflow : ∀ flow, s'.flows.lookup K = some flow →
      ∃ flow₀, s.flows.lookup K = some flow₀ ∧ flow.seen = flow₀.seen)
    (hknown : K ∈ s.flows ∨ K ∈ s.tombstones → K ∈ s'.flows ∨ K ∈ s'.tombstones) :
    s'.Remembered K h := by
  refine ⟨hguarded, ?_, ?_⟩
  · intro flow hl id
    obtain ⟨flow₀, hl₀, hseen⟩ := hflow flow hl
    rw [hseen]
    exact hr.seen flow₀ hl₀ id
  · intro hf ht
    have hunknown : ¬ (K ∈ s.flows ∨ K ∈ s.tombstones) :=
      fun hmem => (hknown hmem).elim hf ht
    rw [not_or] at hunknown
    exact hr.absent hunknown.1 hunknown.2

/-- A flow of `K` written with the IDs the history now has. -/
theorem remembered_of_write {h' : History} {flows : Map ReceiveKey FlowDedup}
    (hcapacity : 0 < s'.limits.max_packets_per_flow) (hflows : s'.flows = flows.insert K flow')
    (hnone : s'.tombstones.lookup K = none) (hcovers : flow'.Covers h'.news)
    (hseen : ∀ id, id ∈ flow'.seen ↔ id ∈ h'.current) : s'.Remembered K h' := by
  refine ⟨guarded_of_write hcapacity hflows hnone hcovers, ?_, ?_⟩
  · intro f hl
    rw [hflows, AList.lookup_insert] at hl
    obtain rfl := Option.some.inj hl
    exact hseen
  · intro hf
    rw [hflows] at hf
    exact absurd ((AList.mem_insert _).mpr (.inl rfl)) hf

/-! ## Calls -/

/-- An ID observed on the held flow of `K`, with room for it. -/
theorem Remembered.observe_known (hr : s.Remembered K h) (now_ms : ℕ)
    (hl : s.flows.lookup K = some flow)
    (hroom : id ∉ flow.seen → flow.seen.len < s.limits.max_packets_per_flow) :
    (observe_known s K flow id now_ms).1.Remembered K
        (if (observe_known s K flow id now_ms).2 = .New then
          { h with current := h.current ++ [id] } else h) ∧
      ((observe_known s K flow id now_ms).2 = .New ↔ id ∉ h.current) := by
  obtain ⟨m, he, hout⟩ := observe_known_eq s K flow id now_ms
  obtain ⟨hcovers, hnone⟩ := hr.guarded.flow flow hl
  rw [he, hout, ← hr.seen flow hl]
  by_cases hid : id ∈ flow.seen
  · rw [if_pos hid, if_pos hid, if_neg (fun h => DedupOutcome.noConfusion h)]
    refine ⟨?_, iff_of_false (fun h => DedupOutcome.noConfusion h) (not_not.mpr hid)⟩
    exact remembered_of_write hr.guarded.capacity rfl hnone hcovers (hr.seen flow hl)
  · rw [if_neg hid, if_neg hid, if_pos rfl, if_neg (not_le.mpr (hroom hid))]
    refine ⟨?_, iff_of_true rfl hid⟩
    obtain ⟨top, htop, hpast⟩ := hcovers
    refine remembered_of_write hr.guarded.capacity rfl hnone ?_ ?_
    · have hins := covers_insert htop hpast id now_ms
      rwa [History.news, List.append_assoc] at hins
    · intro j
      rw [AList.mem_insert, hr.seen flow hl, List.mem_append, List.mem_singleton, or_comm]

/-- What is known of `K` without a flow lies below an ID that no tombstone rejects. -/
theorem Remembered.below (hr : s.Remembered K h) (hl : s.flows.lookup K = none)
    (hreplayed : ¬ s.replayed K id now_ms)
    (hlive : ∀ t, s.tombstones.lookup K = some t → now_ms < t.expires_at_ms) :
    ∀ j ∈ h.news, j < id := by
  intro j hj
  rcases Option.eq_none_or_eq_some (s.tombstones.lookup K) with ht | ⟨t, ht⟩
  · rw [hr.absent (AList.lookup_eq_none.mp hl) (AList.lookup_eq_none.mp ht)] at hj
    contradiction
  · refine lt_of_le_of_lt (hr.guarded.tombstone t ht j hj) ?_
    by_contra hle
    exact hreplayed ⟨t, ht, hlive t ht, not_lt.mp hle⟩

/-- A flow of `K` that is opened above everything accepted. -/
theorem Remembered.open_flow (hr : s.Remembered K h) (hl : s.flows.lookup K = none)
    (hbelow : ∀ j ∈ h.news, j < id) (m : DedupMetrics) :
    (open_flow order { s with tombstones := s.tombstones.erase K, metrics := m } K id
      now_ms).1.Remembered K ⟨h.news, [id]⟩ := by
  have hnone := make_room_absent (s := { s with tombstones := s.tombstones.erase K, metrics := m })
    order now_ms hl (AList.lookup_erase K s.tombstones)
  refine remembered_of_write ?_ rfl hnone ?_ ?_
  · show 0 < (make_room order _ now_ms).limits.max_packets_per_flow
    rw [make_room_limits]
    exact hr.guarded.capacity
  · exact covers_above (fun j hj => (hbelow j hj).le) le_rfl now_ms
  · intro j
    rw [AList.mem_insert, List.mem_singleton]
    simp [AList.notMem_empty]

end Steps

end SessionDedup

namespace DedupCall

section Runs

variable {s : SessionDedup} {K : ReceiveKey} {h : History}

theorem nodup_snoc {past : List U64} {id : U64} :
    (past ++ [id]).Nodup ↔ past.Nodup ∧ id ∉ past := by
  rw [← List.concat_eq_append, List.nodup_concat, and_comm]

theorem news_snoc (h : History) (id : U64) :
    History.news { h with current := h.current ++ [id] } = h.news ++ [id] :=
  (List.append_assoc h.former h.current [id]).symm

/-- **One call** that neither evicts a packet of `K` nor loses a tombstone of it. -/
theorem remembered_perform (hr : s.Remembered K h) (call : DedupCall)
    (hpacket : ¬ call.EvictsPacket K s) (htombstone : ¬ call.LosesTombstone K s) :
    (call.perform s).1.Remembered K (call.record K s h) ∧
      ((call.record K s h).news.Nodup ↔ h.news.Nodup ∧ ¬ call.ReturnsFormer K (s, h)) := by
  -- what is known of `K` stays known
  have hknown : K ∈ s.flows ∨ K ∈ s.tombstones →
      K ∈ (call.perform s).1.flows ∨ K ∈ (call.perform s).1.tombstones := by
    intro hbefore
    by_contra hafter
    rw [not_or] at hafter
    exact htombstone (.inl ⟨hbefore, hafter⟩)
  cases call with
  | expire now_ms order =>
    refine ⟨hr.frame hr.guarded.expire ?_ hknown, by simp [record, ReturnsFormer]⟩
    exact fun flow hl => ⟨flow, SessionDedup.expire_lookup hl, rfl⟩
  | observe key packet_id now_ms order =>
    by_cases hk : key = K
    · subst hk
      unfold perform record ReturnsFormer SessionDedup.observe
      dsimp only
      simp only [true_and]
      cases hl : s.flows.lookup key with
      | some flow =>
        have hmem : key ∈ s.flows := AList.mem_of_lookup hl
        have hroom : packet_id.get ∉ flow.seen → flow.seen.len < s.limits.max_packets_per_flow := by
          intro hnew
          by_contra hfull
          exact hpacket ⟨rfl, flow, hl, hnew, not_lt.mp hfull⟩
        obtain ⟨hremembered, hnew⟩ := hr.observe_known now_ms hl hroom
        simp only [hmem, if_true, true_and]
        refine ⟨hremembered, ?_⟩
        by_cases hcurrent : packet_id.get ∈ h.current
        · -- a repeat of a remembered ID is accepted by no one
          rw [if_neg (fun hout => hnew.mp hout hcurrent)]
          refine ⟨fun hnodup => ⟨hnodup, ?_⟩, And.left⟩
          exact fun hformer => List.disjoint_of_nodup_append hnodup hformer hcurrent
        · rw [if_pos (hnew.mpr hcurrent), news_snoc, nodup_snoc]
          simp [History.news, hcurrent]
      | none =>
        have hnot : key ∉ s.flows := AList.lookup_eq_none.mp hl
        simp only [hnot, if_false, false_and, not_false_iff, and_true]
        rcases SessionDedup.observe_unknown_cases order s key packet_id.get now_ms with
          ⟨_, m, he⟩ | ⟨hreplayed, m, he⟩
        · rw [he, if_neg (fun hout => DedupOutcome.noConfusion hout)]
          exact ⟨hr.frame (hr.guarded.congr rfl rfl (fun t ht => ht))
            (fun flow hl => ⟨flow, hl, rfl⟩) id, Iff.rfl⟩
        · have hlive : ∀ t, s.tombstones.lookup key = some t → now_ms < t.expires_at_ms := by
            intro t ht
            by_contra hexpired
            exact htombstone (.inr ⟨rfl, t, ht, not_lt.mp hexpired⟩)
          have hbelow := hr.below hl hreplayed hlive
          rw [he, if_pos (SessionDedup.open_flow_new ..)]
          refine ⟨hr.open_flow hl hbelow m, ?_⟩
          exact nodup_snoc.trans (and_iff_left (fun hmem => lt_irrefl _ (hbelow _ hmem)))
    · have hguarded := guarded_perform hr.guarded (.observe key packet_id now_ms order)
        (fun hreplaces => hk hreplaces.1)
      unfold record ReturnsFormer
      simp only [hk, false_and, if_false, not_false_iff, and_true]
      unfold observed at hguarded
      dsimp only at hguarded
      rw [if_neg hk] at hguarded
      exact hr.frame hguarded
        (fun flow hl => ⟨flow, SessionDedup.observe_lookup_of_ne hk hl, rfl⟩) hknown

/-! ## The counters -/

/-- The call is an `observe`. -/
def is_observe : DedupCall → Bool
  | .observe _ _ _ _ => true
  | .expire _ _ => false

/-- The counters after some replies: one for each, up to the largest number they hold. -/
structure Counted (s : SessionDedup) (replies : List DedupReply) : Prop where
  seen : s.metrics.packets_seen = min (replies.count (.outcome .New)) u64Max
  dropped : s.metrics.duplicates_dropped = min (replies.count (.outcome .Duplicate)) u64Max

/-- Retiring flows counts neither. -/
theorem insert_tombstone_counters (order : Traversal ReceiveKey DedupTombstone)
    (s : SessionDedup) (key : ReceiveKey) (watermark : U64) (now_ms : ℕ) :
    (SessionDedup.insert_tombstone order s key watermark now_ms).metrics.packets_seen =
        s.metrics.packets_seen ∧
      (SessionDedup.insert_tombstone order s key watermark now_ms).metrics.duplicates_dropped =
        s.metrics.duplicates_dropped := by
  unfold SessionDedup.insert_tombstone SessionDedup.evict_tombstone
  dsimp only
  split
  · split <;> exact ⟨rfl, rfl⟩
  · exact ⟨rfl, rfl⟩

theorem make_room_counters (order : SessionDedup.Orders) (s : SessionDedup) (now_ms : ℕ) :
    (SessionDedup.make_room order s now_ms).metrics.packets_seen = s.metrics.packets_seen ∧
      (SessionDedup.make_room order s now_ms).metrics.duplicates_dropped =
        s.metrics.duplicates_dropped := by
  unfold SessionDedup.make_room SessionDedup.evict_oldest_flow
  split
  · split
    · exact insert_tombstone_counters _ _ _ _ _
    · exact ⟨rfl, rfl⟩
  · exact ⟨rfl, rfl⟩

theorem expire_idle_counters (order : SessionDedup.Orders) (now_ms : ℕ)
    (idle : List (ReceiveKey × U64)) (s : SessionDedup) :
    (SessionDedup.expire_idle order s now_ms idle).metrics.packets_seen =
        s.metrics.packets_seen ∧
      (SessionDedup.expire_idle order s now_ms idle).metrics.duplicates_dropped =
        s.metrics.duplicates_dropped := by
  induction idle generalizing s with
  | nil => exact ⟨rfl, rfl⟩
  | cons e idle ih =>
    unfold SessionDedup.expire_idle
    obtain ⟨hseen, hdropped⟩ := ih (SessionDedup.insert_tombstone order.tombstones
      { s with flows := s.flows.erase e.1 } e.1 e.2 now_ms)
    obtain ⟨hseen', hdropped'⟩ := insert_tombstone_counters order.tombstones
      { s with flows := s.flows.erase e.1 } e.1 e.2 now_ms
    exact ⟨hseen.trans hseen', hdropped.trans hdropped'⟩

/-- What one `observe` counts. -/
theorem observe_counters (s : SessionDedup) (order : SessionDedup.Orders) (key : ReceiveKey)
    (packet_id : PacketId) (now_ms : ℕ) :
    (s.observe order key packet_id now_ms).2 = .New ∧
        (s.observe order key packet_id now_ms).1.metrics.packets_seen =
          saturatingAdd s.metrics.packets_seen 1 ∧
        (s.observe order key packet_id now_ms).1.metrics.duplicates_dropped =
          s.metrics.duplicates_dropped ∨
      (s.observe order key packet_id now_ms).2 = .Duplicate ∧
        (s.observe order key packet_id now_ms).1.metrics.packets_seen =
          s.metrics.packets_seen ∧
        (s.observe order key packet_id now_ms).1.metrics.duplicates_dropped =
          saturatingAdd s.metrics.duplicates_dropped 1 := by
  have hopen : ∀ s' : SessionDedup, s'.metrics.packets_seen = s.metrics.packets_seen →
      s'.metrics.duplicates_dropped = s.metrics.duplicates_dropped →
      (SessionDedup.open_flow order s' key packet_id.get now_ms).1.metrics.packets_seen =
          saturatingAdd s.metrics.packets_seen 1 ∧
        (SessionDedup.open_flow order s' key packet_id.get now_ms).1.metrics.duplicates_dropped =
          s.metrics.duplicates_dropped := by
    intro s' hseen hdropped
    obtain ⟨hseen', hdropped'⟩ := make_room_counters order s' now_ms
    unfold SessionDedup.open_flow
    dsimp only
    rw [hseen', hseen, hdropped', hdropped]
    exact ⟨rfl, rfl⟩
  unfold SessionDedup.observe SessionDedup.observe_known SessionDedup.observe_unknown
  split
  · split
    · exact .inr ⟨rfl, rfl, rfl⟩
    · exact .inl ⟨rfl, rfl, rfl⟩
  · split
    · exact .inl ⟨rfl, hopen s rfl rfl⟩
    · split
      · exact .inl ⟨rfl, hopen _ rfl rfl⟩
      · split
        · exact .inr ⟨rfl, rfl, rfl⟩
        · exact .inl ⟨rfl, hopen _ rfl rfl⟩

theorem counted_perform {s : SessionDedup} {replies : List DedupReply} (hs : Counted s replies)
    (call : DedupCall) : Counted (call.perform s).1 (replies ++ [(call.perform s).2]) := by
  obtain ⟨hseen, hdropped⟩ := hs
  cases call with
  | expire now_ms order =>
    obtain ⟨hseen', hdropped'⟩ := expire_idle_counters order now_ms
      (SessionDedup.idle_flows order (s.purge_expired_tombstones now_ms) now_ms)
      (s.purge_expired_tombstones now_ms)
    refine ⟨hseen'.trans (hseen.trans ?_), hdropped'.trans (hdropped.trans ?_)⟩
    · rw [List.count_append]
      rfl
    · rw [List.count_append]
      rfl
  | observe key packet_id now_ms order =>
    unfold perform
    dsimp only
    rcases observe_counters s order key packet_id now_ms with ⟨hout, hs, hd⟩ | ⟨hout, hs, hd⟩
    · refine ⟨?_, ?_⟩
      · rw [hout, hs, hseen, saturatingAdd_min, List.count_append]
        rfl
      · rw [hout, hd, hdropped, List.count_append]
        rfl
    · refine ⟨?_, ?_⟩
      · rw [hout, hs, hseen, List.count_append]
        rfl
      · rw [hout, hd, hdropped, saturatingAdd_min, List.count_append]
        rfl

/-- Every `observe` has one outcome. -/
theorem count_outcomes {s t : SessionDedup} {calls : List DedupCall} {replies : List DedupReply}
    (hrun : exec DedupCall.run s calls = some (t, replies)) :
    replies.count (.outcome .New) + replies.count (.outcome .Duplicate) =
      calls.countP is_observe := by
  induction calls generalizing s replies with
  | nil =>
    obtain ⟨_, rfl⟩ := step_inj hrun
    rfl
  | cons call calls ih =>
    obtain ⟨s₁, o, o', hs, he, rfl⟩ := exec_cons_eq_some.mp hrun
    obtain ⟨_, rfl⟩ := step_inj hs
    have hrest := ih he
    rw [List.count_append, List.count_append, List.countP_cons]
    cases call with
    | expire now_ms order =>
      simp only [perform, is_observe, List.count_singleton]
      simpa using hrest
    | observe key packet_id now_ms order =>
      simp only [perform, is_observe, List.count_singleton]
      cases (s.observe order key packet_id now_ms).2 with
      | New =>
        simp
        omega
      | Duplicate =>
        simp
        omega

end Runs

end DedupCall

/-- **First valid wins.** In a run that evicts no packet of `K` and loses no tombstone of it,
every ID of `K` is new at most once exactly if no ID of a former flow of `K` comes back while a
later one is held. In every run the two counters count the `observe` calls, as long as neither
is full. -/
theorem first_arrival_once_iff {limits : DedupLimits} {s t : SessionDedup} (K : ReceiveKey)
    {calls : List DedupCall} {h : History} {replies : List DedupReply}
    (hnew : SessionDedup.new limits = .ok s)
    (hrun : exec (withGhost (DedupCall.record K) DedupCall.run) (s, .empty) calls =
      some ((t, h), replies))
    (hkept : Along (withGhost (DedupCall.record K) DedupCall.run)
      (fun w call => ¬ call.EvictsPacket K w.1 ∧ ¬ call.LosesTombstone K w.1) (s, .empty) calls) :
    ((∀ id, h.news.count id ≤ 1) ↔
        Along (withGhost (DedupCall.record K) DedupCall.run)
          (fun w call => ¬ call.ReturnsFormer K w) (s, .empty) calls) ∧
      (replies.count (.outcome .New) ≤ u64Max → replies.count (.outcome .Duplicate) ≤ u64Max →
        t.metrics.packets_seen + t.metrics.duplicates_dropped =
          calls.countP DedupCall.is_observe) := by
  obtain ⟨hlimits, hstart⟩ : limits.validate = .ok () ∧ s = ⟨limits, ∅, ∅, .default⟩ := by
    unfold SessionDedup.new at hnew
    split at hnew
    · contradiction
    · next hvalid => exact ⟨hvalid, (Except.ok.inj hnew).symm⟩
  have hcapacity : 0 < limits.max_packets_per_flow := by
    unfold DedupLimits.validate at hlimits
    split at hlimits
    · contradiction
    · omega
  have hremembered : s.Remembered K .empty := by
    subst hstart
    refine ⟨⟨hcapacity, ?_, ?_⟩, ?_, fun _ _ => rfl⟩
    · intro flow hl
      contradiction
    · intro t ht
      contradiction
    · intro flow hl
      contradiction
  refine ⟨?_, ?_⟩
  · have hrule := exec_along_iff (I := fun w => w.1.Remembered K w.2)
      (P := fun w => w.2.news.Nodup) (C := fun w call => ¬ call.ReturnsFormer K w) ?_ hremembered
      hkept hrun
    · rw [← List.nodup_iff_count_le_one, hrule]
      exact and_iff_right List.nodup_nil
    · rintro ⟨s₁, h₁⟩ call ⟨s₂, h₂⟩ o hI ⟨hpacket, htombstone⟩ hstep
      obtain ⟨hperform, hrecord⟩ := withGhost_eq_some.mp hstep
      obtain rfl := congrArg Prod.fst (Option.some.inj hperform)
      dsimp only at hrecord
      subst hrecord
      exact DedupCall.remembered_perform hI call hpacket htombstone
  · intro hseen hdropped
    have hplain := exec_of_withGhost hrun
    have hcounted : DedupCall.Counted t ([] ++ replies) := by
      refine exec_along_induct (P := DedupCall.Counted) (C := fun _ _ => True) ?_ ?_
        (along_true s calls) hplain
      · intro s₁ call s₂ o a hI _ hstep
        obtain ⟨rfl, rfl⟩ := step_inj hstep
        exact DedupCall.counted_perform hI call
      · subst hstart
        exact ⟨rfl, rfl⟩
    have houtcomes := DedupCall.count_outcomes hplain
    rw [List.nil_append] at hcounted
    rw [hcounted.seen, hcounted.dropped]
    omega

namespace DedupSample

/-- Room for eight IDs in a flow. -/
def roomy : DedupLimits := ⟨4, 8, 10, 4, 1000⟩

/-- `0` opens the flow, which idles out; `0` again is rejected by the tombstone. -/
def rejected : List DedupCall :=
  [.observe key ⟨0⟩ 0 default, .expire 10 default, .observe key ⟨0⟩ 11 default]

/-- `1` opens the next flow in between. -/
def reopened : List DedupCall :=
  [.observe key ⟨0⟩ 0 default, .expire 10 default, .observe key ⟨1⟩ 11 default,
    .observe key ⟨0⟩ 12 default]

end DedupSample

open DedupSample in
/-- The run of `rejected`: two calls, one new. -/
theorem first_arrival_once_rejected :
    ∃ t h replies, exec (withGhost (DedupCall.record key) DedupCall.run)
        (⟨roomy, ∅, ∅, .default⟩, .empty) rejected = some ((t, h), replies) ∧
      (∀ id, h.news.count id ≤ 1) ∧
      t.metrics.packets_seen + t.metrics.duplicates_dropped = 2 := by
  have hnew : SessionDedup.new roomy = .ok ⟨roomy, ∅, ∅, .default⟩ := rfl
  have hkept : Along (withGhost (DedupCall.record key) DedupCall.run)
      (fun w call => ¬ call.EvictsPacket key w.1 ∧ ¬ call.LosesTombstone key w.1)
      (⟨roomy, ∅, ∅, .default⟩, .empty) rejected := by
    decide
  have hreturns : Along (withGhost (DedupCall.record key) DedupCall.run)
      (fun w call => ¬ call.ReturnsFormer key w) (⟨roomy, ∅, ∅, .default⟩, .empty) rejected := by
    decide
  have hreplies : (exec (withGhost (DedupCall.record key) DedupCall.run)
      (⟨roomy, ∅, ∅, .default⟩, .empty) rejected).map (fun r => r.2) =
        some [.outcome .New, .expired 1, .outcome .Duplicate] := by
    decide
  obtain ⟨⟨⟨t, h⟩, replies⟩, hrun, hout⟩ := Option.map_eq_some_iff.mp hreplies
  dsimp only at hout
  subst hout
  obtain ⟨hnews, hcounters⟩ := first_arrival_once_iff key hnew hrun hkept
  exact ⟨t, h, _, hrun, hnews.mpr hreturns, hcounters (by decide) (by decide)⟩

open DedupSample in
/-- The run of `reopened`, with a clock that goes forward: nothing is evicted for capacity and
no tombstone is lost, but `0` is new twice. -/
theorem first_arrival_twice :
    SessionDedup.new roomy = .ok ⟨roomy, ∅, ∅, .default⟩ ∧
    Along (withGhost (DedupCall.record key) DedupCall.run)
      (fun w call => ¬ call.EvictsPacket key w.1 ∧ ¬ call.LosesTombstone key w.1)
      (⟨roomy, ∅, ∅, .default⟩, .empty) reopened ∧
    ∃ t h, exec (withGhost (DedupCall.record key) DedupCall.run)
        (⟨roomy, ∅, ∅, .default⟩, .empty) reopened =
          some ((t, h), [.outcome .New, .expired 1, .outcome .New, .outcome .New]) ∧
      h.news.count 0 = 2 := by
  have hkept : Along (withGhost (DedupCall.record key) DedupCall.run)
      (fun w call => ¬ call.EvictsPacket key w.1 ∧ ¬ call.LosesTombstone key w.1)
      (⟨roomy, ∅, ∅, .default⟩, .empty) reopened := by
    decide
  have hends : (exec (withGhost (DedupCall.record key) DedupCall.run)
      (⟨roomy, ∅, ∅, .default⟩, .empty) reopened).map (fun r => (r.2, r.1.2.news)) =
        some ([.outcome .New, .expired 1, .outcome .New, .outcome .New], [0, 1, 0]) := by
    decide
  obtain ⟨⟨⟨t, h⟩, replies⟩, hrun, hr⟩ := Option.map_eq_some_iff.mp hends
  obtain ⟨hout, hnews⟩ := Prod.mk.inj hr
  dsimp only at hout hnews
  subst hout
  refine ⟨rfl, hkept, t, h, hrun, ?_⟩
  rw [hnews]
  decide

end StreamGuard.Multipath
