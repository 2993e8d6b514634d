/-
At-most-once, in-order delivery of `SessionReorder`.

The argument has one invariant per receive key. `FlowState.Follows` ties a flow
to the packet IDs already delivered under its key: everything delivered lies
below `next_expected` and everything held lies at or above it, unless the flow
is exhausted, and an exhausted flow delivers nothing more. When a flow leaves
the table, its tombstone bounds the delivered IDs by the watermark, so a
reopening starts past them. `Ordered` is that invariant on the whole state.

Every operation gets one lemma: what it does to the flow of the key, and what it
leaves alone for the other keys. The run theorem then folds the step lemma.
-/
import StreamGuard.Lib.Run
import StreamGuard.Multipath.Reorder

set_option autoImplicit false

namespace StreamGuard.Multipath

open StreamGuard StreamGuard.Lib

/-! ## One flow and the packets delivered from it -/

/-- Strictly increasing packet IDs. -/
def Increasing (ids : List PacketId) : Prop := ids.Pairwise (fun p q => p.get < q.get)

theorem increasing_snoc {past : List PacketId} {id : PacketId} (h : Increasing past)
    (hlt : ∀ p ∈ past, p.get < id.get) : Increasing (past ++ [id]) := by
  rw [Increasing, List.pairwise_append]
  refine ⟨h, List.pairwise_singleton _ _, ?_⟩
  intro p hp q hq
  rw [List.mem_singleton] at hq
  rw [hq]
  exact hlt p hp

/-- `past` is what was delivered under the key of `flow`: it is increasing, lies
below `next_expected`, and the held packets do not. An exhausted flow puts no
bound on `past`: it has delivered `u64::MAX`. -/
structure FlowState.Follows (flow : FlowState) (past : List PacketId) : Prop where
  increasing : Increasing past
  below : flow.exhausted = false → ∀ p ∈ past, p.get < flow.next_expected
  above : flow.exhausted = false → ∀ id ∈ flow.buffer, flow.next_expected ≤ id

namespace FlowState

variable {flow flow' : FlowState} {past : List PacketId}

/-- The fields `Follows` reads are the expected ID, the buffer and the flag. -/
theorem Follows.congr (h : flow.Follows past) (hn : flow'.next_expected = flow.next_expected)
    (he : flow'.exhausted = flow.exhausted) (hb : flow'.buffer = flow.buffer) :
    flow'.Follows past := by
  refine ⟨h.increasing, ?_, ?_⟩
  · rw [hn, he]
    exact h.below
  · rw [hn, he, hb]
    exact h.above

/-- Delivering the expected packet: the flow moves on by one. -/
theorem Follows.advance (h : flow.Follows past) (hex : flow.exhausted = false)
    (hmax : flow.next_expected ≠ U64.max)
    (hnext : flow'.next_expected = flow.next_expected.succSat)
    (hbuf : ∀ id ∈ flow'.buffer, id ∈ flow.buffer ∧ id ≠ flow.next_expected) :
    flow'.Follows (past ++ [⟨flow.next_expected⟩]) := by
  have hsucc : flow'.next_expected.val = flow.next_expected.val + 1 := by
    rw [hnext]
    exact U64.val_succSat hmax
  refine ⟨increasing_snoc h.increasing (h.below hex), ?_, ?_⟩
  · intro _ p hp
    have hle : p.get ≤ flow.next_expected := by
      rcases List.mem_append.mp hp with hp | hp
      · exact Fin.le_of_lt (h.below hex p hp)
      · rw [List.mem_singleton.mp hp]
    rw [Fin.le_def] at hle
    rw [Fin.lt_def]
    omega
  · intro _ id hid
    obtain ⟨hmem, hne⟩ := hbuf id hid
    have hlt : flow.next_expected < id := lt_of_le_of_ne (h.above hex id hmem) hne.symm
    rw [Fin.lt_def] at hlt
    rw [Fin.le_def]
    omega

/-- Delivering the expected packet as the last one: `u64::MAX` exhausts the flow. -/
theorem Follows.exhaust (h : flow.Follows past) (hex : flow.exhausted = false)
    (hex' : flow'.exhausted = true) : flow'.Follows (past ++ [⟨flow.next_expected⟩]) := by
  refine ⟨increasing_snoc h.increasing (h.below hex), ?_, ?_⟩
  · intro hf
    rw [hex'] at hf
    contradiction
  · intro hf
    rw [hex'] at hf
    contradiction

/-- **The watermark bounds what was delivered.** A tombstone left by the flow
rejects every packet ID of `past`. -/
theorem Follows.le_max_observed (h : flow.Follows past) :
    ∀ p ∈ past, p.get ≤ SessionReorder.max_observed_for_flow flow := by
  intro p hp
  rw [SessionReorder.max_observed_for_flow]
  split
  · exact U64.le_max p.get
  · next hex =>
    have hlt : p.get < flow.next_expected := h.below (by simpa using hex) p hp
    have hpred : p.get ≤ flow.next_expected.predSat := by
      show p.get.val ≤ flow.next_expected.val - 1
      rw [Fin.lt_def] at hlt
      omega
    split
    · exact le_trans hpred (le_max_left _ _)
    · exact hpred

end FlowState

/-! ## Draining -/

namespace SessionReorder

/-- The packet IDs of a list of deliveries. -/
def ids (delivered : List (PacketId × Bytes)) : List PacketId := delivered.map (·.1)

@[simp] theorem ids_nil : ids [] = [] := rfl

@[simp] theorem ids_cons (d : PacketId × Bytes) (ds : List (PacketId × Bytes)) :
    ids (d :: ds) = d.1 :: ids ds := rfl

section Drain

variable {fuel : ℕ} {flow : FlowState} {bytes : ℕ} {held : BufferedPacket}

theorem drain_exhausted (hex : flow.exhausted = true) :
    drain fuel flow bytes = ⟨flow, bytes, []⟩ := by
  cases fuel with
  | zero => rfl
  | succ fuel => rw [drain, if_pos hex]

theorem drain_gap (hl : flow.buffer.lookup flow.next_expected = none) :
    drain fuel flow bytes = ⟨flow, bytes, []⟩ := by
  cases fuel with
  | zero => rfl
  | succ fuel =>
    rw [drain]
    simp only [hl, ite_self]

/-- The round that delivers `u64::MAX` is the last one. -/
theorem drain_last (hex : flow.exhausted = false)
    (hl : flow.buffer.lookup flow.next_expected = some held) (hmax : flow.next_expected = U64.max) :
    drain (fuel + 1) flow bytes =
      ⟨{ flow with
          buffer := flow.buffer.erase flow.next_expected
          buffered_bytes := flow.buffered_bytes - held.payload.length
          exhausted := true },
        bytes - held.payload.length, [(⟨flow.next_expected⟩, held.payload)]⟩ := by
  rw [drain, if_neg (by simp [hex])]
  simp only [hl, if_pos hmax]

/-- Every other round delivers the expected packet and goes on with the next. -/
theorem drain_next (fuel : ℕ) (bytes : ℕ) (hex : flow.exhausted = false)
    (hl : flow.buffer.lookup flow.next_expected = some held) (hmax : flow.next_expected ≠ U64.max) :
    ∃ flow', flow'.next_expected = flow.next_expected.succSat ∧
      flow'.buffer = flow.buffer.erase flow.next_expected ∧
      (drain (fuel + 1) flow bytes).flow = (drain fuel flow' (bytes - held.payload.length)).flow ∧
      (drain (fuel + 1) flow bytes).delivered =
        (⟨flow.next_expected⟩, held.payload) ::
          (drain fuel flow' (bytes - held.payload.length)).delivered := by
  refine ⟨{ flow with
    buffer := flow.buffer.erase flow.next_expected
    buffered_bytes := flow.buffered_bytes - held.payload.length
    next_expected := flow.next_expected.succSat }, rfl, rfl, ?_⟩
  rw [drain, if_neg (by simp [hex])]
  simp only [hl, if_neg hmax, and_self]

end Drain

/-- **A drain delivers in order and leaves the flow consistent.** The induction
is on the fuel; each round delivers the expected packet and moves on by one, or
stops for good at `u64::MAX`. -/
theorem drain_follows (fuel : ℕ) (flow : FlowState) (bytes : ℕ) (past : List PacketId)
    (h : flow.Follows past) :
    (drain fuel flow bytes).flow.Follows (past ++ ids (drain fuel flow bytes).delivered) := by
  induction fuel generalizing flow bytes past with
  | zero => simpa [drain] using h
  | succ fuel ih =>
    cases hex : flow.exhausted with
    | true => simpa [drain_exhausted hex] using h
    | false =>
      cases hl : flow.buffer.lookup flow.next_expected with
      | none => simpa [drain_gap hl] using h
      | some held =>
        by_cases hmax : flow.next_expected = U64.max
        · rw [drain_last hex hl hmax]
          exact h.exhaust hex rfl
        · obtain ⟨flow', hnext, hbuf, hflow, hds⟩ := drain_next fuel bytes hex hl hmax
          rw [hflow, hds, ids_cons, List.append_cons]
          apply ih
          refine h.advance hex hmax hnext ?_
          intro id hid
          rw [hbuf, AList.mem_erase] at hid
          exact ⟨hid.2, hid.1⟩

/-- Every packet a drain delivers leaves the buffer. -/
theorem drain_len (fuel : ℕ) (flow : FlowState) (bytes : ℕ) :
    (drain fuel flow bytes).flow.buffer.len + (drain fuel flow bytes).delivered.length =
      flow.buffer.len := by
  induction fuel generalizing flow bytes with
  | zero => rfl
  | succ fuel ih =>
    cases hex : flow.exhausted with
    | true =>
      rw [drain_exhausted hex]
      rfl
    | false =>
      cases hl : flow.buffer.lookup flow.next_expected with
      | none =>
        rw [drain_gap hl]
        rfl
      | some held =>
        have herase : (flow.buffer.erase flow.next_expected).len + 1 = flow.buffer.len :=
          AList.len_erase (AList.mem_of_lookup hl)
        by_cases hmax : flow.next_expected = U64.max
        · rw [drain_last hex hl hmax]
          exact herase
        · obtain ⟨flow', _, hbuf, hflow, hds⟩ := drain_next fuel bytes hex hl hmax
          rw [hflow, hds, List.length_cons, ← Nat.add_assoc, ih, hbuf]
          exact herase

/-- **The fuel of a drain is enough.** With one round per held packet the drain
stops where the loop of the source stops: on an exhausted flow or at a gap. -/
theorem drain_done (fuel : ℕ) (flow : FlowState) (bytes : ℕ) (h : flow.buffer.len ≤ fuel) :
    (drain fuel flow bytes).flow.exhausted = true ∨
      (drain fuel flow bytes).flow.buffer.lookup
        (drain fuel flow bytes).flow.next_expected = none := by
  induction fuel generalizing flow bytes with
  | zero =>
    right
    have hnil : flow.buffer.entries = [] := List.length_eq_zero_iff.mp (Nat.le_zero.mp h)
    rw [drain, AList.lookup_eq_none]
    intro hmem
    obtain ⟨held, hl⟩ := AList.mem_iff_lookup.mp hmem
    have hentry := AList.mem_entries_iff.mpr hl
    rw [hnil] at hentry
    contradiction
  | succ fuel ih =>
    cases hex : flow.exhausted with
    | true =>
      rw [drain_exhausted hex]
      exact .inl hex
    | false =>
      cases hl : flow.buffer.lookup flow.next_expected with
      | none =>
        rw [drain_gap hl]
        exact .inr hl
      | some held =>
        have herase : (flow.buffer.erase flow.next_expected).len + 1 = flow.buffer.len :=
          AList.len_erase (AList.mem_of_lookup hl)
        by_cases hmax : flow.next_expected = U64.max
        · rw [drain_last hex hl hmax]
          exact .inl rfl
        · obtain ⟨flow', _, hbuf, hflow, _⟩ := drain_next fuel bytes hex hl hmax
          rw [hflow]
          apply ih
          rw [hbuf]
          omega

/-! ## The invariant of a key -/

/-- The packet IDs delivered under `K`, in order. -/
def delivered_for (K : ReceiveKey) (out : List (ReceiveKey × PacketId × Bytes)) :
    List PacketId :=
  (out.filter (fun d => d.1 = K)).map (·.2.1)

@[simp] theorem delivered_for_nil (K : ReceiveKey) : delivered_for K [] = [] := rfl

theorem delivered_for_append (K : ReceiveKey) (out out' : List (ReceiveKey × PacketId × Bytes)) :
    delivered_for K (out ++ out') = delivered_for K out ++ delivered_for K out' := by
  simp only [delivered_for, List.filter_append, List.map_append]

/-- The deliveries of one flow, tagged with its key. -/
theorem delivered_for_map (K key : ReceiveKey) (ds : List (PacketId × Bytes)) :
    delivered_for K (ds.map (fun d => (key, d.1, d.2))) = if key = K then ids ds else [] := by
  induction ds with
  | nil => simp
  | cons d ds ih =>
    by_cases hk : key = K
    · simp only [delivered_for, List.map_cons, List.filter_cons, hk, decide_true, if_true] at ih ⊢
      rw [ih, ids_cons]
    · simp only [delivered_for, List.map_cons, List.filter_cons, hk, decide_false, if_false] at ih ⊢
      exact ih

/-- A key is remembered while it has a flow or a tombstone. -/
def remembers (s : SessionReorder) (K : ReceiveKey) : Prop := K ∈ s.flows ∨ K ∈ s.tombstones

instance (s : SessionReorder) (K : ReceiveKey) : Decidable (s.remembers K) :=
  inferInstanceAs (Decidable (_ ∨ _))

/-- What the state knows of `K` agrees with `past`, the packet IDs delivered
under `K` so far: the flow follows them, or the tombstone bounds them. -/
structure Watches (s : SessionReorder) (K : ReceiveKey) (past : List PacketId) : Prop where
  increasing : Increasing past
  flow : ∀ f, s.flows.lookup K = some f → f.Follows past ∧ s.tombstones.lookup K = none
  tombstone : ∀ t, s.tombstones.lookup K = some t → ∀ p ∈ past, p.get ≤ t.watermark

/-- The invariant between calls: a key that is not remembered never delivered. -/
structure Ordered (s : SessionReorder) (K : ReceiveKey) (past : List PacketId) : Prop
    extends Watches s K past where
  fresh : s.remembers K ∨ past = []

/-! ## Tombstones -/

section Tombstones

variable {order : Traversal ReceiveKey ReorderTombstone} {s : SessionReorder}
  {key K : ReceiveKey} {watermark : U64} {now_ms : ℕ} {t : ReorderTombstone}

/-- Purging and evicting tombstones only takes entries out. -/
theorem purge_evict_lookup
    (h : (evict_tombstone order (s.purge_expired_tombstones now_ms)).tombstones.lookup K = some t) :
    s.tombstones.lookup K = some t := by
  have hpurge : ∀ t, (s.purge_expired_tombstones now_ms).tombstones.lookup K = some t →
      s.tombstones.lookup K = some t := by
    intro t ht
    exact (AList.lookup_retain_eq_some.mp ht).1
  apply hpurge
  rw [evict_tombstone] at h
  split at h
  · split at h
    · dsimp only at h
      rw [AList.lookup_erase_of] at h
      split at h
      · contradiction
      · exact h
    · exact h
  · exact h

theorem evict_tombstone_flows : (evict_tombstone order s).flows = s.flows := by
  rw [evict_tombstone]
  split
  · split <;> rfl
  · rfl

theorem insert_tombstone_flows :
    (insert_tombstone order s key watermark now_ms).flows = s.flows := by
  rw [insert_tombstone]
  exact evict_tombstone_flows

/-- The entries after `insert_tombstone`: the new one, and some of the old ones. -/
theorem insert_tombstone_lookup
    (h : (insert_tombstone order s key watermark now_ms).tombstones.lookup K = some t) :
    K = key ∧ t.watermark = watermark ∨ K ≠ key ∧ s.tombstones.lookup K = some t := by
  rw [insert_tombstone] at h
  dsimp only at h
  rw [AList.lookup_insert_of] at h
  split at h
  · next hk =>
    obtain rfl := Option.some.inj h
    exact .inl ⟨hk, rfl⟩
  · next hk => exact .inr ⟨hk, purge_evict_lookup h⟩

theorem remove_flow_lookup :
    (s.remove_flow key).flows.lookup K = if K = key then none else s.flows.lookup K := by
  cases hl : s.flows.lookup key with
  | some flow =>
    simp only [remove_flow, hl]
    exact AList.lookup_erase_of
  | none =>
    simp only [remove_flow, hl]
    split
    · next hk => rw [hk, hl]
    · rfl

theorem remove_flow_tombstones : (s.remove_flow key).tombstones = s.tombstones := by
  rw [remove_flow]
  split <;> rfl

end Tombstones

/-! ## A flow makes way for its tombstone -/

section Retire

variable {s : SessionReorder} {key K : ReceiveKey} {watermark : U64} {now_ms : ℕ}
  {past : List PacketId}

/-- A flow is removed and its tombstone bounds what it delivered. For a key whose
flow stays this only takes tombstones out. -/
theorem Watches.retire {order : Traversal ReceiveKey ReorderTombstone} {s' : SessionReorder}
    (h : s.Watches K past) (hw : K = key → ∀ p ∈ past, p.get ≤ watermark)
    (hf : s'.flows = (s.remove_flow key).flows) (ht : s'.tombstones = s.tombstones) :
    (insert_tombstone order s' key watermark now_ms).Watches K past := by
  refine ⟨h.increasing, ?_, ?_⟩
  · intro f hl
    rw [insert_tombstone_flows, hf, remove_flow_lookup] at hl
    split at hl
    · contradiction
    · next hk =>
      obtain ⟨hfollows, hnone⟩ := h.flow f hl
      refine ⟨hfollows, ?_⟩
      rw [Option.eq_none_iff_forall_ne_some]
      intro t hl'
      rcases insert_tombstone_lookup hl' with ⟨hk', _⟩ | ⟨_, hold⟩
      · exact hk hk'
      · rw [ht, hnone] at hold
        contradiction
  · intro t hl
    rcases insert_tombstone_lookup hl with ⟨hk, hwm⟩ | ⟨_, hold⟩
    · rw [hwm]
      exact hw hk
    · rw [ht] at hold
      exact h.tombstone t hold

theorem min_by_mem {α : Type*} {le : α → α → Bool} {l : List α} {a : α}
    (h : min_by le l = some a) : a ∈ l := by
  induction l generalizing a with
  | nil => contradiction
  | cons b l ih =>
    rw [min_by] at h
    cases hm : min_by le l with
    | none =>
      simp only [hm, Option.some.injEq] at h
      exact h ▸ List.mem_cons_self
    | some c =>
      simp only [hm] at h
      split at h
      · exact Option.some.inj h ▸ List.mem_cons_self
      · exact Option.some.inj h ▸ List.mem_cons_of_mem _ (ih hm)

/-- What a capacity eviction does: nothing on an empty table, else one flow of the
table is replaced by a tombstone with the largest packet ID it saw. -/
theorem evict_oldest_flow_cases (order : Orders) (s : SessionReorder) (now_ms : ℕ) :
    evict_oldest_flow order s now_ms = s ∨
    ∃ key flow m, s.flows.lookup key = some flow ∧
      evict_oldest_flow order s now_ms =
        insert_tombstone order.tombstones { s.remove_flow key with metrics := m } key
          (max_observed_for_flow flow) now_ms := by
  rw [evict_oldest_flow]
  cases hm : min_by older_activity (order.flows.visit s.flows.entries) with
  | none => exact .inl rfl
  | some oldest =>
    have hmem : oldest ∈ s.flows.entries := order.flows.mem_visit.mp (min_by_mem hm)
    exact .inr ⟨oldest.1, oldest.2, _, AList.mem_entries_iff.mp hmem, rfl⟩

theorem Watches.evict_oldest_flow {order : Orders} (h : s.Watches K past) :
    (evict_oldest_flow order s now_ms).Watches K past := by
  rcases evict_oldest_flow_cases order s now_ms with he | ⟨key, flow, m, hl, he⟩
  · rw [he]
    exact h
  · rw [he]
    refine h.retire ?_ rfl remove_flow_tombstones
    intro hk
    exact (h.flow flow (hk ▸ hl)).1.le_max_observed

end Retire

/-! ## Updating a flow in place -/

/-- From `s` to `s'` only the flow of `key` changed, the key stayed in the table,
and `ds` was delivered from it. Tombstones are not touched. -/
structure Updates (s s' : SessionReorder) (key : ReceiveKey) (ds : List (PacketId × Bytes)) :
    Prop where
  tombstones : s'.tombstones = s.tombstones
  others : ∀ k, k ≠ key → s'.flows.lookup k = s.flows.lookup k
  kept : key ∈ s.flows → key ∈ s'.flows
  flow : ∀ f', s'.flows.lookup key = some f' →
    ∃ f, s.flows.lookup key = some f ∧ ∀ past, f.Follows past → f'.Follows (past ++ ids ds)
  idle : key ∉ s.flows → ds = []

section Updates

variable {s s' s₁ : SessionReorder} {key K : ReceiveKey} {flow flow' : FlowState}
  {ds ds' : List (PacketId × Bytes)} {past : List PacketId} {now_ms : ℕ}

theorem Updates.refl (s : SessionReorder) (key : ReceiveKey) : Updates s s key [] :=
  ⟨rfl, fun _ _ => rfl, id, fun f hf => ⟨f, hf, fun past h => by simpa using h⟩, fun _ => rfl⟩

/-- A step that only counts something. -/
theorem Updates.of_metrics (hf : s'.flows = s.flows) (ht : s'.tombstones = s.tombstones) :
    Updates s s' key [] := by
  refine ⟨ht, fun _ _ => by rw [hf], fun h => by rwa [hf], ?_, fun _ => rfl⟩
  rw [hf]
  exact (Updates.refl s key).flow

theorem Updates.trans (h : Updates s s₁ key ds) (h' : Updates s₁ s' key ds') :
    Updates s s' key (ds ++ ds') := by
  refine ⟨h'.tombstones.trans h.tombstones, ?_, fun hk => h'.kept (h.kept hk), ?_, ?_⟩
  · intro k hk
    rw [h'.others k hk, h.others k hk]
  · intro f' hf'
    obtain ⟨f₁, hf₁, hstep'⟩ := h'.flow f' hf'
    obtain ⟨f, hf, hstep⟩ := h.flow f₁ hf₁
    refine ⟨f, hf, ?_⟩
    intro past hp
    rw [ids, List.map_append, ← List.append_assoc]
    exact hstep' _ (hstep past hp)
  · intro hk
    have hds : ds = [] := h.idle hk
    have hk₁ : key ∉ s₁.flows := by
      intro hmem
      obtain ⟨f₁, hf₁⟩ := AList.mem_iff_lookup.mp hmem
      obtain ⟨f, hf, _⟩ := h.flow f₁ hf₁
      exact hk (AList.mem_of_lookup hf)
    rw [hds, h'.idle hk₁, List.append_nil]

/-- Writing a flow back. -/
theorem Updates.of_insert (hl : s.flows.lookup key = some flow)
    (hf : s'.flows = s.flows.insert key flow') (ht : s'.tombstones = s.tombstones)
    (hstep : ∀ past, flow.Follows past → flow'.Follows (past ++ ids ds)) :
    Updates s s' key ds := by
  refine ⟨ht, ?_, ?_, ?_, ?_⟩
  · intro k hk
    rw [hf, AList.lookup_insert_ne hk]
  · intro _
    rw [hf, AList.mem_insert]
    exact .inl rfl
  · intro f' hf'
    rw [hf, AList.lookup_insert] at hf'
    obtain rfl := Option.some.inj hf'
    exact ⟨flow, hl, hstep⟩
  · intro hk
    exact absurd (AList.mem_of_lookup hl) hk

/-- An update keeps every key in its table. -/
theorem Updates.mem_flows (h : Updates s s' key ds) : K ∈ s'.flows ↔ K ∈ s.flows := by
  by_cases hk : K = key
  · subst hk
    refine ⟨?_, h.kept⟩
    intro hmem
    obtain ⟨f', hf'⟩ := AList.mem_iff_lookup.mp hmem
    obtain ⟨f, hf, _⟩ := h.flow f' hf'
    exact AList.mem_of_lookup hf
  · rw [AList.mem_iff_lookup, AList.mem_iff_lookup, h.others K hk]

theorem Updates.remembers (h : Updates s s' key ds) : s'.remembers K ↔ s.remembers K := by
  rw [SessionReorder.remembers, SessionReorder.remembers, h.mem_flows, h.tombstones]

/-- **Step lemma for updates.** The invariant of every key follows, with the
deliveries of the updated flow added under its own key. -/
theorem Ordered.update (h : s.Ordered K past) (hu : Updates s s' key ds) :
    s'.Ordered K (past ++ if key = K then ids ds else []) := by
  by_cases hk : key = K
  · subst hk
    rw [if_pos rfl]
    by_cases hmem : key ∈ s.flows
    · obtain ⟨f', hf'⟩ := AList.mem_iff_lookup.mp (hu.kept hmem)
      obtain ⟨f, hf, hstep⟩ := hu.flow f' hf'
      obtain ⟨hfollows, hnone⟩ := h.flow f hf
      have hfollows' : f'.Follows (past ++ ids ds) := hstep past hfollows
      refine ⟨⟨hfollows'.increasing, ?_, ?_⟩, .inl (.inl (AList.mem_of_lookup hf'))⟩
      · intro f'' hf''
        rw [hf'] at hf''
        obtain rfl := Option.some.inj hf''
        rw [hu.tombstones]
        exact ⟨hfollows', hnone⟩
      · intro t ht
        rw [hu.tombstones, hnone] at ht
        contradiction
    · rw [hu.idle hmem, ids_nil, List.append_nil]
      refine ⟨⟨h.increasing, ?_, ?_⟩, ?_⟩
      · intro f' hf'
        exact absurd (hu.mem_flows.mp (AList.mem_of_lookup hf')) hmem
      · rw [hu.tombstones]
        exact h.tombstone
      · rw [hu.remembers]
        exact h.fresh
  · rw [if_neg hk, List.append_nil]
    have hother : s'.flows.lookup K = s.flows.lookup K := hu.others K (Ne.symm hk)
    refine ⟨⟨h.increasing, ?_, ?_⟩, ?_⟩
    · rw [hother, hu.tombstones]
      exact h.flow
    · rw [hu.tombstones]
      exact h.tombstone
    · rw [hu.remembers]
      exact h.fresh

/-! ## Deadline skips -/

/-- The smallest held packet ID bounds the others. -/
theorem firstKey_le {m : Map U64 BufferedPacket} {a : U64} (h : m.firstKey = some a) :
    a ∈ m ∧ ∀ id ∈ m, a ≤ id := by
  have hmin := List.min?_eq_some_iff.mp h
  exact ⟨hmin.1, hmin.2⟩

/-- **A deadline skip delivers in order.** Moving `next_expected` up to the
smallest held packet keeps everything held at or above it. -/
theorem skip_head_gap_updates (s : SessionReorder) (key : ReceiveKey) (now_ms : ℕ) :
    Updates s (skip_head_gap_if_expired s key now_ms).1 key
      ((skip_head_gap_if_expired s key now_ms).2.getD []) := by
  rw [skip_head_gap_if_expired]
  split
  · exact .refl s key
  · next flow hl =>
    split
    · exact .refl s key
    · next hex =>
      split
      · exact .refl s key
      · next smallest hfirst =>
        split
        · exact .refl s key
        · next head hhead =>
          split
          · exact .refl s key
          · next hgap =>
            split
            · exact .refl s key
            · have hjump : ∀ past, flow.Follows past →
                  ({ flow with next_expected := smallest } : FlowState).Follows past := by
                intro past hp
                have hex : flow.exhausted = false := by simpa using hex
                have hlt : flow.next_expected < smallest := by simpa using hgap
                refine ⟨hp.increasing, ?_, ?_⟩
                · intro _ p hmem
                  exact lt_trans (hp.below hex p hmem) hlt
                · intro _ id hid
                  exact (firstKey_le hfirst).2 id hid
              have hdrain := fun past hp => drain_follows flow.buffer.len
                { flow with next_expected := smallest } s.buffered_bytes_session past
                (hjump past hp)
              dsimp only
              split
              · next hnil =>
                refine .of_insert hl rfl rfl ?_
                rw [hnil] at hdrain
                exact hdrain
              · refine .of_insert hl rfl rfl ?_
                intro past hp
                exact (hdrain past hp).congr rfl rfl rfl

/-- A skip that delivers takes held packets out. -/
theorem skip_head_gap_held (h : skip_head_gap_if_expired s key now_ms = (s', some ds)) :
    s'.held key < s.held key := by
  rw [skip_head_gap_if_expired] at h
  split at h
  · cases h
  next flow hl =>
  split at h
  · cases h
  split at h
  · cases h
  next smallest _ =>
  split at h
  · cases h
  split at h
  · cases h
  split at h
  · cases h
  have hlen := drain_len flow.buffer.len { flow with next_expected := smallest }
    s.buffered_bytes_session
  dsimp only at h hlen
  split at h
  · cases h
  next hne =>
  have hpos := List.length_pos_iff.mpr hne
  cases h
  simp only [held, AList.lookup_insert, hl]
  omega

/-- **The fuel of the skip loop is enough.** The loop ends with no overdue head
gap left on `key`. -/
theorem skip_expired_gaps_done (fuel : ℕ) (s : SessionReorder) (key : ReceiveKey) (now_ms : ℕ)
    (h : s.held key < fuel) :
    (skip_head_gap_if_expired (skip_expired_gaps fuel s key now_ms).1 key now_ms).2 = none ∨
      ∃ s₁, skip_head_gap_if_expired s₁ key now_ms =
        ((skip_expired_gaps fuel s key now_ms).1, none) := by
  induction fuel generalizing s with
  | zero => omega
  | succ fuel ih =>
    rw [skip_expired_gaps]
    split
    · next hs => exact .inr ⟨s, hs⟩
    · next hs =>
      have hheld := skip_head_gap_held hs
      exact ih _ (by omega)

theorem skip_expired_gaps_updates (fuel : ℕ) (s : SessionReorder) (key : ReceiveKey) (now_ms : ℕ) :
    Updates s (skip_expired_gaps fuel s key now_ms).1 key
      (skip_expired_gaps fuel s key now_ms).2 := by
  induction fuel generalizing s with
  | zero => exact .refl s key
  | succ fuel ih =>
    have hskip := skip_head_gap_updates s key now_ms
    rw [skip_expired_gaps]
    split
    · next hs => rwa [hs] at hskip
    · next hs =>
      rw [hs] at hskip
      exact hskip.trans (ih _)

/-- The deadline pass over any list of keys. -/
theorem Ordered.skip_flows (keys : List ReceiveKey) (h : s.Ordered K past) :
    (skip_flows s now_ms keys).1.Ordered K
      (past ++ delivered_for K (skip_flows s now_ms keys).2) := by
  induction keys generalizing s past with
  | nil => simpa [SessionReorder.skip_flows] using h
  | cons key keys ih =>
    have hu := skip_expired_gaps_updates (s.held key + 1) s key now_ms
    rw [SessionReorder.skip_flows]
    dsimp only
    rw [delivered_for_append, delivered_for_map, ← List.append_assoc]
    exact ih (h.update hu)

theorem skip_flows_remembers (keys : List ReceiveKey) (s : SessionReorder) :
    (skip_flows s now_ms keys).1.remembers K ↔ s.remembers K := by
  induction keys generalizing s with
  | nil => exact Iff.rfl
  | cons key keys ih =>
    rw [SessionReorder.skip_flows]
    exact (ih _).trans (skip_expired_gaps_updates _ s key now_ms).remembers

end Updates

/-! ## `receive` -/

section Receive

variable {s : SessionReorder} {key K : ReceiveKey} {flow : FlowState} {past : List PacketId}
  {packet_id : PacketId} {payload : Bytes} {now_ms : ℕ} {traffic_class : TrafficClass}
  {order : Orders}

theorem drop_touching_updates (reason : DropReason) (m : ReorderMetrics)
    (hl : s.flows.lookup key = some flow) :
    Updates s (drop_touching s key flow now_ms reason m).1 key
      (drop_touching s key flow now_ms reason m).2.delivered := by
  refine .of_insert hl rfl rfl ?_
  intro past hp
  rw [drop_touching, ReorderOutcome.ofDropped, ids_nil, List.append_nil]
  exact hp.congr rfl rfl rfl

/-- The expected packet is not held, so delivering it and draining behind it
keeps the order. -/
theorem receive_head_updates (hl : s.flows.lookup key = some flow)
    (hex : flow.exhausted = false) (hid : packet_id.get = flow.next_expected)
    (hheld : packet_id.get ∉ flow.buffer) :
    Updates s (receive_head s key flow packet_id payload now_ms).1 key
      (receive_head s key flow packet_id payload now_ms).2.delivered := by
  have hpacket : packet_id = ⟨flow.next_expected⟩ := by rw [← hid]
  rw [receive_head]
  dsimp only
  split
  · next hmax =>
    refine .of_insert hl rfl rfl ?_
    intro past hp
    rw [hpacket]
    exact hp.exhaust hex rfl
  · next hmax =>
    refine .of_insert hl rfl rfl ?_
    intro past hp
    rw [hpacket, ReorderOutcome.ofDelivered, ids_cons, List.append_cons]
    refine FlowState.Follows.congr (drain_follows _ _ _ _ ?_) rfl rfl rfl
    refine hp.advance hex hmax rfl ?_
    intro id hmem
    refine ⟨hmem, ?_⟩
    rintro rfl
    exact hheld (hid ▸ hmem)

/-- Holding a packet past the expected one delivers nothing; a gap that is
already overdue may be skipped right away. -/
theorem hold_updates (hl : s.flows.lookup key = some flow) (id : U64)
    (hid : flow.next_expected ≤ id) :
    Updates s (hold s key flow id payload now_ms).1 key
      (hold s key flow id payload now_ms).2.delivered := by
  rw [hold]
  generalize hs₁ : ({ s with flows := _, buffered_bytes_session := _ } : SessionReorder) = s₁
  have hinsert : Updates s s₁ key [] := by
    subst hs₁
    refine .of_insert hl rfl rfl ?_
    intro past hp
    rw [ids_nil, List.append_nil]
    refine ⟨hp.increasing, hp.below, ?_⟩
    intro hex id' hid'
    rcases (AList.mem_insert _).mp hid' with rfl | hid'
    · exact hid
    · exact hp.above hex id' hid'
  have hu := hinsert.trans (skip_head_gap_updates s₁ key now_ms)
  rw [List.nil_append] at hu
  split
  · next hs => rwa [hs] at hu
  · next hs => rwa [hs] at hu

theorem receive_gap_updates (hl : s.flows.lookup key = some flow) (id : U64)
    (hid : flow.next_expected ≤ id) :
    Updates s (receive_gap s key flow id payload now_ms).1 key
      (receive_gap s key flow id payload now_ms).2.delivered := by
  rw [receive_gap]
  split
  · exact drop_touching_updates _ _ hl
  split
  · exact drop_touching_updates _ _ hl
  split
  · exact drop_touching_updates _ _ hl
  split
  · exact drop_touching_updates _ _ hl
  exact hold_updates hl id hid

/-- **An arrival on a held flow updates that flow in order.** One case per
branch of the source: four kinds of drop, the head and the gap. -/
theorem receive_known_updates (hl : s.flows.lookup key = some flow) :
    Updates s (receive_known s key flow traffic_class packet_id payload now_ms).1 key
      (receive_known s key flow traffic_class packet_id payload now_ms).2.delivered := by
  rw [receive_known]
  split
  · exact drop_touching_updates _ _ hl
  next hex =>
  split
  · exact .of_metrics rfl rfl
  split
  · exact drop_touching_updates _ _ hl
  next hge =>
  split
  · exact drop_touching_updates _ _ hl
  next hheld =>
  split
  · next hid => exact receive_head_updates hl (by simpa using hex) hid hheld
  · exact receive_gap_updates hl _ (not_lt.mp hge)

/-- Making room brings no tombstone of an absent key into being: its flow is not
there to evict. -/
theorem make_room_absent (hf : s.flows.lookup K = none) (ht : s.tombstones.lookup K = none) :
    (make_room order s now_ms).tombstones.lookup K = none := by
  rw [make_room]
  split
  · rcases evict_oldest_flow_cases order s now_ms with he | ⟨key, flow, m, hl, he⟩
    · rw [he]
      exact ht
    · rw [he, Option.eq_none_iff_forall_ne_some]
      intro t hl'
      rcases insert_tombstone_lookup hl' with ⟨rfl, _⟩ | ⟨_, hold⟩
      · rw [hf] at hl
        contradiction
      · dsimp only at hold
        rw [remove_flow_tombstones, ht] at hold
        contradiction
  · exact ht

theorem Watches.make_room (h : s.Watches K past) :
    (make_room order s now_ms).Watches K past := by
  rw [SessionReorder.make_room]
  split
  · exact h.evict_oldest_flow
  · exact h

/-- A reopened flow starts past everything delivered before. -/
theorem open_flow_ordered (hf : s.flows.lookup K = none) (ht : s.tombstones.lookup K = none)
    (hp : Increasing past) (hlt : ∀ p ∈ past, p.get < packet_id.get) :
    (open_flow order s K traffic_class packet_id payload now_ms).1.Ordered K
      (past ++ [packet_id]) := by
  have hincr : Increasing (past ++ [packet_id]) := increasing_snoc hp hlt
  have hroom : (SessionReorder.make_room order s now_ms).tombstones.lookup K = none :=
    make_room_absent hf ht
  rw [open_flow]
  refine ⟨⟨hincr, ?_, ?_⟩, .inl (.inl ?_)⟩
  · intro f hl
    rw [AList.lookup_insert] at hl
    obtain rfl := Option.some.inj hl
    refine ⟨⟨hincr, ?_, ?_⟩, hroom⟩
    · intro hex p hmem
      have hmax : packet_id.get ≠ U64.max := by simpa using hex
      have hle : p.get ≤ packet_id.get := by
        rcases List.mem_append.mp hmem with hmem | hmem
        · exact Fin.le_of_lt (hlt p hmem)
        · rw [List.mem_singleton.mp hmem]
      have hsucc : packet_id.get.succSat.val = packet_id.get.val + 1 := U64.val_succSat hmax
      rw [Fin.le_def] at hle
      simp only [hmax, if_false, Fin.lt_def]
      omega
    · intro _ id hid
      exact absurd hid (AList.notMem_empty _)
  · intro t hl
    dsimp only at hl
    rw [hroom] at hl
    contradiction
  · rw [AList.mem_insert]
    exact .inl rfl

/-- Opening the flow of another key may evict the flow of `K`. -/
theorem open_flow_watches_other (hk : key ≠ K) (h : s.Watches K past) :
    (open_flow order s key traffic_class packet_id payload now_ms).1.Watches K past := by
  have hroom : (SessionReorder.make_room order s now_ms).Watches K past := h.make_room
  rw [open_flow]
  refine ⟨hroom.increasing, ?_, hroom.tombstone⟩
  intro f hl
  rw [AList.lookup_insert_ne hk.symm] at hl
  exact hroom.flow f hl

/-- A packet for an unknown `K`: a live tombstone rejects what was seen, and a
reopening starts past its watermark. -/
theorem receive_unknown_ordered (h : s.Ordered K past) (hf : s.flows.lookup K = none)
    (hlive : ∀ t, s.tombstones.lookup K = some t → now_ms < t.expires_at_ms) :
    (receive_unknown order s K traffic_class packet_id payload now_ms).1.Ordered K
      (past ++
        ids (receive_unknown order s K traffic_class packet_id payload now_ms).2.delivered) := by
  rw [receive_unknown]
  split
  · next ht =>
    have hpast : past = [] := by
      rcases h.fresh with (hmem | hmem) | hpast
      · exact absurd hmem (AList.lookup_eq_none.mp hf)
      · exact absurd hmem (AList.lookup_eq_none.mp ht)
      · exact hpast
    subst hpast
    exact open_flow_ordered hf ht h.increasing (fun p hp => absurd hp List.not_mem_nil)
  · next t ht =>
    have hlt := hlive t ht
    rw [if_neg (not_le.mpr hlt)]
    split
    · rw [ReorderOutcome.ofDropped, ids_nil, List.append_nil]
      exact ⟨⟨h.increasing, h.flow, h.tombstone⟩, h.fresh⟩
    · next hwm =>
      refine open_flow_ordered hf ?_ h.increasing ?_
      · exact AList.lookup_erase K s.tombstones
      · intro p hp
        exact lt_of_le_of_lt (h.tombstone t ht p hp) (not_le.mp hwm)

/-- A packet for another unknown key. -/
theorem receive_unknown_watches_other (hk : key ≠ K) (h : s.Watches K past) :
    (receive_unknown order s key traffic_class packet_id payload now_ms).1.Watches K past := by
  have herase : ∀ m, ({ s with tombstones := s.tombstones.erase key, metrics := m } :
      SessionReorder).Watches K past := by
    intro m
    have hl : (s.tombstones.erase key).lookup K = s.tombstones.lookup K :=
      AList.lookup_erase_ne hk.symm
    refine ⟨h.increasing, ?_, ?_⟩
    · rw [hl]
      exact h.flow
    · rw [hl]
      exact h.tombstone
  rw [receive_unknown]
  split
  · exact open_flow_watches_other hk h
  · split
    · exact open_flow_watches_other hk (herase _)
    · split
      · exact ⟨h.increasing, h.flow, h.tombstone⟩
      · exact open_flow_watches_other hk (herase _)

end Receive

/-! ## `expire` -/

section Expire

variable {s : SessionReorder} {K : ReceiveKey} {past : List PacketId} {now_ms : ℕ}
  {order : Orders}

/-- The watermark recorded for an idle `K` bounds what `K` delivered. -/
theorem idle_flows_watermark (h : s.Watches K past) {watermark : U64}
    (hmem : (K, watermark) ∈ idle_flows order s now_ms) : ∀ p ∈ past, p.get ≤ watermark := by
  rw [idle_flows, List.mem_map] at hmem
  obtain ⟨e, he, hpair⟩ := hmem
  obtain ⟨rfl, rfl⟩ := Prod.mk.inj hpair
  have hentry := order.flows.mem_visit.mp (List.mem_filter.mp he).1
  exact (h.flow e.2 (AList.mem_entries_iff.mp hentry)).1.le_max_observed

/-- The idle pass, over any list whose watermarks for `K` are bounds. -/
theorem Watches.expire_idle (idle : List (ReceiveKey × U64)) (h : s.Watches K past)
    (hw : ∀ w, (K, w) ∈ idle → ∀ p ∈ past, p.get ≤ w) :
    (expire_idle order s now_ms idle).Watches K past := by
  induction idle generalizing s with
  | nil => exact h
  | cons entry idle ih =>
    obtain ⟨key, w⟩ := entry
    rw [SessionReorder.expire_idle]
    refine ih ?_ (fun w' hmem => hw w' (List.mem_cons_of_mem _ hmem))
    refine h.retire ?_ rfl remove_flow_tombstones
    rintro rfl
    exact hw w List.mem_cons_self

/-- The state between the idle pass and the deadline pass of `expire`. -/
def after_idle (s : SessionReorder) (order : Orders) (now_ms : ℕ) : SessionReorder :=
  let s := s.purge_expired_tombstones now_ms
  SessionReorder.expire_idle order s now_ms (idle_flows order s now_ms)

theorem Watches.after_idle (h : s.Watches K past) : (s.after_idle order now_ms).Watches K past := by
  have hpurged : (s.purge_expired_tombstones now_ms).Watches K past := by
    refine ⟨h.increasing, ?_, ?_⟩
    · intro f hl
      obtain ⟨hfollows, hnone⟩ := h.flow f hl
      refine ⟨hfollows, ?_⟩
      show (s.tombstones.retain _).lookup K = none
      rw [AList.lookup_retain, hnone]
      rfl
    · intro t ht
      exact h.tombstone t (AList.lookup_retain_eq_some.mp ht).1
  exact hpurged.expire_idle _ (fun w hmem => idle_flows_watermark hpurged hmem)

/-- **`expire` keeps the order**, for a key it does not forget. -/
theorem Ordered.expire (h : s.Ordered K past)
    (hkept : s.remembers K → (s.expire order now_ms).1.remembers K) :
    (s.expire order now_ms).1.Ordered K
      (past ++ delivered_for K (s.expire order now_ms).2.delivered) := by
  have hwatch : (s.after_idle order now_ms).Watches K past := h.toWatches.after_idle
  rw [SessionReorder.expire] at hkept ⊢
  dsimp only at hkept ⊢
  rw [skip_flows_remembers] at hkept
  apply Ordered.skip_flows
  refine ⟨⟨hwatch.increasing, hwatch.flow, hwatch.tombstone⟩, ?_⟩
  rcases h.fresh with hmem | hpast
  · exact .inl (hkept hmem)
  · exact .inr hpast

end Expire

end SessionReorder

/-! ## Runs -/

namespace ReorderCall

open SessionReorder

/-- The call finds a tombstone of `K` that has expired and reopens `K` over it. -/
def reopens_expired (K : ReceiveKey) (s : SessionReorder) : ReorderCall → Prop
  | .receive key traffic_class _ _ now _ =>
    key = K ∧ traffic_class ≠ .Control ∧ K ∉ s.flows ∧
      ∃ t ∈ s.tombstones.lookup K, t.expires_at_ms ≤ now
  | .expire _ _ => False

instance (K : ReceiveKey) (s : SessionReorder) : DecidablePred (reopens_expired K s)
  | .receive key traffic_class _ _ now _ =>
    inferInstanceAs (Decidable (key = K ∧ traffic_class ≠ .Control ∧ K ∉ s.flows ∧
      ∃ t ∈ s.tombstones.lookup K, t.expires_at_ms ≤ now))
  | .expire _ _ => inferInstanceAs (Decidable False)

/-- No tombstone of `K` is removed by age or for capacity during this call. Such
a removal shows in one of two ways: `K` is reopened over an expired tombstone, or
`K` had a flow or a tombstone before the call and has neither after it. -/
def keeps_tombstone (K : ReceiveKey) (s : SessionReorder) (call : ReorderCall) : Prop :=
  ¬ call.reopens_expired K s ∧ (s.remembers K → (call.apply s).1.remembers K)

instance (K : ReceiveKey) (s : SessionReorder) (call : ReorderCall) :
    Decidable (call.keeps_tombstone K s) :=
  inferInstanceAs (Decidable (_ ∧ (_ → _)))

/-- **Step lemma.** One call that keeps the tombstone of `K` keeps the invariant
of `K`, with the deliveries of the call appended. -/
theorem apply_ordered {s : SessionReorder} {K : ReceiveKey} {past : List PacketId}
    (call : ReorderCall) (h : s.Ordered K past) (hkept : call.keeps_tombstone K s) :
    (call.apply s).1.Ordered K (past ++ delivered_for K (call.apply s).2) := by
  obtain ⟨hlive, hremember⟩ := hkept
  cases call with
  | expire now order => exact h.expire hremember
  | receive key traffic_class packet_id payload now order =>
    simp only [apply, delivered_for_map] at hremember ⊢
    rw [SessionReorder.receive] at hremember ⊢
    split at hremember
    · next hctl =>
      rw [if_pos hctl]
      exact h.update (.of_metrics rfl rfl)
    next hctl =>
    rw [if_neg hctl]
    cases hl : s.flows.lookup key with
    | some flow => exact h.update (receive_known_updates hl)
    | none =>
      simp only [hl] at hremember ⊢
      by_cases hk : key = K
      · subst hk
        rw [if_pos rfl]
        refine receive_unknown_ordered h hl ?_
        intro t ht
        by_contra hexp
        exact hlive ⟨rfl, hctl, AList.lookup_eq_none.mp hl, t, ht, not_lt.mp hexp⟩
      · rw [if_neg hk, List.append_nil]
        refine ⟨receive_unknown_watches_other hk h.toWatches, ?_⟩
        rcases h.fresh with hmem | hpast
        · exact .inl (hremember hmem)
        · exact .inr hpast

end ReorderCall

/-- **At-most-once, in-order delivery per receive key.** In every run of `receive`
and `expire` calls from a new table in which no tombstone of `K` is lost to age or
capacity, the packet IDs delivered under `K` are strictly increasing over the
whole run: across evictions, idle expiry and reopenings, and up to `u64::MAX`.
The clock values of the calls are arbitrary. -/
theorem delivery_strictly_increasing {limits : ReorderLimits} {s t : SessionReorder}
    {calls : List ReorderCall} {out : List (ReceiveKey × PacketId × Bytes)} {K : ReceiveKey}
    (hnew : SessionReorder.new limits = .ok s) (hrun : exec ReorderCall.run s calls = some (t, out))
    (hkept : Along ReorderCall.run (fun s call => call.keeps_tombstone K s) s calls) :
    Increasing (SessionReorder.delivered_for K out) := by
  have hstart : s.Ordered K [] := by
    rw [SessionReorder.new] at hnew
    split at hnew
    · contradiction
    · obtain rfl := Except.ok.inj hnew
      refine ⟨⟨List.Pairwise.nil, ?_, ?_⟩, .inr rfl⟩
      · intro f hf
        contradiction
      · intro t ht
        contradiction
  have hstep : ∀ s call s₁ o past, s.Ordered K (SessionReorder.delivered_for K past) →
      call.keeps_tombstone K s → ReorderCall.run s call = some (s₁, o) →
      s₁.Ordered K (SessionReorder.delivered_for K (past ++ o)) := by
    intro s call s₁ o past hord hkeep hrun
    have happly : call.apply s = (s₁, o) := Option.some.inj hrun
    have hord' := ReorderCall.apply_ordered call hord hkeep
    rw [happly] at hord'
    rwa [SessionReorder.delivered_for_append]
  have hend := exec_along_induct
    (P := fun s past => s.Ordered K (SessionReorder.delivered_for K past))
    (a := []) hstep hstart hkept hrun
  exact hend.increasing

/-! ### A run with an eviction and a reopening -/

namespace Sample

/-- Room for one flow, so every new key evicts the other. -/
def limits : ReorderLimits := ⟨1, 8, 1024, 4096, 1000, 10, 20, 30, 4, 5000, 16⟩

def start : SessionReorder := ⟨limits, ∅, ∅, 0, .default⟩

def key (flow : U64) : ReceiveKey := ⟨⟨7⟩, .ClientToGateway, 0, ⟨flow⟩⟩

/-- `5` opens the flow of key 1, `8` is held, key 2 evicts the flow; then `7`
replays below the watermark and `9` reopens the flow. -/
def calls : List ReorderCall :=
  [.receive (key 1) .Bulk ⟨5⟩ [] 0 default, .receive (key 1) .Bulk ⟨8⟩ [] 1 default,
    .receive (key 2) .Bulk ⟨1⟩ [] 2 default, .receive (key 1) .Bulk ⟨7⟩ [] 3 default,
    .receive (key 1) .Bulk ⟨9⟩ [] 4 default, .expire 5 default]

end Sample

open Sample in
/-- The run of `Sample.calls`: key 1 delivers `5` and `9`. -/
theorem delivery_strictly_increasing_sample :
    ∃ t out, exec ReorderCall.run start calls = some (t, out) ∧
      SessionReorder.delivered_for (key 1) out = [⟨5⟩, ⟨9⟩] ∧
      Increasing (SessionReorder.delivered_for (key 1) out) := by
  have hnew : SessionReorder.new limits = .ok start := rfl
  have hkept : Along ReorderCall.run (fun s call => call.keeps_tombstone (key 1) s) start calls := by
    decide
  have hids : (exec ReorderCall.run start calls).map
      (fun r => SessionReorder.delivered_for (key 1) r.2) = some [⟨5⟩, ⟨9⟩] := by
    decide
  cases hrun : exec ReorderCall.run start calls with
  | none =>
    rw [hrun] at hids
    contradiction
  | some r =>
    rw [hrun] at hids
    exact ⟨r.1, r.2, rfl, Option.some.inj hids, delivery_strictly_increasing hnew hrun hkept⟩

end StreamGuard.Multipath
