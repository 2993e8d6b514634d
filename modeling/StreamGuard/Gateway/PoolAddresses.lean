/-
Which addresses the allocator avoids.

A lease that a parked call took out of the maps keeps its addresses blocked
through the parked sets. A section blocks what it takes out, and unblocks only
what its own call had taken out (`Section.Guards`); what the allocator finds is
held by no map and blocked by no call (`allocates_fresh`).
-/
import StreamGuard.Gateway.PoolSections

set_option autoImplicit false

namespace StreamGuard.Gateway

open StreamGuard StreamGuard.Lib

/-! ## Addresses that meet -/

theorem AssignedAddresses.Shares.symm {a b : AssignedAddresses} (h : a.Shares b) : b.Shares a := by
  rcases h with h | h
  · exact .inl h.symm
  · exact .inr h.symm

/-- Aligned prefixes meet only when they are equal. -/
theorem not_shares_of_ne {a b : AssignedAddresses}
    (ha : ipv6_is_64_aligned a.ipv6_prefix_addr = true)
    (hb : ipv6_is_64_aligned b.ipv6_prefix_addr = true) (h4 : a.ipv4 ≠ b.ipv4)
    (h6 : a.ipv6_prefix_addr ≠ b.ipv6_prefix_addr) : ¬ a.Shares b := by
  rintro (h | h)
  · exact h4 h
  · exact h6 (eq_of_subnet64_eq ha hb h)

/-! ## Parked addresses -/

/-- Both addresses of the pair are in the parked sets. -/
structure Inner.Blocks (inner : Inner) (a : AssignedAddresses) : Prop where
  v4 : a.ipv4 ∈ inner.inflight_v4
  v6 : a.ipv6_prefix_addr ∈ inner.inflight_v6

section Blocks

variable {c : AddressPoolConfig} {inner inner' : Inner} {id : SessionId}
  {a b : AssignedAddresses}

theorem Inner.Blocks.congr (h : inner.Blocks a) (h4 : inner'.inflight_v4 = inner.inflight_v4)
    (h6 : inner'.inflight_v6 = inner.inflight_v6) : inner'.Blocks a := by
  refine ⟨?_, ?_⟩
  · rw [h4]
    exact h.v4
  · rw [h6]
    exact h.v6

theorem blocks_park_self : (inner.park id a).Blocks a :=
  ⟨Finset.mem_insert_self _ _, Finset.mem_insert_self _ _⟩

theorem Inner.Blocks.park (h : inner.Blocks b) : (inner.park id a).Blocks b :=
  ⟨Finset.mem_insert_of_mem h.v4, Finset.mem_insert_of_mem h.v6⟩

/-- Unparking frees the addresses of that lease and of no lease apart from it. -/
theorem Inner.Blocks.unpark (h : inner.Blocks b) (hne : ¬ a.Shares b) :
    (inner.unpark id a).Blocks b := by
  refine ⟨Finset.mem_erase.mpr ⟨?_, h.v4⟩, Finset.mem_erase.mpr ⟨?_, h.v6⟩⟩
  · intro he
    exact hne (.inl he.symm)
  · intro he
    exact hne (.inr (by rw [he]))

theorem Inner.Blocks.enqueue {lease : Lease} {now_ms : ℕ} (h : inner.Blocks b)
    (he : inner.enqueue_release_locked c id lease now_ms = .ok inner') : inner'.Blocks b := by
  rw [Inner.enqueue_release_locked] at he
  split at he
  · rwa [← Except.ok.inj he]
  split at he
  · contradiction
  · obtain rfl := Except.ok.inj he
    exact h.congr rfl rfl

end Blocks

/-- A section blocks what it takes out, and unblocks only what its call had
taken out. -/
structure Section.Guards (sec : Section) (inner : Inner) (old : SessionId → Option Parked) :
    Prop where
  parks : ∀ session_id by_ lease, sec.parked session_id = some (.out by_ lease) →
    sec.inner.Blocks lease.addresses
  keeps : ∀ b, inner.Blocks b →
    (∀ session_id by_ lease, old session_id = some (.out by_ lease) → ¬ lease.addresses.Shares b) →
    sec.inner.Blocks b

namespace AddressPool

variable {c : AddressPoolConfig} {inner : Inner} {id session_id : SessionId} {p : Place}
  {old : SessionId → Option Parked}

/-- A section that returns without touching the parked sets. -/
theorem guards_returns {inner' : Inner} {e : PoolEvent}
    (h4 : inner'.inflight_v4 = inner.inflight_v4) (h6 : inner'.inflight_v6 = inner.inflight_v6) :
    (Section.returns inner' e).Guards inner old := by
  refine ⟨?_, fun _ hb _ => hb.congr h4 h6⟩
  intro session_id by_ lease h
  contradiction

/-- A section that parks one lease. -/
theorem guards_parks {inner' : Inner} {plan : Plan} (lease : Lease)
    (h4 : inner'.inflight_v4 = inner.inflight_v4) (h6 : inner'.inflight_v6 = inner.inflight_v6)
    (hplan : ∀ session_id by_ lease', plan.parked session_id = some (.out by_ lease') →
      lease' = lease) :
    (Section.parks (inner'.park id lease.addresses) plan).Guards inner old := by
  refine ⟨?_, fun _ hb _ => (hb.congr h4 h6).park⟩
  intro session_id by_ lease' h
  rw [hplan session_id by_ lease' h]
  exact blocks_park_self

theorem retry_begin_guards (durable : Bool) (now_ms max_batch : ℕ)
    (expired_ids : Option (List SessionId)) :
    (retry_begin durable inner now_ms max_batch expired_ids).Guards inner old := by
  rcases retry_begin_cases durable inner now_ms max_batch expired_ids with
    ⟨e, _, _, order, he⟩ | ⟨batch, order, _, _, he⟩
  · rw [he]
    exact guards_returns rfl rfl
  · rw [he]
    refine ⟨?_, fun _ hb _ => hb.congr rfl rfl⟩
    intro session_id by_ lease h
    have h : (if session_id ∈ batch then some Parked.retrying else none) = some (.out by_ lease) := h
    split at h <;> cases h

theorem take_blocks {inner' : Inner} {lease : Lease} (ht : take inner id = some (inner', lease)) :
    inner'.inflight_v4 = inner.inflight_v4 ∧ inner'.inflight_v6 = inner.inflight_v6 := by
  rw [take] at ht
  split at ht
  · obtain ⟨rfl, rfl⟩ := Prod.mk.inj (Option.some.inj ht)
    exact ⟨rfl, rfl⟩
  split at ht
  · obtain ⟨rfl, rfl⟩ := Prod.mk.inj (Option.some.inj ht)
    exact ⟨rfl, rfl⟩
  · contradiction

/-- The plan of a single-session call takes out one lease. -/
theorem out_of_if {session_id subject : SessionId} {by_ by' : TakenBy} {lease lease' : Lease}
    (h : (if session_id = subject then some (Parked.out by_ lease) else none) =
      some (.out by' lease')) : lease' = lease := by
  split at h <;> cases h
  rfl

theorem reserve_begin_guards (device_id : DeviceId) (now : PoolTime) :
    (reserve_begin c inner id device_id now).Guards inner old := by
  have hnew : ∀ inner' : Inner, inner'.inflight_v4 = inner.inflight_v4 →
      inner'.inflight_v6 = inner.inflight_v6 →
      (reserve_new c inner' id device_id now).Guards inner old := by
    intro inner' h4 h6
    rw [reserve_new]
    split
    · exact guards_returns h4 h6
    split
    · exact guards_returns h4 h6
    · exact guards_parks ⟨device_id, _, _⟩ h4 h6 (fun _ _ _ h => out_of_if h)
  rw [reserve_begin]
  dsimp only
  split
  · exact guards_returns rfl rfl
  split
  · exact guards_returns rfl rfl
  split
  · split <;> exact guards_returns rfl rfl
  split
  · split <;> exact guards_returns rfl rfl
  split
  · exact hnew inner rfl rfl
  split
  · exact guards_returns rfl rfl
  split
  · exact guards_returns rfl rfl
  · exact hnew _ rfl rfl

theorem commit_begin_guards (now : PoolTime) :
    (commit_begin c inner id now).Guards inner old := by
  rw [commit_begin]
  split
  · exact guards_returns rfl rfl
  split
  · exact guards_returns rfl rfl
  split
  · exact guards_returns rfl rfl
  split
  · exact guards_returns rfl rfl
  dsimp only
  split
  · exact guards_parks _ rfl rfl (fun _ _ _ h => out_of_if h)
  · exact guards_parks _ rfl rfl (fun _ _ _ h => out_of_if h)

theorem sweep_begin_guards (now_ms : ℕ) :
    (sweep_begin inner now_ms).Guards inner old := by
  have hkeeps : ∀ (batch : List Expired) (inner : Inner) (b : AssignedAddresses),
      inner.Blocks b → (batch.foldl take_expired inner).Blocks b := by
    intro batch inner b hb
    refine List.foldlRecOn (motive := fun taken : Inner => taken.Blocks b) _ _ hb ?_
    intro taken hb e _
    rw [take_expired]
    split
    · exact Inner.Blocks.park (hb.congr rfl rfl)
    · exact Inner.Blocks.park (hb.congr rfl rfl)
  have hparks : ∀ (batch : List Expired) (inner : Inner), ∀ e ∈ batch,
      (batch.foldl take_expired inner).Blocks e.lease.addresses := by
    intro batch
    induction batch with
    | nil => exact fun _ _ he => absurd he List.not_mem_nil
    | cons e' batch ih =>
      intro inner e he
      rcases List.mem_cons.mp he with rfl | he
      · refine hkeeps batch _ _ ?_
        rw [take_expired]
        exact blocks_park_self
      · exact ih _ e he
  refine ⟨?_, fun b hb _ => hkeeps _ inner b hb⟩
  intro session_id by_ lease h
  obtain ⟨e, hfind, hpark⟩ := Option.map_eq_some_iff.mp h
  cases hpark
  exact hparks _ inner e ((sweep_sorted_perm _).mem_iff.mp (List.mem_of_find?_eq_some hfind))

theorem begin_guards (durable : Bool) (call : PoolCall) :
    (begin_ c durable inner call).Guards inner old := by
  cases call with
  | reserve id device_id now => exact reserve_begin_guards device_id now
  | commit id now => exact commit_begin_guards now
  | release_at id now_ms =>
    rw [begin_, release_begin]
    split
    · exact guards_returns rfl rfl
    split
    · exact guards_returns rfl rfl
    split
    · exact guards_returns rfl rfl
    · next inner' taken ht =>
      obtain ⟨h4, h6⟩ := take_blocks ht
      exact guards_parks _ h4 h6 (fun _ _ _ h => out_of_if h)
  | renew id now =>
    rw [begin_, renew_begin]
    split
    · exact guards_returns rfl rfl
    split
    · exact guards_returns rfl rfl
    split
    · exact guards_returns rfl rfl
    · refine ⟨?_, fun _ hb _ => hb.congr rfl rfl⟩
      intro session_id by_ lease h
      have h : (if session_id = id then some (Parked.renewing _ _) else none) =
        some (.out by_ lease) := h
      split at h <;> cases h
  | sweep now_ms => exact sweep_begin_guards now_ms
  | retry_pending_releases_bounded now_ms max_batch =>
    exact retry_begin_guards durable now_ms max_batch none

/-- A section that unparks one lease and puts it back somewhere. -/
theorem guards_unparks {inner' : Inner} {e : PoolEvent} {by_ : TakenBy} {lease : Lease}
    (hold : old id = some (.out by_ lease))
    (h : ∀ b, (inner.unpark id lease.addresses).Blocks b → inner'.Blocks b) :
    (Section.returns inner' e).Guards inner old := by
  refine ⟨?_, fun b hb hne => h b (hb.unpark (hne id by_ lease hold))⟩
  intro session_id by_ lease h
  contradiction

theorem settle_expired_blocks {now_ms : ℕ} {e : Expired} {ok : Bool} {b : AssignedAddresses}
    (hb : inner.Blocks b) (hne : ¬ e.lease.addresses.Shares b) :
    (settle_expired c now_ms inner e ok).Blocks b := by
  have hunpark : (inner.unpark e.id e.lease.addresses).Blocks b := hb.unpark hne
  rw [settle_expired]
  split
  · exact hunpark
  split
  · next he => exact hunpark.enqueue he
  split
  · exact hunpark.congr rfl rfl
  · exact hunpark.congr rfl rfl

theorem sweep_finish_guards (batch : List Expired) (now_ms : ℕ) (outcomes : List Bool)
    (hnodup : (batch.map (·.id)).Nodup) :
    (sweep_finish c inner batch now_ms outcomes).Guards inner
      (fun session_id => (Plan.sweep batch now_ms).parked session_id) := by
  refine ⟨fun _ _ _ h => absurd h (by simp [sweep_finish, Section.parked, Plan.parked]), ?_⟩
  intro b hb hne
  have hapart : ∀ e ∈ batch, ¬ e.lease.addresses.Shares b :=
    fun e he => hne e.id _ _ (parked_sweep_of_mem now_ms hnodup he)
  rw [sweep_finish]
  refine List.foldlRecOn (motive := fun settled : Inner => settled.Blocks b) _ _ hb ?_
  intro settled hbefore e he
  exact settle_expired_blocks hbefore (hapart e.1 (List.of_mem_zip he).1)

theorem settle_retry_blocks {now_ms : ℕ} {ok : Bool} {b : AssignedAddresses}
    (hb : inner.Blocks b) : (settle_retry now_ms inner id ok).Blocks b := by
  unfold settle_retry
  dsimp only
  split
  · exact hb.congr rfl rfl
  split
  · exact hb.congr rfl rfl
  · exact hb.congr rfl rfl

theorem resume_guards (durable : Bool) {plan : Plan} (hdistinct : plan.Distinct)
    (outcomes : List Bool) :
    (resume c durable inner outcomes plan).Guards inner
      (fun session_id => plan.parked session_id) := by
  cases plan with
  | reserve id lease wall =>
    rw [resume, reserve_finish]
    split
    · exact guards_unparks (if_pos rfl) (fun _ hb => hb)
    split
    · exact guards_unparks (if_pos rfl) (fun _ hb => hb)
    · exact guards_unparks (if_pos rfl) (fun _ hb => hb.congr rfl rfl)
  | promote id pending mono wall =>
    rw [resume, promote_finish]
    split
    · exact guards_unparks (if_pos rfl) (fun _ hb => hb.congr rfl rfl)
    split
    · exact guards_unparks (if_pos rfl) (fun _ hb => hb)
    · exact guards_unparks (if_pos rfl) (fun _ hb => hb.congr rfl rfl)
  | expire id pending now_ms =>
    rw [resume, expire_finish]
    split
    · exact guards_unparks (if_pos rfl) (fun _ hb => hb)
    split
    · exact guards_unparks (if_pos rfl) (fun _ hb => hb.congr rfl rfl)
    · next he => exact guards_unparks (if_pos rfl) (fun _ hb => hb.enqueue he)
  | release id taken now_ms =>
    rw [resume, release_finish]
    split
    · exact guards_unparks (if_pos rfl) (fun _ hb => hb)
    split
    · exact guards_unparks (if_pos rfl) (fun _ hb => hb.congr rfl rfl)
    · next he => exact guards_unparks (if_pos rfl) (fun _ hb => hb.enqueue he)
  | renew id active mono wall =>
    rw [resume, renew_finish]
    split
    · exact guards_returns rfl rfl
    split
    · split
      · exact guards_returns rfl rfl
      · exact guards_returns rfl rfl
    · exact guards_returns rfl rfl
  | sweep batch now_ms => exact sweep_finish_guards batch now_ms outcomes hdistinct
  | swept expired_ids now_ms =>
    exact retry_begin_guards durable now_ms MAX_RETRY_BATCH (some expired_ids)
  | retry batch now_ms expired_ids =>
    have hsettled : ∀ {b : AssignedAddresses}, inner.Blocks b → Inner.Blocks
        ((batch.zip outcomes).foldl (fun inner e => settle_retry now_ms inner e.1 e.2) inner) b :=
      fun {b} hb => List.foldlRecOn (motive := fun settled : Inner => settled.Blocks b) _ _ hb
        (fun _ hbefore _ _ => settle_retry_blocks hbefore)
    rw [resume, retry_finish]
    cases expired_ids with
    | none => exact ⟨fun _ _ _ h => by contradiction, fun b hb _ => hsettled hb⟩
    | some ids => exact ⟨fun _ _ _ h => by contradiction, fun b hb _ => hsettled hb⟩

/-! ## What the allocator avoids -/

theorem scan_ipv4_free {free : Ipv4 → Bool} {broadcast v : Ipv4} {bound : ℕ} {candidate : Ipv4}
    (h : Inner.scan_ipv4 free broadcast bound candidate = some v) : free v = true := by
  induction bound generalizing candidate with
  | zero => contradiction
  | succ bound ih =>
    rw [Inner.scan_ipv4] at h
    split at h
    · contradiction
    split at h
    · next hfree =>
      obtain rfl := Option.some.inj h
      exact hfree
    · exact ih h

theorem find_free_ipv4_unused {v : Ipv4} (h : inner.find_free_ipv4 c = some v) :
    inner.used_ipv4 v = false := by
  have hfree : ∀ {bound : ℕ}, Inner.scan_ipv4 (fun candidate => decide (candidate ≠ c.ipv4_gateway ∧
      candidate ∉ c.reserved_ipv4 ∧ !inner.used_ipv4 candidate)) c.broadcast bound (c.network + 1) =
        some v → inner.used_ipv4 v = false := by
    intro bound h
    have hv := of_decide_eq_true (scan_ipv4_free h)
    simpa using hv.2.2
  rw [Inner.find_free_ipv4] at h
  dsimp only at h
  split at h
  · next v' hscan =>
    obtain rfl := Option.some.inj h
    exact hfree hscan
  split at h
  · contradiction
  · exact hfree h

theorem scan_ipv6_unused {v : Ipv6} {bound subnet : ℕ}
    (h : inner.scan_ipv6 c bound subnet = some v) :
    inner.used_ipv6 v = false ∧ ipv6_is_64_aligned v = true := by
  induction bound generalizing subnet with
  | zero => contradiction
  | succ bound ih =>
    rw [Inner.scan_ipv6] at h
    split at h
    · next hfree =>
      obtain rfl := Option.some.inj h
      refine ⟨?_, ipv6_subnet_prefix_aligned _ _ _⟩
      simpa using hfree
    · exact ih h

theorem find_free_ipv6_unused {v : Ipv6} (h : inner.find_free_ipv6 c = some v) :
    inner.used_ipv6 v = false ∧ ipv6_is_64_aligned v = true := by
  rw [Inner.find_free_ipv6] at h
  split at h
  · next v' hscan =>
    obtain rfl := Option.some.inj h
    exact scan_ipv6_unused hscan
  split at h
  · contradiction
  · exact scan_ipv6_unused h

theorem allocate_unused {a : AssignedAddresses} (h : inner.allocate_locked c = .ok a) :
    inner.used_ipv4 a.ipv4 = false ∧ inner.used_ipv6 a.ipv6_prefix_addr = false ∧
      ipv6_is_64_aligned a.ipv6_prefix_addr = true := by
  obtain ⟨v4, v6, h4, h6, rfl⟩ := allocate_ok h
  exact ⟨find_free_ipv4_unused h4, find_free_ipv6_unused h6⟩

/-- A candidate meets no address that the maps or the parked sets hold. -/
theorem unused_not_shares {a b : AssignedAddresses} (h4 : inner.used_ipv4 b.ipv4 = false)
    (h6 : inner.used_ipv6 b.ipv6_prefix_addr = false)
    (hb : ipv6_is_64_aligned b.ipv6_prefix_addr = true)
    (ha : ipv6_is_64_aligned a.ipv6_prefix_addr = true) (hheld : a ∈ inner.leased ∨ inner.Blocks a) :
    ¬ a.Shares b := by
  rw [Inner.used_ipv4, Bool.or_eq_false_iff, List.any_eq_false, decide_eq_false_iff_not] at h4
  rw [Inner.used_ipv6, Bool.or_eq_false_iff, List.any_eq_false, decide_eq_false_iff_not] at h6
  refine not_shares_of_ne ha hb ?_ ?_
  · intro he
    rcases hheld with hmem | hblocks
    · exact h4.1 a hmem (decide_eq_true he)
    · exact h4.2 (he ▸ hblocks.v4)
  · intro he
    rcases hheld with hmem | hblocks
    · exact h6.1 a hmem (decide_eq_true he)
    · exact h6.2 (he ▸ hblocks.v6)

theorem leased_of_slot {a : AssignedAddresses} (h : inner.slot id = p.slot)
    (ha : p.addresses = some a) (hout : ∀ by_ lease, p ≠ .out by_ lease) : a ∈ inner.leased := by
  have hactive : ∀ lease, p.slot.active = some lease → lease.addresses ∈ inner.leased := by
    intro lease hl
    rw [← h] at hl
    rw [Inner.leased, List.mem_append, List.mem_append]
    exact .inl (.inl (List.mem_map_of_mem (AList.mem_values_iff.mpr ⟨id, hl⟩)))
  have hquarantined : ∀ lease, p.slot.quarantined = some lease → lease.addresses ∈ inner.leased := by
    intro lease hl
    rw [← h] at hl
    rw [Inner.leased, List.mem_append]
    exact .inr (List.mem_map.mpr ⟨lease, AList.mem_values_iff.mpr ⟨id, hl⟩, rfl⟩)
  cases p with
  | free => contradiction
  | reserved lease =>
    obtain rfl := Option.some.inj ha
    have hl : inner.pending.lookup id = some lease := congrArg Slot.pending h
    rw [Inner.leased, List.mem_append, List.mem_append]
    exact .inl (.inr (List.mem_map_of_mem (AList.mem_values_iff.mpr ⟨id, hl⟩)))
  | active lease | renewing lease _ =>
    obtain rfl := Option.some.inj ha
    exact hactive lease rfl
  | quarantined lease | retrying lease =>
    obtain rfl := Option.some.inj ha
    exact hquarantined lease rfl
  | out by_ lease => exact absurd rfl (hout by_ lease)

/-- **Freshly allocated addresses meet those of no other session.** -/
theorem allocates_fresh {call : PoolCall} {a b : AssignedAddresses} (hne : id ≠ session_id)
    (h : inner.slot id = p.slot) (ha : p.addresses = some a)
    (haligned : ipv6_is_64_aligned a.ipv6_prefix_addr = true)
    (hblocked : ∀ by_ lease, p = .out by_ lease → inner.Blocks lease.addresses)
    (hb : Allocates c inner call session_id b) :
    ipv6_is_64_aligned b.ipv6_prefix_addr = true ∧ ¬ a.Shares b := by
  obtain ⟨-, inner', hinner, halloc⟩ := hb
  obtain ⟨h4, h6, hbaligned⟩ := allocate_unused halloc
  -- dropping the session's own reservation does not touch the other session
  have hslot : inner'.slot id = p.slot := by
    rcases hinner with rfl | rfl
    · exact h
    · exact (slot_erase_pending_of_ne hne).trans h
  refine ⟨hbaligned, unused_not_shares h4 h6 hbaligned haligned ?_⟩
  by_cases hout : ∃ by_ lease, p = .out by_ lease
  · obtain ⟨by_, lease, rfl⟩ := hout
    obtain rfl := Option.some.inj ha
    right
    rcases hinner with rfl | rfl
    · exact hblocked by_ lease rfl
    · exact (hblocked by_ lease rfl).congr rfl rfl
  · left
    exact leased_of_slot hslot ha (fun by_ lease he => hout ⟨by_, lease, he⟩)

end AddressPool

end StreamGuard.Gateway
