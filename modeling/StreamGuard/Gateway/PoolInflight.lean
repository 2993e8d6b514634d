/-
Whose addresses the pool blocks.

`PoolAddresses.lean` shows that what a parked call took out is blocked. This is
the other direction: an address in the parked sets is the address of a lease that
some call has taken out, and an address the allocator avoids is held by a lease of
some session. Both families are handled at once, as one type of addresses.

With it, the retry order of a pool that has just recovered its records, so that
the counting below starts from every way a pool starts.
-/
import StreamGuard.Gateway.PoolRecords
import StreamGuard.Gateway.PoolUsable

set_option autoImplicit false

namespace StreamGuard.Gateway

open StreamGuard StreamGuard.Lib

/-! ## Addresses of both families -/

/-- One address of a lease. -/
inductive Address where
  | ipv4 (addr : Ipv4)
  | ipv6 (prefix_ : Ipv6)

def AssignedAddresses.Has (a : AssignedAddresses) : Address → Prop
  | .ipv4 addr => a.ipv4 = addr
  | .ipv6 prefix_ => a.ipv6_prefix_addr = prefix_

namespace Inner

/-- The address is in the parked sets. -/
def InFlight (inner : Inner) : Address → Prop
  | .ipv4 addr => addr ∈ inner.inflight_v4
  | .ipv6 prefix_ => prefix_ ∈ inner.inflight_v6

/-- The allocator avoids the address. -/
def Used (inner : Inner) : Address → Prop
  | .ipv4 addr => inner.used_ipv4 addr = true
  | .ipv6 prefix_ => inner.used_ipv6 prefix_ = true

variable {inner inner' : Inner} {id : SessionId} {a : AssignedAddresses} {x : Address}

theorem used_iff : inner.Used x ↔ (∃ a ∈ inner.leased, a.Has x) ∨ inner.InFlight x := by
  cases x with
  | ipv4 addr => simp [Used, used_ipv4, InFlight, AssignedAddresses.Has]
  | ipv6 prefix_ => simp [Used, used_ipv6, InFlight, AssignedAddresses.Has]

theorem inFlight_congr (h4 : inner'.inflight_v4 = inner.inflight_v4)
    (h6 : inner'.inflight_v6 = inner.inflight_v6) : inner'.InFlight x ↔ inner.InFlight x := by
  cases x with
  | ipv4 addr => simp only [InFlight, h4]
  | ipv6 prefix_ => simp only [InFlight, h6]

theorem inFlight_park : (inner.park id a).InFlight x ↔ a.Has x ∨ inner.InFlight x := by
  cases x <;> simp [InFlight, park, AssignedAddresses.Has, eq_comm]

theorem inFlight_unpark : (inner.unpark id a).InFlight x ↔ ¬ a.Has x ∧ inner.InFlight x := by
  cases x <;> simp [InFlight, unpark, AssignedAddresses.Has, eq_comm]

theorem inFlight_enqueue {c : AddressPoolConfig} {lease : Lease} {now_ms : ℕ}
    (he : inner.enqueue_release_locked c id lease now_ms = .ok inner') :
    inner'.InFlight x ↔ inner.InFlight x := by
  rw [enqueue_release_locked] at he
  split at he
  · rw [← Except.ok.inj he]
  split at he
  · contradiction
  · obtain rfl := Except.ok.inj he
    exact inFlight_congr rfl rfl

end Inner

/-! ## One section -/

/-- What is parked after a section its plan has taken out, or it was parked before
and not by the section's own call. -/
def Section.Accounts (sec : Section) (inner : Inner) (old : SessionId → Option Parked) : Prop :=
  ∀ x, sec.inner.InFlight x →
    (∃ id by_ lease, sec.parked id = some (.out by_ lease) ∧ lease.addresses.Has x) ∨
      inner.InFlight x ∧
        ∀ id by_ lease, old id = some (.out by_ lease) → ¬ lease.addresses.Has x

namespace AddressPool

variable {c : AddressPoolConfig} {inner inner' : Inner} {id : SessionId} {x : Address}

/-- The call has parked nothing before its first section. -/
def idle_call (_ : SessionId) : Option Parked := none

/-- A first section that parks no address. -/
theorem accounts_of_subset {sec : Section} (h : ∀ x, sec.inner.InFlight x → inner.InFlight x) :
    sec.Accounts inner idle_call :=
  fun x hx => .inr ⟨h x hx, fun _ _ _ hold => by contradiction⟩

/-- A first section that parks one lease. -/
theorem accounts_parks {plan : Plan} (by_ : TakenBy) (lease : Lease)
    (h : ∀ x, inner'.InFlight x ↔ inner.InFlight x)
    (hplan : plan.parked id = some (.out by_ lease)) :
    (Section.parks (inner'.park id lease.addresses) plan).Accounts inner idle_call := by
  intro x hx
  rcases Inner.inFlight_park.mp hx with hhas | hx
  · exact .inl ⟨id, by_, lease, hplan, hhas⟩
  · exact .inr ⟨(h x).mp hx, fun _ _ _ hold => by contradiction⟩

theorem inFlight_take {lease : Lease} (ht : take inner id = some (inner', lease)) :
    inner'.InFlight x ↔ inner.InFlight x :=
  Inner.inFlight_congr (take_blocks ht).1 (take_blocks ht).2

theorem retry_begin_inFlight (durable : Bool) (now_ms max_batch : ℕ)
    (expired_ids : Option (List SessionId)) :
    (retry_begin durable inner now_ms max_batch expired_ids).inner.InFlight x ↔
      inner.InFlight x := by
  rcases retry_begin_cases durable inner now_ms max_batch expired_ids with
    ⟨e, _, _, order, he⟩ | ⟨batch, order, _, _, he⟩
  · rw [he]
    exact Inner.inFlight_congr rfl rfl
  · rw [he]
    exact Inner.inFlight_congr rfl rfl

theorem reserve_begin_accounts (device_id : DeviceId) (now : PoolTime) :
    (reserve_begin c inner id device_id now).Accounts inner idle_call := by
  have hsame : ∀ {e : PoolEvent}, (Section.returns inner e).Accounts inner idle_call :=
    accounts_of_subset (fun _ hx => hx)
  have hnew : ∀ inner' : Inner, (∀ x, inner'.InFlight x ↔ inner.InFlight x) →
      (reserve_new c inner' id device_id now).Accounts inner idle_call := by
    intro inner' h
    rw [reserve_new]
    split
    · exact accounts_of_subset (fun x hx => (h x).mp hx)
    split
    · exact accounts_of_subset (fun x hx => (h x).mp hx)
    · next addresses _ =>
      exact accounts_parks .reserving ⟨device_id, addresses, _⟩ h (if_pos rfl)
  rw [reserve_begin]
  dsimp only
  split
  · exact hsame
  split
  · exact hsame
  split
  · split <;> exact hsame
  split
  · split <;> exact hsame
  split
  · exact hnew inner (fun _ => Iff.rfl)
  split
  · exact hsame
  split
  · exact hsame
  · exact hnew _ (fun _ => Inner.inFlight_congr rfl rfl)

theorem commit_begin_accounts (now : PoolTime) :
    (commit_begin c inner id now).Accounts inner idle_call := by
  have hsame : ∀ {e : PoolEvent}, (Section.returns inner e).Accounts inner idle_call :=
    accounts_of_subset (fun _ hx => hx)
  have herased : ∀ x, ({ inner with pending := inner.pending.erase id } : Inner).InFlight x ↔
      inner.InFlight x := fun _ => Inner.inFlight_congr rfl rfl
  rw [commit_begin]
  split
  · exact hsame
  split
  · exact hsame
  split
  · exact hsame
  split
  · exact hsame
  dsimp only
  split
  · exact accounts_parks .expiring _ herased (if_pos rfl)
  · exact accounts_parks (.promoting _) _ herased (if_pos rfl)

/-- A sweep parks the leases of its batch. -/
theorem sweep_begin_accounts (now_ms : ℕ) (hapart : Apart inner) :
    (sweep_begin inner now_ms).Accounts inner idle_call := by
  intro x hx
  have hfrom : (∃ e ∈ sweep_batch inner now_ms, e.lease.addresses.Has x) ∨ inner.InFlight x := by
    refine List.foldlRecOn (motive := fun taken : Inner => taken.InFlight x →
      (∃ e ∈ sweep_batch inner now_ms, e.lease.addresses.Has x) ∨ inner.InFlight x)
      _ _ Or.inr ?_ hx
    intro taken hbefore e he hx
    rw [take_expired, Inner.inFlight_park] at hx
    rcases hx with hhas | hx
    · exact .inl ⟨e, he, hhas⟩
    refine hbefore ?_
    split at hx
    · exact (Inner.inFlight_congr rfl rfl).mp hx
    · exact (Inner.inFlight_congr rfl rfl).mp hx
  rcases hfrom with ⟨e, he, hhas⟩ | hx
  · -- the plan names every session of the batch once, in another order
    have hsorted := sweep_sorted_perm (sweep_batch inner now_ms)
    have hnodup := (hsorted.map (·.id)).nodup_iff.mpr (sweep_batch_nodup hapart now_ms)
    have hparked := parked_sweep_of_mem now_ms hnodup (hsorted.mem_iff.mpr he)
    exact .inl ⟨e.id, _, e.lease, hparked, hhas⟩
  · exact .inr ⟨hx, fun _ _ _ hold => by contradiction⟩

theorem begin_accounts (durable : Bool) (call : PoolCall) (hapart : Apart inner) :
    (begin_ c durable inner call).Accounts inner idle_call := by
  have hsame : ∀ {e : PoolEvent}, (Section.returns inner e).Accounts inner idle_call :=
    accounts_of_subset (fun _ hx => hx)
  cases call with
  | reserve id device_id now => exact reserve_begin_accounts device_id now
  | commit id now => exact commit_begin_accounts now
  | release_at id now_ms =>
    rw [begin_, release_begin]
    split
    · exact hsame
    split
    · exact hsame
    split
    · exact hsame
    · next inner' taken ht =>
      exact accounts_parks .releasing taken (fun _ => inFlight_take ht) (if_pos rfl)
  | renew id now =>
    rw [begin_, renew_begin]
    split
    · exact hsame
    split
    · exact hsame
    split
    · exact hsame
    · exact accounts_of_subset (fun x hx => (Inner.inFlight_congr rfl rfl).mp hx)
  | sweep now_ms => exact sweep_begin_accounts now_ms hapart
  | retry_pending_releases_bounded now_ms max_batch =>
    exact accounts_of_subset (fun x hx => (retry_begin_inFlight durable now_ms max_batch none).mp hx)

/-- A later section that unparks what its call had taken out. -/
theorem accounts_unparks {sec : Section} {plan : Plan} (id : SessionId) (lease : Lease)
    (h : ∀ x, sec.inner.InFlight x → (inner.unpark id lease.addresses).InFlight x)
    (hplan : ∀ id' by_ taken, plan.parked id' = some (.out by_ taken) → taken = lease) :
    sec.Accounts inner (fun id => plan.parked id) := by
  intro x hx
  obtain ⟨hnot, hx⟩ := Inner.inFlight_unpark.mp (h x hx)
  refine .inr ⟨hx, ?_⟩
  intro id' by_ taken hparked
  rwa [hplan id' by_ taken hparked]

/-- A later section of a call that has taken nothing out. -/
theorem accounts_keeps {sec : Section} {plan : Plan}
    (h : ∀ x, sec.inner.InFlight x → inner.InFlight x)
    (hplan : ∀ id by_ taken, plan.parked id ≠ some (.out by_ taken)) :
    sec.Accounts inner (fun id => plan.parked id) :=
  fun x hx => .inr ⟨h x hx, fun id by_ taken hparked => absurd hparked (hplan id by_ taken)⟩

theorem settle_expired_inFlight {now_ms : ℕ} {e : Expired} {ok : Bool}
    (hx : (settle_expired c now_ms inner e ok).InFlight x) :
    ¬ e.lease.addresses.Has x ∧ inner.InFlight x := by
  apply (@Inner.inFlight_unpark inner e.id e.lease.addresses x).mp
  rw [settle_expired] at hx
  split at hx
  · exact hx
  split at hx
  · next he => exact (Inner.inFlight_enqueue he).mp hx
  split at hx
  · exact (Inner.inFlight_congr rfl rfl).mp hx
  · exact (Inner.inFlight_congr rfl rfl).mp hx

theorem sweep_finish_accounts (batch : List Expired) (now_ms : ℕ) {outcomes : List Bool}
    (hlen : outcomes.length = batch.length) :
    (sweep_finish c inner batch now_ms outcomes).Accounts inner
      (fun id => (Plan.sweep batch now_ms).parked id) := by
  have hfold : ∀ (settled : List (Expired × Bool)) (inner : Inner) (x : Address),
      (settled.foldl (fun inner e => settle_expired c now_ms inner e.1 e.2) inner).InFlight x →
        inner.InFlight x ∧ ∀ e ∈ settled, ¬ e.1.lease.addresses.Has x := by
    intro settled
    induction settled with
    | nil => exact fun _ _ hx => ⟨hx, by simp⟩
    | cons e settled ih =>
      intro inner x hx
      obtain ⟨hx, hrest⟩ := ih _ x hx
      obtain ⟨hnot, hx⟩ := settle_expired_inFlight hx
      exact ⟨hx, List.forall_mem_cons.mpr ⟨hnot, hrest⟩⟩
  intro x hx
  obtain ⟨hx, hnone⟩ := hfold _ inner x hx
  refine .inr ⟨hx, ?_⟩
  intro id by_ taken hparked
  obtain ⟨e, hfind, he⟩ := Option.map_eq_some_iff.mp hparked
  cases he
  have hmem : e ∈ (batch.zip outcomes).map Prod.fst := by
    rw [List.map_fst_zip (Nat.le_of_eq hlen.symm)]
    exact List.mem_of_find?_eq_some hfind
  obtain ⟨e', he', rfl⟩ := List.mem_map.mp hmem
  exact hnone e' he'

theorem settle_retry_inFlight {now_ms : ℕ} {ok : Bool} :
    (settle_retry now_ms inner id ok).InFlight x ↔ inner.InFlight x := by
  unfold settle_retry
  dsimp only
  split
  · exact Inner.inFlight_congr rfl rfl
  split
  · exact Inner.inFlight_congr rfl rfl
  · exact Inner.inFlight_congr rfl rfl

theorem retry_finish_inFlight (batch : List SessionId) (now_ms : ℕ)
    (expired_ids : Option (List SessionId)) (outcomes : List Bool) :
    (retry_finish inner batch now_ms expired_ids outcomes).inner.InFlight x ↔ inner.InFlight x := by
  have hsettled : ((batch.zip outcomes).foldl (fun inner e => settle_retry now_ms inner e.1 e.2)
      inner).InFlight x ↔ inner.InFlight x :=
    List.foldlRecOn (motive := fun settled : Inner => settled.InFlight x ↔ inner.InFlight x)
      _ _ Iff.rfl (fun _ hbefore _ _ => settle_retry_inFlight.trans hbefore)
  rw [retry_finish]
  cases expired_ids <;> exact hsettled

theorem resume_accounts (durable : Bool) {plan : Plan} {outcomes : List Bool}
    (hlen : outcomes.length = plan.store_ops.length) :
    (resume c durable inner outcomes plan).Accounts inner (fun id => plan.parked id) := by
  cases plan with
  | reserve id lease wall =>
    refine accounts_unparks id lease ?_ (fun _ _ _ h => out_of_if h)
    intro x hx
    rw [resume, reserve_finish] at hx
    split at hx
    · exact hx
    split at hx
    · exact hx
    · exact (Inner.inFlight_congr rfl rfl).mp hx
  | promote id pending mono wall =>
    refine accounts_unparks id pending ?_ (fun _ _ _ h => out_of_if h)
    intro x hx
    rw [resume, promote_finish] at hx
    split at hx
    · exact (Inner.inFlight_congr rfl rfl).mp hx
    split at hx
    · exact hx
    · exact (Inner.inFlight_congr rfl rfl).mp hx
  | expire id pending now_ms =>
    refine accounts_unparks id pending ?_ (fun _ _ _ h => out_of_if h)
    intro x hx
    rw [resume, expire_finish] at hx
    split at hx
    · exact hx
    split at hx
    · exact (Inner.inFlight_congr rfl rfl).mp hx
    · next he => exact (Inner.inFlight_enqueue he).mp hx
  | release id taken now_ms =>
    refine accounts_unparks id taken ?_ (fun _ _ _ h => out_of_if h)
    intro x hx
    rw [resume, release_finish] at hx
    split at hx
    · exact hx
    split at hx
    · exact (Inner.inFlight_congr rfl rfl).mp hx
    · next he => exact (Inner.inFlight_enqueue he).mp hx
  | renew id active mono wall =>
    refine accounts_keeps ?_ ?_
    · intro x hx
      rw [resume, renew_finish] at hx
      split at hx
      · exact (Inner.inFlight_congr rfl rfl).mp hx
      split at hx
      · split at hx
        · exact (Inner.inFlight_congr rfl rfl).mp hx
        · exact (Inner.inFlight_congr rfl rfl).mp hx
      · exact (Inner.inFlight_congr rfl rfl).mp hx
    · intro id' by_ taken h
      rw [Plan.parked] at h
      split at h <;> cases h
  | sweep batch now_ms =>
    refine sweep_finish_accounts batch now_ms ?_
    rw [hlen, Plan.store_ops, List.length_map]
  | swept expired_ids now_ms =>
    refine accounts_keeps ?_ (fun _ _ _ h => by contradiction)
    exact fun x hx => (retry_begin_inFlight durable now_ms _ _).mp hx
  | retry batch now_ms expired_ids =>
    refine accounts_keeps (fun x hx => (retry_finish_inFlight _ _ _ _).mp hx) ?_
    intro id by_ taken h
    rw [Plan.parked] at h
    split at h <;> cases h

theorem release_deferred_inFlight :
    (release_deferred c inner id).1.InFlight x ↔ inner.InFlight x := by
  rw [release_deferred]
  split
  · exact Iff.rfl
  split
  · exact Iff.rfl
  next taken_out lease ht =>
  split
  · next he => exact (Inner.inFlight_enqueue he).trans (inFlight_take ht)
  · refine Iff.trans ?_ (inFlight_take ht)
    exact Inner.inFlight_congr rfl rfl

/-! ## Startup -/

/-- Nothing is parked yet, and the retry order names what is quarantined. -/
structure Recovering (c : AddressPoolConfig) (inner : Inner) : Prop where
  queue : inner.Queue c
  idle : inner.inflight = ∅
  unparked : ∀ x, ¬ inner.InFlight x

theorem recovering_empty (c : AddressPoolConfig) : Recovering c .empty := by
  refine ⟨Inner.queue_empty c, rfl, ?_⟩
  intro x
  cases x <;> simp [Inner.InFlight, Inner.empty]

theorem Recovering.enqueue (id : SessionId) (lease : Lease) (now_ms : ℕ)
    (h : Recovering c inner) (he : inner.enqueue_release_locked c id lease now_ms = .ok inner') :
    Recovering c inner' := by
  have hidle : id ∉ inner.inflight := by simp [h.idle]
  refine ⟨h.queue.enqueue hidle he, ?_, fun x hx => h.unparked x ((Inner.inFlight_enqueue he).mp hx)⟩
  rw [Inner.enqueue_release_locked] at he
  split at he
  · rw [← Except.ok.inj he]
    exact h.idle
  split at he
  · contradiction
  · rw [← Except.ok.inj he]
    exact h.idle

theorem Recovering.congr (h : Recovering c inner)
    (horder : inner'.release_order = inner.release_order)
    (hquarantine : inner'.release_pending = inner.release_pending)
    (hidle : inner'.inflight = inner.inflight) (h4 : inner'.inflight_v4 = inner.inflight_v4)
    (h6 : inner'.inflight_v6 = inner.inflight_v6) : Recovering c inner' := by
  refine ⟨h.queue.congr horder hquarantine ?_, hidle.trans h.idle, ?_⟩
  · intro id _
    rw [hidle]
  · intro x hx
    exact h.unparked x ((Inner.inFlight_congr h4 h6).mp hx)

/-- One record: it is dropped, restored, or quarantined as a failed delete is. -/
theorem recover_lease_recovering {now : PoolTime} {r : Recovery} (record : PersistedLease)
    (h : Recovering c r.inner) : Recovering c (recover_lease c now r record).inner := by
  unfold recover_lease
  split
  · exact h
  split
  · exact h
  next hvalid =>
  dsimp only
  split
  · split
    · exact h
    · exact h.congr rfl rfl rfl rfl rfl
  · split
    · exact h
    · exact h.congr rfl rfl rfl rfl rfl
  · split
    · exact h
    next hroom =>
    have hnew : record.session_id ∉ r.inner.release_pending := by
      simp only [valid_persisted_locked, Bool.not_eq_true', Bool.not_eq_false,
        Bool.and_eq_true, decide_eq_false_iff_not] at hvalid
      exact hvalid.1.2
    refine Recovering.enqueue record.session_id ⟨record.device_id, record.addresses,
      monotonic_expiry_from_wall record.expires_at_ms now.wall_ms now.monotonic_ms⟩
      now.monotonic_ms h ?_
    rw [Inner.enqueue_release_locked, if_neg hnew, if_neg hroom]

theorem recover_records_recovering (c : AddressPoolConfig) (now : PoolTime)
    (records : List PersistedLease) : Recovering c (recover_records c now records).inner := by
  rw [recover_records]
  exact List.foldlRecOn (motive := fun r : Recovery => Recovering c r.inner) _ _
    (recovering_empty c) (fun _ h record _ => recover_lease_recovering record h)

theorem quarantine_stale_recovering {now : PoolTime} {deletes : List (PersistedLease × Bool)}
    (h : Recovering c inner) (hq : quarantine_stale c now inner deletes = .ok inner') :
    Recovering c inner' :=
  quarantine_stale_invariant (fun h he => h.enqueue _ _ _ he) h hq

end AddressPool

namespace PoolSystem

variable {s s' : PoolSystem} {label : PoolLabel} {events : List PoolEvent} {x : Address}

/-! ## Over a run -/

/-- A parked address is the address of a lease that some call has taken out. -/
def Owned (s : PoolSystem) : Prop :=
  ∀ x, s.pool.inner.InFlight x →
    ∃ id by_ lease, s.Parks id (.out by_ lease) ∧ lease.addresses.Has x

theorem Owned.enter {caller : ℕ} {old : Option Running} {sec : Section} (h : s.Owned)
    (hold : s.running.lookup caller = old) (hsec : sec.Accounts s.pool.inner (own old)) :
    (s.enter caller sec).Owned := by
  intro x hx
  rcases hsec x hx with ⟨id, by_, lease, hparked, hhas⟩ | ⟨hx, hown⟩
  · exact ⟨id, by_, lease, (parks_enter_iff _).mpr (.inl hparked), hhas⟩
  obtain ⟨id, by_, lease, ⟨caller', r, hr, hk⟩, hhas⟩ := h x hx
  refine ⟨id, by_, lease, (parks_enter_iff _).mpr (.inr ⟨caller', r, ?_, hr, hk⟩), hhas⟩
  -- the call itself has let go of the address
  rintro rfl
  refine hown id by_ lease ?_ hhas
  rw [← hold, own, hr, Option.bind_some, hk]

/-- **Step lemma.** -/
theorem Owned.step (hc : s.Coherent) (h : s.Owned) (hs : s.step label = some (s', events)) :
    s'.Owned := by
  cases step_steps hs with
  | begin_ call hidle =>
    exact h.enter hidle (AddressPool.begin_accounts s.durable call hc.apart)
  | store ok hr hop =>
    intro x hx
    obtain ⟨id, by_, lease, hparks, hhas⟩ := h x hx
    exact ⟨id, by_, lease, (parks_after_store_iff hr id _).mpr hparks, hhas⟩
  | resume hr hlen => exact h.enter hr (AddressPool.resume_accounts s.durable hlen)
  | release_deferred subject =>
    intro x hx
    exact h x (AddressPool.release_deferred_inFlight.mp hx)

/-- The address belongs to the lease of some session. -/
def Held (s : PoolSystem) (x : Address) : Prop :=
  ∃ id p a, s.At id p ∧ p.addresses = some a ∧ a.Has x

/-- **What the allocator avoids is held.** -/
theorem held_of_used (hc : s.Coherent) (h : s.Owned) (hx : s.pool.inner.Used x) : s.Held x := by
  rcases Inner.used_iff.mp hx with ⟨a, ha, hhas⟩ | hx
  · rcases mem_leased_iff.mp ha with ⟨id, lease, hl, rfl⟩ | ⟨id, lease, hl, rfl⟩ |
      ⟨id, lease, hl, rfl⟩
    all_goals obtain ⟨p, hp⟩ := hc.places id
    · refine ⟨id, p, lease.addresses, hp, ?_, hhas⟩
      have hslot : p.slot.active = some lease := (congrArg Slot.active hp.slot).symm.trans hl
      cases p <;> simp_all [Place.slot, Place.addresses]
    · refine ⟨id, p, lease.addresses, hp, ?_, hhas⟩
      have hslot : p.slot.pending = some lease := (congrArg Slot.pending hp.slot).symm.trans hl
      cases p <;> simp_all [Place.slot, Place.addresses]
    · refine ⟨id, p, lease.addresses, hp, ?_, hhas⟩
      have hslot : p.slot.quarantined = some lease :=
        (congrArg Slot.quarantined hp.slot).symm.trans hl
      cases p <;> simp_all [Place.slot, Place.addresses]
  · obtain ⟨id, by_, lease, hparks, hhas⟩ := h x hx
    obtain ⟨p, hp⟩ := hc.places id
    obtain rfl := Place.eq_out ((hp.parks _).mp hparks)
    exact ⟨id, _, lease.addresses, hp, rfl, hhas⟩

/-- What holds in every state of a started pool. -/
structure Sound (c : AddressPoolConfig) (s : PoolSystem) : Prop where
  config : s.pool.config = c
  coherent : s.Coherent
  queue : s.pool.inner.Queue c
  owned : s.Owned

theorem Sound.step {c : AddressPoolConfig} (h : s.Sound c) (hs : s.step label = some (s', events)) :
    s'.Sound c := by
  have hconfig : s'.pool.config = c := (step_config hs).trans h.config
  refine ⟨hconfig, (step_refines h.coherent hs).1, ?_, h.owned.step h.coherent hs⟩
  rw [← hconfig]
  exact queue_step h.coherent (h.config.symm ▸ h.queue) hs

theorem Started.recovering {c : AddressPoolConfig} {pool : AddressPool} (h : Started c pool) :
    AddressPool.Recovering c pool.inner ∧ pool.config = c := by
  cases h with
  | ephemeral => exact ⟨AddressPool.recovering_empty c, rfl⟩
  | recovered _ _ h =>
    obtain ⟨hq, hconfig⟩ := AddressPool.with_store_inner h
    exact ⟨AddressPool.quarantine_stale_recovering
      (AddressPool.recover_records_recovering c _ _) hq, hconfig⟩

theorem Started.sound {c : AddressPoolConfig} {pool : AddressPool} (h : Started c pool) :
    (start pool).Sound c := by
  obtain ⟨hrecovering, hconfig⟩ := h.recovering
  exact ⟨hconfig, start_coherent h.at_rest, hrecovering.queue,
    fun x hx => absurd hx (hrecovering.unparked x)⟩

theorem Started.sound_run {c : AddressPoolConfig} {pool : AddressPool} {labels : List PoolLabel}
    (h : Started c pool) (hrun : exec PoolSystem.step (start pool) labels = some (s, events)) :
    s.Sound c :=
  exec_invariant (fun _ _ _ _ h hs => Sound.step h hs) h.sound hrun

end PoolSystem

end StreamGuard.Gateway
