/-
No orphaned durable lease.

A durable record blocks its addresses for the next start of the gateway, so it
must belong to a session that the pool still knows, with the same device and the
same addresses. Between the lock sections of a call the two disagree for a while;
`Journaled` says how far: a record matches its session's place, unless a reserve
of the session has not persisted its candidate yet, and a delete that succeeded
has left no record.

The one branch that loses a record is a reserve that replaces an expired
reservation of its own session: the reservation leaves the memory at once, and
its record stays when the call then fails.
-/
import StreamGuard.Gateway.PoolRecords
import StreamGuard.Gateway.PoolUnique

set_option autoImplicit false

namespace StreamGuard.Gateway

open StreamGuard StreamGuard.Lib

/-! ## Records of a place -/

/-- The lease in a place. -/
def Place.lease : Place → Option Lease
  | .free => none
  | .reserved lease | .active lease | .out _ lease | .renewing lease _ => some lease
  | .quarantined lease | .retrying lease => some lease.toLease

/-- The record is one of the lease in this place: same device, same addresses. -/
def Place.Recorded (p : Place) (record : PersistedLease) : Prop :=
  ∃ lease, p.lease = some lease ∧ lease.device_id = record.device_id ∧
    lease.addresses = record.addresses

theorem Place.Recorded.addresses {p : Place} {record : PersistedLease} (h : p.Recorded record) :
    p.addresses = some record.addresses := by
  obtain ⟨lease, hl, -, ha⟩ := h
  rw [← ha]
  cases p with
  | free => contradiction
  | _ =>
    obtain rfl := Option.some.inj hl
    rfl

section Cycle

variable {fresh : AssignedAddresses → Prop} {session_id : SessionId} {p p' : Place}
  {events : List PoolEvent}

/-- **One step of a lease** keeps its records, takes up a new candidate, or frees
the session: at once when an expired reservation is dropped, and otherwise at the
end of the call that has parked it. -/
theorem LeaseCycle.records (h : LeaseCycle fresh session_id p events p') :
    (∀ record, p.Recorded record → p'.Recorded record) ∨
    (p.parked = none ∧ ∃ lease, p' = .out .reserving lease ∧ fresh lease.addresses) ∨
    p' = .free ∧ ((∃ old, p = .reserved old) ∧
      events = [.reserved session_id (.error .Exhausted)] ∨ p.parked.isSome) := by
  cases h with
  | stay _ => exact .inl (fun _ h => h)
  | reserve_parks lease hp hf =>
    refine .inr (.inl ⟨?_, lease, rfl, hf⟩)
    rcases hp with rfl | ⟨old, rfl⟩ <;> rfl
  | reserve_drops old => exact .inr (.inr ⟨rfl, .inl ⟨⟨old, rfl⟩, rfl⟩⟩)
  | reserve_fails | expire_frees | release_frees | sweep_frees | retry_frees =>
    exact .inr (.inr ⟨rfl, .inr rfl⟩)
  | release_takes lease hp | defer_quarantines lease _ _ hp | defer_restores lease hp =>
    left
    rcases hp with rfl | rfl <;> exact fun _ h => h
  | sweep_takes lease was_pending hp =>
    left
    cases was_pending <;> (subst hp; exact fun _ h => h)
  | sweep_restores lease was_pending _ =>
    left
    cases was_pending <;> exact fun _ h => h
  | promote_ok lease _ | renew_ok lease _ =>
    left
    rintro record ⟨lease', hl, hd, ha⟩
    obtain rfl := Option.some.inj hl
    exact ⟨_, rfl, hd, ha⟩
  | retry_fails lease _ _ _ =>
    left
    rintro record ⟨lease', hl, hd, ha⟩
    obtain rfl := Option.some.inj hl
    exact ⟨_, rfl, hd, ha⟩
  | _ => exact .inl (fun _ h => h)

end Cycle

namespace AddressPool

variable {c : AddressPoolConfig} {inner : Inner} {id : SessionId} {p : Place}

/-! ## How a session becomes free -/

/-- No room in the maps, or no free address. -/
def no_room (c : AddressPoolConfig) (inner : Inner) : Prop :=
  c.maximum_leases ≤ inner.active.len + inner.pending.len + inner.inflight.card ∨
    inner.find_free_ipv4 c = none ∨ inner.find_free_ipv6 c = none

instance (c : AddressPoolConfig) (inner : Inner) : Decidable (no_room c inner) :=
  inferInstanceAs (Decidable (_ ∨ _))

theorem no_room_of_allocate {e : AddressPoolError} (h : inner.allocate_locked c = .error e) :
    no_room c inner :=
  .inr (allocate_error h).2

/-- The reserve call replaces an expired reservation of its session, and finds no
room for the new one. -/
def drops_reservation (c : AddressPoolConfig) (inner : Inner) (session_id : SessionId)
    (device_id : DeviceId) (now : PoolTime) : Prop :=
  ∃ pending ∈ inner.pending.lookup session_id, pending.device_id = device_id ∧
    pending.expires_at_ms ≤ now.monotonic_ms ∧
      no_room c { inner with pending := inner.pending.erase session_id }

instance (c : AddressPoolConfig) (inner : Inner) (session_id : SessionId) (device_id : DeviceId)
    (now : PoolTime) : Decidable (drops_reservation c inner session_id device_id now) :=
  inferInstanceAs (Decidable (∃ pending ∈ inner.pending.lookup session_id, _))

/-- A reservation that is dropped without a successor was dropped by a reserve of
its session that has found no room. -/
theorem begin_exhausted (durable : Bool) (call : PoolCall) (hpending : id ∈ inner.pending)
    (h : (begin_ c durable inner call).events = [.reserved id (.error .Exhausted)]) :
    ∃ device_id now, call = .reserve id device_id now ∧
      drops_reservation c inner id device_id now := by
  cases call with
  | reserve subject device_id now =>
    rw [begin_, reserve_begin] at h
    dsimp only at h
    split at h
    · simp [Section.returns] at h
    split at h
    · simp [Section.returns] at h
    split at h
    · split at h <;> simp [Section.returns] at h
    split at h
    · split at h <;> simp [Section.returns] at h
    split at h
    · next hnone =>
      -- without a reservation of its own the call is about another session
      have hsubject : id ≠ subject := by
        rintro rfl
        exact AList.lookup_eq_none.mp hnone hpending
      rw [reserve_new] at h
      split at h
      · obtain ⟨he, -⟩ := PoolEvent.reserved.inj (List.singleton_inj.mp h)
        exact absurd he.symm hsubject
      split at h
      · obtain ⟨he, -⟩ := PoolEvent.reserved.inj (List.singleton_inj.mp h)
        exact absurd he.symm hsubject
      · contradiction
    next pending hl =>
    split at h
    · simp [Section.returns] at h
    next hdevice =>
    split at h
    · simp [Section.returns] at h
    next hexpired =>
    have hdrops : no_room c { inner with pending := inner.pending.erase subject } →
        drops_reservation c inner subject device_id now :=
      fun hroom => ⟨pending, hl, not_not.mp hdevice, Nat.le_of_not_lt hexpired, hroom⟩
    rw [reserve_new] at h
    split at h
    · next hfull =>
      obtain ⟨rfl, -⟩ := PoolEvent.reserved.inj (List.singleton_inj.mp h)
      exact ⟨device_id, now, rfl, hdrops (.inl hfull)⟩
    split at h
    · next e he =>
      obtain ⟨rfl, -⟩ := PoolEvent.reserved.inj (List.singleton_inj.mp h)
      exact ⟨device_id, now, rfl, hdrops (no_room_of_allocate he)⟩
    · contradiction
  | commit _ _ =>
    simp only [begin_, commit_begin] at h
    repeat' split at h
    all_goals cases h
  | release_at _ _ =>
    simp only [begin_, release_begin] at h
    repeat' split at h
    all_goals cases h
  | renew _ _ =>
    simp only [begin_, renew_begin] at h
    repeat' split at h
    all_goals cases h
  | sweep _ => cases h
  | retry_pending_releases_bounded now_ms max_batch =>
    rcases retry_begin_cases durable inner now_ms max_batch none with
      ⟨e, _, hnone, order, he⟩ | ⟨batch, order, _, _, he⟩
    · rw [begin_, he] at h
      obtain rfl := List.singleton_inj.mp h
      exact absurd rfl (hnone id)
    · rw [begin_, he] at h
      cases h

/-- No later section reports that the pool is exhausted. -/
theorem resume_not_exhausted (durable : Bool) (plan : Plan) (outcomes : List Bool) :
    (resume c durable inner outcomes plan).events ≠ [.reserved id (.error .Exhausted)] := by
  intro h
  cases plan with
  | swept expired_ids now_ms =>
    rcases retry_begin_cases durable inner now_ms MAX_RETRY_BATCH (some expired_ids) with
      ⟨e, _, hnone, order, he⟩ | ⟨batch, order, _, _, he⟩
    · rw [resume, he] at h
      obtain rfl := List.singleton_inj.mp h
      exact absurd rfl (hnone id)
    · rw [resume, he] at h
      cases h
  | sweep batch now_ms => cases h
  | retry batch now_ms expired_ids =>
    rw [resume, retry_finish] at h
    cases expired_ids <;> cases h
  | reserve _ _ _ =>
    simp only [resume, reserve_finish] at h
    repeat' split at h
    all_goals cases h
  | promote _ _ _ _ =>
    simp only [resume, promote_finish] at h
    repeat' split at h
    all_goals cases h
  | expire _ _ _ =>
    simp only [resume, expire_finish] at h
    repeat' split at h
    all_goals cases h
  | release _ _ _ =>
    simp only [resume, release_finish] at h
    repeat' split at h
    all_goals cases h
  | renew _ _ _ _ =>
    simp only [resume, renew_finish] at h
    repeat' split at h
    all_goals cases h

/-! A session whose lease was put somewhere is not free. -/

theorem insert_pending_not_free {lease : ReservedLease} (h : inner.slot id = Place.free.slot) :
    ({ inner with pending := inner.pending.insert id lease } : Inner).slot id ≠ Place.free.slot := by
  rw [slot_insert_pending h]
  intro hfree
  cases congrArg Slot.pending hfree

theorem insert_active_not_free {lease : Lease} (h : inner.slot id = Place.free.slot) :
    ({ inner with active := inner.active.insert id lease } : Inner).slot id ≠ Place.free.slot := by
  rw [slot_insert_active h]
  intro hfree
  cases congrArg Slot.active hfree

theorem enqueued_not_free {inner' : Inner} {lease : Lease} {now_ms : ℕ}
    (h : inner.slot id = Place.free.slot)
    (he : inner.enqueue_release_locked c id lease now_ms = .ok inner') :
    inner'.slot id ≠ Place.free.slot := by
  rw [slot_enqueue h he]
  intro hfree
  cases congrArg Slot.quarantined hfree

theorem settle_expired_frees {now_ms : ℕ} {e : Expired} {ok : Bool} {by_ : TakenBy}
    (h : inner.slot e.id = (Place.out by_ e.lease).slot)
    (hfree : (settle_expired c now_ms inner e ok).slot e.id = Place.free.slot) : ok = true := by
  have hunparked : (inner.unpark e.id e.lease.addresses).slot e.id = Place.free.slot :=
    slot_unpark_self h
  by_contra hok
  rw [settle_expired, if_neg (by simpa using hok)] at hfree
  split at hfree
  · next he => exact enqueued_not_free hunparked he hfree
  split at hfree
  · exact insert_pending_not_free hunparked hfree
  · exact insert_active_not_free hunparked hfree

theorem settle_retry_frees {now_ms : ℕ} {ok : Bool} {lease : ReleasePendingLease}
    (h : inner.slot id = (Place.retrying lease).slot)
    (hfree : (settle_retry now_ms inner id ok).slot id = Place.free.slot) : ok = true := by
  have hl : inner.release_pending.lookup id = some lease := congrArg Slot.quarantined h
  by_contra hok
  rw [settle_retry, if_neg (by simpa using hok), hl] at hfree
  have hquarantined := congrArg Slot.quarantined hfree
  simp [Inner.slot, Place.slot] at hquarantined

/-- **A call frees a session it has parked** only when its persist failed or its
delete succeeded. -/
theorem resume_frees (durable : Bool) {plan : Plan} (hdistinct : plan.Distinct)
    {outcomes : List Bool} (hlen : outcomes.length = plan.store_ops.length)
    (h : inner.slot id = p.slot) (hp : p.parked = plan.parked id) (hsome : p.parked.isSome)
    (hfree : (resume c durable inner outcomes plan).inner.slot id = Place.free.slot) :
    (∃ lease wall, plan = .reserve id lease wall ∧ outcomes = [false]) ∨
      ∃ i : ℕ, plan.store_ops[i]? = some (StoreOp.release id) ∧ outcomes[i]? = some true := by
  have hsubject : ∀ {subject : SessionId} {k : Parked},
      p.parked = (if id = subject then some k else none) → id = subject ∧ p.parked = some k := by
    intro subject k hk
    by_cases hid : id = subject
    · rw [if_pos hid] at hk
      exact ⟨hid, hk⟩
    · rw [if_neg hid] at hk
      rw [hk] at hsome
      contradiction
  cases plan with
  | reserve subject lease wall =>
    obtain ⟨rfl, hk⟩ := hsubject hp
    obtain rfl := Place.eq_out hk
    obtain ⟨ok, rfl⟩ := List.length_eq_one_iff.mp hlen
    have hunparked : (inner.unpark id lease.addresses).slot id = Place.free.slot := slot_unpark_self h
    left
    refine ⟨lease, wall, rfl, ?_⟩
    cases ok with
    | false => rfl
    | true =>
      rw [resume, reserve_finish, if_neg (by simp), if_neg (unparked_absent h)] at hfree
      exact absurd hfree (insert_pending_not_free hunparked)
  | promote subject pending mono wall =>
    obtain ⟨rfl, hk⟩ := hsubject hp
    obtain rfl := Place.eq_out hk
    have hunparked : (inner.unpark id pending.addresses).slot id = Place.free.slot :=
      slot_unpark_self h
    rw [resume, promote_finish] at hfree
    dsimp only at hfree
    split at hfree
    · exact absurd hfree (insert_pending_not_free hunparked)
    · rw [if_neg (unparked_absent h)] at hfree
      exact absurd hfree (insert_active_not_free hunparked)
  | expire subject pending now_ms =>
    obtain ⟨rfl, hk⟩ := hsubject hp
    obtain rfl := Place.eq_out hk
    obtain ⟨ok, rfl⟩ := List.length_eq_one_iff.mp hlen
    have hunparked : (inner.unpark id pending.addresses).slot id = Place.free.slot :=
      slot_unpark_self h
    refine .inr ⟨0, rfl, ?_⟩
    cases ok with
    | true => rfl
    | false =>
      rw [resume, expire_finish, List.headD_cons, if_neg (by simp)] at hfree
      split at hfree
      · exact absurd hfree (insert_pending_not_free hunparked)
      · next he => exact absurd hfree (enqueued_not_free hunparked he)
  | release subject taken now_ms =>
    obtain ⟨rfl, hk⟩ := hsubject hp
    obtain rfl := Place.eq_out hk
    obtain ⟨ok, rfl⟩ := List.length_eq_one_iff.mp hlen
    have hunparked : (inner.unpark id taken.addresses).slot id = Place.free.slot := slot_unpark_self h
    refine .inr ⟨0, rfl, ?_⟩
    cases ok with
    | true => rfl
    | false =>
      rw [resume, release_finish, List.headD_cons, if_neg (by simp)] at hfree
      split at hfree
      · exact absurd hfree (insert_active_not_free hunparked)
      · next he => exact absurd hfree (enqueued_not_free hunparked he)
  | renew subject active mono wall =>
    obtain ⟨rfl, hk⟩ := hsubject hp
    obtain rfl := Place.eq_renewing hk
    -- a renewal leaves the entry Active whatever its persist returned
    have hl : inner.active.lookup id = some active := congrArg Slot.active h
    rw [resume, renew_finish] at hfree
    have hactive := congrArg Slot.active hfree
    dsimp only at hactive
    split at hactive
    · simp [Section.returns, Inner.slot, Place.slot, hl] at hactive
    · simp [Section.returns, Inner.slot, Place.slot, hl] at hactive
  | sweep batch now_ms =>
    have hlen' : outcomes.length = batch.length := by
      rw [hlen, Plan.store_ops, List.length_map]
    obtain ⟨k, hk⟩ := Option.isSome_iff_exists.mp (hp ▸ hsome)
    obtain ⟨e, hfind, -⟩ := Option.map_eq_some_iff.mp hk
    have he : e ∈ batch := List.mem_of_find?_eq_some hfind
    obtain rfl : e.id = id := by simpa using List.find?_some hfind
    obtain rfl := Place.eq_out (hp.trans (parked_sweep_of_mem now_ms hdistinct he))
    obtain ⟨i, ok, hi, hok, hmem⟩ := exists_counterpart hlen' he
    have hnodup : ((batch.zip outcomes).map (fun e => e.1.id)).Nodup := by
      rw [zip_map_id hlen']
      exact hdistinct
    obtain ⟨inner₀, hslot₀, hfold⟩ := foldl_view_of_mem (fun e : Expired × Bool => e.1.id)
      (fun inner : Inner => inner.slot e.id)
      (fun _ e' he' => slot_settle_expired_of_ne (c := c) now_ms e'.1 e'.2 he') inner hnodup hmem rfl
    obtain rfl : ok = true := settle_expired_frees (hslot₀.trans h) (hfold.symm.trans hfree)
    refine .inr ⟨i, ?_, hok⟩
    rw [Plan.store_ops, List.getElem?_map, hi, Option.map_some]
  | swept expired_ids now_ms =>
    rw [hp] at hsome
    contradiction
  | retry batch now_ms expired_ids =>
    have hlen' : outcomes.length = batch.length := by
      rw [hlen, Plan.store_ops, List.length_map]
    have hid : id ∈ batch := by
      by_contra hid
      rw [hp, Plan.parked, if_neg hid] at hsome
      contradiction
    rw [Plan.parked, if_pos hid] at hp
    obtain ⟨lease, rfl⟩ := Place.eq_retrying hp
    obtain ⟨i, ok, hi, hok, hmem⟩ := exists_counterpart hlen' hid
    have hnodup : ((batch.zip outcomes).map Prod.fst).Nodup := by
      rw [List.map_fst_zip (Nat.le_of_eq hlen'.symm)]
      exact hdistinct
    obtain ⟨inner₀, hslot₀, hfold⟩ := foldl_view_of_mem Prod.fst
      (fun inner : Inner => inner.slot id)
      (fun _ e he => slot_settle_retry_of_ne now_ms e.2 he) inner hnodup hmem rfl
    have hsettled : (retry_finish inner batch now_ms expired_ids outcomes).inner.slot id =
        ((batch.zip outcomes).foldl (fun inner e => settle_retry now_ms inner e.1 e.2) inner).slot
          id := by
      rw [retry_finish]
      cases expired_ids <;> rfl
    obtain rfl : ok = true :=
      settle_retry_frees (hslot₀.trans h) (hfold.symm.trans (hsettled.symm.trans hfree))
    refine .inr ⟨i, ?_, hok⟩
    rw [Plan.store_ops, List.getElem?_map, hi, Option.map_some]

end AddressPool

namespace PoolSystem

variable {s s' : PoolSystem} {session_id : SessionId} {p : Place} {label : PoolLabel}
  {events : List PoolEvent} {store : LeaseStore}

/-! ## Steps that leave a record behind -/

/-- The store holds a record of the session. -/
def stored (s : PoolSystem) (session_id : SessionId) : Prop := session_id ∈ s.pool.store.getD ∅

instance (s : PoolSystem) (session_id : SessionId) : Decidable (s.stored session_id) :=
  inferInstanceAs (Decidable (_ ∈ _))

/-- A reserve fails after it has dropped the expired reservation of its session:
it finds no room, or its persist has failed. The record is still in the store. -/
def abandons_record (s : PoolSystem) : PoolLabel → Prop
  | .begin_ _ (.reserve session_id device_id now) => s.stored session_id ∧
    AddressPool.drops_reservation s.pool.config s.pool.inner session_id device_id now
  | .resume caller =>
    match s.running.lookup caller with
    | some ⟨.reserve session_id _ _, [false]⟩ => s.stored session_id
    | _ => False
  | _ => False

instance (s : PoolSystem) : DecidablePred s.abandons_record
  | .begin_ _ (.reserve _ _ _) => inferInstanceAs (Decidable (_ ∧ _))
  | .resume caller => by
    rw [abandons_record]
    split
    · infer_instance
    · infer_instance
  | .begin_ _ (.commit _ _) | .begin_ _ (.release_at _ _) | .begin_ _ (.renew _ _)
  | .begin_ _ (.sweep _) | .begin_ _ (.retry_pending_releases_bounded _ _)
  | .store _ _ | .release_deferred _ => inferInstanceAs (Decidable False)

/-! ## The invariant -/

/-- A reserve of the session is running and has not persisted its candidate. -/
def Reserving (s : PoolSystem) (session_id : SessionId) : Prop :=
  ∃ caller lease wall outcomes,
    s.running.lookup caller = some ⟨.reserve session_id lease wall, outcomes⟩ ∧ outcomes ≠ [true]

/-- The store follows the memory. -/
structure Journaled (s : PoolSystem) (store : LeaseStore) : Prop where
  /-- A record matches its session's place, unless a reserve is about to replace it. -/
  record : ∀ {session_id p record}, s.At session_id p → store.lookup session_id = some record →
    record.session_id = session_id ∧ (p.Recorded record ∨ s.Reserving session_id)
  /-- A delete that has succeeded has left no record. -/
  deleted : ∀ {caller r session_id} {i : ℕ}, s.running.lookup caller = some r →
    r.plan.store_ops[i]? = some (StoreOp.release session_id) → r.outcomes[i]? = some true →
    store.lookup session_id = none

/-- A candidate that a step takes up is not persisted yet. -/
theorem reserving_of_new {caller : ℕ} {sec : Section} {lease : ReservedLease} (hp : s.At session_id p)
    (hrest : p.parked = none) (hp' : (s.enter caller sec).At session_id (.out .reserving lease)) :
    (s.enter caller sec).Reserving session_id := by
  obtain ⟨caller', r, hr, hk⟩ := (hp'.parks (.out .reserving lease)).mpr rfl
  rw [enter_lookup] at hr
  split at hr
  · next he =>
    obtain ⟨plan, hplan, rfl⟩ := Option.map_eq_some_iff.mp hr
    cases plan with
    | reserve subject lease' wall =>
      obtain rfl : session_id = subject := by
        by_contra hne
        have hk : (if session_id = subject then some (Parked.out .reserving lease') else none) =
          some (.out .reserving lease) := hk
        rw [if_neg hne] at hk
        contradiction
      refine ⟨caller, lease', wall, [], ?_, by simp⟩
      rw [enter_lookup, if_pos rfl, hplan]
      rfl
    | sweep batch now_ms =>
      obtain ⟨e, -, he⟩ := Option.map_eq_some_iff.mp hk
      cases he
    | swept ids now_ms => contradiction
    | retry batch now_ms ids =>
      have hk : (if session_id ∈ batch then some Parked.retrying else none) =
        some (.out .reserving lease) := hk
      split at hk <;> cases hk
    | _ =>
      rw [Plan.parked] at hk
      split at hk <;> cases hk
  · -- another caller had parked the session before
    have hparked := (hp.parks _).mp ⟨caller', r, hr, hk⟩
    rw [hrest] at hparked
    contradiction

/-- The deletes of the running calls, after a lock section. -/
theorem Journaled.deleted_enter {caller : ℕ} {sec : Section} (h : s.Journaled store)
    {caller' : ℕ} {r : Running} {i : ℕ} (hr : (s.enter caller sec).running.lookup caller' = some r)
    (hop : r.plan.store_ops[i]? = some (StoreOp.release session_id))
    (hok : r.outcomes[i]? = some true) : store.lookup session_id = none := by
  rw [enter_lookup] at hr
  split at hr
  · obtain ⟨plan, -, rfl⟩ := Option.map_eq_some_iff.mp hr
    contradiction
  · exact h.deleted hr hop hok

/-! ## Store operations -/

/-- What a plan persists for a session is the lease it has parked. -/
theorem recorded_of_persist {plan : Plan} {record : PersistedLease}
    (hop : StoreOp.persist record ∈ plan.store_ops)
    (hp : p.parked = plan.parked record.session_id) : p.Recorded record := by
  cases plan with
  | reserve subject lease wall =>
    obtain rfl := StoreOp.persist.inj (List.mem_singleton.mp hop)
    obtain rfl := Place.eq_out (hp.trans (if_pos rfl))
    exact ⟨lease, rfl, rfl, rfl⟩
  | promote subject pending mono wall =>
    obtain rfl := StoreOp.persist.inj (List.mem_singleton.mp hop)
    obtain rfl := Place.eq_out (hp.trans (if_pos rfl))
    exact ⟨pending, rfl, rfl, rfl⟩
  | renew subject active mono wall =>
    obtain rfl := StoreOp.persist.inj (List.mem_singleton.mp hop)
    obtain rfl := Place.eq_renewing (hp.trans (if_pos rfl))
    exact ⟨active, rfl, rfl, rfl⟩
  | expire subject pending now_ms => simp [Plan.store_ops] at hop
  | release subject taken now_ms => simp [Plan.store_ops] at hop
  | sweep batch now_ms => simp [Plan.store_ops] at hop
  | swept ids now_ms => simp [Plan.store_ops] at hop
  | retry batch now_ms ids => simp [Plan.store_ops] at hop

/-- A plan that persists does not delete. -/
theorem not_release_of_persist {plan : Plan} {record : PersistedLease} {i : ℕ}
    (hop : StoreOp.persist record ∈ plan.store_ops) :
    plan.store_ops[i]? ≠ some (StoreOp.release session_id) := by
  intro h
  have hmem := List.mem_of_getElem? h
  cases plan <;> simp_all [Plan.store_ops]

theorem lookup_apply_release_of_none {id : SessionId} {ok : Bool}
    (h : store.lookup session_id = none) :
    ((StoreOp.release id).apply ok store).lookup session_id = none := by
  cases ok with
  | false => exact h
  | true =>
    change (store.erase id).lookup session_id = none
    rw [AList.lookup_erase_of, h]
    simp

/-- A store operation keeps the invariant, whatever it returns. -/
theorem Journaled.after_store {caller : ℕ} {r : Running} {op : StoreOp} {ok : Bool}
    (hc : s.Coherent) (h : s.Journaled store) (hr : s.running.lookup caller = some r)
    (hop : r.plan.store_ops[r.outcomes.length]? = some op) :
    (s.after_store caller r op ok).Journaled (op.apply ok store) := by
  have hmem : op ∈ r.plan.store_ops := List.mem_of_getElem? hop
  -- the other callers are as they were, and this one has one outcome more
  have hlookup : ∀ caller', (s.after_store caller r op ok).running.lookup caller' =
      if caller' = caller then some ⟨r.plan, r.outcomes ++ [ok]⟩ else s.running.lookup caller' := by
    intro caller'
    rw [PoolSystem.after_store, AList.lookup_insert_of]
  refine ⟨?_, ?_⟩
  · intro id p record hp' hl
    have hp := (at_after_store_iff hr).mp hp'
    by_cases hid : op.session_id = id
    · cases ok with
      | false =>
        obtain ⟨hkey, hrecorded | ⟨caller', lease, wall, outcomes, hr', hunpersisted⟩⟩ :=
          h.record hp hl
        · exact ⟨hkey, .inl hrecorded⟩
        refine ⟨hkey, .inr ?_⟩
        by_cases hcaller : caller' = caller
        · subst hcaller
          rw [hr] at hr'
          obtain rfl := Option.some.inj hr'
          refine ⟨caller', lease, wall, outcomes ++ [false], ?_, by simp [List.append_eq_cons_iff]⟩
          rw [hlookup, if_pos rfl]
        · refine ⟨caller', lease, wall, outcomes, ?_, hunpersisted⟩
          rw [hlookup, if_neg hcaller]
          exact hr'
      | true =>
        cases op with
        | release subject =>
          have hid : subject = id := hid
          have hl : (store.erase subject).lookup id = some record := hl
          rw [hid, AList.lookup_erase] at hl
          contradiction
        | persist persisted =>
          have hid : persisted.session_id = id := hid
          subst hid
          have hl : (store.insert persisted.session_id persisted).lookup persisted.session_id =
            some record := hl
          rw [AList.lookup_insert] at hl
          obtain rfl := Option.some.inj hl
          obtain ⟨k, hk⟩ := Plan.parked_of_store_op hmem
          have hparked := (hp.parks k).mp ⟨caller, r, hr, hk⟩
          exact ⟨rfl, .inl (recorded_of_persist hmem (hparked.trans hk.symm))⟩
    · rw [StoreOp.lookup_apply_of_ne hid] at hl
      obtain ⟨hkey, hrecorded | ⟨caller', lease, wall, outcomes, hr', hunpersisted⟩⟩ := h.record hp hl
      · exact ⟨hkey, .inl hrecorded⟩
      refine ⟨hkey, .inr ⟨caller', lease, wall, outcomes, ?_, hunpersisted⟩⟩
      rw [hlookup, if_neg]
      · exact hr'
      · rintro rfl
        rw [hr] at hr'
        obtain rfl := Option.some.inj hr'
        obtain rfl := List.mem_singleton.mp hmem
        exact hid rfl
  · intro caller' r' id i hr' hop' hok'
    rw [hlookup] at hr'
    split at hr'
    · obtain rfl := Option.some.inj hr'
      cases op with
      | persist persisted => exact absurd hop' (not_release_of_persist hmem)
      | release subject =>
        by_cases hi : i = r.outcomes.length
        · subst hi
          have hsame : some (StoreOp.release subject) = some (StoreOp.release id) :=
            hop.symm.trans hop'
          cases hsame
          rw [List.getElem?_concat_length] at hok'
          obtain rfl := Option.some.inj hok'
          exact AList.lookup_erase _ _
        · have hlt : i < (r.outcomes ++ [ok]).length := (List.getElem?_eq_some_iff.mp hok').1
          rw [List.length_append, List.length_singleton] at hlt
          rw [List.getElem?_append_left (by omega)] at hok'
          exact lookup_apply_release_of_none (h.deleted hr hop' hok')
    · next hne =>
      have hnone := h.deleted hr' hop' hok'
      have hid : op.session_id ≠ id := by
        intro hid
        obtain ⟨k, hk⟩ := Plan.parked_of_store_op hmem
        obtain ⟨k', hk'⟩ := Plan.parked_of_store_op (List.mem_of_getElem? hop')
        have hk' : r'.plan.parked id = some k' := hk'
        rw [hid] at hk
        exact hne (hc.single hr' hr (by rw [hk']; rfl) (by rw [hk]; rfl))
      rw [StoreOp.lookup_apply_of_ne hid]
      exact hnone

/-! ## The step lemma -/

/-- A lock section keeps the invariant if it frees no session with a record, and
ends no reserve that leaves one. -/
theorem Journaled.enter {caller : ℕ} {sec : Section} {fresh : SessionId → AssignedAddresses → Prop}
    (h : s.Journaled store)
    (hcycle : ∀ id p', (s.enter caller sec).At id p' → ∃ p, s.At id p ∧
      LeaseCycle (fresh id) id p sec.events p')
    (hreserves : ∀ id lease wall outcomes, s.running.lookup caller =
      some ⟨.reserve id lease wall, outcomes⟩ → outcomes ≠ [true] → store.lookup id = none)
    (hfrees : ∀ id p, s.At id p → sec.inner.slot id = Place.free.slot →
      (∃ old, p = .reserved old) ∧ sec.events = [.reserved id (.error .Exhausted)] ∨
        p.parked.isSome → store.lookup id = none) :
    (s.enter caller sec).Journaled store := by
  refine ⟨?_, fun hr hop hok => h.deleted_enter hr hop hok⟩
  intro id p' record hp' hl
  obtain ⟨p, hp, hcyc⟩ := hcycle id p' hp'
  obtain ⟨hkey, hrecorded | ⟨caller', lease, wall, outcomes, hr, hunpersisted⟩⟩ := h.record hp hl
  · refine ⟨hkey, ?_⟩
    rcases hcyc.records with hkept | ⟨hrest, lease, rfl, -⟩ | ⟨rfl, hwhy⟩
    · exact .inl (hkept record hrecorded)
    · exact .inr (reserving_of_new hp hrest hp')
    · have hnone := hfrees id p hp hp'.slot hwhy
      rw [hl] at hnone
      contradiction
  · refine ⟨hkey, .inr ⟨caller', lease, wall, outcomes, ?_, hunpersisted⟩⟩
    rw [enter_lookup, if_neg]
    · exact hr
    · rintro rfl
      have hnone := hreserves id lease wall outcomes hr hunpersisted
      rw [hl] at hnone
      contradiction

/-- A session that a parked call holds is not freed by a section that leaves it
alone. -/
theorem not_freed_of_leaves {sec : Section} (hp : s.At session_id p) (hsome : p.parked.isSome)
    (hleaves : sec.Leaves s.pool.inner session_id p)
    (hfree : sec.inner.slot session_id = Place.free.slot) : False := by
  rw [hleaves.slot, hp.slot] at hfree
  have hflag := congrArg Slot.inflight hfree
  rw [← Place.parked_isSome, hsome] at hflag
  contradiction

theorem stored_of_lookup {record : PersistedLease} (hstore : s.pool.store = some store)
    (hl : store.lookup session_id = some record) : s.stored session_id := by
  rw [stored, hstore]
  exact AList.mem_of_lookup hl

/-- **Step lemma.** A step that abandons no record keeps the store behind the memory. -/
theorem Journaled.step (hc : s.Coherent)
    (h : ∀ store, s.pool.store = some store → s.Journaled store)
    (hkeeps : ¬ s.abandons_record label) (hs : s.step label = some (s', events)) :
    ∀ store, s'.pool.store = some store → s'.Journaled store := by
  intro store hstore
  obtain ⟨hcoherent, hforward⟩ := step_refines hc hs
  -- where the place of a session comes from
  have hcycle : ∀ id p', s'.At id p' → ∃ p, s.At id p ∧
      LeaseCycle (s.Allocates label id) id p events p' := by
    intro id p' hp'
    obtain ⟨p, hp⟩ := hc.places id
    obtain ⟨p'', hp'', hcyc⟩ := hforward id p hp
    exact ⟨p, hp, hp''.unique hp' ▸ hcyc⟩
  cases PoolSystem.step_steps hs with
  | begin_ call hidle =>
    have hstore : s.pool.store = some store := hstore
    refine (h store hstore).enter hcycle ?_ ?_
    · intro id lease wall outcomes hr
      rw [hidle] at hr
      contradiction
    · rintro id p hp hfree (⟨⟨old, rfl⟩, hevents⟩ | hsome)
      · by_contra hrecord
        obtain ⟨record, hl⟩ := Option.ne_none_iff_exists'.mp hrecord
        have hpending : id ∈ s.pool.inner.pending :=
          AList.mem_of_lookup (congrArg Slot.pending hp.slot)
        obtain ⟨device_id, now, rfl, hdrops⟩ :=
          AddressPool.begin_exhausted s.durable call hpending hevents
        exact hkeeps ⟨stored_of_lookup hstore hl, hdrops⟩
      · exact (not_freed_of_leaves hp hsome (AddressPool.begin_leaves s.durable call
          (AddressPool.inflight_of_parked hp.slot hsome)) hfree).elim
  | store ok hr hop =>
    obtain ⟨held, hheld, rfl⟩ := Option.map_eq_some_iff.mp hstore
    exact (h held hheld).after_store hc hr hop
  | @resume caller r hr hlen =>
    have hstore : s.pool.store = some store := hstore
    have h := h store hstore
    -- a reserve whose persist has failed leaves no record
    have hreserves : ∀ id lease wall outcomes, s.running.lookup caller =
        some ⟨.reserve id lease wall, outcomes⟩ → outcomes ≠ [true] → store.lookup id = none := by
      intro id lease wall outcomes hr' hunpersisted
      rw [hr] at hr'
      obtain rfl := Option.some.inj hr'
      obtain ⟨ok, rfl⟩ := List.length_eq_one_iff.mp hlen
      obtain rfl : ok = false := by simpa using hunpersisted
      by_contra hrecord
      obtain ⟨record, hl⟩ := Option.ne_none_iff_exists'.mp hrecord
      apply hkeeps
      rw [abandons_record, hr]
      exact stored_of_lookup hstore hl
    refine h.enter hcycle hreserves ?_
    rintro id p hp hfree (⟨-, hevents⟩ | hsome)
    · exact absurd hevents (AddressPool.resume_not_exhausted s.durable r.plan r.outcomes)
    rcases own_cases hr hp with hown | ⟨-, hnone⟩
    · rcases AddressPool.resume_frees s.durable (hc.distinct hr) hlen hp.slot hown hsome hfree with
        ⟨lease, wall, hplan, houtcomes⟩ | ⟨i, hop, hok⟩
      · refine hreserves id lease wall r.outcomes ?_ (by simp [houtcomes])
        rw [hr, ← hplan]
      · exact h.deleted hr hop hok
    · exact (not_freed_of_leaves hp hsome (AddressPool.resume_leaves s.durable hlen
        (AddressPool.inflight_of_parked hp.slot hsome) hnone) hfree).elim
  | release_deferred subject =>
    have hstore : s.pool.store = some store := hstore
    have h := h store hstore
    refine ⟨?_, h.deleted⟩
    intro id p' record hp' hl
    obtain ⟨p, hp, hcyc⟩ := hcycle id p' hp'
    obtain ⟨hkey, hrecorded | hreserving⟩ := h.record hp hl
    · refine ⟨hkey, .inl ?_⟩
      rcases hcyc.records with hkept | ⟨-, lease, -, ⟨caller, call, hlabel, -⟩⟩ |
        ⟨rfl, ⟨-, hevents⟩ | hsome⟩
      · exact hkept record hrecorded
      · contradiction
      · simp at hevents
      · -- a parked session is still parked
        obtain ⟨k, hk⟩ := Option.isSome_iff_exists.mp hsome
        have hparked := (hp'.parks k).mp ((hp.parks k).mpr hk)
        contradiction
    · exact ⟨hkey, .inr hreserving⟩

/-! ## When no call is running -/

/-- One of the three maps has the session, with this device and these addresses. -/
def InMaps (s : PoolSystem) (session_id : SessionId) (device_id : DeviceId)
    (a : AssignedAddresses) : Prop :=
  (∃ lease ∈ s.pool.inner.active.lookup session_id,
    lease.device_id = device_id ∧ lease.addresses = a) ∨
  (∃ lease ∈ s.pool.inner.pending.lookup session_id,
    lease.device_id = device_id ∧ lease.addresses = a) ∨
  ∃ lease ∈ s.pool.inner.release_pending.lookup session_id,
    lease.device_id = device_id ∧ lease.addresses = a

/-- No durable lease is orphaned. -/
structure NoOrphans (s : PoolSystem) (store : LeaseStore) : Prop where
  /-- A record belongs to a session of the maps, with its device and addresses. -/
  held : ∀ {session_id record}, store.lookup session_id = some record →
    record.session_id = session_id ∧ s.InMaps session_id record.device_id record.addresses
  /-- The allocator takes the addresses of a record for used. -/
  used : ∀ {session_id record}, store.lookup session_id = some record →
    s.pool.inner.used_ipv4 record.addresses.ipv4 = true ∧
      s.pool.inner.used_ipv6 record.addresses.ipv6_prefix_addr = true
  /-- No two records have an IPv4 address or a `/64` in common. -/
  apart : ∀ {session_id other record record'}, session_id ≠ other →
    store.lookup session_id = some record → store.lookup other = some record' →
    ¬ record.addresses.Shares record'.addresses

/-- A recorded place at rest is an entry of the maps. -/
theorem inMaps_of_recorded {record : PersistedLease} (hp : s.At session_id p)
    (hrest : p.parked = none) (h : p.Recorded record) :
    s.InMaps session_id record.device_id record.addresses := by
  obtain ⟨lease, hl, hdevice, ha⟩ := h
  cases p with
  | reserved lease' =>
    obtain rfl := Option.some.inj hl
    exact .inr (.inl ⟨lease', congrArg Slot.pending hp.slot, hdevice, ha⟩)
  | active lease' =>
    obtain rfl := Option.some.inj hl
    exact .inl ⟨lease', congrArg Slot.active hp.slot, hdevice, ha⟩
  | quarantined lease' =>
    obtain rfl := Option.some.inj hl
    exact .inr (.inr ⟨lease', congrArg Slot.quarantined hp.slot, hdevice, ha⟩)
  | _ => contradiction

/-- **Between calls the records are those of the maps.** -/
theorem Journaled.no_orphans (hc : s.Coherent) (hex : s.Exclusive) (h : s.Journaled store)
    (hidle : ∀ caller, caller ∉ s.running) : s.NoOrphans store := by
  have hrecord : ∀ {id record}, store.lookup id = some record → ∃ p, s.At id p ∧ p.parked = none ∧
      record.session_id = id ∧ p.Recorded record := by
    intro id record hl
    obtain ⟨p, hp⟩ := hc.places id
    have hrest : p.parked = none := by
      cases hk : p.parked with
      | none => rfl
      | some k =>
        obtain ⟨caller, r, hr, -⟩ := (hp.parks k).mpr hk
        exact absurd (AList.mem_of_lookup hr) (hidle caller)
    obtain ⟨hkey, hrecorded | ⟨caller, lease, wall, outcomes, hr, -⟩⟩ := h.record hp hl
    · exact ⟨p, hp, hrest, hkey, hrecorded⟩
    · exact absurd (AList.mem_of_lookup hr) (hidle caller)
  refine ⟨?_, ?_, ?_⟩
  · intro id record hl
    obtain ⟨p, hp, hrest, hkey, hrecorded⟩ := hrecord hl
    exact ⟨hkey, inMaps_of_recorded hp hrest hrecorded⟩
  · intro id record hl
    obtain ⟨p, hp, hrest, -, hrecorded⟩ := hrecord hl
    have hmem : record.addresses ∈ s.pool.inner.leased := by
      refine AddressPool.leased_of_slot hp.slot hrecorded.addresses ?_
      rintro by_ lease rfl
      contradiction
    rw [Inner.used_ipv4, Inner.used_ipv6, Bool.or_eq_true, Bool.or_eq_true]
    refine ⟨.inl (List.any_eq_true.mpr ⟨_, hmem, by simp⟩),
      .inl (List.any_eq_true.mpr ⟨_, hmem, by simp⟩)⟩
  · intro id other record record' hne hl hl'
    obtain ⟨p, hp, -, -, hrecorded⟩ := hrecord hl
    obtain ⟨q, hq, -, -, hrecorded'⟩ := hrecord hl'
    exact hex.apart hne hp hq hrecorded.addresses hrecorded'.addresses

/-- **No orphaned durable lease.** In every run of a durable pool over an empty
store in which no reserve abandons the record of the expired reservation it
replaces, whatever the other store operations return: whenever no call is in
flight, every record belongs to a session of the maps with the same device and
addresses, its addresses are taken for the allocator, and no two records share an
address. -/
theorem no_orphaned_record {c : AddressPoolConfig} {now : PoolTime} {outcomes : List Bool}
    {pool : AddressPool} {labels : List PoolLabel}
    (hstart : AddressPool.with_store_at_time c (some []) ∅ now outcomes = .ok pool)
    (hkeeps : Along PoolSystem.step (fun s label => ¬ s.abandons_record label) (start pool) labels)
    (hrun : exec PoolSystem.step (start pool) labels = some (s, events))
    (hidle : ∀ caller, caller ∉ s.running) (hstore : s.pool.store = some store) :
    s.NoOrphans store := by
  have hempty := StartsEmpty.durable hstart
  have hstored : ∀ store, pool.store = some store → (start pool).Journaled store := by
    intro store hstore
    obtain rfl : store = ∅ := by
      rw [with_store_empty] at hstart
      obtain rfl := Except.ok.inj hstart
      exact (Option.some.inj hstore).symm
    exact ⟨fun _ hl => by contradiction, fun hr => by contradiction⟩
  have hend : s.Counted ∧ ∀ store, s.pool.store = some store → s.Journaled store := by
    refine exec_along_invariant
      (I := fun s => s.Counted ∧ ∀ store, s.pool.store = some store → s.Journaled store)
      ?_ ⟨hempty.counted, hstored⟩ hkeeps hrun
    rintro s label s' events ⟨hcounted, hjournaled⟩ hkeep hs
    exact ⟨hcounted.step hs, Journaled.step hcounted.coherent hjournaled hkeep hs⟩
  exact (hend.2 store hstore).no_orphans hend.1.coherent hend.1.exclusive hidle

/-! ### An expired reservation that is not replaced -/

namespace Sample

/-- Session 1 is reserved and its reservation expires; its second reserve fails to
persist, and session 2 is reserved. -/
def abandoned : List PoolLabel :=
  whole (reserve ⟨1⟩) ++
    [.begin_ 0 (.reserve ⟨1⟩ ⟨7⟩ ⟨50000, 50000⟩), .store 0 false, .resume 0] ++
    whole (.reserve ⟨2⟩ ⟨7⟩ ⟨50000, 50000⟩)

end Sample

open Sample in
/-- Session 1 is in no map, its record is still in the store, and session 2 has been
given, and persisted with, the same addresses. -/
theorem record_orphaned :
    AddressPoolConfig.new config = .ok config ∧
    AddressPool.with_store_at_time config (some []) ∅ ⟨0, 0⟩ [] = .ok recovered ∧
    ∃ s events store record record', exec PoolSystem.step (start recovered) abandoned =
      some (s, events) ∧
      (∀ caller, caller ∉ s.running) ∧ s.pool.store = some store ∧
      store.lookup ⟨1⟩ = some record ∧ store.lookup ⟨2⟩ = some record' ∧
      record.addresses.Shares record'.addresses ∧
      ¬ s.InMaps ⟨1⟩ record.device_id record.addresses := by
  have hrun : (exec PoolSystem.step (start recovered) abandoned).any (fun r =>
      r.1.running.keys = [] ∧
      (r.1.pool.store.bind (fun store => store.lookup ⟨1⟩)).map (·.addresses) = some first ∧
      (r.1.pool.store.bind (fun store => store.lookup ⟨2⟩)).map (·.addresses) = some first ∧
      (r.1.pool.inner.slot ⟨1⟩).active = none ∧ (r.1.pool.inner.slot ⟨1⟩).pending = none ∧
      (r.1.pool.inner.slot ⟨1⟩).quarantined = none) = true := by
    decide
  refine ⟨by decide, recovered_eq, ?_⟩
  obtain ⟨⟨s, events⟩, hexec, hlast⟩ := (Option.any_eq_true _ _).mp hrun
  obtain ⟨hidle, hfirst, hsecond, hactive, hpending, hquarantined⟩ := of_decide_eq_true hlast
  obtain ⟨record, hl, ha⟩ := Option.map_eq_some_iff.mp hfirst
  obtain ⟨record', hl', ha'⟩ := Option.map_eq_some_iff.mp hsecond
  obtain ⟨store, hstore, hl⟩ := Option.bind_eq_some_iff.mp hl
  obtain ⟨store', hstore', hl'⟩ := Option.bind_eq_some_iff.mp hl'
  rw [hstore] at hstore'
  obtain rfl := Option.some.inj hstore'
  refine ⟨s, events, store, record, record', hexec, ?_, hstore, hl, hl', ?_, ?_⟩
  · intro caller hc
    have hc := AList.mem_keys.mp hc
    rw [hidle] at hc
    contradiction
  · rw [ha, ha']
    exact .inl rfl
  · rintro (⟨lease, hl, -⟩ | ⟨lease, hl, -⟩ | ⟨lease, hl, -⟩)
    · cases hactive.symm.trans hl
    · cases hpending.symm.trans hl
    · cases hquarantined.symm.trans hl

open Sample in
/-- Two admissions of a durable pool. -/
theorem no_orphaned_record_sample :
    ∃ s events store, exec PoolSystem.step (start recovered) admissions = some (s, events) ∧
      s.pool.store = some store ∧ store.len = 2 ∧ s.NoOrphans store := by
  have hkeeps : Along PoolSystem.step (fun s label => ¬ s.abandons_record label) (start recovered)
      admissions := by
    decide
  have hlast : (exec PoolSystem.step (start recovered) admissions).any (fun r =>
      r.1.running.keys = [] ∧ r.1.pool.store.map (·.len) = some 2) = true := by
    decide
  obtain ⟨⟨s, events⟩, hrun, hlast⟩ := (Option.any_eq_true _ _).mp hlast
  obtain ⟨hidle, hlen⟩ := of_decide_eq_true hlast
  obtain ⟨store, hstore, hlen⟩ := Option.map_eq_some_iff.mp hlen
  refine ⟨s, events, store, hrun, hstore, hlen, no_orphaned_record recovered_eq hkeeps hrun ?_ hstore⟩
  intro caller hc
  have hc := AList.mem_keys.mp hc
  rw [hidle] at hc
  contradiction

end PoolSystem

end StreamGuard.Gateway
