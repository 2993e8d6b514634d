/-
The quarantine of the pool and its retry order.

`release_pending` holds the quarantined leases and `release_order` says in which
order their deletes are retried. A retry batch takes its sessions off the order
while it runs and puts the failed ones back at the end, so the order names every
quarantined session that no call has parked, and names it once. Together with the
bound of the quarantine this is `Inner.Queue`; there is one lemma for each lock
section.
-/
import StreamGuard.Gateway.PoolSections

set_option autoImplicit false

namespace StreamGuard.Gateway

open StreamGuard StreamGuard.Lib

/-- The retry order names the quarantined sessions that no call has parked, each
once, and the quarantine is within its bound. -/
structure Inner.Queue (c : AddressPoolConfig) (inner : Inner) : Prop where
  nodup : inner.release_order.Nodup
  listed : ∀ {id}, id ∈ inner.release_order ↔ id ∈ inner.release_pending ∧ id ∉ inner.inflight
  room : inner.release_pending.len ≤ c.maximum_pending_releases

/-! ## Updates -/

section Updates

variable {c : AddressPoolConfig} {inner inner' : Inner} {id : SessionId} {a : AssignedAddresses}

theorem Inner.queue_empty (c : AddressPoolConfig) : Inner.empty.Queue c := by
  refine ⟨List.nodup_nil, ?_, Nat.zero_le _⟩
  intro id
  simp [Inner.empty]

/-- An update that leaves the quarantine alone, and who of it is parked. -/
theorem Inner.Queue.congr (h : inner.Queue c) (horder : inner'.release_order = inner.release_order)
    (hquarantine : inner'.release_pending = inner.release_pending)
    (hinflight : ∀ id ∈ inner.release_pending, id ∈ inner'.inflight ↔ id ∈ inner.inflight) :
    inner'.Queue c := by
  refine ⟨?_, ?_, ?_⟩
  · rw [horder]
    exact h.nodup
  · intro id
    rw [horder, hquarantine, h.listed]
    refine and_congr_right ?_
    intro hid
    rw [hinflight id hid]
  · rw [hquarantine]
    exact h.room

theorem Inner.Queue.park (h : inner.Queue c) (hid : id ∉ inner.release_pending) :
    (inner.park id a).Queue c := by
  refine h.congr rfl rfl ?_
  intro id' hid'
  have hne : id' ≠ id := fun he => hid (he ▸ hid')
  simp [Inner.park, hne]

theorem Inner.Queue.unpark (h : inner.Queue c) (hid : id ∉ inner.release_pending) :
    (inner.unpark id a).Queue c := by
  refine h.congr rfl rfl ?_
  intro id' hid'
  have hne : id' ≠ id := fun he => hid (he ▸ hid')
  simp [Inner.unpark, hne]

/-- A newly quarantined session goes to the end of the order. -/
theorem Inner.Queue.enqueue {lease : Lease} {now_ms : ℕ} (h : inner.Queue c)
    (hidle : id ∉ inner.inflight)
    (he : inner.enqueue_release_locked c id lease now_ms = .ok inner') : inner'.Queue c := by
  rw [Inner.enqueue_release_locked] at he
  split at he
  · rwa [← Except.ok.inj he]
  next hnew =>
  split at he
  · contradiction
  next hroom =>
  obtain rfl := Except.ok.inj he
  have hout : id ∉ inner.release_order := fun hid => hnew (h.listed.mp hid).1
  refine ⟨?_, ?_, ?_⟩
  · rw [List.nodup_append]
    refine ⟨h.nodup, List.nodup_singleton id, ?_⟩
    intro a ha b hb hab
    rw [List.mem_singleton] at hb
    exact hout (hb ▸ hab ▸ ha)
  · intro id'
    rw [List.mem_append, List.mem_singleton, h.listed, AList.mem_insert]
    by_cases hid : id' = id
    · simp [hid, hidle]
    · simp [hid]
  · have hlen : inner.release_pending.len < c.maximum_pending_releases := by omega
    rw [AList.len_insert_of_notMem hnew]
    exact hlen

/-- The same behind an unparked session. -/
theorem Inner.Queue.enqueue_unparked {lease : Lease} {now_ms : ℕ} (h : inner.Queue c)
    (hid : id ∉ inner.release_pending)
    (he : (inner.unpark id a).enqueue_release_locked c id lease now_ms = .ok inner') :
    inner'.Queue c :=
  (h.unpark hid).enqueue (by simp [Inner.unpark]) he

end Updates

namespace AddressPool

variable {c : AddressPoolConfig} {inner : Inner} {id : SessionId}

/-! ## The selection of a retry batch -/

/-- A batch and what stays queued are the order, as long as every session of the
order is quarantined. -/
theorem retry_select_perm (quarantine : Map SessionId ReleasePendingLease) (now_ms max_batch : ℕ)
    {order : List SessionId} (h : ∀ id ∈ order, id ∈ quarantine) (inflight : Finset SessionId)
    (taken : ℕ) :
    ((retry_select quarantine now_ms max_batch order inflight taken).1 ++
      (retry_select quarantine now_ms max_batch order inflight taken).2).Perm order := by
  induction order generalizing inflight taken with
  | nil => exact List.Perm.nil
  | cons id order ih =>
    obtain ⟨hid, horder⟩ := List.forall_mem_cons.mp h
    obtain ⟨quarantined, hl⟩ := AList.mem_iff_lookup.mp hid
    rw [retry_select, hl]
    dsimp only
    split
    · -- parked or not due: the session stays queued
      exact List.perm_middle.trans ((ih horder inflight taken).cons id)
    split
    · -- the batch is full, and the rest of the order is quarantined as well
      have hall : order.filter (fun id => decide (id ∈ quarantine)) = order := by
        rw [List.filter_eq_self]
        intro id' hid'
        exact decide_eq_true (horder id' hid')
      rw [hall, List.nil_append]
    · exact (ih horder (insert id inflight) (taken + 1)).cons id

/-- Selecting a batch takes it off the order and parks it. -/
theorem retry_begin_queue (durable : Bool) (now_ms max_batch : ℕ)
    (expired_ids : Option (List SessionId)) (h : inner.Queue c) :
    (retry_begin durable inner now_ms max_batch expired_ids).inner.Queue c := by
  unfold retry_begin
  split
  · cases expired_ids <;> exact h
  have hperm := retry_select_perm inner.release_pending now_ms max_batch
    (fun id hid => (h.listed.mp hid).1) inner.inflight 0
  generalize retry_select inner.release_pending now_ms max_batch inner.release_order
    inner.inflight 0 = r at hperm ⊢
  obtain ⟨batch, remaining⟩ := r
  dsimp only at hperm ⊢
  have hselected : Inner.Queue c { inner with
      release_order := remaining
      inflight := inner.inflight ∪ batch.toFinset } := by
    have hnodup : (batch ++ remaining).Nodup := hperm.nodup_iff.mpr h.nodup
    obtain ⟨-, hremaining, hapart⟩ := List.nodup_append.mp hnodup
    refine ⟨hremaining, ?_, h.room⟩
    intro id
    have hsplit : id ∈ batch ∨ id ∈ remaining ↔ id ∈ inner.release_pending ∧ id ∉ inner.inflight := by
      rw [← h.listed, ← hperm.mem_iff, List.mem_append]
    simp only [Finset.mem_union, List.mem_toFinset, not_or]
    constructor
    · intro hid
      obtain ⟨hq, hi⟩ := hsplit.mp (.inr hid)
      exact ⟨hq, hi, fun hb => hapart id hb id hid rfl⟩
    · rintro ⟨hq, hi, hb⟩
      exact (hsplit.mpr ⟨hq, hi⟩).resolve_left hb
  split
  · cases expired_ids <;> exact hselected
  · exact hselected

/-! ## First sections -/

theorem take_queue {inner' : Inner} {taken : Lease} (h : inner.Queue c)
    (ht : take inner id = some (inner', taken)) :
    inner'.Queue c ∧ inner'.release_pending = inner.release_pending ∧
      inner'.inflight = inner.inflight := by
  rw [take] at ht
  split at ht
  · obtain ⟨rfl, -⟩ := Prod.mk.inj (Option.some.inj ht)
    exact ⟨h.congr rfl rfl (fun _ _ => Iff.rfl), rfl, rfl⟩
  split at ht
  · obtain ⟨rfl, -⟩ := Prod.mk.inj (Option.some.inj ht)
    exact ⟨h.congr rfl rfl (fun _ _ => Iff.rfl), rfl, rfl⟩
  · contradiction

theorem reserve_begin_queue (device_id : DeviceId) (now : PoolTime) (h : inner.Queue c) :
    (reserve_begin c inner id device_id now).inner.Queue c := by
  have hnew : ∀ inner' : Inner, inner'.Queue c → id ∉ inner'.release_pending →
      (reserve_new c inner' id device_id now).inner.Queue c := by
    intro inner' h hid
    rw [reserve_new]
    split
    · exact h
    split
    · exact h
    · exact h.park hid
  rw [reserve_begin]
  dsimp only
  split
  · exact h
  split
  · exact h
  split
  · split <;> exact h
  next hl =>
  have hid : id ∉ inner.release_pending := AList.lookup_eq_none.mp hl
  split
  · split <;> exact h
  split
  · exact hnew inner h hid
  split
  · exact h
  split
  · exact h
  · exact hnew _ (h.congr rfl rfl (fun _ _ => Iff.rfl)) hid

theorem commit_begin_queue (now : PoolTime) (h : inner.Queue c) :
    (commit_begin c inner id now).inner.Queue c := by
  rw [commit_begin]
  split
  · exact h
  split
  · exact h
  split
  · exact h
  next hl =>
  split
  · exact h
  next pending _ =>
  have herased : Inner.Queue c { inner with pending := inner.pending.erase id } :=
    h.congr rfl rfl (fun _ _ => Iff.rfl)
  have hparked : Inner.Queue c (({ inner with pending := inner.pending.erase id } : Inner).park id
      pending.addresses) := herased.park (AList.lookup_eq_none.mp hl)
  dsimp only
  split <;> exact hparked

theorem release_begin_queue (now_ms : ℕ) (h : inner.Queue c) :
    (release_begin inner id now_ms).inner.Queue c := by
  rw [release_begin]
  split
  · exact h
  split
  · exact h
  next hid =>
  split
  · exact h
  next inner' taken ht =>
  obtain ⟨htaken, hquarantine, -⟩ := take_queue h ht
  exact htaken.park (hquarantine ▸ hid)

theorem renew_begin_queue (now : PoolTime) (h : inner.Queue c)
    (hapart : ∀ id, id ∈ inner.active → id ∉ inner.release_pending) :
    (renew_begin c inner id now).inner.Queue c := by
  rw [renew_begin]
  split
  · exact h
  split
  · exact h
  next active hl =>
  split
  · exact h
  refine h.congr rfl rfl ?_
  intro id' hid'
  have hne : id' ≠ id := by
    rintro rfl
    exact hapart id' (AList.mem_of_lookup hl) hid'
  simp [Section.parks, hne]

theorem take_expired_queue {e : Expired} (h : inner.Queue c) (hid : e.id ∉ inner.release_pending) :
    (take_expired inner e).Queue c := by
  rw [take_expired]
  split
  · exact (h.congr rfl rfl (fun _ _ => Iff.rfl) :
      Inner.Queue c { inner with pending := inner.pending.erase e.id }).park hid
  · exact (h.congr rfl rfl (fun _ _ => Iff.rfl) :
      Inner.Queue c { inner with active := inner.active.erase e.id }).park hid

theorem sweep_begin_queue (now_ms : ℕ) (h : inner.Queue c)
    (hapart : ∀ id, id ∈ inner.active ∨ id ∈ inner.pending → id ∉ inner.release_pending) :
    (sweep_begin inner now_ms).inner.Queue c := by
  have hbatch : ∀ e ∈ sweep_batch inner now_ms, e.id ∉ inner.release_pending := by
    intro e he
    have hl := (mem_sweep_batch he).1
    refine hapart e.id ?_
    by_cases hw : e.was_pending
    · rw [if_pos hw] at hl
      exact .inr (AList.mem_of_lookup hl)
    · rw [if_neg hw] at hl
      exact .inl (AList.mem_of_lookup hl)
  -- the quarantine itself is untouched all along
  have htaken : Inner.Queue c ((sweep_batch inner now_ms).foldl take_expired inner) ∧
      Inner.release_pending ((sweep_batch inner now_ms).foldl take_expired inner) =
        inner.release_pending := by
    refine List.foldlRecOn (motive := fun taken : Inner => taken.Queue c ∧
      taken.release_pending = inner.release_pending) _ _ ⟨h, rfl⟩ ?_
    rintro taken ⟨hqueue, hsame⟩ e he
    refine ⟨take_expired_queue hqueue (hsame ▸ hbatch e he), ?_⟩
    rw [take_expired]
    split <;> exact hsame
  exact htaken.1

/-- **First sections keep the queue**, when no session is quarantined and leased. -/
theorem begin_queue (durable : Bool) (call : PoolCall) (h : inner.Queue c)
    (hapart : ∀ id, id ∈ inner.active ∨ id ∈ inner.pending → id ∉ inner.release_pending) :
    (begin_ c durable inner call).inner.Queue c := by
  cases call with
  | reserve id device_id now => exact reserve_begin_queue device_id now h
  | commit id now => exact commit_begin_queue now h
  | release_at id now_ms => exact release_begin_queue now_ms h
  | renew id now => exact renew_begin_queue now h (fun id hid => hapart id (.inl hid))
  | sweep now_ms => exact sweep_begin_queue now_ms h hapart
  | retry_pending_releases_bounded now_ms max_batch =>
    exact retry_begin_queue durable now_ms max_batch none h

/-! ## Later sections -/

/-- A retried session goes back to the end of the order, or leaves the quarantine. -/
theorem settle_retry_queue (now_ms : ℕ) (ok : Bool) (h : inner.Queue c)
    (hq : id ∈ inner.release_pending) (hi : id ∈ inner.inflight) :
    (settle_retry now_ms inner id ok).Queue c := by
  have hout : id ∉ inner.release_order := fun hid => (h.listed.mp hid).2 hi
  obtain ⟨lease, hl⟩ := AList.mem_iff_lookup.mp hq
  rw [settle_retry]
  split
  · refine ⟨h.nodup, ?_, ?_⟩
    · intro id'
      change id' ∈ inner.release_order ↔ _
      rw [h.listed, AList.mem_erase, Finset.mem_erase]
      by_cases hid : id' = id
      · simp [hid, hi]
      · simp [hid]
    · have hlen := AList.len_erase hq
      have hroom := h.room
      change (inner.release_pending.erase id).len ≤ _
      omega
  · simp only [hl]
    refine ⟨?_, ?_, ?_⟩
    · change (inner.release_order ++ [id]).Nodup
      rw [List.nodup_append]
      refine ⟨h.nodup, List.nodup_singleton id, ?_⟩
      intro a ha b hb hab
      rw [List.mem_singleton] at hb
      exact hout (hb ▸ hab ▸ ha)
    · intro id'
      change id' ∈ inner.release_order ++ [id] ↔ _
      rw [List.mem_append, List.mem_singleton, h.listed, AList.mem_insert, Finset.mem_erase]
      by_cases hid : id' = id
      · simp [hid]
      · simp [hid]
    · change (inner.release_pending.insert id _).len ≤ _
      rw [AList.len_insert_of_mem hq]
      exact h.room

theorem retry_finish_queue {batch : List SessionId} (now_ms : ℕ)
    (expired_ids : Option (List SessionId)) {outcomes : List Bool}
    (hlen : outcomes.length = batch.length) (hnodup : batch.Nodup) (h : inner.Queue c)
    (hbatch : ∀ id ∈ batch, id ∈ inner.release_pending ∧ id ∈ inner.inflight) :
    (retry_finish inner batch now_ms expired_ids outcomes).inner.Queue c := by
  have hsettled : Inner.Queue c ((batch.zip outcomes).foldl
      (fun inner e => settle_retry now_ms inner e.1 e.2) inner) := by
    refine foldl_keeps Prod.fst (Inner.Queue c)
      (fun e inner => e.1 ∈ inner.release_pending ∧ e.1 ∈ inner.inflight) ?_ ?_ ?_ h ?_
    · exact fun inner e h hready => settle_retry_queue now_ms e.2 h hready.1 hready.2
    · -- the other sessions of the batch are left alone by this round
      rintro inner e e' hne ⟨hq, hi⟩
      have hslot : (settle_retry now_ms inner e.1 e.2).slot e'.1 = inner.slot e'.1 :=
        slot_settle_retry_of_ne now_ms e.2 hne
      refine ⟨?_, ?_⟩
      · rw [← AList.lookup_isSome] at hq ⊢
        rwa [show (settle_retry now_ms inner e.1 e.2).release_pending.lookup e'.1 =
          inner.release_pending.lookup e'.1 from congrArg Slot.quarantined hslot]
      · have hflag : decide (e'.1 ∈ (settle_retry now_ms inner e.1 e.2).inflight) =
            decide (e'.1 ∈ inner.inflight) := congrArg Slot.inflight hslot
        simpa [hi] using hflag
    · rwa [List.map_fst_zip (Nat.le_of_eq hlen.symm)]
    · exact fun e he => hbatch e.1 (List.of_mem_zip he).1
  rw [retry_finish]
  cases expired_ids <;> exact hsettled

theorem settle_expired_queue (now_ms : ℕ) (e : Expired) (ok : Bool) (h : inner.Queue c)
    (hid : e.id ∉ inner.release_pending) : (settle_expired c now_ms inner e ok).Queue c := by
  have hunparked : Inner.Queue c (inner.unpark e.id e.lease.addresses) := h.unpark hid
  rw [settle_expired]
  split
  · exact hunparked
  split
  · next he => exact h.enqueue_unparked hid he
  split
  · exact hunparked.congr rfl rfl (fun _ _ => Iff.rfl)
  · exact hunparked.congr rfl rfl (fun _ _ => Iff.rfl)

theorem sweep_finish_queue {batch : List Expired} (now_ms : ℕ) {outcomes : List Bool}
    (hlen : outcomes.length = batch.length) (hnodup : (batch.map (·.id)).Nodup)
    (h : inner.Queue c) (hbatch : ∀ e ∈ batch, e.id ∉ inner.release_pending) :
    (sweep_finish c inner batch now_ms outcomes).inner.Queue c := by
  rw [sweep_finish]
  refine foldl_keeps (fun e : Expired × Bool => e.1.id) (Inner.Queue c)
    (fun e inner => e.1.id ∉ inner.release_pending) ?_ ?_ ?_ h ?_
  · exact fun inner e h hready => settle_expired_queue now_ms e.1 e.2 h hready
  · intro inner e e' hne hready
    have hslot : (settle_expired c now_ms inner e.1 e.2).slot e'.1.id = inner.slot e'.1.id :=
      slot_settle_expired_of_ne now_ms e.1 e.2 hne
    have hl : (settle_expired c now_ms inner e.1 e.2).release_pending.lookup e'.1.id =
      inner.release_pending.lookup e'.1.id := congrArg Slot.quarantined hslot
    rwa [← AList.lookup_eq_none, hl, AList.lookup_eq_none]
  · rwa [zip_map_id hlen]
  · exact fun e he => hbatch e.1 (List.of_mem_zip he).1

/-- **Later sections keep the queue**, when a parked session is quarantined
exactly if a retry has parked it. -/
theorem resume_queue (durable : Bool) {plan : Plan} (hdistinct : plan.Distinct)
    {outcomes : List Bool} (hlen : outcomes.length = plan.store_ops.length) (h : inner.Queue c)
    (hparked : ∀ id k, plan.parked id = some k →
      (id ∈ inner.release_pending ↔ k = .retrying) ∧ id ∈ inner.inflight) :
    (resume c durable inner outcomes plan).inner.Queue c := by
  have hout : ∀ {id by_ lease}, plan.parked id = some (.out by_ lease) →
      id ∉ inner.release_pending := by
    intro id by_ lease hk hid
    have hretrying := (hparked id _ hk).1.mp hid
    contradiction
  cases plan with
  | reserve id lease wall =>
    have hunparked : Inner.Queue c (inner.unpark id lease.addresses) := h.unpark (hout (if_pos rfl))
    rw [resume, reserve_finish]
    split
    · exact hunparked
    split
    · exact hunparked
    · exact hunparked.congr rfl rfl (fun _ _ => Iff.rfl)
  | promote id pending mono wall =>
    have hunparked : Inner.Queue c (inner.unpark id pending.addresses) :=
      h.unpark (hout (if_pos rfl))
    rw [resume, promote_finish]
    split
    · exact hunparked.congr rfl rfl (fun _ _ => Iff.rfl)
    split
    · exact hunparked
    · exact hunparked.congr rfl rfl (fun _ _ => Iff.rfl)
  | expire id pending now_ms =>
    have hid : id ∉ inner.release_pending := hout (if_pos rfl)
    have hunparked : Inner.Queue c (inner.unpark id pending.addresses) := h.unpark hid
    rw [resume, expire_finish]
    split
    · exact hunparked
    split
    · exact hunparked.congr rfl rfl (fun _ _ => Iff.rfl)
    · next he => exact h.enqueue_unparked hid he
  | release id taken now_ms =>
    have hid : id ∉ inner.release_pending := hout (if_pos rfl)
    have hunparked : Inner.Queue c (inner.unpark id taken.addresses) := h.unpark hid
    rw [resume, release_finish]
    split
    · exact hunparked
    split
    · exact hunparked.congr rfl rfl (fun _ _ => Iff.rfl)
    · next he => exact h.enqueue_unparked hid he
  | renew id active mono wall =>
    have hid : id ∉ inner.release_pending := by
      intro hid
      have hretrying := (hparked id _ (if_pos rfl)).1.mp hid
      contradiction
    have hidle : Inner.Queue c { inner with inflight := inner.inflight.erase id } := by
      refine h.congr rfl rfl ?_
      intro id' hid'
      have hne : id' ≠ id := fun he => hid (he ▸ hid')
      simp [hne]
    rw [resume, renew_finish]
    split
    · exact hidle
    split
    · split
      · exact hidle.congr rfl rfl (fun _ _ => Iff.rfl)
      · exact hidle
    · exact hidle
  | sweep batch now_ms =>
    refine sweep_finish_queue now_ms ?_ hdistinct h ?_
    · rw [hlen, Plan.store_ops, List.length_map]
    · exact fun e he => hout (parked_sweep_of_mem now_ms hdistinct he)
  | swept expired_ids now_ms =>
    exact retry_begin_queue durable now_ms MAX_RETRY_BATCH (some expired_ids) h
  | retry batch now_ms expired_ids =>
    refine retry_finish_queue now_ms expired_ids ?_ hdistinct h ?_
    · rw [hlen, Plan.store_ops, List.length_map]
    · intro id hid
      obtain ⟨hq, hi⟩ := hparked id .retrying (if_pos hid)
      exact ⟨hq.mpr rfl, hi⟩

theorem release_deferred_queue (h : inner.Queue c) :
    (release_deferred c inner id).1.Queue c := by
  rw [release_deferred]
  split
  · exact h
  next hidle =>
  split
  · exact h
  next taken_out lease ht =>
  obtain ⟨htaken, -, hinflight⟩ := take_queue h ht
  split
  · next he =>
    refine htaken.enqueue ?_ he
    rw [hinflight]
    exact fun hi => hidle (.inl hi)
  · exact htaken.congr rfl rfl (fun _ _ => Iff.rfl)

end AddressPool

end StreamGuard.Gateway
