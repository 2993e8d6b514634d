/-
Active leases and their durable records.

A commit answers with an address pair so that the listener may send it to the
client; the lease must then be Active in memory and, in a durable pool, Active
in the store. `StoreAgrees` is the second half as an invariant, for one session:
its lease in the active map is recorded, and what a parked call may put there is
recorded as well.

Two branches of the source break the pairing. A commit answered from the
quarantine makes nothing Active, and a release that cannot be quarantined puts
the lease back as Active, whatever the store holds for it.
-/
import StreamGuard.Gateway.PoolExclusive

set_option autoImplicit false

namespace StreamGuard.Gateway

open StreamGuard StreamGuard.Lib

/-! ## Records -/

/-- The store's record of the session is Active with these addresses. -/
def LeaseStore.Recorded (store : LeaseStore) (session_id : SessionId) (a : AssignedAddresses) :
    Prop :=
  ∃ record ∈ store.lookup session_id, record.state = .Active ∧ record.addresses = a

instance (store : LeaseStore) (session_id : SessionId) (a : AssignedAddresses) :
    Decidable (store.Recorded session_id a) :=
  inferInstanceAs (Decidable (∃ record ∈ store.lookup session_id, _))

/-- The session a store operation is about. -/
def StoreOp.session_id : StoreOp → SessionId
  | .persist lease => lease.session_id
  | .release session_id => session_id

theorem StoreOp.lookup_apply_of_ne {op : StoreOp} {ok : Bool} {store : LeaseStore}
    {session_id : SessionId} (h : op.session_id ≠ session_id) :
    (op.apply ok store).lookup session_id = store.lookup session_id := by
  cases ok with
  | false => rfl
  | true =>
    cases op with
    | persist lease => exact AList.lookup_insert_ne h.symm
    | release id => exact AList.lookup_erase_ne h.symm

theorem recorded_apply_of_ne {op : StoreOp} {ok : Bool} {store : LeaseStore}
    {session_id : SessionId} {a : AssignedAddresses} (h : op.session_id ≠ session_id)
    (hr : store.Recorded session_id a) :
    LeaseStore.Recorded (op.apply ok store) session_id a := by
  obtain ⟨record, hl, hrecord⟩ := hr
  refine ⟨record, ?_, hrecord⟩
  rw [StoreOp.lookup_apply_of_ne h]
  exact hl

/-- An Active record is in the store once it is persisted, and a failed persist
leaves the one that was there. -/
theorem recorded_apply_persist {store : LeaseStore} {record : PersistedLease} {ok : Bool}
    (hactive : record.state = .Active)
    (h : ok = false → store.Recorded record.session_id record.addresses) :
    LeaseStore.Recorded (StoreOp.apply (.persist record) ok store) record.session_id
      record.addresses := by
  cases ok with
  | true => exact ⟨record, AList.lookup_insert _, hactive, rfl⟩
  | false => exact h rfl

/-- A store operation is about a session that its call has parked. -/
theorem Plan.parked_of_store_op {plan : Plan} {op : StoreOp} (h : op ∈ plan.store_ops) :
    ∃ k, plan.parked op.session_id = some k := by
  cases plan with
  | reserve id lease wall =>
    obtain rfl := List.mem_singleton.mp h
    exact ⟨_, if_pos rfl⟩
  | promote id pending mono wall =>
    obtain rfl := List.mem_singleton.mp h
    exact ⟨_, if_pos rfl⟩
  | expire id pending now_ms =>
    obtain rfl := List.mem_singleton.mp h
    exact ⟨_, if_pos rfl⟩
  | release id taken now_ms =>
    obtain rfl := List.mem_singleton.mp h
    exact ⟨_, if_pos rfl⟩
  | renew id active mono wall =>
    obtain rfl := List.mem_singleton.mp h
    exact ⟨_, if_pos rfl⟩
  | sweep batch now_ms =>
    obtain ⟨e, he, rfl⟩ := List.mem_map.mp h
    cases hf : batch.find? (fun e' => e'.id = e.id) with
    | none => exact absurd (decide_eq_true rfl) (List.find?_eq_none.mp hf e he)
    | some e' =>
      refine ⟨.out (.sweeping e'.was_pending) e'.lease, ?_⟩
      rw [Plan.parked, StoreOp.session_id, hf]
      rfl
  | swept expired_ids now_ms => contradiction
  | retry batch now_ms expired_ids =>
    obtain ⟨id, hid, rfl⟩ := List.mem_map.mp h
    exact ⟨_, if_pos hid⟩

/-! ## Where Active entries come from -/

/-- No room for another quarantined lease. -/
def Inner.quarantine_full (c : AddressPoolConfig) (inner : Inner) : Prop :=
  c.maximum_pending_releases ≤ inner.release_pending.len

instance (c : AddressPoolConfig) (inner : Inner) : Decidable (inner.quarantine_full c) :=
  inferInstanceAs (Decidable (_ ≤ _))

theorem enqueue_active {c : AddressPoolConfig} {inner inner' : Inner} {id : SessionId}
    {lease : Lease} {now_ms : ℕ} (h : inner.enqueue_release_locked c id lease now_ms = .ok inner') :
    inner'.active = inner.active := by
  rw [Inner.enqueue_release_locked] at h
  split at h
  · rw [Except.ok.inj h]
  split at h
  · contradiction
  · rw [← Except.ok.inj h]

theorem enqueue_full {c : AddressPoolConfig} {inner : Inner} {id : SessionId} {lease : Lease}
    {now_ms : ℕ} {e : AddressPoolError}
    (h : inner.enqueue_release_locked c id lease now_ms = .error e) :
    id ∉ inner.release_pending ∧ inner.quarantine_full c := by
  rw [Inner.enqueue_release_locked] at h
  split at h
  · contradiction
  next hq =>
  split at h
  · next hfull => exact ⟨hq, hfull⟩
  · contradiction

namespace AddressPool

variable {c : AddressPoolConfig} {inner : Inner} {id : SessionId} {lease : Lease}

theorem take_active {inner' : Inner} {taken : Lease} {subject : SessionId}
    (ht : take inner subject = some (inner', taken)) (h : inner'.active.lookup id = some lease) :
    inner.active.lookup id = some lease := by
  rw [take] at ht
  split at ht
  · obtain ⟨rfl, rfl⟩ := step_inj ht
    exact h
  split at ht
  · obtain ⟨rfl, rfl⟩ := step_inj ht
    exact AList.lookup_of_erase h
  · contradiction

/-- A first section makes nothing Active. -/
theorem begin_active (durable : Bool) (call : PoolCall)
    (h : (begin_ c durable inner call).inner.active.lookup id = some lease) :
    inner.active.lookup id = some lease := by
  cases call with
  | reserve subject device_id now =>
    have hnew : ∀ inner' : Inner, (reserve_new c inner' subject device_id now).inner.active =
        inner'.active := by
      intro inner'
      rw [reserve_new]
      split
      · rfl
      split
      · rfl
      · rfl
    have hactive : (reserve_begin c inner subject device_id now).inner.active = inner.active := by
      rw [reserve_begin]
      dsimp only
      split
      · rfl
      split
      · rfl
      split
      · split <;> rfl
      split
      · split <;> rfl
      split
      · exact hnew inner
      split
      · rfl
      split
      · rfl
      · exact hnew _
    rw [begin_, hactive] at h
    exact h
  | commit subject now =>
    have hactive : (commit_begin c inner subject now).inner.active = inner.active := by
      rw [commit_begin]
      split
      · rfl
      split
      · rfl
      split
      · rfl
      split
      · rfl
      dsimp only
      split
      · rfl
      · rfl
    rw [begin_, hactive] at h
    exact h
  | release_at subject now_ms =>
    rw [begin_, release_begin] at h
    split at h
    · exact h
    split at h
    · exact h
    split at h
    · exact h
    · next ht => exact take_active ht h
  | renew subject now =>
    rw [begin_, renew_begin] at h
    split at h
    · exact h
    split at h
    · exact h
    split at h
    · exact h
    · exact h
  | sweep now_ms =>
    rw [begin_, sweep_begin] at h
    refine List.foldlRecOn (motive := fun taken : Inner => taken.active.lookup id = some lease →
      inner.active.lookup id = some lease) _ _ (fun h => h) ?_ h
    intro taken hbefore e _ h
    rw [take_expired] at h
    split at h
    · exact hbefore h
    · exact hbefore (AList.lookup_of_erase h)
  | retry_pending_releases_bounded now_ms max_batch =>
    rcases retry_begin_cases durable inner now_ms max_batch none with
      ⟨e, _, _, order, he⟩ | ⟨batch, order, _, _, he⟩
    · rw [begin_, he] at h
      exact h
    · rw [begin_, he] at h
      exact h

/-- The leases a sweep parks as taken from the active map are in it. -/
theorem begin_sweeps (durable : Bool) (call : PoolCall) {batch : List Expired} {now_ms : ℕ}
    (h : (begin_ c durable inner call).plan = some (.sweep batch now_ms)) {e : Expired}
    (he : e ∈ batch) (hw : e.was_pending = false) : inner.active.lookup e.id = some e.lease := by
  have hmem := (begin_plan_sweep durable call h).mem_iff.mp he
  have hfrom := (mem_sweep_batch hmem).1
  rw [hw] at hfrom
  exact hfrom

theorem settle_expired_active {now_ms : ℕ} {e : Expired} {ok : Bool}
    (h : (settle_expired c now_ms inner e ok).active.lookup id = some lease) :
    inner.active.lookup id = some lease ∨
      ok = false ∧ e.was_pending = false ∧ e.id = id ∧ e.lease = lease := by
  rw [settle_expired] at h
  split at h
  · exact .inl h
  next hok =>
  split at h
  · next he =>
    rw [enqueue_active he] at h
    exact .inl h
  split at h
  · exact .inl h
  next hw =>
  rw [AList.lookup_insert_of] at h
  split at h
  · next hid =>
    exact .inr ⟨by simpa using hok, by simpa using hw, hid.symm, Option.some.inj h⟩
  · exact .inl h

theorem settle_retry_active {now_ms : ℕ} {subject : SessionId} {ok : Bool} :
    (settle_retry now_ms inner subject ok).active = inner.active := by
  unfold settle_retry
  dsimp only
  split
  · rfl
  split
  · rfl
  · rfl

/-- A sweep is parked by a first section only. -/
theorem resume_plan_not_sweep (durable : Bool) (plan : Plan) (outcomes : List Bool)
    {batch : List Expired} {now_ms : ℕ} :
    (resume c durable inner outcomes plan).plan ≠ some (.sweep batch now_ms) := by
  intro h
  rcases resume_parks durable h with ⟨_, _, _, _, he⟩ | ⟨_, _, _, _, _, _, he⟩ <;> simp at he

theorem release_deferred_active {subject : SessionId}
    (h : (release_deferred c inner subject).1.active.lookup id = some lease) :
    inner.active.lookup id = some lease ∨ (id ∉ inner.inflight ∧ inner.quarantine_full c ∧
      (take inner id).map (·.2) = some lease ∧ id = subject) := by
  rw [release_deferred] at h
  split at h
  · exact .inl h
  next hidle =>
  split at h
  · exact .inl h
  next taken_out taken ht =>
  split at h
  · next he =>
    rw [enqueue_active he] at h
    exact .inl (take_active ht h)
  · next he =>
    rw [AList.lookup_insert_of] at h
    split at h
    · next hid =>
      subst hid
      obtain rfl := Option.some.inj h
      refine .inr ⟨fun hi => hidle (.inl hi), ?_, ?_, rfl⟩
      · have hq : taken_out.release_pending = inner.release_pending := by
          rw [take] at ht
          split at ht
          · rw [← (step_inj ht).1]
          split at ht
          · rw [← (step_inj ht).1]
          · contradiction
        have hfull := (enqueue_full he).2
        rw [Inner.quarantine_full, hq] at hfull
        exact hfull
      · rw [ht]
        rfl
    · exact .inl (take_active ht h)

/-- **Where an Active entry comes from.** A later section leaves it where it was,
promotes it, or puts it back because the quarantine is full. -/
theorem resume_active (durable : Bool) (plan : Plan) (outcomes : List Bool)
    (h : (resume c durable inner outcomes plan).inner.active.lookup id = some lease) :
    (∃ old, inner.active.lookup id = some old ∧ old.addresses = lease.addresses) ∨
    (∃ pending mono wall, plan = .promote id pending mono wall ∧ outcomes.headD true = true ∧
      pending.addresses = lease.addresses) ∨
    (∃ now_ms, plan = .release id lease now_ms ∧ outcomes.headD true = false ∧
      inner.quarantine_full c) ∨
    (∃ batch now_ms e, plan = .sweep batch now_ms ∧ (e, false) ∈ batch.zip outcomes ∧
      e.was_pending = false ∧ e.id = id ∧ e.lease.addresses = lease.addresses) := by
  cases plan with
  | reserve subject reserved wall =>
    rw [resume, reserve_finish] at h
    split at h
    · exact .inl ⟨lease, h, rfl⟩
    split at h
    · exact .inl ⟨lease, h, rfl⟩
    · exact .inl ⟨lease, h, rfl⟩
  | promote subject pending mono wall =>
    rw [resume, promote_finish] at h
    split at h
    · exact .inl ⟨lease, h, rfl⟩
    next hok =>
    split at h
    · exact .inl ⟨lease, h, rfl⟩
    rw [Section.returns, AList.lookup_insert_of] at h
    split at h
    · next hid =>
      subst hid
      rw [← Option.some.inj h]
      exact .inr (.inl ⟨pending, mono, wall, rfl, by simpa using hok, rfl⟩)
    · exact .inl ⟨lease, h, rfl⟩
  | expire subject pending now_ms =>
    rw [resume, expire_finish] at h
    split at h
    · exact .inl ⟨lease, h, rfl⟩
    split at h
    · exact .inl ⟨lease, h, rfl⟩
    · next he =>
      rw [Section.returns, enqueue_active he] at h
      exact .inl ⟨lease, h, rfl⟩
  | release subject taken now_ms =>
    rw [resume, release_finish] at h
    split at h
    · exact .inl ⟨lease, h, rfl⟩
    next hok =>
    split at h
    · next he =>
      rw [Section.returns, AList.lookup_insert_of] at h
      split at h
      · next hid =>
        subst hid
        obtain rfl := Option.some.inj h
        exact .inr (.inr (.inl ⟨now_ms, rfl, by simpa using hok, (enqueue_full he).2⟩))
      · exact .inl ⟨lease, h, rfl⟩
    · next he =>
      rw [Section.returns, enqueue_active he] at h
      exact .inl ⟨lease, h, rfl⟩
  | renew subject active mono wall =>
    rw [resume, renew_finish] at h
    split at h
    · exact .inl ⟨lease, h, rfl⟩
    split at h
    · next renewed hl =>
      split at h
      · rw [Section.returns, AList.lookup_insert_of] at h
        split at h
        · next hid =>
          subst hid
          rw [← Option.some.inj h]
          exact .inl ⟨renewed, hl, rfl⟩
        · exact .inl ⟨lease, h, rfl⟩
      · exact .inl ⟨lease, h, rfl⟩
    · exact .inl ⟨lease, h, rfl⟩
  | sweep batch now_ms =>
    have hfrom : inner.active.lookup id = some lease ∨ ∃ e, (e, false) ∈ batch.zip outcomes ∧
        e.was_pending = false ∧ e.id = id ∧ e.lease = lease := by
      rw [resume, sweep_finish] at h
      refine List.foldlRecOn (motive := fun settled : Inner =>
        settled.active.lookup id = some lease → inner.active.lookup id = some lease ∨
          ∃ e, (e, false) ∈ batch.zip outcomes ∧ e.was_pending = false ∧ e.id = id ∧
            e.lease = lease) _ _ Or.inl ?_ h
      rintro settled hbefore ⟨e, ok⟩ he h
      rcases settle_expired_active h with h | ⟨rfl, hrest⟩
      · exact hbefore h
      · exact .inr ⟨e, he, hrest⟩
    rcases hfrom with h | ⟨e, he, hw, hid, hl⟩
    · exact .inl ⟨lease, h, rfl⟩
    · exact .inr (.inr (.inr ⟨batch, now_ms, e, rfl, he, hw, hid, congrArg _ hl⟩))
  | swept expired_ids now_ms =>
    rcases retry_begin_cases durable inner now_ms MAX_RETRY_BATCH (some expired_ids) with
      ⟨e, _, _, order, he⟩ | ⟨batch, order, _, _, he⟩
    · rw [resume, he] at h
      exact .inl ⟨lease, h, rfl⟩
    · rw [resume, he] at h
      exact .inl ⟨lease, h, rfl⟩
  | retry batch now_ms expired_ids =>
    have hsettled : Inner.active ((batch.zip outcomes).foldl
        (fun inner e => settle_retry now_ms inner e.1 e.2) inner) = inner.active :=
      List.foldlRecOn (motive := fun settled : Inner => settled.active = inner.active) _ _ rfl
        (fun _ hbefore _ _ => settle_retry_active.trans hbefore)
    rw [resume, retry_finish] at h
    have h : (retry_returns ((batch.zip outcomes).foldl
      (fun inner e => settle_retry now_ms inner e.1 e.2) inner) expired_ids).inner.active.lookup id =
        some lease := h
    obtain ⟨e, he, _, _⟩ := retry_returns_idle ((batch.zip outcomes).foldl
      (fun inner e => settle_retry now_ms inner e.1 e.2) inner) expired_ids
    rw [he, Section.returns, hsettled] at h
    exact .inl ⟨lease, h, rfl⟩

end AddressPool

namespace PoolSystem

variable {s s' : PoolSystem} {session_id : SessionId} {store : LeaseStore}

/-! ## Releases that meet a full quarantine -/

/-- The lease a step puts back as Active because it can be neither deleted nor
quarantined. -/
def restores (s : PoolSystem) : PoolLabel → Option (SessionId × Lease)
  | .resume caller =>
    match s.running.lookup caller with
    | some ⟨.release session_id taken _, [false]⟩ =>
      if s.pool.inner.quarantine_full s.pool.config then some (session_id, taken) else none
    | _ => none
  | .release_deferred session_id =>
    if session_id ∉ s.pool.inner.inflight ∧ s.pool.inner.quarantine_full s.pool.config then
      (AddressPool.take s.pool.inner session_id).map (fun r => (session_id, r.2))
    else none
  | _ => none

/-- The step puts a lease of the session back as Active that the store does not record
as Active with its addresses. -/
def restores_unrecorded (s : PoolSystem) (session_id : SessionId) (label : PoolLabel) : Prop :=
  match s.restores label, s.pool.store with
  | some (id, lease), some store =>
    id = session_id ∧ ¬ store.Recorded session_id lease.addresses
  | _, _ => False

instance (s : PoolSystem) (session_id : SessionId) :
    DecidablePred (s.restores_unrecorded session_id) := by
  intro label
  rw [restores_unrecorded]
  split
  · infer_instance
  · infer_instance

theorem recorded_of_restores {label : PoolLabel} {lease : Lease}
    (hkeeps : ¬ s.restores_unrecorded session_id label) (hstore : s.pool.store = some store)
    (h : s.restores label = some (session_id, lease)) :
    store.Recorded session_id lease.addresses := by
  rw [restores_unrecorded, h, hstore] at hkeeps
  exact not_not.mp fun hlost => hkeeps ⟨rfl, hlost⟩

/-! ## The invariant -/

/-- The store records the session's lease if it is Active, or a parked call may make it
Active. -/
structure StoreAgrees (s : PoolSystem) (session_id : SessionId) (store : LeaseStore) : Prop where
  active : ∀ {lease}, s.pool.inner.active.lookup session_id = some lease →
    store.Recorded session_id lease.addresses
  promoted : ∀ {caller pending mono wall},
    s.running.lookup caller = some ⟨.promote session_id pending mono wall, [true]⟩ →
      store.Recorded session_id pending.addresses
  /-- A swept Active lease is recorded as long as its delete has not succeeded. -/
  swept : ∀ {caller batch now_ms outcomes e} {i : ℕ},
    s.running.lookup caller = some ⟨.sweep batch now_ms, outcomes⟩ → batch[i]? = some e →
      e.id = session_id → e.was_pending = false → outcomes[i]? ≠ some true →
        store.Recorded session_id e.lease.addresses

/-- A section makes the lease Active, or takes it out for a sweep, only if it is
recorded. -/
theorem StoreAgrees.enter {caller : ℕ} {sec : Section} (h : s.StoreAgrees session_id store)
    (hactive : ∀ lease, sec.inner.active.lookup session_id = some lease →
      store.Recorded session_id lease.addresses)
    (hswept : ∀ batch now_ms, sec.plan = some (.sweep batch now_ms) → ∀ e ∈ batch,
      e.id = session_id → e.was_pending = false → store.Recorded session_id e.lease.addresses) :
    (s.enter caller sec).StoreAgrees session_id store := by
  refine ⟨fun hl => hactive _ hl, ?_, ?_⟩
  · intro caller' pending mono wall hr
    rw [enter_lookup] at hr
    split at hr
    · obtain ⟨plan, _, he⟩ := Option.map_eq_some_iff.mp hr
      cases he
    · exact h.promoted hr
  · intro caller' batch now_ms outcomes e i hr hi hid hw hok
    rw [enter_lookup] at hr
    split at hr
    · obtain ⟨plan, hplan, he⟩ := Option.map_eq_some_iff.mp hr
      cases he
      exact hswept batch now_ms hplan e (List.mem_of_getElem? hi) hid hw
    · exact h.swept hr hi hid hw hok

/-- **A store operation** touches the record of a session that its own call has
parked, and writes what the call will make of the lease. -/
theorem StoreAgrees.after_store {caller : ℕ} {r : Running} {op : StoreOp} {ok : Bool}
    (hc : s.Coherent) (h : s.StoreAgrees session_id store)
    (hr : s.running.lookup caller = some r)
    (hop : r.plan.store_ops[r.outcomes.length]? = some op) :
    (s.after_store caller r op ok).StoreAgrees session_id (op.apply ok store) := by
  obtain ⟨k, hk⟩ := Plan.parked_of_store_op (List.mem_of_getElem? hop)
  -- a session parked by another caller is not the one of this operation
  have hother : ∀ {caller' r' id}, caller' ≠ caller → s.running.lookup caller' = some r' →
      (∃ k, r'.plan.parked id = some k) → op.session_id ≠ id := by
    rintro caller' r' id hne hr' ⟨k', hk'⟩ rfl
    refine hne (@Coherent.single _ hc _ _ _ _ op.session_id hr' hr ?_ ?_)
    · rw [hk']
      rfl
    · rw [hk]
      rfl
  refine ⟨?_, ?_, ?_⟩
  · intro lease hl
    have hl : s.pool.inner.active.lookup session_id = some lease := hl
    by_cases hid : op.session_id = session_id
    · subst hid
      -- the only parked call that leaves the entry in the active map is a renewal
      obtain ⟨p, hp⟩ := hc.places op.session_id
      have hparked := (hp.parks k).mp ⟨caller, r, hr, hk⟩
      have hactive : p.slot.active = some lease := (congrArg Slot.active hp.slot).symm.trans hl
      cases k with
      | out by_ taken =>
        obtain rfl := Place.eq_out hparked
        contradiction
      | retrying =>
        obtain ⟨quarantined, rfl⟩ := Place.eq_retrying hparked
        contradiction
      | renewing renewed mono =>
        obtain rfl := Place.eq_renewing hparked
        obtain rfl := Option.some.inj hactive
        obtain ⟨plan, outcomes⟩ := r
        cases plan with
        | renew subject active mono' wall =>
          have hops := List.mem_singleton.mp (List.mem_of_getElem? hop)
          subst hops
          have hk : (if subject = subject then some (Parked.renewing active mono') else none) =
            some (.renewing renewed mono) := hk
          rw [if_pos rfl] at hk
          obtain ⟨rfl, -⟩ := Parked.renewing.inj (Option.some.inj hk)
          exact recorded_apply_persist rfl (fun _ => h.active hl)
        | sweep batch now_ms =>
          obtain ⟨e, _, he⟩ := Option.map_eq_some_iff.mp hk
          contradiction
        | swept ids now_ms => contradiction
        | retry batch now_ms ids =>
          have hk : (if op.session_id ∈ batch then some Parked.retrying else none) =
            some (.renewing renewed mono) := hk
          split at hk <;> cases hk
        | _ =>
          rw [Plan.parked] at hk
          split at hk <;> cases hk
    · exact recorded_apply_of_ne hid (h.active hl)
  · intro caller' pending mono wall hr'
    rw [PoolSystem.after_store, AList.lookup_insert_of] at hr'
    split at hr'
    · next hcaller =>
      obtain ⟨plan, outcomes⟩ := r
      obtain ⟨rfl, ho⟩ := Running.mk.inj (Option.some.inj hr')
      have hok : outcomes = [] ∧ ok = true := by simpa [List.append_eq_cons_iff] using ho
      obtain ⟨rfl, rfl⟩ := hok
      have hops := List.mem_singleton.mp (List.mem_of_getElem? hop)
      subst hops
      exact recorded_apply_persist rfl (by simp)
    · next hne =>
      exact recorded_apply_of_ne (hother hne hr' ⟨_, if_pos rfl⟩) (h.promoted hr')
  · intro caller' batch now_ms outcomes e i hr' hi hown hw hok
    rw [PoolSystem.after_store, AList.lookup_insert_of] at hr'
    split at hr'
    · next hcaller =>
      obtain ⟨plan, past⟩ := r
      obtain ⟨rfl, rfl⟩ := Running.mk.inj (Option.some.inj hr')
      have hop : (batch.map (fun e => StoreOp.release e.id))[past.length]? = some op := hop
      rw [List.getElem?_map, Option.map_eq_some_iff] at hop
      obtain ⟨e', he', rfl⟩ := hop
      have hold : past[i]? ≠ some true := by
        intro hp
        apply hok
        rw [List.getElem?_append_left (List.getElem?_eq_some_iff.mp hp).1]
        exact hp
      have hrecorded := h.swept hr hi hown hw hold
      subst hown
      by_cases hid : e'.id = e.id
      · -- this round is about `e` itself, so its delete has just failed
        have hnodup : (batch.map (·.id)).Nodup := hc.distinct hr
        have hsame : past.length = i := by
          refine (List.getElem?_inj ?_ hnodup).mp ?_
          · rw [List.length_map]
            exact (List.getElem?_eq_some_iff.mp he').1
          · rw [List.getElem?_map, List.getElem?_map, he', hi, Option.map_some, Option.map_some, hid]
        subst hsame
        have hfailed : ok = false := by
          rw [List.getElem?_concat_length] at hok
          simpa using hok
        rw [hfailed]
        exact hrecorded
      · exact recorded_apply_of_ne hid hrecorded
    · next hne =>
      subst hown
      refine recorded_apply_of_ne (hother hne hr' ?_) (h.swept hr' hi rfl hw hok)
      exact ⟨_, AddressPool.parked_sweep_of_mem now_ms (hc.distinct hr') (List.mem_of_getElem? hi)⟩

/-- **Step lemma.** A step that puts the session's lease back only if it is recorded keeps
the record of its Active lease. -/
theorem StoreAgrees.step {label : PoolLabel} {events : List PoolEvent} (hc : s.Coherent)
    (h : ∀ store, s.pool.store = some store → s.StoreAgrees session_id store)
    (hkeeps : ¬ s.restores_unrecorded session_id label) (hs : s.step label = some (s', events)) :
    ∀ store, s'.pool.store = some store → s'.StoreAgrees session_id store := by
  intro store hstore
  cases PoolSystem.step_steps hs with
  | begin_ call hidle =>
    have h := h store hstore
    refine h.enter ?_ ?_
    · intro lease hl
      exact h.active (AddressPool.begin_active s.durable call hl)
    · rintro batch now_ms hplan e he rfl hw
      exact h.active (AddressPool.begin_sweeps s.durable call hplan he hw)
  | store ok hr hop =>
    obtain ⟨held, hheld, rfl⟩ := Option.map_eq_some_iff.mp hstore
    exact (h held hheld).after_store hc hr hop
  | @resume caller r hr hlen =>
    have hstore : s.pool.store = some store := hstore
    have h := h store hstore
    refine h.enter ?_ ?_
    · intro lease hl
      obtain ⟨plan, outcomes⟩ := r
      rcases AddressPool.resume_active s.durable plan outcomes hl with ⟨old, hold, ha⟩ |
        ⟨pending, mono, wall, rfl, hok, ha⟩ | ⟨now_ms, rfl, hok, hfull⟩ |
        ⟨batch, now_ms, e, rfl, he, hw, rfl, ha⟩
      · rw [← ha]
        exact h.active hold
      · obtain ⟨ok, rfl⟩ := List.length_eq_one_iff.mp hlen
        obtain rfl : ok = true := hok
        rw [← ha]
        exact h.promoted hr
      · obtain ⟨ok, rfl⟩ := List.length_eq_one_iff.mp hlen
        obtain rfl : ok = false := hok
        refine recorded_of_restores hkeeps hstore ?_
        rw [restores, hr]
        exact if_pos hfull
      · obtain ⟨i, hi⟩ := List.mem_iff_getElem?.mp he
        obtain ⟨hbatch, ho⟩ := List.getElem?_zip_eq_some.mp hi
        rw [← ha]
        exact h.swept hr hbatch rfl hw (by simp [ho])
    · intro batch now_ms hplan
      exact absurd hplan (AddressPool.resume_plan_not_sweep s.durable r.plan r.outcomes)
  | release_deferred subject =>
    have hstore : s.pool.store = some store := hstore
    have h := h store hstore
    refine ⟨?_, h.promoted, h.swept⟩
    intro lease hl
    rcases AddressPool.release_deferred_active hl with hold | ⟨hidle, hfull, htake, rfl⟩
    · exact h.active hold
    · refine recorded_of_restores hkeeps hstore ?_
      obtain ⟨taken, ht, rfl⟩ := Option.map_eq_some_iff.mp htake
      rw [restores, if_pos ⟨hidle, hfull⟩, ht]
      rfl

/-! ## Startup -/

theorem commits_quarantined_iff {label : PoolLabel} : s.commits_quarantined label ↔
    ∃ id caller now, label = .begin_ caller (.commit id now) ∧ id ∉ s.pool.inner.inflight ∧
      id ∉ s.pool.inner.active ∧ id ∈ s.pool.inner.release_pending := by
  constructor
  · intro h
    unfold commits_quarantined at h
    split at h
    · next caller id now => exact ⟨id, caller, now, rfl, h⟩
    · contradiction
  · rintro ⟨id, caller, now, rfl, h⟩
    exact h

/-- The ways a pool starts: ephemeral, or recovered from the records its store
holds, one for each session. -/
inductive Started (c : AddressPoolConfig) : AddressPool → Prop where
  | ephemeral : Started c (AddressPool.new c)
  | recovered {records : List PersistedLease} {store : LeaseStore} {now : PoolTime}
      {outcomes : List Bool} {pool : AddressPool}
      (hnodup : (records.map (·.session_id)).Nodup)
      (hheld : ∀ r ∈ records, store.lookup r.session_id = some r)
      (h : AddressPool.with_store_at_time c (some records) store now outcomes = .ok pool) :
      Started c pool

theorem Started.at_rest {c : AddressPoolConfig} {pool : AddressPool} (h : Started c pool) :
    pool.inner.AtRest := by
  cases h with
  | ephemeral => exact fun _ => ⟨.free, rfl, rfl⟩
  | recovered hnodup hheld h => exact AddressPool.with_store_at_rest h hnodup

/-- What is restored as Active the store still records as Active. -/
theorem Started.agrees {c : AddressPoolConfig} {pool : AddressPool} (h : Started c pool)
    (id : SessionId) :
    ∀ store, pool.store = some store → (start pool).StoreAgrees id store := by
  intro store hstore
  refine ⟨?_, fun hr => by contradiction, fun hr => by contradiction⟩
  intro lease hl
  cases h with
  | ephemeral => contradiction
  | @recovered records held now _ _ hnodup hheld h =>
    have hl : (pool.inner.slot id).active = some lease := hl
    rcases AddressPool.with_store_places h hnodup id with
      hfree | ⟨r, hr, rfl, ⟨hrestored, store', hstore', hlookup⟩ | ⟨quarantined, _, hquarantined⟩⟩
    · rw [hfree] at hl
      contradiction
    · rw [hrestored] at hl
      rw [hstore] at hstore'
      obtain rfl := Option.some.inj hstore'
      refine ⟨r, hlookup.trans (hheld r hr), ?_⟩
      rw [AddressPool.restored_place] at hl
      cases hstate : r.state with
      | Active =>
        rw [hstate] at hl
        refine ⟨rfl, ?_⟩
        rw [← Option.some.inj hl]
      | Reserved =>
        rw [hstate] at hl
        contradiction
      | ReleasePending =>
        rw [hstate] at hl
        contradiction
    · rw [hquarantined] at hl
      contradiction

/-! ## What a commit yields -/

/-- A commit answered from the quarantine leaves no Active lease. -/
theorem lookup_active_of_quarantined {label : PoolLabel} {events : List PoolEvent}
    {a : AssignedAddresses} (hs : s.step label = some (s', events))
    (he : .committed session_id (.ok a) ∈ events) (hq : s.commits_quarantined label) :
    AddressPool.lookup_active s'.pool.inner session_id = none := by
  obtain ⟨subject, caller, now, rfl, hidle, hnone, hmem⟩ := commits_quarantined_iff.mp hq
  rw [PoolSystem.step] at hs
  split at hs
  · contradiction
  obtain ⟨rfl, rfl⟩ := step_inj hs
  -- the reply is about the session of the call, which is in no active entry
  obtain ⟨quarantined, hl⟩ := AList.mem_iff_lookup.mp hmem
  rw [AddressPool.begin_, AddressPool.commit_begin, if_neg hidle,
    AList.lookup_eq_none.mpr hnone, hl] at he ⊢
  obtain ⟨rfl, -⟩ := PoolEvent.committed.inj (List.mem_singleton.mp he)
  have hlookup : (s.pool.inner.active.lookup session_id).map (·.addresses) = none := by
    rw [AList.lookup_eq_none.mpr hnone]
    rfl
  exact hlookup

/-- **A successful commit yields a usable Active lease, unless it is answered from
the quarantine.** In every run of a started pool a commit that returns addresses leaves
the lease Active with them in memory exactly when the session was not found in the
quarantine; and in the store as well, if no release has put an unrecorded lease of the
session back as Active. -/
theorem commit_yields_active_iff {c : AddressPoolConfig} {pool : AddressPool}
    {labels : List PoolLabel} {label : PoolLabel} {past events : List PoolEvent}
    {a : AssignedAddresses} (hstart : Started c pool)
    (hrun : exec PoolSystem.step (start pool) labels = some (s, past))
    (hs : s.step label = some (s', events)) (he : .committed session_id (.ok a) ∈ events) :
    (AddressPool.lookup_active s'.pool.inner session_id = some a ↔
        ¬ s.commits_quarantined label) ∧
      (Along PoolSystem.step (fun s label => ¬ s.restores_unrecorded session_id label)
          (start pool) (labels ++ [label]) →
        ((AddressPool.lookup_active s'.pool.inner session_id = some a ∧
          ∀ store, s'.pool.store = some store → store.Recorded session_id a) ↔
            ¬ s.commits_quarantined label)) := by
  have hcoherent : s.Coherent := exec_invariant (I := Coherent)
    (fun _ _ _ _ hc hs => (step_refines hc hs).1) (start_coherent hstart.at_rest) hrun
  have hanswered : AddressPool.lookup_active s'.pool.inner session_id = some a →
      ¬ s.commits_quarantined label := by
    intro hactive hq
    rw [lookup_active_of_quarantined hs he hq] at hactive
    contradiction
  have hcommits : ¬ s.commits_quarantined label →
      AddressPool.lookup_active s'.pool.inner session_id = some a := by
    intro hfast
    obtain ⟨lease, hp, rfl⟩ := committed_active hcoherent hs hfast he
    rw [AddressPool.lookup_active, show s'.pool.inner.active.lookup session_id = some lease from
      congrArg Slot.active hp.slot]
    rfl
  refine ⟨⟨hanswered, hcommits⟩, fun hkeeps => ⟨fun h => hanswered h.1, fun hfast => ?_⟩⟩
  obtain ⟨hbefore, hlast⟩ := (along_append hrun).mp hkeeps
  obtain ⟨-, hagrees⟩ := exec_along_invariant
    (I := fun s => s.Coherent ∧ ∀ store, s.pool.store = some store →
      s.StoreAgrees session_id store)
    (fun _ _ _ _ ⟨hc, hagrees⟩ hkeep hs =>
      ⟨(step_refines hc hs).1, StoreAgrees.step hc hagrees hkeep hs⟩)
    ⟨start_coherent hstart.at_rest, hstart.agrees session_id⟩ hbefore hrun
  refine ⟨hcommits hfast, fun store hstore => ?_⟩
  obtain ⟨lease, hp, rfl⟩ := committed_active hcoherent hs hfast he
  exact (StoreAgrees.step hcoherent hagrees hlast.1 hs store hstore).active
    (congrArg Slot.active hp.slot)

open Sample in
/-- A reconnect is answered from the quarantine: the commit returns the addresses
and no lease is Active. -/
theorem commit_without_active_lease :
    AddressPoolConfig.new config = .ok config ∧ Started config recovered ∧
    ∃ s past s' events,
      exec PoolSystem.step (start recovered) (whole (reserve ⟨1⟩) ++ whole (commit ⟨1⟩) ++
        [.release_deferred ⟨1⟩, .begin_ 0 (reserve ⟨1⟩)]) = some (s, past) ∧
      s.step (.begin_ 0 (commit ⟨1⟩)) = some (s', events) ∧
      .committed ⟨1⟩ (.ok first) ∈ events ∧
      AddressPool.lookup_active s'.pool.inner ⟨1⟩ = none := by
  have hrun : ((exec PoolSystem.step (start recovered) (whole (reserve ⟨1⟩) ++ whole (commit ⟨1⟩) ++
      [.release_deferred ⟨1⟩, .begin_ 0 (reserve ⟨1⟩)])).bind
        (fun r => r.1.step (.begin_ 0 (commit ⟨1⟩)))).map
          (fun r => (r.2, AddressPool.lookup_active r.1.pool.inner ⟨1⟩)) =
            some ([.committed ⟨1⟩ (.ok first)], none) := by
    decide
  obtain ⟨⟨s', events⟩, hstep, hlast⟩ := Option.map_eq_some_iff.mp hrun
  obtain ⟨⟨s, past⟩, hexec, hstep⟩ := Option.bind_eq_some_iff.mp hstep
  obtain ⟨rfl, hnone⟩ := Prod.mk.inj hlast
  exact ⟨by decide, .recovered (by simp) (by simp) recovered_eq, s, past, s', _, hexec, hstep,
    List.mem_singleton_self _, hnone⟩

open Sample in
/-- The commit of a first admission. -/
theorem commit_yields_active_sample :
    ∃ s past s' events,
      exec PoolSystem.step (start recovered)
        (whole (reserve ⟨1⟩) ++ [.begin_ 0 (commit ⟨1⟩), .store 0 true]) = some (s, past) ∧
      s.step (.resume 0) = some (s', events) ∧
      AddressPool.lookup_active s'.pool.inner ⟨1⟩ = some first ∧
      ∀ store, s'.pool.store = some store → store.Recorded ⟨1⟩ first := by
  have hkeeps : Along PoolSystem.step (fun s label => ¬ s.restores_unrecorded ⟨1⟩ label)
      (start recovered) (whole (reserve ⟨1⟩) ++ [.begin_ 0 (commit ⟨1⟩), .store 0 true] ++
        [.resume 0]) := by
    decide
  have hrun : ((exec PoolSystem.step (start recovered)
      (whole (reserve ⟨1⟩) ++ [.begin_ 0 (commit ⟨1⟩), .store 0 true])).bind
        (fun r => r.1.step (.resume 0))).map (·.2) = some [.committed ⟨1⟩ (.ok first)] := by
    decide
  obtain ⟨⟨s', events⟩, hstep, hlast⟩ := Option.map_eq_some_iff.mp hrun
  obtain ⟨⟨s, past⟩, hexec, hstep⟩ := Option.bind_eq_some_iff.mp hstep
  have hstart : Started config recovered := .recovered (by simp) (by simp) recovered_eq
  have hmem : .committed ⟨1⟩ (.ok first) ∈ events := by
    obtain rfl : events = [.committed ⟨1⟩ (.ok first)] := hlast
    exact List.mem_singleton_self _
  exact ⟨s, past, s', events, hexec, hstep,
    ((commit_yields_active_iff hstart hexec hstep hmem).2 hkeeps).mpr (fun h => h)⟩

end PoolSystem

end StreamGuard.Gateway
