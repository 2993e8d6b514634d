/-
Pool calls through the persistence owner, one whole call at a time.

`PersistenceOwner::execute` queues a call for the worker thread and waits for its
result. The caller may be refused, may give up waiting, or may be dropped while it
waits; a call that is queued runs all the same. `serve` is one call that the worker
runs with nothing in between, and `serve_run` shows it is a run of the pool system.
-/
import StreamGuard.Gateway.PoolRecords

set_option autoImplicit false

namespace StreamGuard.Gateway

open StreamGuard StreamGuard.Lib

inductive PersistenceError where
  | Full
  | Timeout
  | Closed
  | Unavailable
  deriving DecidableEq

/-- How `reserve_at_time_async`, `commit_at_time_async` and `renew_at_time_async`
report an owner error. -/
def PersistenceError.to_pool : PersistenceError → AddressPoolError
  | .Full | .Timeout => .Store
  | .Closed | .Unavailable => .Unavailable

/-! ## Calls with one store operation -/

/-- A call that parks at most once, for one store operation. -/
def PoolCall.Single : PoolCall → Prop
  | .reserve _ _ _ | .commit _ _ | .release_at _ _ | .renew _ _ => True
  | _ => False

def Plan.Single : Plan → Prop
  | .reserve _ _ _ | .promote _ _ _ _ | .expire _ _ _ | .release _ _ _ | .renew _ _ _ _ => True
  | _ => False

theorem Plan.Single.store_ops {plan : Plan} (h : plan.Single) : ∃ op, plan.store_ops = [op] := by
  cases plan with
  | sweep | swept | retry => exact h.elim
  | _ => exact ⟨_, rfl⟩

namespace AddressPool

variable {c : AddressPoolConfig} {inner : Inner} {plan : Plan}

theorem reserve_new_single {session_id : SessionId} {device_id : DeviceId} {now : PoolTime}
    (h : (reserve_new c inner session_id device_id now).plan = some plan) : plan.Single := by
  rw [reserve_new] at h
  split at h
  · contradiction
  split at h
  · contradiction
  · obtain rfl := Option.some.inj h
    trivial

theorem begin_single (durable : Bool) {call : PoolCall} (hcall : call.Single)
    (h : (begin_ c durable inner call).plan = some plan) : plan.Single := by
  cases call with
  | reserve session_id device_id now =>
    rw [begin_, reserve_begin] at h
    dsimp only at h
    split at h
    · contradiction
    split at h
    · contradiction
    split at h
    · split at h
      · contradiction
      · contradiction
    split at h
    · split at h
      · contradiction
      · contradiction
    split at h
    · exact reserve_new_single h
    split at h
    · contradiction
    split at h
    · contradiction
    · exact reserve_new_single h
  | commit session_id now =>
    rw [begin_, commit_begin] at h
    split at h
    · contradiction
    split at h
    · contradiction
    split at h
    · contradiction
    split at h
    · contradiction
    dsimp only at h
    split at h
    · obtain rfl := Option.some.inj h
      trivial
    · obtain rfl := Option.some.inj h
      trivial
  | release_at session_id now_ms =>
    rw [begin_, release_begin] at h
    split at h
    · contradiction
    split at h
    · contradiction
    split at h
    · contradiction
    · obtain rfl := Option.some.inj h
      trivial
  | renew session_id now =>
    rw [begin_, renew_begin] at h
    split at h
    · contradiction
    split at h
    · contradiction
    split at h
    · contradiction
    · obtain rfl := Option.some.inj h
      trivial
  | sweep now_ms => exact hcall.elim
  | retry_pending_releases_bounded now_ms max_batch => exact hcall.elim

theorem resume_single (c : AddressPoolConfig) (inner : Inner) (durable : Bool)
    (outcomes : List Bool) (hplan : plan.Single) :
    (resume c durable inner outcomes plan).plan = none := by
  cases plan with
  | reserve session_id lease wall =>
    rw [resume, reserve_finish]
    split
    · rfl
    split
    · rfl
    · rfl
  | promote session_id pending mono wall =>
    rw [resume, promote_finish]
    split
    · rfl
    split
    · rfl
    · rfl
  | expire session_id pending now_ms =>
    rw [resume, expire_finish]
    split
    · rfl
    split
    · rfl
    · rfl
  | release session_id taken now_ms =>
    rw [resume, release_finish]
    split
    · rfl
    split
    · rfl
    · rfl
  | renew session_id active mono wall =>
    rw [resume, renew_finish]
    split
    · rfl
    split
    · split
      · rfl
      · rfl
    · rfl
  | sweep | swept | retry => exact hplan.elim

end AddressPool

/-! ## Whole calls -/

namespace PoolSystem

/-- A whole call with one store operation at most, whose outcome is `ok`; without a
store nothing fails. -/
def serve (s : PoolSystem) (call : PoolCall) (ok : Bool) : PoolSystem × List PoolEvent :=
  let sec := AddressPool.begin_ s.pool.config s.durable s.pool.inner call
  match sec.plan with
  | none => ({ s with pool := { s.pool with inner := sec.inner } }, sec.events)
  | some plan =>
    let ok := ok || !s.durable
    let done := AddressPool.resume s.pool.config s.durable sec.inner [ok] plan
    let store := s.pool.store.map (fun store =>
      plan.store_ops.foldl (fun store op => op.apply ok store) store)
    ({ s with pool := { s.pool with inner := done.inner, store := store } },
      sec.events ++ done.events)

variable {s : PoolSystem} {call : PoolCall}

/-- **Serving a call is a run of the pool** by any caller that is not in a call. -/
theorem serve_run (hcall : call.Single) (ok : Bool) {caller : ℕ} (hidle : caller ∉ s.running) :
    ∃ labels, exec step s labels = some (s.serve call ok) := by
  obtain ⟨⟨config, inner, store⟩, running⟩ := s
  rw [serve]
  dsimp only at hidle ⊢
  have hbegin : step ⟨⟨config, inner, store⟩, running⟩ (.begin_ caller call) =
      some (enter ⟨⟨config, inner, store⟩, running⟩ caller
        (AddressPool.begin_ config store.isSome inner call),
        (AddressPool.begin_ config store.isSome inner call).events) := by
    rw [step, if_neg hidle]
    rfl
  split
  · next hnone =>
    refine ⟨[.begin_ caller call], exec_singleton (hbegin.trans ?_)⟩
    have hnone : (AddressPool.begin_ config store.isSome inner call).plan = none := hnone
    rw [enter, hnone]
    dsimp only
    rw [AList.erase_of_notMem hidle]
    rfl
  next plan hplan =>
  have hplan : (AddressPool.begin_ config store.isSome inner call).plan = some plan := hplan
  have hsingle := AddressPool.begin_single store.isSome hcall hplan
  obtain ⟨op, hop⟩ := hsingle.store_ops
  have hdone := AddressPool.resume_single config
    (AddressPool.begin_ config store.isSome inner call).inner store.isSome
    [ok || !store.isSome] hsingle
  refine ⟨[.begin_ caller call, .store caller (ok || !store.isSome), .resume caller], ?_⟩
  rw [enter, hplan] at hbegin
  -- the store operation, with or without a store
  have hstore : step ⟨⟨config, (AddressPool.begin_ config store.isSome inner call).inner, store⟩,
        running.insert caller ⟨plan, []⟩⟩ (.store caller (ok || !store.isSome)) =
      some (⟨⟨config, (AddressPool.begin_ config store.isSome inner call).inner,
        store.map (fun held => op.apply (ok || !store.isSome) held)⟩,
        running.insert caller ⟨plan, [ok || !store.isSome]⟩⟩, []) := by
    rw [step, AList.lookup_insert]
    dsimp only
    rw [hop, List.length_nil, List.getElem?_cons_zero]
    dsimp only
    rw [run_store, AList.insert_insert]
    cases store with
    | none =>
      have hok : (ok || !(none : Option LeaseStore).isSome) = true := by simp
      rw [hok]
      rfl
    | some held => rfl
  have hresume : step ⟨⟨config, (AddressPool.begin_ config store.isSome inner call).inner,
        store.map (fun held => op.apply (ok || !store.isSome) held)⟩,
        running.insert caller ⟨plan, [ok || !store.isSome]⟩⟩ (.resume caller) =
      some (⟨⟨config, (AddressPool.resume config store.isSome
        (AddressPool.begin_ config store.isSome inner call).inner [ok || !store.isSome] plan).inner,
        store.map (fun held => op.apply (ok || !store.isSome) held)⟩, running⟩,
        (AddressPool.resume config store.isSome
          (AddressPool.begin_ config store.isSome inner call).inner [ok || !store.isSome]
          plan).events) := by
    rw [step, AList.lookup_insert]
    dsimp only
    rw [if_pos (by rw [hop]; rfl), enter, durable]
    dsimp only
    rw [Option.isSome_map, hdone]
    dsimp only
    rw [AList.erase_insert_of_notMem hidle]
  simp only [hop, List.foldl_cons, List.foldl_nil]
  exact exec_cons_eq_some.mpr ⟨_, _, _, hbegin, exec_cons_eq_some.mpr ⟨_, _, _, hstore,
    exec_singleton hresume, rfl⟩, rfl⟩

/-- A whole call keeps every session in one place. -/
theorem Coherent.serve (h : s.Coherent) (hcall : call.Single) (ok : Bool) :
    (s.serve call ok).1.Coherent := by
  obtain ⟨caller, hidle⟩ := Infinite.exists_notMem_finset s.running.keys.toFinset
  have hidle : caller ∉ s.running := fun hmem => hidle (List.mem_toFinset.mpr hmem)
  obtain ⟨labels, hrun⟩ := serve_run hcall ok hidle
  exact exec_invariant (fun s label s' events h hs => (step_refines h hs).1) h hrun

/-! ## What a whole call reports -/

theorem reserve_new_reports (c : AddressPoolConfig) (inner : Inner) (session_id : SessionId)
    (device_id : DeviceId) (now : PoolTime) :
    (∃ e, AddressPool.reserve_new c inner session_id device_id now =
        .returns inner (.reserved session_id (.error e))) ∨
      ∃ parked lease wall, AddressPool.reserve_new c inner session_id device_id now =
        .parks parked (.reserve session_id lease wall) := by
  rw [AddressPool.reserve_new]
  split
  · exact .inl ⟨_, rfl⟩
  split
  · exact .inl ⟨_, rfl⟩
  · exact .inr ⟨_, _, _, rfl⟩

/-- A reserve call answers at once, or parks its candidate. -/
theorem reserve_begin_reports (c : AddressPoolConfig) (inner : Inner) (session_id : SessionId)
    (device_id : DeviceId) (now : PoolTime) :
    (∃ left result, AddressPool.reserve_begin c inner session_id device_id now =
        .returns left (.reserved session_id result)) ∨
      ∃ parked lease wall, AddressPool.reserve_begin c inner session_id device_id now =
        .parks parked (.reserve session_id lease wall) := by
  have hnew : ∀ inner', (∃ left result, AddressPool.reserve_new c inner' session_id device_id now =
        .returns left (.reserved session_id result)) ∨
      ∃ parked lease wall, AddressPool.reserve_new c inner' session_id device_id now =
        .parks parked (.reserve session_id lease wall) := by
    intro inner'
    rcases reserve_new_reports c inner' session_id device_id now with ⟨e, he⟩ | hparks
    · exact .inl ⟨_, _, he⟩
    · exact .inr hparks
  rw [AddressPool.reserve_begin]
  dsimp only
  split
  · exact .inl ⟨_, _, rfl⟩
  split
  · exact .inl ⟨_, _, rfl⟩
  split
  · split
    · exact .inl ⟨_, _, rfl⟩
    · exact .inl ⟨_, _, rfl⟩
  split
  · split
    · exact .inl ⟨_, _, rfl⟩
    · exact .inl ⟨_, _, rfl⟩
  split
  · exact hnew _
  split
  · exact .inl ⟨_, _, rfl⟩
  split
  · exact .inl ⟨_, _, rfl⟩
  · exact hnew _

theorem reserve_finish_reports (inner : Inner) (session_id : SessionId) (lease : ReservedLease)
    (ok : Bool) : ∃ result,
      (AddressPool.reserve_finish inner session_id lease ok).events =
        [.reserved session_id result] := by
  rw [AddressPool.reserve_finish]
  split
  · exact ⟨_, rfl⟩
  split
  · exact ⟨_, rfl⟩
  · exact ⟨_, rfl⟩

/-- A whole reserve call reports its result. -/
theorem serve_reserve_reports (session_id : SessionId) (device_id : DeviceId) (now : PoolTime)
    (ok : Bool) : ∃ result,
      (s.serve (.reserve session_id device_id now) ok).2 = [.reserved session_id result] := by
  rw [serve, AddressPool.begin_]
  rcases reserve_begin_reports s.pool.config s.pool.inner session_id device_id now with
    ⟨left, result, h⟩ | ⟨parked, lease, wall, h⟩
  · rw [h]
    exact ⟨result, rfl⟩
  · rw [h]
    exact reserve_finish_reports _ _ _ _

/-- A lease that is newly quarantined found room. -/
theorem enqueue_room {c : AddressPoolConfig} {inner inner' : Inner} {id : SessionId} {lease : Lease}
    {now_ms : ℕ} (hid : id ∉ inner.release_pending)
    (h : inner.enqueue_release_locked c id lease now_ms = .ok inner') :
    ¬ inner.quarantine_full c := by
  rw [Inner.enqueue_release_locked, if_neg hid] at h
  split at h
  · contradiction
  · next hroom => exact hroom

/-! ## Calls on an Active lease -/

section Active

variable {session_id : SessionId} {lease : ActiveLease}

/-- Nothing but the Active entry. -/
theorem active_entries (h : s.pool.inner.slot session_id = (Place.active lease).slot) :
    session_id ∉ s.pool.inner.inflight ∧ s.pool.inner.active.lookup session_id = some lease ∧
      s.pool.inner.pending.lookup session_id = none ∧
      s.pool.inner.release_pending.lookup session_id = none :=
  ⟨of_decide_eq_false (congrArg Slot.inflight h), congrArg Slot.active h, congrArg Slot.pending h,
    congrArg Slot.quarantined h⟩

/-- A reserve call for a session that is in flight fails. -/
theorem serve_reserve_inflight (device_id : DeviceId) (now : PoolTime) (ok : Bool)
    (h : session_id ∈ s.pool.inner.inflight) :
    ∃ e, s.serve (.reserve session_id device_id now) ok = (s, [.reserved session_id (.error e)]) := by
  rw [serve, AddressPool.begin_, AddressPool.reserve_begin]
  dsimp only
  by_cases hzero : is_zero_id session_id.bytes = true ∨ is_zero_id device_id.bytes = true
  · rw [if_pos hzero]
    exact ⟨_, rfl⟩
  · rw [if_neg hzero, if_pos h]
    exact ⟨_, rfl⟩

/-- A reserve call for a session with an Active lease hands that lease to its device. -/
theorem serve_reserve_active {device_id : DeviceId} (now : PoolTime) (ok : Bool)
    (hids : ¬ (is_zero_id session_id.bytes = true ∨ is_zero_id device_id.bytes = true))
    (h : s.pool.inner.slot session_id = (Place.active lease).slot) :
    s.serve (.reserve session_id device_id now) ok = (s, [.reserved session_id
      (if lease.device_id ≠ device_id then .error .OwnerMismatch else .ok lease.addresses)]) := by
  obtain ⟨hflight, hactive, -, hquarantined⟩ := active_entries h
  rw [serve, AddressPool.begin_, AddressPool.reserve_begin]
  dsimp only
  rw [if_neg hids, if_neg hflight, hquarantined, hactive]
  dsimp only
  by_cases hdevice : lease.device_id ≠ device_id
  · rw [if_pos hdevice, if_pos hdevice]
    rfl
  · rw [if_neg hdevice, if_neg hdevice]
    rfl

end Active

/-! ## Giving a lease back -/

section Giving

variable {session_id : SessionId} {lease : Lease} {p : Place}

@[simp] theorem serve_config (ok : Bool) : (s.serve call ok).1.pool.config = s.pool.config := by
  rw [serve]
  dsimp only
  split
  · rfl
  · rfl

@[simp] theorem serve_durable (ok : Bool) : (s.serve call ok).1.durable = s.durable := by
  rw [serve]
  dsimp only
  split
  · rfl
  · exact Option.isSome_map

/-- A lease at rest that is not quarantined is what `take` takes. -/
theorem take_held (h : s.pool.inner.slot session_id = p.slot)
    (hp : p = .reserved lease ∨ p = .active lease) :
    ∃ inner, AddressPool.take s.pool.inner session_id = some (inner, lease) ∧
      inner.slot session_id = Place.free.slot ∧
      inner.release_pending = s.pool.inner.release_pending := by
  rw [AddressPool.take]
  rcases hp with rfl | rfl
  · have hpending : s.pool.inner.pending.lookup session_id = some lease := congrArg Slot.pending h
    rw [hpending]
    exact ⟨_, rfl, slot_erase_pending h, rfl⟩
  · have hpending : s.pool.inner.pending.lookup session_id = none := congrArg Slot.pending h
    have hactive : s.pool.inner.active.lookup session_id = some lease := congrArg Slot.active h
    rw [hpending, hactive]
    exact ⟨_, rfl, slot_erase_active h, rfl⟩

theorem held_idle (h : s.pool.inner.slot session_id = p.slot)
    (hp : p = .reserved lease ∨ p = .active lease) :
    session_id ∉ s.pool.inner.inflight ∧ session_id ∉ s.pool.inner.release_pending := by
  rcases hp with rfl | rfl
  · exact ⟨of_decide_eq_false (congrArg Slot.inflight h),
      AList.lookup_eq_none.mp (congrArg Slot.quarantined h)⟩
  · exact ⟨of_decide_eq_false (congrArg Slot.inflight h),
      AList.lookup_eq_none.mp (congrArg Slot.quarantined h)⟩

/-- **What a release call makes of a lease**: gone or quarantined, unless the delete
fails and the quarantine has no room; then it is Active. -/
theorem serve_release_held (ok : Bool) (h : s.pool.inner.slot session_id = p.slot)
    (hp : p = .reserved lease ∨ p = .active lease) :
    ∃ p', (s.serve (.release session_id) ok).1.pool.inner.slot session_id = Place.slot p' ∧
      ((s.durable = true ∧ ok = false ∧ s.pool.inner.quarantine_full s.pool.config ∧
          p' = .active lease) ∨
        (¬ (s.durable = true ∧ ok = false ∧ s.pool.inner.quarantine_full s.pool.config) ∧
          (p' = .free ∨ ∃ quarantined, p' = .quarantined quarantined))) := by
  obtain ⟨hflight, hnot⟩ := held_idle h hp
  obtain ⟨inner, htake, hfree, hquarantine⟩ := take_held h hp
  have hparked : (inner.park session_id lease.addresses).slot session_id =
      (Place.out .releasing lease).slot := slot_park_self hfree
  have hfree : ((inner.park session_id lease.addresses).unpark session_id lease.addresses).slot
      session_id = Place.free.slot := slot_unpark_self hparked
  rw [serve, PoolCall.release, AddressPool.begin_, AddressPool.release_begin, if_neg hflight,
    if_neg hnot, htake]
  dsimp only [Section.parks]
  rw [AddressPool.resume, AddressPool.release_finish, List.headD_cons]
  by_cases hok : (ok || !s.durable) = true
  · rw [if_pos hok]
    refine ⟨.free, hfree, .inr ⟨?_, .inl rfl⟩⟩
    rintro ⟨hdurable, hfalse, -⟩
    rw [hdurable, hfalse] at hok
    contradiction
  · have hfail : s.durable = true ∧ ok = false := by
      cases ok with
      | true => simp at hok
      | false => simpa using hok
    rw [if_neg hok]
    split
    · next e henqueue =>
      have hfull := (enqueue_full henqueue).2
      have hfull : inner.quarantine_full s.pool.config := hfull
      rw [Inner.quarantine_full, hquarantine] at hfull
      exact ⟨.active lease, slot_insert_active hfree, .inl ⟨hfail.1, hfail.2, hfull, rfl⟩⟩
    · next quarantined henqueue =>
      have hroom : ¬ inner.quarantine_full s.pool.config := by
        rw [← hquarantine] at hnot
        have hparked := enqueue_room (by exact hnot) henqueue
        exact hparked
      rw [Inner.quarantine_full, hquarantine] at hroom
      refine ⟨.quarantined _, slot_enqueue hfree henqueue, .inr ⟨fun hcond => ?_, .inr ⟨_, rfl⟩⟩⟩
      exact hroom hcond.2.2

/-- **A release call for a session with an Active lease ends it**, unless the delete
fails and the quarantine has no room for it. -/
theorem serve_release_active {lease : ActiveLease} (ok : Bool)
    (h : s.pool.inner.slot session_id = (Place.active lease).slot) :
    AddressPool.lookup_active (s.serve (.release session_id) ok).1.pool.inner session_id =
      if s.durable = true ∧ ok = false ∧ s.pool.inner.quarantine_full s.pool.config then
        some lease.addresses
      else none := by
  obtain ⟨p', hslot, hcases⟩ := serve_release_held ok h (.inr rfl)
  have hactive : (s.serve (.release session_id) ok).1.pool.inner.active.lookup session_id =
      p'.slot.active := congrArg Slot.active hslot
  rw [AddressPool.lookup_active, hactive]
  rcases hcases with ⟨hdurable, hfalse, hfull, rfl⟩ | ⟨hcond, rfl | ⟨quarantined, rfl⟩⟩
  · rw [if_pos ⟨hdurable, hfalse, hfull⟩]
    rfl
  · rw [if_neg hcond]
    rfl
  · rw [if_neg hcond]
    rfl

/-- A release call leaves a quarantined lease to its retry. -/
theorem serve_release_quarantined {lease : ReleasePendingLease} (ok : Bool)
    (h : s.pool.inner.slot session_id = (Place.quarantined lease).slot) :
    (s.serve (.release session_id) ok).1 = s := by
  have hflight : session_id ∉ s.pool.inner.inflight := of_decide_eq_false (congrArg Slot.inflight h)
  have hlookup : s.pool.inner.release_pending.lookup session_id = some lease :=
    congrArg Slot.quarantined h
  rw [serve, PoolCall.release, AddressPool.begin_, AddressPool.release_begin, if_neg hflight,
    if_pos (AList.mem_of_lookup hlookup)]
  rfl

end Giving

end PoolSystem

end StreamGuard.Gateway
