/-
What authenticated activity does to the deadlines of a session.

A session is idle from its last activity on and its lease runs from its last renewal;
both writes replace what was there. The time comes from the caller, which may have
read the clock long before: a control task reads it before it waits for a frame. A
sample that is older than the activity or the renewal it replaces brings the deadline
forward (`Fresh` is the condition that it is not). The two halves are a run of the
session map and a run of the pool, interleaved under one monotonic clock.
-/
import StreamGuard.Gateway.SessionCapabilities
import StreamGuard.Gateway.PoolInflight
import StreamGuard.Gateway.OwnerCalls

set_option autoImplicit false

namespace StreamGuard.Gateway

open StreamGuard StreamGuard.Lib StreamGuard.Session

/-! ## The system -/

structure RenewalSystem where
  /-- The monotonic clock. -/
  clock : ℕ
  manager : V2SessionManager
  pool : PoolSystem

inductive RenewalLabel where
  | tick (now_ms : ℕ)
  | manager (call : ManagerCall)
  | pool (label : PoolLabel)

/-- The clock sample that a step is given. -/
def RenewalLabel.sample : RenewalLabel → Option ℕ
  | .tick _ => none
  | .manager call => call.now_ms
  | .pool (.begin_ _ (.renew _ now)) => some now.monotonic_ms
  | .pool _ => none

/-- The session whose activity a call records. -/
def ManagerCall.touched (m : V2SessionManager) : ManagerCall → Option SessionId
  | .validate_ingress connection envelope now_ms =>
    (m.validate_ingress connection envelope now_ms).result.toOption.map (·.session_id)
  | .validate_attached_path connection path_id path_epoch key_epoch now_ms =>
    (m.validate_attached_path connection path_id path_epoch key_epoch now_ms).result.toOption.map
      (fun _ => connection.session_id)
  | .record_authenticated_activity connection now_ms =>
    (m.record_authenticated_activity connection now_ms).result.toOption.map
      (fun _ => connection.session_id)
  | _ => none

namespace RenewalSystem

/-- Time goes forward, and a sample is taken at or before the call. -/
def step (s : RenewalSystem) (label : RenewalLabel) :
    Option (RenewalSystem × List (SessionEvent ⊕ PoolEvent)) :=
  if ∀ now ∈ label.sample, now ≤ s.clock then
    match label with
    | .tick now_ms => if s.clock ≤ now_ms then some ({ s with clock := now_ms }, []) else none
    | .manager call =>
      some ({ s with manager := (call.apply s.manager).1 }, (call.events s.manager).map .inl)
    | .pool label =>
      (s.pool.step label).map (fun r => ({ s with pool := r.1 }, r.2.map .inr))
  else none

/-! ## Deadlines -/

/-- The activity of a session is not set back, and it is idle no earlier. -/
def KeepsActivity (m m' : V2SessionManager) (session_id : SessionId) : Prop :=
  ∀ managed managed', m.sessions.lookup session_id = some managed →
    m'.sessions.lookup session_id = some managed' →
      managed.last_activity_ms ≤ managed'.last_activity_ms ∧
        ∀ at_ms, m'.config.idle_ttl_ms ≤ at_ms - managed'.last_activity_ms →
          m.config.idle_ttl_ms ≤ at_ms - managed.last_activity_ms

/-- The lease of a session expires no earlier, in memory and in the store. -/
structure KeepsLease (pool pool' : AddressPool) (session_id : SessionId) : Prop where
  memory : ∀ lease lease', pool.inner.active.lookup session_id = some lease →
    pool'.inner.active.lookup session_id = some lease' →
      lease.expires_at_ms ≤ lease'.expires_at_ms
  store : ∀ store store' record record', pool.store = some store → pool'.store = some store' →
    store.lookup session_id = some record → store'.lookup session_id = some record' →
      record.expires_at_ms ≤ record'.expires_at_ms

/-- A step of the renewal of a session's lease: the store operation or the last section. -/
def Renews (pool : PoolSystem) (session_id : SessionId) (label : PoolLabel) : Prop :=
  ∃ caller r active mono wall, (label = .resume caller ∨ ∃ ok, label = .store caller ok) ∧
    pool.running.lookup caller = some r ∧ r.plan = .renew session_id active mono wall

/-- A call that records activity and a step that renews a lease bring no deadline forward. -/
def Extends (s : RenewalSystem) (label : RenewalLabel) : Prop :=
  ∀ s' events, s.step label = some (s', events) →
    (∀ call, label = .manager call → ∀ session_id ∈ call.touched s.manager,
      KeepsActivity s.manager s'.manager session_id) ∧
    ∀ label', label = .pool label' → ∀ session_id, Renews s.pool session_id label' →
      KeepsLease s.pool.pool s'.pool.pool session_id

/-! ## Fresh samples -/

/-- The sample is not older than the last activity. -/
def FreshActivity (m : V2SessionManager) (session_id : SessionId) (now_ms : ℕ) : Prop :=
  ∀ managed, m.sessions.lookup session_id = some managed → managed.last_activity_ms ≤ now_ms

/-- A lifetime from the sample on is not over before the lease and its record are. -/
structure FreshRenewal (pool : AddressPool) (session_id : SessionId) (now : PoolTime) : Prop where
  memory : ∀ lease, pool.inner.active.lookup session_id = some lease →
    lease.expires_at_ms ≤ saturatingAdd now.monotonic_ms pool.config.lease_ttl_ms
  store : ∀ store record, pool.store = some store → store.lookup session_id = some record →
    record.expires_at_ms ≤ wall_expiry_from_ttl now.wall_ms pool.config.lease_ttl_ms

/-- No step is given a sample that is too old. -/
def Fresh (s : RenewalSystem) (label : RenewalLabel) : Prop :=
  (∀ call, label = .manager call → ∀ now_ms ∈ call.now_ms, ∀ session_id ∈ call.touched s.manager,
    FreshActivity s.manager session_id now_ms) ∧
  ∀ caller session_id now, label = .pool (.begin_ caller (.renew session_id now)) →
    FreshRenewal s.pool.pool session_id now

/-! ## The session map -/

variable {m m' : V2SessionManager} {session_id : SessionId} {call : ManagerCall} {now_ms : ℕ}

/-- A recorded activity is the sample. -/
theorem record_activity_state {α : Type} {usable : ManagedSession → Except V2SessionManagerError α}
    {a : α} (h : (m.record_activity session_id now_ms usable).result = .ok a) :
    ∃ managed, m.sessions.lookup session_id = some managed ∧ usable managed = .ok a ∧
      (m.record_activity session_id now_ms usable).manager =
        m.update_session session_id { managed with last_activity_ms := now_ms } := by
  obtain ⟨managed, hlookup, hlive, hidle, husable⟩ := V2SessionManager.record_activity_ok h
  refine ⟨managed, hlookup, husable, ?_⟩
  rw [V2SessionManager.record_activity, hlookup]
  dsimp only
  rw [if_neg (by simp [hlive]), if_neg (Nat.not_le.mpr hidle), husable]
  rfl

theorem validate_ingress_state {connection : AuthenticatedConnection} {envelope : V2Envelope}
    {ingress : ValidatedIngress}
    (h : (m.validate_ingress connection envelope now_ms).result = .ok ingress) :
    ∃ managed, m.sessions.lookup ingress.session_id = some managed ∧
      (m.validate_ingress connection envelope now_ms).manager =
        m.update_session ingress.session_id { managed with last_activity_ms := now_ms } := by
  obtain ⟨-, -, -, hactivity⟩ := V2SessionManager.validate_ingress_checked h
  rw [hactivity] at h ⊢
  obtain ⟨managed, hlookup, husable, hstate⟩ := record_activity_state h
  have hid : ingress.session_id = envelope.header.session_id := by
    split at husable
    · rw [← Except.ok.inj husable]
    · cases husable
  rw [hid]
  exact ⟨managed, hlookup, hstate⟩

theorem validate_attached_path_state {connection : AuthenticatedConnection} {path_id : PathId}
    {path_epoch : U64} {key_epoch : U32}
    (h : (m.validate_attached_path connection path_id path_epoch key_epoch now_ms).result = .ok ()) :
    ∃ managed, m.sessions.lookup connection.session_id = some managed ∧
      (m.validate_attached_path connection path_id path_epoch key_epoch now_ms).manager =
        m.update_session connection.session_id { managed with last_activity_ms := now_ms } := by
  rw [V2SessionManager.validate_attached_path] at h ⊢
  split at h
  · cases h
  next hauth =>
  rw [if_neg hauth]
  split at h
  · cases h
  next hbound =>
  rw [if_neg hbound]
  obtain ⟨managed, hlookup, -, hstate⟩ := record_activity_state h
  exact ⟨managed, hlookup, hstate⟩

theorem record_authenticated_activity_state {connection : AuthenticatedConnection}
    (h : (m.record_authenticated_activity connection now_ms).result = .ok ()) :
    ∃ managed, m.sessions.lookup connection.session_id = some managed ∧
      (m.record_authenticated_activity connection now_ms).manager =
        m.update_session connection.session_id { managed with last_activity_ms := now_ms } := by
  rw [V2SessionManager.record_authenticated_activity] at h ⊢
  split at h
  · cases h
  next hauth =>
  rw [if_neg hauth]
  obtain ⟨managed, hlookup, -, hstate⟩ := record_activity_state h
  exact ⟨managed, hlookup, hstate⟩

/-- A call that records activity sets it to its sample, and does nothing else. -/
theorem touched_state (h : session_id ∈ call.touched m) : ∃ now_ms managed,
    call.now_ms = some now_ms ∧ m.sessions.lookup session_id = some managed ∧
      (call.apply m).1 = m.update_session session_id { managed with last_activity_ms := now_ms } := by
  have hok : ∀ {α : Type} {result : Except V2SessionManagerError α} {a : α},
      result.toOption = some a → result = .ok a := by
    intro α result a h
    cases result with
    | error e => cases h
    | ok a' => exact congrArg Except.ok (Option.some.inj h)
  cases call with
  | validate_ingress connection envelope now_ms =>
    obtain ⟨ingress, hresult, rfl⟩ := Option.map_eq_some_iff.mp h
    obtain ⟨managed, hlookup, hstate⟩ := validate_ingress_state (hok hresult)
    exact ⟨now_ms, managed, rfl, hlookup, hstate⟩
  | validate_attached_path connection path_id path_epoch key_epoch now_ms =>
    obtain ⟨_, hresult, rfl⟩ := Option.map_eq_some_iff.mp h
    obtain ⟨managed, hlookup, hstate⟩ := validate_attached_path_state (hok hresult)
    exact ⟨now_ms, managed, rfl, hlookup, hstate⟩
  | record_authenticated_activity connection now_ms =>
    obtain ⟨_, hresult, rfl⟩ := Option.map_eq_some_iff.mp h
    obtain ⟨managed, hlookup, hstate⟩ := record_authenticated_activity_state (hok hresult)
    exact ⟨now_ms, managed, rfl, hlookup, hstate⟩
  | _ => cases h

/-- **A call sets no activity back exactly when its sample is no older.** -/
theorem keeps_activity_iff (h : session_id ∈ call.touched m) :
    KeepsActivity m (call.apply m).1 session_id ↔
      ∀ now_ms ∈ call.now_ms, FreshActivity m session_id now_ms := by
  obtain ⟨now_ms, managed, hnow, hlookup, hstate⟩ := touched_state h
  have hafter : (call.apply m).1.sessions.lookup session_id =
      some { managed with last_activity_ms := now_ms } := by
    rw [hstate, V2SessionManager.update_session_lookup, if_pos rfl]
  have hconfig : (call.apply m).1.config = m.config := by
    rw [hstate]
    rfl
  constructor
  · intro hkeeps now hmem held hheld
    obtain rfl := Option.some.inj (hnow.symm.trans hmem)
    exact (hkeeps held _ hheld hafter).1
  · intro hfresh held held' hheld hheld'
    obtain rfl := Option.some.inj (hafter.symm.trans hheld')
    have hle := hfresh now_ms hnow held hheld
    refine ⟨hle, ?_⟩
    intro at_ms hidle
    rw [hconfig] at hidle
    dsimp only at hidle
    omega

/-! ## The pool -/

variable {pool pool' : PoolSystem} {label : PoolLabel} {events : List PoolEvent}

/-- The renewals under way set nothing back: what they are about to write is no earlier
than the lease they found and the record there is. -/
def Prepared (pool : PoolSystem) : Prop :=
  ∀ caller r id active mono wall, pool.running.lookup caller = some r →
    r.plan = .renew id active mono wall → active.expires_at_ms ≤ mono ∧
      ∀ store record, pool.pool.store = some store → store.lookup id = some record →
        record.expires_at_ms ≤ wall

/-- A parked renewal has found the lease and added a lifetime to its sample. -/
theorem renew_begin_parks {c : AddressPoolConfig} {durable : Bool} {inner : Inner} {call : PoolCall}
    {id : SessionId} {active : ActiveLease} {mono wall : ℕ}
    (h : (AddressPool.begin_ c durable inner call).plan = some (.renew id active mono wall)) :
    ∃ now, call = .renew id now ∧ inner.active.lookup id = some active ∧
      mono = saturatingAdd now.monotonic_ms c.lease_ttl_ms ∧
      wall = wall_expiry_from_ttl now.wall_ms c.lease_ttl_ms := by
  obtain ⟨now, rfl⟩ := AddressPool.begin_starts durable call h
  rw [AddressPool.begin_, AddressPool.renew_begin] at h
  split at h
  · cases h
  split at h
  · cases h
  next held hlookup =>
  split at h
  · cases h
  · cases h
    exact ⟨now, rfl, hlookup, rfl, rfl⟩

/-- The session of a parked renewal is in its place in the active map. -/
theorem renewing_active (hc : pool.Coherent) {caller : ℕ} {r : Running} {id : SessionId}
    {active : ActiveLease} {mono wall : ℕ} (hr : pool.running.lookup caller = some r)
    (hplan : r.plan = .renew id active mono wall) :
    pool.pool.inner.active.lookup id = some active := by
  obtain ⟨p, hp⟩ := hc.places id
  have hparks : pool.Parks id (.renewing active mono) :=
    ⟨caller, r, hr, by rw [hplan]; exact if_pos rfl⟩
  obtain rfl := Place.eq_renewing ((hp.parks _).mp hparks)
  exact congrArg Slot.active hp.slot

/-- The one store operation about the session of a parked renewal is the renewal's own. -/
theorem renewing_op (hc : pool.Coherent) {caller caller' : ℕ} {r r' : Running} {id : SessionId}
    {active : ActiveLease} {mono wall : ℕ} {op : StoreOp}
    (hr' : pool.running.lookup caller' = some r') (hplan : r'.plan = .renew id active mono wall)
    (hr : pool.running.lookup caller = some r)
    (hop : r.plan.store_ops[r.outcomes.length]? = some op) (hid : op.session_id = id) :
    op = .persist ⟨id, active.device_id, active.addresses, .Active, wall⟩ := by
  have hmem := List.mem_of_getElem? hop
  have hcaller : caller = caller' := by
    obtain ⟨k, hk⟩ := Plan.parked_of_store_op hmem
    refine hc.single hr hr' (Option.isSome_iff_exists.mpr ⟨k, hk⟩) ?_
    rw [hplan, hid]
    simp [Plan.parked]
  subst hcaller
  obtain rfl := Option.some.inj (hr.symm.trans hr')
  rw [hplan] at hmem
  exact List.mem_singleton.mp hmem

/-- After a persist the record of its session is the one written or the one before. -/
theorem persist_expiry (record : PersistedLease) {held : PersistedLease} {ok : Bool}
    {store : LeaseStore} {id : SessionId} (hid : record.session_id = id)
    (h : AList.lookup id (StoreOp.apply (.persist record) ok store) = some held) :
    held.expires_at_ms = record.expires_at_ms ∨ store.lookup id = some held := by
  subst hid
  cases ok with
  | false => exact .inr h
  | true =>
    left
    rw [StoreOp.apply, if_pos rfl] at h
    rw [← Option.some.inj ((AList.lookup_insert _).symm.trans h)]

/-- The last section of a renewal writes its expiry if the persist went through. -/
theorem renew_finish_active {inner : Inner} {id : SessionId} {active : ActiveLease} {mono : ℕ}
    (ok : Bool) (h : inner.active.lookup id = some active) :
    (AddressPool.renew_finish inner id active mono ok).inner.active.lookup id =
      some (if ok then { active with expires_at_ms := mono } else active) := by
  cases ok with
  | false => exact h
  | true =>
    rw [AddressPool.renew_finish]
    dsimp only
    rw [if_neg (by simp), h]
    simp [Section.returns]

theorem Prepared.enter {caller : ℕ} {sec : Section} (h : Prepared pool)
    (hsec : ∀ id active mono wall, sec.plan = some (.renew id active mono wall) →
      active.expires_at_ms ≤ mono ∧ ∀ store record, pool.pool.store = some store →
        store.lookup id = some record → record.expires_at_ms ≤ wall) :
    Prepared (pool.enter caller sec) := by
  intro caller' r id active mono wall hr hplan
  rw [PoolSystem.enter_lookup] at hr
  split at hr
  · obtain ⟨plan, hsome, rfl⟩ := Option.map_eq_some_iff.mp hr
    exact hsec id active mono wall (hsome.trans (congrArg some hplan))
  · exact h caller' r id active mono wall hr hplan

theorem Prepared.step (hc : pool.Coherent) (h : Prepared pool)
    (hfresh : ∀ caller id now, label = .begin_ caller (.renew id now) →
      FreshRenewal pool.pool id now)
    (hs : pool.step label = some (pool', events)) : Prepared pool' := by
  cases PoolSystem.step_steps hs with
  | @begin_ caller call hidle =>
    apply h.enter
    intro id active mono wall hplan
    obtain ⟨now, rfl, hactive, rfl, rfl⟩ := renew_begin_parks hplan
    have hnow := hfresh caller id now rfl
    exact ⟨hnow.memory active hactive, hnow.store⟩
  | @store caller r op ok hr hop =>
    intro caller' r' id active mono wall hr' hplan
    obtain ⟨past, hpast⟩ := PoolSystem.after_store_lookup hr hr'
    obtain ⟨hmono, hwall⟩ := h caller' _ id active mono wall hpast hplan
    refine ⟨hmono, ?_⟩
    intro store' record hstore' hrecord
    obtain ⟨store, hstore, rfl⟩ := Option.map_eq_some_iff.mp hstore'
    by_cases hid : op.session_id = id
    · -- the operation is that of the renewal itself, and writes its expiry
      obtain rfl := renewing_op hc hpast hplan hr hop hid
      rcases persist_expiry ⟨id, active.device_id, active.addresses, .Active, wall⟩ rfl hrecord
        with hwritten | hold
      · exact hwritten.le
      · exact hwall store record hstore hold
    · rw [StoreOp.lookup_apply_of_ne hid] at hrecord
      exact hwall store record hstore hrecord
  | @resume caller r hr hlen =>
    apply h.enter
    intro id active mono wall hplan
    rcases AddressPool.resume_parks _ hplan with ⟨_, _, _, _, he⟩ | ⟨_, _, _, _, _, _, he⟩
    · cases he
    · cases he
  | release_deferred subject => exact h

/-- **A renewal under way brings neither expiry forward.** -/
theorem renews_keeps (hc : pool.Coherent) (h : Prepared pool) {id : SessionId}
    (hrenews : Renews pool id label) (hs : pool.step label = some (pool', events)) :
    KeepsLease pool.pool pool'.pool id := by
  obtain ⟨caller, r, active, mono, wall, hlabel, hr, hplan⟩ := hrenews
  have hactive := renewing_active hc hr hplan
  obtain ⟨hmono, hwall⟩ := h caller r id active mono wall hr hplan
  cases PoolSystem.step_steps hs with
  | begin_ call hidle => simp at hlabel
  | release_deferred subject => simp at hlabel
  | @store caller' r' op ok hr' hop =>
    obtain rfl : caller' = caller := by simpa using hlabel
    obtain rfl := Option.some.inj (hr.symm.trans hr')
    refine ⟨?_, ?_⟩
    · intro lease lease' hl hl'
      exact (congrArg Lease.expires_at_ms (Option.some.inj (hl.symm.trans hl'))).le
    · intro store store' record record' hstore hstore' hrecord hrecord'
      have hmap := congrArg (Option.map (op.apply ok)) hstore
      obtain rfl := Option.some.inj (hmap.symm.trans hstore')
      by_cases hid : op.session_id = id
      · obtain rfl := renewing_op hc hr hplan hr hop hid
        rcases persist_expiry ⟨id, active.device_id, active.addresses, .Active, wall⟩ rfl hrecord'
          with hwritten | hold
        · rw [hwritten]
          exact hwall store record hstore hrecord
        · rw [Option.some.inj (hrecord.symm.trans hold)]
      · rw [StoreOp.lookup_apply_of_ne hid] at hrecord'
        rw [Option.some.inj (hrecord.symm.trans hrecord')]
  | @resume caller' r' hr' hlen =>
    obtain rfl : caller' = caller := by simpa using hlabel
    obtain rfl := Option.some.inj (hr.symm.trans hr')
    refine ⟨?_, ?_⟩
    · intro lease lease' hl hl'
      obtain rfl := Option.some.inj (hactive.symm.trans hl)
      change (AddressPool.resume pool.pool.config pool.durable pool.pool.inner r.outcomes
        r.plan).inner.active.lookup id = some lease' at hl'
      rw [hplan, AddressPool.resume, renew_finish_active _ hactive] at hl'
      obtain rfl := Option.some.inj hl'
      split
      · exact hmono
      · exact le_rfl
    · intro store store' record record' hstore hstore' hrecord hrecord'
      obtain rfl := Option.some.inj (hstore.symm.trans hstore')
      rw [Option.some.inj (hrecord.symm.trans hrecord')]

/-- A renewal that goes through writes the expiries of its sample. -/
theorem serve_renew {id : SessionId} {lease : ActiveLease} {now : PoolTime}
    (hidle : id ∉ pool.pool.inner.inflight)
    (hlookup : pool.pool.inner.active.lookup id = some lease)
    (hlive : now.monotonic_ms < lease.expires_at_ms) :
    (pool.serve (.renew id now) true).1.pool.inner.active.lookup id =
        some { lease with
          expires_at_ms := saturatingAdd now.monotonic_ms pool.pool.config.lease_ttl_ms } ∧
      (pool.serve (.renew id now) true).1.pool.store = pool.pool.store.map (fun store =>
        store.insert id ⟨id, lease.device_id, lease.addresses, .Active,
          wall_expiry_from_ttl now.wall_ms pool.pool.config.lease_ttl_ms⟩) := by
  have hbegin : AddressPool.begin_ pool.pool.config pool.durable pool.pool.inner (.renew id now) =
      .parks { pool.pool.inner with inflight := insert id pool.pool.inner.inflight }
        (.renew id lease (saturatingAdd now.monotonic_ms pool.pool.config.lease_ttl_ms)
          (wall_expiry_from_ttl now.wall_ms pool.pool.config.lease_ttl_ms)) := by
    rw [AddressPool.begin_, AddressPool.renew_begin, if_neg hidle, hlookup]
    exact if_neg (Nat.not_le.mpr hlive)
  rw [PoolSystem.serve, hbegin]
  exact ⟨renew_finish_active true hlookup, rfl⟩

/-- **A renewal that goes through brings neither expiry forward exactly when its sample
is fresh.** -/
theorem serve_renew_keeps_iff {id : SessionId} {lease : ActiveLease} {now : PoolTime}
    (hidle : id ∉ pool.pool.inner.inflight)
    (hlookup : pool.pool.inner.active.lookup id = some lease)
    (hlive : now.monotonic_ms < lease.expires_at_ms) :
    KeepsLease pool.pool (pool.serve (.renew id now) true).1.pool id ↔
      FreshRenewal pool.pool id now := by
  obtain ⟨hactive, hstore⟩ := serve_renew hidle hlookup hlive
  constructor
  · rintro ⟨hmemory, hrecords⟩
    refine ⟨?_, ?_⟩
    · intro held hheld
      exact hmemory held _ hheld hactive
    · intro store record hsome hrecord
      rw [hsome, Option.map_some] at hstore
      exact hrecords store _ record _ hsome hstore hrecord (AList.lookup_insert _)
  · rintro ⟨hmemory, hrecords⟩
    refine ⟨?_, ?_⟩
    · intro held held' hheld hheld'
      rw [← Option.some.inj (hactive.symm.trans hheld')]
      exact hmemory held hheld
    · intro store store' record record' hsome hsome' hrecord hrecord'
      rw [hsome, Option.map_some] at hstore
      obtain rfl := Option.some.inj (hstore.symm.trans hsome')
      rw [← Option.some.inj ((AList.lookup_insert _).symm.trans hrecord')]
      exact hrecords store record hsome hrecord

/-! ## Runs -/

variable {s s' : RenewalSystem}

/-- Every session of the pool is in one place, and the renewals under way set nothing back. -/
structure Sound (s : RenewalSystem) : Prop where
  coherent : s.pool.Coherent
  prepared : Prepared s.pool

theorem pool_step_eq {label : PoolLabel} {events : List (SessionEvent ⊕ PoolEvent)}
    (hs : s.step (.pool label) = some (s', events)) :
    ∃ events', s.pool.step label = some (s'.pool, events') := by
  rw [step] at hs
  split at hs
  · obtain ⟨r, hr, he⟩ := Option.map_eq_some_iff.mp hs
    obtain ⟨rfl, -⟩ := Prod.mk.inj he
    exact ⟨r.2, hr⟩
  · contradiction

theorem manager_step_eq {call : ManagerCall} {events : List (SessionEvent ⊕ PoolEvent)}
    (hs : s.step (.manager call) = some (s', events)) :
    s'.manager = (call.apply s.manager).1 ∧ s'.pool = s.pool := by
  rw [step] at hs
  split at hs
  · obtain ⟨rfl, -⟩ := step_inj hs
    exact ⟨rfl, rfl⟩
  · contradiction

theorem tick_step_eq {now_ms : ℕ} {events : List (SessionEvent ⊕ PoolEvent)}
    (hs : s.step (.tick now_ms) = some (s', events)) : s'.pool = s.pool := by
  rw [step] at hs
  split at hs
  · split at hs
    · obtain ⟨rfl, -⟩ := step_inj hs
      rfl
    · contradiction
  · contradiction

theorem Sound.step {label : RenewalLabel} {events : List (SessionEvent ⊕ PoolEvent)}
    (h : s.Sound) (hfresh : s.Fresh label) (hs : s.step label = some (s', events)) : s'.Sound := by
  cases label with
  | tick now_ms =>
    have hpool := tick_step_eq hs
    exact ⟨hpool ▸ h.coherent, hpool ▸ h.prepared⟩
  | manager call =>
    have hpool := (manager_step_eq hs).2
    exact ⟨hpool ▸ h.coherent, hpool ▸ h.prepared⟩
  | pool label =>
    obtain ⟨events', hpool⟩ := pool_step_eq hs
    refine ⟨(PoolSystem.step_refines h.coherent hpool).1, h.prepared.step h.coherent ?_ hpool⟩
    rintro caller id now rfl
    exact hfresh.2 caller id now rfl

theorem Sound.keeps {label : RenewalLabel} (h : s.Sound) (hfresh : s.Fresh label) :
    s.Extends label := by
  intro s' events hs
  refine ⟨?_, ?_⟩
  · rintro call rfl session_id htouched
    rw [(manager_step_eq hs).1]
    exact (keeps_activity_iff htouched).mpr (fun now_ms hnow =>
      hfresh.1 call rfl now_ms hnow session_id htouched)
  · rintro label' rfl session_id hrenews
    obtain ⟨events', hpool⟩ := pool_step_eq hs
    exact renews_keeps h.coherent h.prepared hrenews hpool

/-- **Activity only extends, on fresh samples.** In every run whose samples are all
fresh no recorded activity and no renewal brings a deadline forward. In every state, a
call that records activity and a renewal that goes through bring one forward exactly
when their own sample is not fresh. -/
theorem fresh_samples_extend {c : AddressPoolConfig} {started : AddressPool} {clock : ℕ}
    {m₀ : V2SessionManager} {labels : List RenewalLabel} (hstart : PoolSystem.Started c started) :
    (Along step Fresh ⟨clock, m₀, PoolSystem.start started⟩ labels →
      Along step Extends ⟨clock, m₀, PoolSystem.start started⟩ labels) ∧
    ∀ s : RenewalSystem,
      (∀ call session_id, session_id ∈ ManagerCall.touched s.manager call →
        (KeepsActivity s.manager (call.apply s.manager).1 session_id ↔
          ∀ now_ms ∈ call.now_ms, FreshActivity s.manager session_id now_ms)) ∧
      ∀ id lease now, id ∉ s.pool.pool.inner.inflight →
        s.pool.pool.inner.active.lookup id = some lease →
        PoolTime.monotonic_ms now < lease.expires_at_ms →
        (KeepsLease s.pool.pool (s.pool.serve (.renew id now) true).1.pool id ↔
          FreshRenewal s.pool.pool id now) := by
  have hsound : (⟨clock, m₀, PoolSystem.start started⟩ : RenewalSystem).Sound := by
    refine ⟨PoolSystem.start_coherent hstart.at_rest, ?_⟩
    intro caller r id active mono wall hr
    contradiction
  refine ⟨?_, fun s => ⟨fun call session_id h => keeps_activity_iff h,
    fun id lease now hidle hlookup hlive => serve_renew_keeps_iff hidle hlookup hlive⟩⟩
  exact along_of_invariant (I := Sound) (fun s label s' events h hfresh hs => h.step hfresh hs)
    (fun s label h hfresh => h.keeps hfresh) hsound

namespace Renewal

open PoolSystem.Sample in
/-- A session with a path that has been active at 50, and a lease renewed at 30000. -/
def active : List RenewalLabel :=
  .tick 40000 :: (attached_calls ++
    [ManagerCall.record_authenticated_activity ⟨⟨1⟩, ⟨1⟩⟩ 50]).map RenewalLabel.manager ++
  (whole (reserve ⟨1⟩) ++ whole (commit ⟨1⟩) ++ whole (.renew ⟨1⟩ ⟨30000, 30000⟩)).map .pool

/-- Activity with a sample from the given time. -/
def activity (now_ms : ℕ) : ManagerCall := .record_authenticated_activity ⟨⟨1⟩, ⟨1⟩⟩ now_ms

def start : RenewalSystem := ⟨0, idle_manager, PoolSystem.start PoolSystem.Sample.recovered⟩

theorem started : PoolSystem.Started PoolSystem.Sample.config PoolSystem.Sample.recovered := by
  have hnodup : (([] : List PersistedLease).map (·.session_id)).Nodup := by simp
  exact .recovered hnodup (by simp) PoolSystem.Sample.recovered_eq

/-- The state that the run reaches. -/
structure Reached (s : RenewalSystem) : Prop where
  recorded : (s.manager.sessions.lookup ⟨1⟩).map (·.last_activity_ms) = some 50
  accepted : (activity 5).touched s.manager = some ⟨1⟩ ∧ (activity 60).touched s.manager = some ⟨1⟩
  enabled : (s.step (.manager (activity 5))).isSome = true
  idle : ⟨1⟩ ∉ s.pool.pool.inner.inflight
  lease : s.pool.pool.inner.active.lookup ⟨1⟩ = some ⟨⟨7⟩, PoolSystem.Sample.first, 90000⟩
  record : (s.pool.pool.store.bind (fun store => store.lookup ⟨1⟩)).map (·.expires_at_ms) =
    some 90000
  ttl : s.pool.pool.config.lease_ttl_ms = 60000

theorem active_run : ∃ s events, exec step start active = some (s, events) ∧ Reached s := by
  have hrun : (exec step start active).any (fun r => decide (
      (r.1.manager.sessions.lookup ⟨1⟩).map (·.last_activity_ms) = some 50 ∧
      ((activity 5).touched r.1.manager = some ⟨1⟩ ∧
        (activity 60).touched r.1.manager = some ⟨1⟩) ∧
      (r.1.step (.manager (activity 5))).isSome = true ∧ ⟨1⟩ ∉ r.1.pool.pool.inner.inflight ∧
      r.1.pool.pool.inner.active.lookup ⟨1⟩ = some ⟨⟨7⟩, PoolSystem.Sample.first, 90000⟩ ∧
      (r.1.pool.pool.store.bind (fun store => store.lookup ⟨1⟩)).map (·.expires_at_ms) =
        some 90000 ∧
      r.1.pool.pool.config.lease_ttl_ms = 60000)) = true := by decide
  obtain ⟨⟨s, events⟩, hexec, hstate⟩ := (Option.any_eq_true _ _).mp hrun
  obtain ⟨hrecorded, haccepted, henabled, hidle, hlease, hrecord, httl⟩ := of_decide_eq_true hstate
  exact ⟨s, events, hexec, hrecorded, haccepted, henabled, hidle, hlease, hrecord, httl⟩

end Renewal

open Renewal in
/-- The activity and the renewal that follow with newer samples bring nothing forward. -/
theorem fresh_samples_extend_active : ∃ s events, exec step start active = some (s, events) ∧
    KeepsActivity s.manager ((activity 60).apply s.manager).1 ⟨1⟩ ∧
    KeepsLease s.pool.pool (s.pool.serve (.renew ⟨1⟩ ⟨40000, 40000⟩) true).1.pool ⟨1⟩ := by
  obtain ⟨s, events, hexec, hreached⟩ := active_run
  obtain ⟨hactivity, hrenewal⟩ :=
    (@fresh_samples_extend PoolSystem.Sample.config _ 0 idle_manager [] started).2 s
  refine ⟨s, events, hexec, ?_, ?_⟩
  · apply (hactivity (activity 60) ⟨1⟩ hreached.accepted.2).mpr
    intro now_ms hnow managed hlookup
    have hlast := hreached.recorded
    rw [hlookup, Option.map_some, Option.some.injEq] at hlast
    obtain rfl := Option.some.inj hnow
    omega
  · apply (hrenewal ⟨1⟩ _ ⟨40000, 40000⟩ hreached.idle hreached.lease (by decide)).mpr
    refine ⟨?_, ?_⟩
    · intro lease hlookup
      rw [← Option.some.inj (hreached.lease.symm.trans hlookup), hreached.ttl]
      decide
    · intro store record hstore hlookup
      have hrecord := hreached.record
      rw [hstore, Option.bind_some, hlookup, Option.map_some, Option.some.injEq] at hrecord
      rw [hrecord, hreached.ttl]
      decide

open Renewal in
/-- A sample from before the last activity sets the activity back, and one from before
the last renewal brings the end of the lease forward. -/
theorem stale_sample_sets_back :
    (¬ ∀ (c : AddressPoolConfig) (started : AddressPool) (clock : ℕ) (m₀ : V2SessionManager)
      (labels : List RenewalLabel), PoolSystem.Started c started →
      Along step Extends ⟨clock, m₀, PoolSystem.start started⟩ labels) ∧
    ∃ s events, exec step start active = some (s, events) ∧
      ¬ KeepsLease s.pool.pool (s.pool.serve (.renew ⟨1⟩ ⟨2000, 2000⟩) true).1.pool ⟨1⟩ := by
  obtain ⟨s, events, hexec, hreached⟩ := active_run
  refine ⟨?_, s, events, hexec, ?_⟩
  · intro hclaim
    have halong := hclaim _ _ 0 idle_manager (active ++ [.manager (activity 5)]) started
    have hextends := ((along_append hexec).mp halong).2.1
    obtain ⟨⟨s', events'⟩, hs⟩ := Option.isSome_iff_exists.mp hreached.enabled
    have hkeeps := (hextends s' events' hs).1 (activity 5) rfl ⟨1⟩ hreached.accepted.1
    rw [(manager_step_eq hs).1, keeps_activity_iff hreached.accepted.1] at hkeeps
    obtain ⟨managed, hlookup, hlast⟩ := Option.map_eq_some_iff.mp hreached.recorded
    have hfresh := hkeeps 5 rfl managed hlookup
    omega
  · rw [serve_renew_keeps_iff hreached.idle hreached.lease (by decide)]
    intro hfresh
    have hexpires := hfresh.memory _ hreached.lease
    rw [hreached.ttl] at hexpires
    exact absurd hexpires (by decide)

end RenewalSystem

end StreamGuard.Gateway
