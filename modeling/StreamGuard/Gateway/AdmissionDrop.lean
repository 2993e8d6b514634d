/-
What a dropped admission leaves behind.

The accept loop drops the future of `accept_one_at` when another branch of its
`select!` wins. Nothing of the pass runs after that, so its unwinding does not
either: `dropped_leaves_nothing_iff` says after which awaits of a first admission
the session manager and the pool know nothing of it.
-/
import StreamGuard.Gateway.AdmissionAlone

set_option autoImplicit false

namespace StreamGuard.Gateway

open StreamGuard StreamGuard.Lib StreamGuard.Session

/-! ## The pass with its first await -/

/-- What becomes of the replay consume of `admit_async`. -/
inductive ConsumeAnswer where
  | consumed
  | failed (error : ReplayCacheError)
  | dropped

/-- An admission from its verified ticket on, the replay consume included. -/
def Stores.admit_one (ctx : AdmissionContext) (env : AdmissionEnv) (consume : ConsumeAnswer)
    (s : Stores) (ticket : VerifiedAdmissionTicket) : Stores × AdmissionOutcome :=
  match consume with
  | .consumed => s.accept_one ctx env ticket
  | .failed _ => (s.drain, .failed .AdmissionRejected)
  | .dropped => (s.drain, .dropped)

/-! ## Before and after -/

/-- Neither store knows a session, a capability, a reservation or a lease under the ID. -/
structure Clean (session_id : SessionId) (s : Stores) : Prop where
  session : s.manager.sessions.lookup session_id = none
  admission : s.manager.admissions.lookup session_id = none
  connections : ∀ id, s.manager.authenticated_connections.lookup id ≠ some session_id
  active : s.pool.pool.inner.active.lookup session_id = none
  pending : s.pool.pool.inner.pending.lookup session_id = none

/-- What a first admission meets: nothing of its session, a configuration that
passed its checks, and an idle owner. A lease of an earlier session may still be
quarantined, or in the middle of a call. -/
structure Unknown (s : Stores) (session_id : SessionId) : Prop extends Clean session_id s where
  configured : ∃ m, V2SessionManager.new s.manager.config = .ok m
  coherent : s.pool.Coherent
  idle : s.late = []

/-- No room for another authenticated connection. -/
def V2SessionManager.connections_full (m : V2SessionManager) : Prop :=
  m.maximum_authenticated_connections ≤ m.authenticated_connections.len

/-- A release gives the lease of the session up: it is quarantined already, or it can
be deleted or quarantined. -/
def release_effective (s : Stores) (env : AdmissionEnv) (session_id : SessionId) : Prop :=
  session_id ∈ s.pool.pool.inner.release_pending ∨
    ¬ (s.pool.durable = true ∧ env.release.served = some false ∧
      s.pool.pool.inner.quarantine_full s.pool.pool.config)

/-! ## The pool under a first admission -/

namespace PoolSystem

variable {s : PoolSystem} {session_id : SessionId} {p : Place}

/-- A reserve call that answers with a lease for a session without one: that of the
quarantine, or a new reservation. -/
theorem serve_reserve_new {device_id : DeviceId} {now : PoolTime} {ok : Bool}
    {a : AssignedAddresses} (hplace : s.pool.inner.slot session_id = p.slot)
    (hactive : s.pool.inner.active.lookup session_id = none)
    (hpending : s.pool.inner.pending.lookup session_id = none)
    (h : (s.serve (.reserve session_id device_id now) ok).2 = [.reserved session_id (.ok a)]) :
    (session_id ∈ s.pool.inner.release_pending ∧
        (s.serve (.reserve session_id device_id now) ok).1 = s ∧
        ∃ lease, s.pool.inner.slot session_id = (Place.quarantined lease).slot) ∨
      (session_id ∉ s.pool.inner.release_pending ∧
        (s.serve (.reserve session_id device_id now) ok).1.pool.inner.release_pending =
          s.pool.inner.release_pending ∧
        ∃ lease, (s.serve (.reserve session_id device_id now) ok).1.pool.inner.slot session_id =
          (Place.reserved lease).slot) := by
  by_cases hzero : is_zero_id session_id.bytes = true ∨ is_zero_id device_id.bytes = true
  · rw [serve, AddressPool.begin_, AddressPool.reserve_begin] at h
    dsimp only at h
    rw [if_pos hzero] at h
    cases h
  by_cases hflight : session_id ∈ s.pool.inner.inflight
  · obtain ⟨e, he⟩ := serve_reserve_inflight (s := s) device_id now ok hflight
    rw [he] at h
    cases h
  have hrest : p.parked = none := by
    have hinflight : p.slot.inflight = false :=
      (congrArg Slot.inflight hplace).symm.trans (decide_eq_false hflight)
    rw [← Place.parked_isSome] at hinflight
    exact Option.not_isSome_iff_eq_none.mp (Bool.eq_false_iff.mp hinflight)
  cases hquarantine : s.pool.inner.release_pending.lookup session_id with
  | some lease =>
    left
    obtain rfl := Place.eq_quarantined hrest
      ((congrArg Slot.quarantined hplace).symm.trans hquarantine)
    refine ⟨AList.mem_of_lookup hquarantine, ?_, lease, hplace⟩
    rw [serve, AddressPool.begin_, AddressPool.reserve_begin]
    dsimp only
    rw [if_neg hzero, if_neg hflight, hquarantine]
    dsimp only
    by_cases hdevice : lease.device_id ≠ device_id
    · rw [if_pos hdevice]
      rfl
    · rw [if_neg hdevice]
      rfl
  | none =>
    right
    have hnot := AList.lookup_eq_none.mp hquarantine
    have hnone := AList.lookup_eq_none.mp hactive
    obtain rfl := Place.eq_free hrest ((congrArg Slot.active hplace).symm.trans hactive)
      ((congrArg Slot.pending hplace).symm.trans hpending)
      ((congrArg Slot.quarantined hplace).symm.trans hquarantine)
    have hbegin : AddressPool.reserve_begin s.pool.config s.pool.inner session_id device_id now =
        AddressPool.reserve_new s.pool.config s.pool.inner session_id device_id now := by
      rw [AddressPool.reserve_begin]
      dsimp only
      rw [if_neg hzero, if_neg hflight, hquarantine, hactive, hpending]
    refine ⟨hnot, ?_⟩
    rw [serve, AddressPool.begin_, hbegin, AddressPool.reserve_new] at h ⊢
    by_cases hroom : s.pool.config.maximum_leases ≤
        s.pool.inner.active.len + s.pool.inner.pending.len + s.pool.inner.inflight.card
    · rw [if_pos hroom] at h
      cases h
    rw [if_neg hroom] at h ⊢
    cases hallocate : s.pool.inner.allocate_locked s.pool.config with
    | error e =>
      rw [hallocate] at h
      cases h
    | ok addresses =>
    rw [hallocate] at h
    dsimp only [Section.parks] at h ⊢
    rw [AddressPool.resume, AddressPool.reserve_finish, List.headD_cons] at h ⊢
    by_cases hpersist : (!(ok || !s.durable)) = true
    · rw [if_pos hpersist] at h
      cases h
    rw [if_neg hpersist]
    have hclear : ¬ (session_id ∈ ((s.pool.inner.park session_id addresses).unpark session_id
          addresses).release_pending ∨
        session_id ∈ ((s.pool.inner.park session_id addresses).unpark session_id
          addresses).active) := not_or.mpr ⟨hnot, hnone⟩
    rw [if_neg hclear]
    have hparked : (s.pool.inner.park session_id addresses).slot session_id =
        (Place.out .reserving ⟨device_id, addresses,
          saturatingAdd now.monotonic_ms s.pool.config.pending_ttl_ms⟩).slot := slot_park_self hplace
    exact ⟨rfl, _, slot_insert_pending (slot_unpark_self hparked)⟩

/-- The cleanup hook quarantines a reservation, or makes it Active when there is no room. -/
theorem defer_reserved {lease : ReservedLease}
    (h : s.pool.inner.slot session_id = (Place.reserved lease).slot) :
    (s.pool.inner.quarantine_full s.pool.config ∧
        (s.defer session_id).pool.inner.release_pending = s.pool.inner.release_pending ∧
        (s.defer session_id).pool.inner.slot session_id = (Place.active lease).slot) ∨
      (¬ s.pool.inner.quarantine_full s.pool.config ∧
        ∃ quarantined, (s.defer session_id).pool.inner.slot session_id =
          (Place.quarantined quarantined).slot) := by
  obtain ⟨hflight, hnot⟩ := held_idle h (.inl rfl)
  obtain ⟨inner, htake, hfree, hquarantine⟩ := take_held h (.inl rfl)
  have hdefer : (s.defer session_id).pool.inner =
      (AddressPool.release_deferred s.pool.config s.pool.inner session_id).1 := rfl
  rw [hdefer, AddressPool.release_deferred, if_neg (not_or.mpr ⟨hflight, hnot⟩), htake]
  dsimp only
  split
  · next quarantined henqueue =>
    right
    rw [← hquarantine] at hnot
    have hroom := enqueue_room hnot henqueue
    rw [Inner.quarantine_full, hquarantine] at hroom
    exact ⟨hroom, _, slot_enqueue hfree henqueue⟩
  · next e henqueue =>
    left
    have hfull := (enqueue_full henqueue).2
    rw [Inner.quarantine_full, hquarantine] at hfull
    exact ⟨hfull, hquarantine, slot_insert_active hfree⟩

/-- The cleanup hook leaves a quarantined lease alone. -/
theorem defer_quarantined (h : session_id ∈ s.pool.inner.release_pending) :
    s.defer session_id = s := by
  have hdefer : AddressPool.release_deferred s.pool.config s.pool.inner session_id =
      (s.pool.inner, false) := by
    rw [AddressPool.release_deferred, if_pos (.inr h)]
  rw [defer, hdefer]

/-- **A lease that a first admission reserved is given back** by the cleanup hook and
a release, unless the release cannot. -/
theorem reserved_given_back {device_id : DeviceId} {now : PoolTime} {ok : Bool}
    {a : AssignedAddresses} (hplace : s.pool.inner.slot session_id = p.slot)
    (hactive : s.pool.inner.active.lookup session_id = none)
    (hpending : s.pool.inner.pending.lookup session_id = none)
    (h : (s.serve (.reserve session_id device_id now) ok).2 = [.reserved session_id (.ok a)])
    {after : PoolSystem} (released : Bool) (hafter : after =
      (((s.serve (.reserve session_id device_id now) ok).1.defer session_id).serve
        (.release session_id) released).1) :
    (after.pool.inner.active.lookup session_id = none ∧
        after.pool.inner.pending.lookup session_id = none) ↔
      session_id ∈ s.pool.inner.release_pending ∨
        ¬ (s.durable = true ∧ released = false ∧ s.pool.inner.quarantine_full s.pool.config) := by
  have hconfig : (s.serve (.reserve session_id device_id now) ok).1.pool.config = s.pool.config :=
    serve_config ok
  have hdurable : (s.serve (.reserve session_id device_id now) ok).1.durable = s.durable :=
    serve_durable ok
  rcases serve_reserve_new hplace hactive hpending h with ⟨hin, hsame, lease, hslot⟩ |
    ⟨hnot, hquarantine, lease, hslot⟩
  · rw [hsame, defer_quarantined hin, serve_release_quarantined released hslot] at hafter
    subst hafter
    exact ⟨fun _ => .inl hin, fun _ => ⟨hactive, hpending⟩⟩
  obtain ⟨reserved, hreserved⟩ : ∃ reserved, reserved =
      (s.serve (.reserve session_id device_id now) ok).1 := ⟨_, rfl⟩
  rw [← hreserved] at hconfig hdurable hquarantine hslot hafter
  have hfull : reserved.pool.inner.quarantine_full reserved.pool.config ↔
      s.pool.inner.quarantine_full s.pool.config := by
    rw [Inner.quarantine_full, Inner.quarantine_full, hconfig, hquarantine]
  rcases defer_reserved hslot with ⟨hroom, hsame, hdeferred⟩ | ⟨hroom, quarantined, hdeferred⟩
  · -- no room: the hook makes the reservation Active, and the release is all there is
    have hstill : (reserved.defer session_id).pool.inner.quarantine_full
        (reserved.defer session_id).pool.config := by
      rw [Inner.quarantine_full, hsame]
      exact hroom
    obtain ⟨p', hslot', hcases⟩ := serve_release_held released hdeferred (.inr rfl)
    have hactive' : after.pool.inner.active.lookup session_id = p'.slot.active := by
      rw [hafter]
      exact congrArg Slot.active hslot'
    have hpending' : after.pool.inner.pending.lookup session_id = p'.slot.pending := by
      rw [hafter]
      exact congrArg Slot.pending hslot'
    rw [hactive', hpending']
    have hdeferred_durable : (reserved.defer session_id).durable = s.durable := hdurable
    rw [hdeferred_durable] at hcases
    rcases hcases with ⟨hd, hfalse, -, rfl⟩ | ⟨hcond, hplace'⟩
    · constructor
      · rintro ⟨hnone, -⟩
        contradiction
      · rintro (hin | hcond)
        · exact absurd hin hnot
        · exact absurd ⟨hd, hfalse, hfull.mp hroom⟩ hcond
    · have hgone : p'.slot.active = none ∧ p'.slot.pending = none := by
        rcases hplace' with rfl | ⟨quarantined, rfl⟩
        · exact ⟨rfl, rfl⟩
        · exact ⟨rfl, rfl⟩
      refine ⟨fun _ => .inr ?_, fun _ => hgone⟩
      rintro ⟨hd, hfalse, -⟩
      exact hcond ⟨hd, hfalse, hstill⟩
  · rw [serve_release_quarantined released hdeferred] at hafter
    rw [hafter]
    refine ⟨fun _ => .inr fun hcond => hroom (hfull.mpr hcond.2.2), fun _ => ?_⟩
    exact ⟨congrArg Slot.active hdeferred, congrArg Slot.pending hdeferred⟩

end PoolSystem

/-! ## The session manager under a first admission -/

namespace V2SessionManager

/-- A checked configuration makes sessions of every unexpired reservation. -/
theorem activated_session_ok {m : V2SessionManager} (h : ∃ m', V2SessionManager.new m.config = .ok m')
    {reservation : AdmissionReservation} {now_ms : ℕ}
    (hexpires : ¬ (reservation.expires_at_ms = 0 ∨ reservation.expires_at_ms ≤ now_ms)) :
    ∃ session, m.activated_session reservation now_ms = .ok session := by
  obtain ⟨m', hnew⟩ := h
  rw [V2SessionManager.new] at hnew
  split at hnew
  · contradiction
  next hvalid =>
  obtain ⟨hzero, hfuture⟩ := not_or.mp hexpires
  have hconfig : ¬ (m.config.maximum_paths_per_session = 0 ∨
      u16Max.val < m.config.maximum_paths_per_session ∨
      m.config.maximum_path_epoch_history < m.config.maximum_paths_per_session ∨
      u16Max.val < m.config.maximum_path_epoch_history ∨
      m.config.maximum_path_tombstones = 0 ∨ m.config.path_tombstone_ttl_ms = 0 ∨
      reservation.expires_at_ms = 0) := by
    omega
  rw [activated_session, V2Session.new, if_neg hconfig, if_neg hfuture]
  dsimp only
  rw [V2Session.activate, V2Session.is_expired, if_neg (by simpa using hfuture),
    if_neg (not_not.mpr rfl)]
  exact ⟨_, rfl⟩

/-- Removing a session that is there leaves nothing of it but its reservation. -/
theorem remove_session_found {m : V2SessionManager} {session_id : SessionId}
    {managed : ManagedSession} (h : m.sessions.lookup session_id = some managed)
    (reason : SessionRemovalReason) : ∃ m' removal,
      m.remove_session session_id reason = (m', some removal) ∧ removal.session_id = session_id ∧
      m'.sessions.lookup session_id = none ∧ m'.admissions = m.admissions ∧
      ∀ id, m'.authenticated_connections.lookup id ≠ some session_id := by
  rw [remove_session, h]
  refine ⟨_, _, rfl, rfl, AList.lookup_erase _ _, rfl, ?_⟩
  intro id hid
  obtain ⟨-, hne⟩ := AList.lookup_retain_eq_some.mp hid
  simp at hne

end V2SessionManager

section First

variable {ctx : AdmissionContext} {env : AdmissionEnv} {s : Stores} {m : V2SessionManager}
  {ticket : VerifiedAdmissionTicket} {session_id : SessionId} {admitted : AdmissionAccepted}

/-- What `reserve_admission` leaves for a first admission. -/
structure Reserved (m : V2SessionManager) (ctx : AdmissionContext) (admitted : AdmissionAccepted) :
    Prop where
  held : m.admissions.lookup admitted.reservation.session_id = some admitted.reservation
  creates : admitted.reservation.creates_session = true
  unexpired : ¬ (admitted.reservation.expires_at_ms = 0 ∨
    admitted.reservation.expires_at_ms ≤ ctx.now.monotonic_millis)
  configured : ∃ m', V2SessionManager.new m.config = .ok m'
  session : m.sessions.lookup admitted.reservation.session_id = none
  connections : ∀ id,
    m.authenticated_connections.lookup id ≠ some admitted.reservation.session_id

/-- A first admission fails, or holds a reservation and nothing else has changed. -/
theorem Unknown.admit_finish (h : Unknown s ticket.session_id) (ctx : AdmissionContext) :
    (∃ m e removals, admit_finish s.manager ticket ctx.now = (m, .error e, removals)) ∨
      ∃ m admitted, admit_finish s.manager ticket ctx.now = (m, .ok admitted, []) ∧
        admitted.owner = SessionOwner.from_ticket ticket ∧
        admitted.reservation.session_id = ticket.session_id ∧ Reserved m ctx admitted ∧
        (m.connections_full ↔ s.manager.connections_full) := by
  have hmake : s.manager.expire_admitted ticket.session_id ctx.now.monotonic_millis =
      (s.manager, none) := by
    rw [V2SessionManager.expire_admitted, h.session]
    rfl
  cases hresult : (s.manager.reserve_admission ticket.session_id ticket.device_id
      ticket.organization_id (expires_at_monotonic_ms ticket ctx.now)
      ctx.now.monotonic_millis).result with
  | error e =>
    left
    unfold Gateway.admit_finish SessionOwner.from_ticket
    dsimp only
    rw [hresult]
    exact ⟨_, _, _, rfl⟩
  | ok reservation =>
    right
    obtain ⟨howner, hmanager⟩ := V2SessionManager.reserve_admission_ok hresult
    rw [hmake] at howner hmanager
    rcases V2SessionManager.reserve_owner_ok howner with ⟨managed, hsession, -⟩ |
      ⟨-, hadmission, -⟩ | ⟨-, -, rfl, hinsert⟩
    · rw [h.session] at hsession
      contradiction
    · rw [h.admission] at hadmission
      contradiction
    rw [hinsert] at hmanager
    have hunexpired : ¬ (expires_at_monotonic_ms ticket ctx.now = 0 ∨
        expires_at_monotonic_ms ticket ctx.now ≤ ctx.now.monotonic_millis) := by
      intro hexpired
      rw [V2SessionManager.reserve_admission] at hresult
      split at hresult
      · cases hresult
      · cases hresult
    have hremovals : (s.manager.reserve_admission ticket.session_id ticket.device_id
        ticket.organization_id (expires_at_monotonic_ms ticket ctx.now)
        ctx.now.monotonic_millis).removals = [] := by
      rw [V2SessionManager.reserve_admission]
      split
      · rfl
      · rw [hmake]
        rfl
    obtain ⟨reservation, hreservation⟩ : ∃ reservation : AdmissionReservation, reservation =
        ⟨ticket.session_id, ticket.device_id, ticket.organization_id,
          expires_at_monotonic_ms ticket ctx.now, true⟩ := ⟨_, rfl⟩
    rw [← hreservation] at hmanager hresult
    have hheld : (s.manager.admissions.insert ticket.session_id reservation).lookup
        reservation.session_id = some reservation := by
      rw [hreservation]
      exact AList.lookup_insert _
    subst hreservation
    refine ⟨{ s.manager with admissions := s.manager.admissions.insert ticket.session_id _ },
      ⟨SessionOwner.from_ticket ticket, ticket.expires_at_unix_seconds,
        ticket.policy_version, _⟩, ?_, rfl, rfl,
      ⟨hheld, rfl, hunexpired, h.configured, h.session, h.connections⟩, Iff.rfl⟩
    unfold Gateway.admit_finish SessionOwner.from_ticket
    dsimp only
    rw [hresult, hmanager, hremovals]

/-- The binding of a first admission: the session is created, and closed again if the
connections are full. -/
theorem Reserved.bind_turn (h : Reserved m ctx admitted) :
    (m.connections_full ∧ ∃ m' removal,
        bind_turn ctx m admitted = ⟨m', [removal], .await (.unbinding admitted)⟩ ∧
        removal.session_id = admitted.reservation.session_id ∧
        m'.sessions.lookup admitted.reservation.session_id = none ∧
        m'.admissions.lookup admitted.reservation.session_id = none ∧
        ∀ id, m'.authenticated_connections.lookup id ≠ some admitted.reservation.session_id) ∨
      (¬ m.connections_full ∧ ∃ m' connection managed,
        bind_turn ctx m admitted = ⟨m', [], .await (.committing admitted connection)⟩ ∧
        m'.authenticates connection = true ∧
        m'.sessions.lookup admitted.reservation.session_id = some managed) := by
  obtain ⟨session, hsession⟩ := V2SessionManager.activated_session_ok h.configured h.unexpired
  obtain ⟨inserted, hinserted⟩ : ∃ inserted, inserted = ({ m with
      admissions := m.admissions.erase admitted.reservation.session_id }).update_session
        admitted.reservation.session_id
        ⟨session, admitted.reservation.organization_id, ctx.now.monotonic_millis⟩ := ⟨_, rfl⟩
  have hinsert : m.insert_admitted admitted.reservation ctx.now.monotonic_millis =
      (inserted, .ok ()) := by
    have hsame : V2SessionManager.activated_session
        { m with admissions := m.admissions.erase admitted.reservation.session_id }
          admitted.reservation ctx.now.monotonic_millis = .ok session := hsession
    rw [V2SessionManager.insert_admitted, if_neg (not_not.mpr h.held), hsame, hinserted]
  have hlookup : inserted.sessions.lookup admitted.reservation.session_id =
      some ⟨session, admitted.reservation.organization_id, ctx.now.monotonic_millis⟩ := by
    rw [hinserted]
    exact AList.lookup_insert _
  have hfull : inserted.maximum_authenticated_connections ≤ inserted.authenticated_connections.len ↔
      m.connections_full := by
    rw [hinserted]
    exact Iff.rfl
  have hcommit : m.commit_admission_and_bind admitted.reservation ctx.now.monotonic_millis =
      if inserted.maximum_authenticated_connections ≤ inserted.authenticated_connections.len then
        inserted.removes admitted.reservation.session_id .Closed (.error .ConnectionCapacity)
      else inserted.bind admitted.reservation.session_id := by
    rw [V2SessionManager.commit_admission_and_bind, if_neg (by simp [h.creates]), hinsert]
  by_cases hroom : m.connections_full
  · left
    obtain ⟨closed, removal, hremove, hid, hsession, hadmissions, hconnections⟩ :=
      V2SessionManager.remove_session_found hlookup .Closed
    rw [if_pos (hfull.mpr hroom), V2SessionManager.removes, hremove] at hcommit
    refine ⟨hroom, closed, removal, ?_, hid, hsession, ?_, hconnections⟩
    · rw [Gateway.bind_turn, commit_and_bind, hcommit]
      rfl
    · rw [hadmissions, hinserted]
      exact AList.lookup_erase _ _
  · right
    rw [if_neg (fun hle => hroom (hfull.mp hle))] at hcommit
    refine ⟨hroom, (inserted.bind admitted.reservation.session_id).manager,
      ⟨admitted.reservation.session_id, ⟨inserted.next_connection_identity.2⟩⟩,
      ⟨session, admitted.reservation.organization_id, ctx.now.monotonic_millis⟩, ?_, ?_, ?_⟩
    · rw [Gateway.bind_turn, commit_and_bind, hcommit]
      rfl
    · rw [V2SessionManager.authenticates, V2SessionManager.bind]
      exact decide_eq_true (AList.lookup_insert _)
    · rw [(V2SessionManager.bind_keeps inserted _).2.2]
      exact hlookup

/-! ## The drop -/

/-- A pass that is dropped in its release has given the lease back, as far as the
release can. -/
theorem run_unbinding_dropped (s : Stores) (hidle : s.late = [])
    (howner : admitted.owner = SessionOwner.from_ticket ticket) (steps : ℕ)
    (hdropped : (s.run ctx env (steps + 1) (.unbinding admitted)).2 = .dropped) :
    ∃ ok, env.release.served = some ok ∧
      (s.run ctx env (steps + 1) (.unbinding admitted)).1.drain =
        { s with pool := (s.pool.serve (.release ticket.session_id) ok).1 } := by
  have hwait : s.wait ctx env (.unbinding admitted) =
      ((s.ask (.release ticket.session_id) env.release).1,
        (s.ask (.release ticket.session_id) env.release).2.bind
          (AdmissionPhase.unbinding admitted).reply) := by
    rw [Stores.wait, AdmissionPhase.pool_call, howner]
    rfl
  have hsettled := Stores.ask_settled hidle (.release ticket.session_id) env.release
  rw [Stores.run, hwait] at hdropped ⊢
  cases hanswer : env.release with
  | dropped ok =>
    rw [hanswer] at hsettled
    exact ⟨ok, rfl, hsettled⟩
  | replied ok =>
    rw [hanswer] at hdropped
    cases hdropped
  | timed_out ok before =>
    rw [hanswer] at hdropped
    cases before <;> cases hdropped
  | refused error =>
    rw [hanswer] at hdropped
    cases hdropped

/-- **What a dropped admission leaves.** When the pass of a first admission is dropped,
nothing of it remains once the owner is idle exactly if it was dropped at the replay
consume, or in the release after the connections turned out to be full, and that
release could give the lease back. -/
theorem dropped_leaves_nothing_iff {consume : ConsumeAnswer} (h : Unknown s ticket.session_id)
    (hdropped : (s.admit_one ctx env consume ticket).2 = .dropped) :
    Clean ticket.session_id (s.admit_one ctx env consume ticket).1 ↔
      consume = .dropped ∨ ((∀ ok, env.reserve ≠ .dropped ok) ∧ s.manager.connections_full ∧
        release_effective s env ticket.session_id) := by
  cases consume with
  | failed error => contradiction
  | dropped =>
    refine ⟨fun _ => .inl rfl, fun _ => ?_⟩
    change Clean ticket.session_id s.drain
    rw [Stores.drain_idle h.idle]
    exact h.toClean
  | consumed =>
  change (s.accept_one ctx env ticket).2 = .dropped at hdropped
  change Clean ticket.session_id (s.accept_one ctx env ticket).1 ↔ _
  rw [Stores.accept_one] at hdropped ⊢
  rcases h.admit_finish ctx with ⟨m, e, removals, hgranted⟩ |
    ⟨m, admitted, hgranted, howner, hid, hreserved, hfull⟩
  · rw [hgranted] at hdropped
    contradiction
  rw [hgranted] at hdropped ⊢
  dsimp only at hdropped ⊢
  rw [Stores.cleanup_nil, Stores.MAX_PHASES, Stores.run] at hdropped ⊢
  have hwait : ({ s with manager := m } : Stores).wait ctx env (.reserving admitted) =
      ((({ s with manager := m } : Stores).ask
          (.reserve ticket.session_id ticket.device_id ctx.pool_now) env.reserve).1,
        (({ s with manager := m } : Stores).ask
          (.reserve ticket.session_id ticket.device_id ctx.pool_now) env.reserve).2.bind
            (AdmissionPhase.reserving admitted).reply) := by
    rw [Stores.wait, AdmissionPhase.pool_call, howner]
    rfl
  rw [hwait] at hdropped ⊢
  cases hanswer : env.reserve with
  | refused error =>
    rw [hanswer] at hdropped
    cases hdropped
  | timed_out ok before =>
    rw [hanswer] at hdropped
    cases before <;> cases hdropped
  | dropped ok =>
    -- the reservation of the session manager stays
    constructor
    · intro hclean
      have hheld : m.admissions.lookup ticket.session_id = none := hclean.admission
      rw [← hid, hreserved.held] at hheld
      contradiction
    · rintro (hconsume | ⟨hnot, -⟩)
      · contradiction
      · exact absurd rfl (hnot ok)
  | replied ok =>
    obtain ⟨result, hresult⟩ := PoolSystem.serve_reserve_reports (s := s.pool) ticket.session_id
      ticket.device_id ctx.pool_now ok
    have hask : ({ s with manager := m } : Stores).ask
        (.reserve ticket.session_id ticket.device_id ctx.pool_now) (.replied ok) =
          (⟨m, (s.pool.serve (.reserve ticket.session_id ticket.device_id ctx.pool_now) ok).1, []⟩,
            some (.ok [.reserved ticket.session_id result])) := by
      have hidle : ({ s with manager := m } : Stores).late = [] := h.idle
      rw [Stores.ask, Stores.drain_idle hidle, hresult, hidle]
    rw [hanswer, hask] at hdropped
    rw [hask]
    cases result with
    | error e => cases hdropped
    | ok a =>
    dsimp only [Option.bind_some, AdmissionPhase.reply, List.findSome?_cons, admission_step]
      at hdropped ⊢
    rcases hreserved.bind_turn with
      ⟨hroom, m', removal, hturn, hremoved, hsession, hadmission, hconnections⟩ |
      ⟨hroom, m', connection, managed, hturn, hauthenticated, hsession⟩
    · -- the connections are full: the session is gone, and its lease follows
      rw [hturn] at hdropped ⊢
      dsimp only at hdropped ⊢
      obtain ⟨released, hreleased, hafter⟩ := run_unbinding_dropped _ rfl howner 2 hdropped
      rw [hid] at hremoved hsession hadmission hconnections
      obtain ⟨p, hp⟩ := h.coherent.places ticket.session_id
      have hcleaned : (({ manager := m', pool := (s.pool.serve (.reserve ticket.session_id
          ticket.device_id ctx.pool_now) ok).1, late := [] } : Stores).cleanup [removal]).pool =
            (s.pool.serve (.reserve ticket.session_id ticket.device_id ctx.pool_now)
              ok).1.defer ticket.session_id := by
        rw [← hremoved]
        rfl
      have hgiven := PoolSystem.reserved_given_back hp.slot h.active h.pending hresult released
        (congrArg (fun pool => (pool.serve (.release ticket.session_id) released).1) hcleaned)
      rw [hafter]
      constructor
      · intro hclean
        refine .inr ⟨fun ok h => by contradiction, hfull.mp hroom, ?_⟩
        rcases hgiven.mp ⟨hclean.active, hclean.pending⟩ with hin | hcond
        · exact .inl hin
        · right
          rintro ⟨hdurable, hfalse, hquarantine⟩
          rw [hreleased] at hfalse
          exact hcond ⟨hdurable, Option.some.inj hfalse, hquarantine⟩
      · rintro (hconsume | ⟨-, -, heffective⟩)
        · contradiction
        have hgone := hgiven.mpr <| heffective.imp_right <| by
          rintro hcond ⟨hdurable, hfalse, hquarantine⟩
          exact hcond ⟨hdurable, hreleased.trans (congrArg some hfalse), hquarantine⟩
        exact ⟨hsession, hadmission, hconnections, hgone.1, hgone.2⟩
    · -- the session is there to stay
      rw [hturn] at hdropped ⊢
      dsimp only at hdropped ⊢
      have hkept := Stores.run_dropped_keeps rfl hauthenticated hdropped
      constructor
      · intro hclean
        have hlookup := hclean.session
        rw [Stores.drain_manager, hkept, Stores.cleanup_manager] at hlookup
        dsimp only at hlookup
        rw [← hid, hsession] at hlookup
        contradiction
      · rintro (hconsume | ⟨-, hconnections, -⟩)
        · contradiction
        · exact absurd (hfull.mpr hconnections) hroom

end First

section Sample

open Stores.Sample

/-- A gateway that has just started knows no session. -/
theorem fresh_unknown (session_id : SessionId) : Unknown fresh session_id :=
  { session := rfl
    admission := rfl
    connections := fun _ h => by contradiction
    active := rfl
    pending := rfl
    configured := ⟨_, rfl⟩
    coherent := fresh_sound.coherent
    idle := rfl }

/-- The pass is dropped while the ticket is consumed, and while the lease is reserved. -/
theorem dropped_leaves_nothing_sample :
    ((fresh.admit_one context prompt .dropped ticket).2 = .dropped ∧
        Clean ticket.session_id (fresh.admit_one context prompt .dropped ticket).1) ∧
      (fresh.admit_one context { prompt with reserve := .dropped true } .consumed ticket).2 =
          .dropped ∧
        ¬ Clean ticket.session_id
          (fresh.admit_one context { prompt with reserve := .dropped true } .consumed ticket).1 := by
  have hconsume : (fresh.admit_one context prompt .dropped ticket).2 = .dropped := by
    decide
  have hreserve : (fresh.admit_one context { prompt with reserve := .dropped true } .consumed
      ticket).2 = .dropped := by
    decide
  refine ⟨⟨hconsume, (dropped_leaves_nothing_iff (fresh_unknown _) hconsume).mpr (.inl rfl)⟩,
    hreserve, fun hclean => ?_⟩
  rcases (dropped_leaves_nothing_iff (fresh_unknown _) hreserve).mp hclean with
    hconsumed | ⟨hanswered, -⟩
  · contradiction
  · exact hanswered true rfl

/-- The pass is dropped while it writes `SessionAdmit`: the session, its capability
and its Active lease stay. -/
theorem dropped_write_leaves_session :
    Unknown fresh ticket.session_id ∧
      (fresh.admit_one context { prompt with write := .dropped } .consumed ticket).2 = .dropped ∧
      (fresh.admit_one context { prompt with write := .dropped }
        .consumed ticket).1.manager.authenticated_connections.lookup ⟨1⟩ = some ticket.session_id ∧
      (AddressPool.lookup_active (fresh.admit_one context { prompt with write := .dropped }
        .consumed ticket).1.pool.pool.inner ticket.session_id).isSome = true ∧
      ¬ Clean ticket.session_id
        (fresh.admit_one context { prompt with write := .dropped } .consumed ticket).1 := by
  have hbound : (fresh.admit_one context { prompt with write := .dropped }
      .consumed ticket).1.manager.authenticated_connections.lookup ⟨1⟩ =
        some ticket.session_id := by
    decide
  exact ⟨fresh_unknown _, by decide, hbound, by decide,
    fun hclean => hclean.connections ⟨1⟩ hbound⟩

end Sample

end StreamGuard.Gateway
