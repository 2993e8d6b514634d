/-
What a manager call does, as a chain of elementary updates.

A method takes the lock once and may do several things under it: it prunes
attaches that ran out, removes an expired session, enters a reservation. `Update`
lists what a method can do at all, each with the guard that the method has
checked by then; `ManagerCall.updates` says that every call is a chain of them
and reports what the call's reply reports. An invariant of the manager is then a
case analysis over `Update`, done once, whatever the number of methods.

Two of the updates are only reached because the maps agree with the sessions: a
bound connection has its path, a pending attach has its session. `Coherent` is
that agreement, as far as it holds of every state.
-/
import StreamGuard.Gateway.SessionLedger
import StreamGuard.Lib.Fold
import StreamGuard.Session.PathBindings

set_option autoImplicit false

namespace StreamGuard.Gateway

open StreamGuard StreamGuard.Lib StreamGuard.Session

/-! ## Events -/

/-- Who a session belongs to. -/
structure SessionIdentity where
  session_id : SessionId
  device_id : DeviceId
  organization_id : OrganizationId
  deriving DecidableEq

def AdmissionReservation.identity (reservation : AdmissionReservation) : SessionIdentity :=
  ⟨reservation.session_id, reservation.device_id, reservation.organization_id⟩

def SessionRemoval.identity (removal : SessionRemoval) : SessionIdentity :=
  ⟨removal.session_id, removal.device_id, removal.organization_id⟩

/-- A committed path taken off its session, and the time its number is quarantined from. -/
structure Detachment where
  session_id : SessionId
  path_id : PathId
  path_epoch : U64
  at_ms : ℕ
  deriving DecidableEq

/-- What a call reports. -/
inductive SessionEvent where
  | admitted (identity : SessionIdentity)
  | issued (connection : AuthenticatedConnection)
  | reserved (reservation : GatewayAttachReservation)
  | detached (detachment : Detachment)
  | removed (removal : SessionRemoval)
  deriving DecidableEq

/-- The identity of the session that a commit inserts. -/
def V2SessionManager.admits (m : V2SessionManager) (reservation : AdmissionReservation)
    (now_ms : ℕ) : List SessionIdentity :=
  if reservation.creates_session then
    match (m.insert_admitted reservation now_ms).2 with
    | .ok () => [reservation.identity]
    | .error _ => []
  else []

/-- The session that a call inserts. -/
def ManagerCall.admitted (m : V2SessionManager) : ManagerCall → List SessionIdentity
  | .commit_admission reservation now_ms => m.admits reservation now_ms
  | .commit_admission_and_bind reservation now_ms => m.admits reservation now_ms
  | _ => []

/-- The capability that a call returns. -/
def ManagerCall.issued (m : V2SessionManager) : ManagerCall → List AuthenticatedConnection
  | .commit_admission_and_bind reservation now_ms =>
    (m.commit_admission_and_bind reservation now_ms).result.toOption.toList
  | .bind_authenticated_connection session_id now_ms =>
    (m.bind_authenticated_connection session_id now_ms).result.toOption.toList
  | _ => []

/-- The attach reservation that a call returns. -/
def ManagerCall.reserved (m : V2SessionManager) : ManagerCall → List GatewayAttachReservation
  | .reserve_attach connection path_epoch key_epoch now_ms =>
    (m.reserve_attach connection path_epoch key_epoch now_ms).result.toOption.toList
  | _ => []

/-- The detachment of a connection's path at a time. -/
def V2SessionManager.detachment (m : V2SessionManager) (connection_id : ConnectionId)
    (at_ms : ManagedSession → ℕ) : List Detachment :=
  match m.connections.lookup connection_id with
  | none => []
  | some (session_id, path_id, path_epoch, _) =>
    (m.sessions.lookup session_id).toList.map (fun managed =>
      ⟨session_id, path_id, path_epoch, at_ms managed⟩)

/-- The path that a call detaches: a detach that succeeds, or the closing of a
connection that has a path and no pending attach. Closing has no clock reading, and
takes the last activity of the session for one. -/
def ManagerCall.detached (m : V2SessionManager) : ManagerCall → List Detachment
  | .detach_connection connection path_id path_epoch now_ms =>
    if (m.detach_connection connection path_id path_epoch now_ms).result.toOption = some true then
      m.detachment connection.connection_id (fun _ => now_ms)
    else []
  | .close_connection connection =>
    if m.authenticates connection ∧ connection.connection_id ∉ m.pending_connections then
      m.detachment connection.connection_id (·.last_activity_ms)
    else []
  | _ => []

/-- Everything a call reports. -/
def ManagerCall.events (m : V2SessionManager) (call : ManagerCall) : List SessionEvent :=
  (call.admitted m).map .admitted ++ (call.issued m).map .issued ++
    (call.reserved m).map .reserved ++ (call.detached m).map .detached ++
    (call.apply m).2.map .removed

/-- The clock reading a call is given. -/
def ManagerCall.now_ms : ManagerCall → Option ℕ
  | .reserve_admission _ _ _ _ now_ms | .commit_admission _ now_ms
  | .commit_admission_and_bind _ now_ms | .bind_authenticated_connection _ now_ms
  | .reserve_attach _ _ _ now_ms | .detach_connection _ _ _ now_ms
  | .validate_attached_path _ _ _ _ now_ms | .validate_ingress _ _ now_ms
  | .record_authenticated_activity _ now_ms | .sweep _ now_ms => some now_ms
  | .abort_admission _ | .commit_attach _ | .close_connection _ | .begin_draining _ | .close _
  | .close_all _ | .close_session _ => none

/-- One call with what it reports. -/
def manager_step (m : V2SessionManager) (call : ManagerCall) :
    Option (V2SessionManager × List SessionEvent) :=
  some ((call.apply m).1, call.events m)

/-! ## Elementary updates -/

/-- The session is as before but for its activity, its state and the tombstones
whose time is up at the clock reading. -/
structure Rests (clock : Option ℕ) (managed managed' : ManagedSession) : Prop where
  paths : managed'.session.paths = managed.session.paths
  history : managed'.session.path_epoch_history = managed.session.path_epoch_history
  limits : managed'.session.limits = managed.session.limits
  tombed : ∀ path_id ∈ managed'.session.path_tombstones,
    path_id ∈ managed.session.path_tombstones
  kept : ∀ {path_id tombstone}, managed.session.path_tombstones.lookup path_id = some tombstone →
    (∀ now_ms ∈ clock, now_ms < tombstone.expires_at_ms) →
    managed'.session.path_tombstones.lookup path_id = some tombstone
  admission : managed'.session.admission = managed.session.admission
  organization : managed'.organization_id = managed.organization_id

theorem Rests.refl (clock : Option ℕ) (managed : ManagedSession) : Rests clock managed managed :=
  ⟨rfl, rfl, rfl, fun _ h => h, fun h _ => h, rfl, rfl⟩

theorem Rests.touch (clock : Option ℕ) (managed : ManagedSession) (now_ms : ℕ) :
    Rests clock managed { managed with last_activity_ms := now_ms } :=
  ⟨rfl, rfl, rfl, fun _ h => h, fun h _ => h, rfl, rfl⟩

/-- Pruning at the clock reading, whatever the allocator did. -/
theorem Rests.prune (managed : ManagedSession) (now_ms : ℕ) (next : U16) :
    Rests (some now_ms) managed { managed with
      session := { managed.session.prune_path_tombstones now_ms with next_path_id := next } } := by
  refine ⟨rfl, rfl, rfl, fun path_id h => V2Session.mem_of_prune h, ?_, rfl, rfl⟩
  intro path_id tombstone hlookup hnow
  exact V2Session.prune_tombstone_order_keeps _ _ hlookup (hnow now_ms rfl)

theorem Rests.drain (clock : Option ℕ) (managed : ManagedSession) :
    Rests clock managed { managed with session := managed.session.begin_draining.1 } := by
  rw [V2Session.begin_draining]
  split
  · exact .refl clock managed
  · exact ⟨rfl, rfl, rfl, fun _ h => h, fun h _ => h, rfl, rfl⟩

namespace V2SessionManager

/-- What a call can do to the state. -/
inductive Update (call : ManagerCall) :
    V2SessionManager → List SessionEvent → V2SessionManager → Prop
  /-- Reservations go. -/
  | release {m : V2SessionManager} (admissions : Map SessionId AdmissionReservation)
      (hsub : ∀ id r, admissions.lookup id = some r → m.admissions.lookup id = some r) :
      Update call m [] { m with admissions := admissions }
  /-- A session ID is reserved. -/
  | reserve {m : V2SessionManager} (reservation : AdmissionReservation)
      (hsession : reservation.session_id ∉ m.sessions)
      (hfree : reservation.session_id ∉ m.admissions)
      (hroom : m.sessions.len + m.admissions.len < m.config.maximum_sessions) :
      Update call m []
        { m with admissions := m.admissions.insert reservation.session_id reservation }
  /-- The reservation becomes a session. -/
  | insert {m : V2SessionManager} {reservation : AdmissionReservation} {session : V2Session}
      {now_ms : ℕ} (hheld : m.admissions.lookup reservation.session_id = some reservation)
      (hsession : m.activated_session reservation now_ms = .ok session) :
      Update call m [.admitted reservation.identity]
        ({ m with admissions := m.admissions.erase reservation.session_id }.update_session
          reservation.session_id ⟨session, reservation.organization_id, now_ms⟩)
  /-- A capability is handed out. -/
  | issue {m : V2SessionManager} {session_id : SessionId} (hsession : session_id ∈ m.sessions)
      (hroom : m.authenticated_connections.len < m.maximum_authenticated_connections) :
      Update call m [.issued ⟨session_id, ⟨m.next_connection_identity.2⟩⟩]
        (m.bind session_id).manager
  /-- A session is touched, pruned, drained or left alone. -/
  | rest {m : V2SessionManager} {session_id : SessionId} {managed managed' : ManagedSession}
      (hlookup : m.sessions.lookup session_id = some managed)
      (h : Rests call.now_ms managed managed') :
      Update call m [] (m.update_session session_id managed')
  /-- A pending attach goes. -/
  | forget {m : V2SessionManager} (connection_id : ConnectionId) :
      Update call m []
        { m with pending_connections := m.pending_connections.erase connection_id }
  /-- A pending attach goes and its path is aborted. -/
  | abort {m : V2SessionManager} (connection_id : ConnectionId)
      (reservation : GatewayAttachReservation) {managed : ManagedSession}
      (hlookup : m.sessions.lookup reservation.session_id = some managed) :
      Update call m []
        ({ m with
            pending_connections := m.pending_connections.erase connection_id }.update_session
          reservation.session_id
          { managed with session := (managed.session.abort_attach reservation.reservation).1 })
  /-- A path is reserved for an authenticated connection. -/
  | attach {m : V2SessionManager} {session_id : SessionId} {managed : ManagedSession}
      {reservation : AttachReservation} {now_ms : ℕ} (next : U16) (expires_at_ms : ℕ)
      (hclock : call.now_ms = some now_ms)
      (hauth : m.authenticated_connections.lookup reservation.connection_id = some session_id)
      (hunbound : reservation.connection_id ∉ m.connections)
      (hidle : reservation.connection_id ∉ m.pending_connections)
      (hroom : m.pending_connections.len < m.config.maximum_pending_attaches)
      (hlookup : m.sessions.lookup session_id = some managed)
      (hadmits : managed.session.Admits now_ms reservation) :
      Update call m [.reserved ⟨session_id, reservation⟩]
        { m.update_session session_id { managed with
            session := (managed.session.prune_path_tombstones now_ms).enter_path next reservation }
          with
          pending_connections := m.pending_connections.insert reservation.connection_id
            ⟨⟨session_id, reservation⟩, expires_at_ms⟩ }
  /-- A pending attach becomes a binding. -/
  | commit {m : V2SessionManager} {session_id : SessionId} {managed : ManagedSession}
      {reservation : AttachReservation} {entry : PathEntry}
      (hpending : (m.pending_connections.lookup reservation.connection_id).map (·.reservation) =
        some ⟨session_id, reservation⟩)
      (hlookup : m.sessions.lookup session_id = some managed)
      (hentry : managed.session.paths.lookup reservation.path_id = some entry)
      (hreserves : V2Session.reserves entry reservation = true) :
      Update call m []
        { ({ m with pending_connections :=
              m.pending_connections.erase reservation.connection_id }).update_session session_id
            { managed with session := { managed.session with
                paths := managed.session.paths.insert reservation.path_id
                  ⟨{ entry.binding with state := .Healthy }, false⟩ } }
          with
          connections := m.connections.insert reservation.connection_id
            (session_id, reservation.path_id, reservation.path_epoch, reservation.key_epoch) }
  /-- A binding goes and its path is detached. -/
  | detach {m : V2SessionManager} {connection_id : ConnectionId} {session_id : SessionId}
      {path_id : PathId} {path_epoch : U64} {key_epoch : U32} {managed : ManagedSession}
      {entry : PathEntry} (now_ms : ℕ)
      (hbound : m.connections.lookup connection_id =
        some (session_id, path_id, path_epoch, key_epoch))
      (hlookup : m.sessions.lookup session_id = some managed)
      (hentry : managed.session.paths.lookup path_id = some entry) :
      Update call m [.detached ⟨session_id, path_id, path_epoch, now_ms⟩]
        ({ m with connections := m.connections.erase connection_id }.update_session session_id
          { managed with session := managed.session.quarantine_path path_id entry now_ms })
  /-- A capability that binds nothing any more goes. -/
  | revoke {m : V2SessionManager} (connection : AuthenticatedConnection)
      (hcall : call = .close_connection connection)
      (h : m.authenticated_connections.lookup connection.connection_id ≠
          some connection.session_id ∨
        connection.connection_id ∉ m.connections ∧
          connection.connection_id ∉ m.pending_connections) :
      Update call m [] { m with
        authenticated_connections := m.authenticated_connections.erase connection.connection_id }
  /-- A session goes with everything that refers to it. -/
  | remove {m : V2SessionManager} {session_id : SessionId} {managed : ManagedSession}
      (reason : SessionRemovalReason) (hlookup : m.sessions.lookup session_id = some managed) :
      Update call m
        [.removed ⟨session_id, managed.session.admission.device_id, managed.organization_id,
          reason⟩]
        (m.remove_session session_id reason).1

/-- A chain of updates with everything it reports. -/
inductive Updates (call : ManagerCall) :
    V2SessionManager → List SessionEvent → V2SessionManager → Prop
  | nil (m : V2SessionManager) : Updates call m [] m
  | cons {m m' m'' : V2SessionManager} {events events' : List SessionEvent}
      (h : Update call m events m') (rest : Updates call m' events' m'') :
      Updates call m (events ++ events') m''

variable {call : ManagerCall} {m m' m'' : V2SessionManager} {events events' : List SessionEvent}

theorem Updates.one (h : Update call m events m') : Updates call m events m' := by
  have hchain := Updates.cons h (.nil m')
  rwa [List.append_nil] at hchain

theorem Updates.trans (h : Updates call m events m') (h' : Updates call m' events' m'') :
    Updates call m (events ++ events') m'' := by
  induction h with
  | nil m => exact h'
  | cons hu _ ih =>
    rw [List.append_assoc]
    exact .cons hu (ih h')

/-- A silent update before a chain. -/
theorem Updates.after (h : Update call m [] m') (h' : Updates call m' events m'') :
    Updates call m events m'' :=
  .cons h h'

/-- **The chain rule.** A property of the state and of what was reported so far that
every update carries over is carried over by a chain. -/
theorem Updates.induct {P : V2SessionManager → List SessionEvent → Prop}
    (hstep : ∀ {m m' seen events}, P m seen → Update call m events m' → P m' (seen ++ events))
    {seen : List SessionEvent} (hP : P m seen) (h : Updates call m events m') :
    P m' (seen ++ events) := by
  induction h generalizing seen with
  | nil m => rwa [List.append_nil]
  | cons hu _ ih =>
    rw [← List.append_assoc]
    exact ih (hstep hP hu)

/-- The chain rule for a property of the state. -/
theorem Updates.invariant {I : V2SessionManager → Prop}
    (hstep : ∀ {m m' events}, I m → Update call m events m' → I m') (hI : I m)
    (h : Updates call m events m') : I m' :=
  @Updates.induct call m m' events (fun m _ => I m) (fun hi hu => hstep hi hu) [] hI h

/-! ## The maps agree with the sessions -/

/-- A bound connection has its path in its session; a capability and a pending
attach have their session; nothing is pending and bound, or admitted and reserved. -/
structure Coherent (m : V2SessionManager) : Prop where
  orderly : ∀ {session_id managed}, m.sessions.lookup session_id = some managed →
    managed.session.Orderly
  bound : ∀ {connection_id session_id path_id path_epoch key_epoch},
    m.connections.lookup connection_id = some (session_id, path_id, path_epoch, key_epoch) →
    ∃ managed, m.sessions.lookup session_id = some managed ∧
      managed.session.Binds path_id path_epoch key_epoch connection_id
  exclusive : ∀ {connection_id}, connection_id ∈ m.pending_connections →
    connection_id ∉ m.connections
  apart : ∀ {session_id}, session_id ∈ m.sessions → session_id ∉ m.admissions
  authenticated : ∀ {connection_id session_id},
    m.authenticated_connections.lookup connection_id = some session_id → session_id ∈ m.sessions
  pending : ∀ {connection_id pending}, m.pending_connections.lookup connection_id = some pending →
    pending.reservation.session_id ∈ m.sessions

theorem new_coherent {config : V2SessionManagerConfig}
    (h : V2SessionManager.new config = .ok m) : m.Coherent := by
  rw [V2SessionManager.new] at h
  split at h
  · contradiction
  · obtain rfl := Except.ok.inj h
    refine ⟨?_, ?_, ?_, ?_, ?_, ?_⟩ <;> simp

variable {session_id : SessionId} {managed managed' : ManagedSession}

theorem update_session_lookup (m : V2SessionManager) (session_id id : SessionId)
    (managed : ManagedSession) : (m.update_session session_id managed).sessions.lookup id =
      if id = session_id then some managed else m.sessions.lookup id :=
  AList.lookup_insert_of

/-- Fewer connections, pending attaches and capabilities. -/
theorem Coherent.restrict (h : m.Coherent) (hsessions : m'.sessions = m.sessions)
    (hadmissions : m'.admissions = m.admissions)
    (hconnections : ∀ {c b}, m'.connections.lookup c = some b → m.connections.lookup c = some b)
    (hpending : ∀ {c p}, m'.pending_connections.lookup c = some p →
      m.pending_connections.lookup c = some p)
    (hauthenticated : ∀ {c s}, m'.authenticated_connections.lookup c = some s →
      m.authenticated_connections.lookup c = some s) : m'.Coherent := by
  refine ⟨?_, ?_, ?_, ?_, ?_, ?_⟩
  · intro id managed hl
    rw [hsessions] at hl
    exact h.orderly hl
  · intro c id path_id path_epoch key_epoch hl
    rw [hsessions]
    exact h.bound (hconnections hl)
  · intro c hc hbound
    obtain ⟨p, hp⟩ := AList.mem_iff_lookup.mp hc
    obtain ⟨b, hb⟩ := AList.mem_iff_lookup.mp hbound
    exact h.exclusive (AList.mem_of_lookup (hpending hp)) (AList.mem_of_lookup (hconnections hb))
  · intro id hid
    rw [hsessions] at hid
    rw [hadmissions]
    exact h.apart hid
  · intro c id hl
    rw [hsessions]
    exact h.authenticated (hauthenticated hl)
  · intro c p hl
    rw [hsessions]
    exact h.pending (hpending hl)

/-- A session that keeps the paths of its bound connections. -/
theorem Coherent.update (h : m.Coherent) (hlookup : m.sessions.lookup session_id = some managed)
    (horderly : managed'.session.Orderly)
    (hbound : ∀ {connection_id path_id path_epoch key_epoch},
      m.connections.lookup connection_id = some (session_id, path_id, path_epoch, key_epoch) →
      managed.session.Binds path_id path_epoch key_epoch connection_id →
      managed'.session.Binds path_id path_epoch key_epoch connection_id) :
    (m.update_session session_id managed').Coherent := by
  have hmem : session_id ∈ m.sessions := AList.mem_of_lookup hlookup
  have hsessions : ∀ {id}, id ∈ (m.update_session session_id managed').sessions ↔
      id ∈ m.sessions := by
    intro id
    rw [update_session, AList.mem_insert]
    exact ⟨fun hid => hid.elim (fun he => he ▸ hmem) (fun hid => hid), .inr⟩
  refine ⟨?_, ?_, h.exclusive, ?_, ?_, ?_⟩
  · intro id other hl
    rw [update_session_lookup] at hl
    by_cases hid : id = session_id
    · rw [if_pos hid, Option.some.injEq] at hl
      rwa [← hl]
    · rw [if_neg hid] at hl
      exact h.orderly hl
  · intro c id path_id path_epoch key_epoch hl
    obtain ⟨other, hother, hbinds⟩ := h.bound hl
    rw [update_session_lookup]
    by_cases hid : id = session_id
    · subst hid
      rw [hlookup, Option.some.injEq] at hother
      subst hother
      rw [if_pos rfl]
      exact ⟨managed', rfl, hbound hl hbinds⟩
    · rw [if_neg hid]
      exact ⟨other, hother, hbinds⟩
  · intro id hid
    exact h.apart (hsessions.mp hid)
  · intro c id hl
    exact hsessions.mpr (h.authenticated hl)
  · intro c p hl
    exact hsessions.mpr (h.pending hl)

theorem activated_session_eq {reservation : AdmissionReservation} {now_ms : ℕ}
    {session : V2Session} (h : m.activated_session reservation now_ms = .ok session) :
    session = ⟨⟨reservation.session_id, reservation.device_id, reservation.expires_at_ms⟩, .Active,
      m.config.maximum_paths_per_session, ∅, 1, ∅, ∅, [], m.config.maximum_path_epoch_history,
      m.config.maximum_path_tombstones, m.config.path_tombstone_ttl_ms⟩ := by
  rw [activated_session] at h
  split at h
  · contradiction
  next fresh hnew =>
  obtain rfl := V2Session.new_ok hnew
  split at h
  · contradiction
  next active hactivate =>
  obtain rfl := Except.ok.inj h
  rw [V2Session.activate] at hactivate
  split at hactivate
  · cases hactivate
  split at hactivate
  · cases hactivate
  · exact (Prod.mk.inj hactivate).1.symm

/-- Aborting an attach leaves the committed paths alone. -/
theorem abort_attach_binds {session : V2Session} {reservation : AttachReservation}
    {path_id : PathId} {path_epoch : U64} {key_epoch : U32} {connection_id : ConnectionId}
    (h : session.Binds path_id path_epoch key_epoch connection_id) :
    (session.abort_attach reservation).1.Binds path_id path_epoch key_epoch connection_id := by
  rcases session.abort_attach_cases reservation with hr | ⟨entry, hentry, hreserves, hr⟩
  · rwa [hr]
  rw [hr]
  obtain ⟨held, hheld, hcommitted, hrest⟩ := h
  refine ⟨held, ?_, hcommitted, hrest⟩
  have hne : path_id ≠ reservation.path_id := by
    rintro rfl
    rw [hentry, Option.some.injEq] at hheld
    subst hheld
    simp [V2Session.reserves, hcommitted] at hreserves
  rwa [AList.lookup_erase_of, if_neg hne]

theorem remove_session_some (m : V2SessionManager) (reason : SessionRemovalReason)
    (hlookup : m.sessions.lookup session_id = some managed) :
    m.remove_session session_id reason =
      ({ m with
        sessions := m.sessions.erase session_id
        connections := m.connections.retain (fun _ b => b.1 ≠ session_id)
        pending_connections :=
          m.pending_connections.retain (fun _ p => p.reservation.session_id ≠ session_id)
        authenticated_connections :=
          m.authenticated_connections.retain (fun _ bound => bound ≠ session_id) },
      some ⟨session_id, managed.session.admission.device_id, managed.organization_id, reason⟩) := by
  rw [remove_session, hlookup]

theorem remove_coherent (h : m.Coherent) (reason : SessionRemovalReason)
    (hlookup : m.sessions.lookup session_id = some managed) :
    (m.remove_session session_id reason).1.Coherent := by
  rw [remove_session_some m reason hlookup]
  refine ⟨?_, ?_, ?_, ?_, ?_, ?_⟩
  · intro id other hl
    exact h.orderly (AList.lookup_of_erase hl)
  · intro c id path_id path_epoch key_epoch hl
    obtain ⟨hl, hother⟩ := AList.lookup_retain_eq_some.mp hl
    obtain ⟨other, hlookup', hbinds⟩ := h.bound hl
    have hne : id ≠ session_id := by simpa using hother
    refine ⟨other, ?_, hbinds⟩
    rw [AList.lookup_erase_of, if_neg hne]
    exact hlookup'
  · intro c hc hbound
    obtain ⟨p, hp⟩ := AList.mem_iff_lookup.mp hc
    obtain ⟨b, hb⟩ := AList.mem_iff_lookup.mp hbound
    exact h.exclusive (AList.mem_of_lookup (AList.lookup_retain_eq_some.mp hp).1)
      (AList.mem_of_lookup (AList.lookup_retain_eq_some.mp hb).1)
  · intro id hid
    exact h.apart (AList.mem_erase.mp hid).2
  · intro c id hl
    obtain ⟨hl, hother⟩ := AList.lookup_retain_eq_some.mp hl
    exact AList.mem_erase.mpr ⟨by simpa using hother, h.authenticated hl⟩
  · intro c p hl
    obtain ⟨hl, hother⟩ := AList.lookup_retain_eq_some.mp hl
    exact AList.mem_erase.mpr ⟨by simpa using hother, h.pending hl⟩

theorem admit_coherent (h : m.Coherent) {reservation : AdmissionReservation} {session : V2Session}
    {now_ms : ℕ} (hheld : m.admissions.lookup reservation.session_id = some reservation)
    (hsession : m.activated_session reservation now_ms = .ok session) :
    ({ m with admissions := m.admissions.erase reservation.session_id }.update_session
      reservation.session_id ⟨session, reservation.organization_id, now_ms⟩).Coherent := by
  have hfresh : reservation.session_id ∉ m.sessions :=
    fun hmem => h.apart hmem (AList.mem_of_lookup hheld)
  have hkeeps : ∀ {id}, id ∈ m.sessions → id ∈ m.sessions.insert reservation.session_id
      ⟨session, reservation.organization_id, now_ms⟩ := fun hid => (AList.mem_insert _).mpr (.inr hid)
  refine ⟨?_, ?_, h.exclusive, ?_, ?_, ?_⟩
  · intro id managed hl
    rw [update_session_lookup] at hl
    by_cases hid : id = reservation.session_id
    · rw [if_pos hid, Option.some.injEq] at hl
      rw [← hl, activated_session_eq hsession]
      exact .of_empty rfl rfl
    · rw [if_neg hid] at hl
      exact h.orderly hl
  · intro c id path_id path_epoch key_epoch hl
    obtain ⟨managed, hlookup, hbinds⟩ := h.bound hl
    have hne : id ≠ reservation.session_id := by
      rintro rfl
      exact hfresh (AList.mem_of_lookup hlookup)
    refine ⟨managed, ?_, hbinds⟩
    rw [update_session_lookup, if_neg hne]
    exact hlookup
  · intro id hid hreserved
    obtain ⟨hne, hheld'⟩ := AList.mem_erase.mp hreserved
    rcases (AList.mem_insert _).mp hid with he | hid
    · exact hne he
    · exact h.apart hid hheld'
  · intro c id hl
    exact hkeeps (h.authenticated hl)
  · intro c p hl
    exact hkeeps (h.pending hl)

/-- Handing out an identity writes the counter and the new capability. -/
theorem bind_manager (m : V2SessionManager) (session_id : SessionId) :
    ∃ next, (m.bind session_id).manager = { m with
      next_connection_id := next
      authenticated_connections := m.authenticated_connections.insert
        ⟨m.next_connection_identity.2⟩ session_id } := by
  obtain ⟨next, hnext⟩ := next_connection_identity_fst m
  refine ⟨next, ?_⟩
  rw [V2SessionManager.bind]
  dsimp only [V2SessionManager.returns]
  rw [hnext]

theorem issue_coherent (h : m.Coherent) (hsession : session_id ∈ m.sessions) :
    (m.bind session_id).manager.Coherent := by
  obtain ⟨next, hbind⟩ := bind_manager m session_id
  rw [hbind]
  refine ⟨h.orderly, h.bound, h.exclusive, h.apart, ?_, h.pending⟩
  intro c id hl
  rw [AList.lookup_insert_of] at hl
  by_cases hc : c = ⟨m.next_connection_identity.2⟩
  · rw [if_pos hc, Option.some.injEq] at hl
    rwa [← hl]
  · rw [if_neg hc] at hl
    exact h.authenticated hl

theorem attach_coherent (h : m.Coherent) {reservation : AttachReservation} {now_ms : ℕ}
    (next : U16) (expires_at_ms : ℕ) (hunbound : reservation.connection_id ∉ m.connections)
    (hlookup : m.sessions.lookup session_id = some managed)
    (hadmits : managed.session.Admits now_ms reservation) :
    Coherent { m.update_session session_id { managed with
        session := (managed.session.prune_path_tombstones now_ms).enter_path next reservation }
      with
      pending_connections := m.pending_connections.insert reservation.connection_id
        ⟨⟨session_id, reservation⟩, expires_at_ms⟩ } := by
  obtain ⟨hfree, -⟩ := V2Session.eligible_path_id_free hadmits.eligible
  have hupdate : Coherent (m.update_session session_id { managed with
      session := (managed.session.prune_path_tombstones now_ms).enter_path next reservation }) :=
    h.update hlookup ((h.orderly hlookup).enter next hadmits) (by
    rintro c path_id path_epoch key_epoch - ⟨entry, hentry, hrest⟩
    refine ⟨entry, ?_, hrest⟩
    have hne : path_id ≠ reservation.path_id := by
      rintro rfl
      exact hfree (AList.mem_of_lookup hentry)
    change (managed.session.paths.insert _ _).lookup path_id = some entry
    rw [AList.lookup_insert_of, if_neg hne]
    exact hentry)
  refine ⟨hupdate.orderly, hupdate.bound, ?_, hupdate.apart, hupdate.authenticated, ?_⟩
  · intro c hc
    rcases (AList.mem_insert _).mp hc with rfl | hc
    · exact hunbound
    · exact h.exclusive hc
  · intro c p hl
    rw [AList.lookup_insert_of] at hl
    by_cases hc : c = reservation.connection_id
    · rw [if_pos hc, Option.some.injEq] at hl
      rw [← hl]
      exact (AList.mem_insert _).mpr (.inl rfl)
    · rw [if_neg hc] at hl
      exact hupdate.pending hl

theorem commit_coherent (h : m.Coherent) {reservation : AttachReservation} {entry : PathEntry}
    (hlookup : m.sessions.lookup session_id = some managed)
    (hentry : managed.session.paths.lookup reservation.path_id = some entry)
    (hreserves : V2Session.reserves entry reservation = true) :
    Coherent
      { ({ m with pending_connections :=
            m.pending_connections.erase reservation.connection_id }).update_session session_id
          { managed with session := { managed.session with
              paths := managed.session.paths.insert reservation.path_id
                ⟨{ entry.binding with state := .Healthy }, false⟩ } }
        with
        connections := m.connections.insert reservation.connection_id
          (session_id, reservation.path_id, reservation.path_epoch, reservation.key_epoch) } := by
  have hforget : Coherent { m with
      pending_connections := m.pending_connections.erase reservation.connection_id } :=
    h.restrict rfl rfl (fun hl => hl) (fun hl => AList.lookup_of_erase hl) (fun hl => hl)
  simp only [V2Session.reserves, decide_eq_true_eq] at hreserves
  obtain ⟨hreserved, hconnection, hpath, hkey⟩ := hreserves
  have hupdate : Coherent ({ m with
      pending_connections := m.pending_connections.erase reservation.connection_id
      }.update_session session_id { managed with session := { managed.session with
        paths := managed.session.paths.insert reservation.path_id
          ⟨{ entry.binding with state := .Healthy }, false⟩ } }) :=
    hforget.update hlookup ((h.orderly hlookup).rewrite hentry rfl rfl rfl rfl) (by
    rintro c path_id path_epoch key_epoch - ⟨held, hheld, hcommitted, hrest⟩
    refine ⟨held, ?_, hcommitted, hrest⟩
    -- The entry was reserved, so no binding refers to it yet.
    have hne : path_id ≠ reservation.path_id := by
      rintro rfl
      rw [hentry, Option.some.injEq] at hheld
      subst hheld
      rw [hreserved] at hcommitted
      contradiction
    rw [AList.lookup_insert_of, if_neg hne]
    exact hheld)
  refine ⟨hupdate.orderly, ?_, ?_, hupdate.apart, hupdate.authenticated, hupdate.pending⟩
  · intro c id path_id path_epoch key_epoch hl
    rw [AList.lookup_insert_of] at hl
    by_cases hc : c = reservation.connection_id
    · rw [if_pos hc] at hl
      cases hl
      refine ⟨_, AList.lookup_insert _, _, AList.lookup_insert _, rfl, ?_, hpath, hkey⟩
      rw [hc]
      exact hconnection
    · rw [if_neg hc] at hl
      exact hupdate.bound hl
  · intro c hc hbound
    obtain ⟨hne, hc⟩ := AList.mem_erase.mp hc
    rcases (AList.mem_insert _).mp hbound with he | hbound
    · exact hne he
    · exact h.exclusive hc hbound

theorem detach_coherent (h : m.Coherent) {connection_id : ConnectionId} {path_id : PathId}
    {path_epoch : U64} {key_epoch : U32} {entry : PathEntry} (now_ms : ℕ)
    (hbound : m.connections.lookup connection_id =
      some (session_id, path_id, path_epoch, key_epoch))
    (hlookup : m.sessions.lookup session_id = some managed)
    (hentry : managed.session.paths.lookup path_id = some entry) :
    ({ m with connections := m.connections.erase connection_id }.update_session session_id
      { managed with session := managed.session.quarantine_path path_id entry now_ms }).Coherent := by
  have hforget : Coherent { m with connections := m.connections.erase connection_id } :=
    h.restrict rfl rfl (fun hl => AList.lookup_of_erase hl) (fun hl => hl) (fun hl => hl)
  refine hforget.update hlookup ((h.orderly hlookup).quarantine hentry) ?_
  rintro other other_id other_epoch other_key hl ⟨held, hheld, hcommitted, hconnection, hepochs⟩
  refine ⟨held, ?_, hcommitted, hconnection, hepochs⟩
  -- The path that goes is the one of the connection that goes.
  have hne : other_id ≠ path_id := by
    rintro rfl
    obtain ⟨managed', hlookup', entry', hentry', -, hconnection', -⟩ := h.bound hbound
    rw [hlookup, Option.some.injEq] at hlookup'
    subst hlookup'
    rw [hheld, Option.some.injEq] at hentry'
    subst hentry'
    obtain rfl : other = connection_id := hconnection.symm.trans hconnection'
    change (m.connections.erase other).lookup other = _ at hl
    rw [AList.lookup_erase_of, if_pos rfl] at hl
    contradiction
  change (managed.session.paths.erase path_id).lookup other_id = some held
  rw [AList.lookup_erase_of, if_neg hne]
  exact hheld

/-- **Every update keeps the maps in agreement.** -/
theorem Update.coherent (h : m.Coherent) (hu : Update call m events m') : m'.Coherent := by
  cases hu with
  | release admissions hsub =>
    refine ⟨h.orderly, h.bound, h.exclusive, ?_, h.authenticated, h.pending⟩
    intro id hid hheld
    obtain ⟨r, hr⟩ := AList.mem_iff_lookup.mp hheld
    exact h.apart hid (AList.mem_of_lookup (hsub id r hr))
  | reserve reservation hsession hfree hroom =>
    refine ⟨h.orderly, h.bound, h.exclusive, ?_, h.authenticated, h.pending⟩
    intro id hid hheld
    rcases (AList.mem_insert _).mp hheld with rfl | hheld
    · exact hsession hid
    · exact h.apart hid hheld
  | insert hheld hsession => exact admit_coherent h hheld hsession
  | issue hsession hroom => exact issue_coherent h hsession
  | rest hlookup hrests =>
    have horderly := h.orderly hlookup
    have hlimits := hrests.limits
    simp only [V2Session.limits, Prod.mk.injEq] at hlimits
    obtain ⟨hpaths, hhistory, -, -⟩ := hlimits
    refine h.update hlookup ⟨?_, ?_, ?_, ?_, ?_⟩ ?_
    · rw [hrests.paths]
      exact horderly.distinct
    · rw [hrests.paths, hpaths]
      exact horderly.capacity
    · intro path_id hmem htombed
      rw [hrests.paths] at hmem
      exact horderly.untombed path_id hmem (hrests.tombed path_id htombed)
    · intro path_id entry hentry
      rw [hrests.paths] at hentry
      exact V2Session.RecordsMore.of_eq hrests.history _ _ _ (horderly.recorded hentry)
    · rw [hrests.history, hhistory]
      exact horderly.history
    · intro c path_id path_epoch key_epoch _ hbinds
      unfold V2Session.Binds
      rwa [hrests.paths]
  | forget connection_id =>
    exact h.restrict rfl rfl (fun hl => hl) (fun hl => AList.lookup_of_erase hl) (fun hl => hl)
  | abort connection_id reservation hlookup =>
    have hforget : Coherent { m with
        pending_connections := m.pending_connections.erase connection_id } :=
      h.restrict rfl rfl (fun hl => hl) (fun hl => AList.lookup_of_erase hl) (fun hl => hl)
    refine hforget.update hlookup ?_ (fun _ hbinds => abort_attach_binds hbinds)
    exact (SessionCall.abort_attach reservation.reservation).advances (h.orderly hlookup) |>.orderly
  | attach next expires_at_ms hclock hauth hunbound hidle hroom hlookup hadmits =>
    exact attach_coherent h next expires_at_ms hunbound hlookup hadmits
  | commit hpending hlookup hentry hreserves => exact commit_coherent h hlookup hentry hreserves
  | detach now_ms hbound hlookup hentry => exact detach_coherent h now_ms hbound hlookup hentry
  | revoke connection hcall hr =>
    exact h.restrict rfl rfl (fun hl => hl) (fun hl => hl) (fun hl => AList.lookup_of_erase hl)
  | remove reason hlookup => exact remove_coherent h reason hlookup

/-! ## Calls are chains of updates -/

/-- The removals of a reply as events. -/
def removed (removals : List SessionRemoval) : List SessionEvent := removals.map .removed

theorem remove_session_updates (call : ManagerCall) (m : V2SessionManager) (session_id : SessionId)
    (reason : SessionRemovalReason) :
    Updates call m (removed (m.remove_session session_id reason).2.toList)
      (m.remove_session session_id reason).1 := by
  cases hlookup : m.sessions.lookup session_id with
  | none =>
    rw [remove_session, hlookup]
    exact .nil m
  | some managed =>
    have hremove : Update call m _ _ := Update.remove reason hlookup
    rw [remove_session_some m reason hlookup] at hremove ⊢
    exact .one hremove

theorem remove_sessions_updates (call : ManagerCall)
    (due : List (SessionId × SessionRemovalReason)) (m : V2SessionManager) :
    Updates call m (removed (m.remove_sessions due).2) (m.remove_sessions due).1 := by
  induction due generalizing m with
  | nil => exact .nil m
  | cons d due ih =>
    obtain ⟨session_id, reason⟩ := d
    rw [remove_sessions, removed, List.map_append]
    exact (remove_session_updates call m session_id reason).trans (ih _)

theorem record_activity_updates {α : Type} (call : ManagerCall) (m : V2SessionManager)
    (session_id : SessionId) (now_ms : ℕ)
    (usable : ManagedSession → Except V2SessionManagerError α) :
    Updates call m (removed (m.record_activity session_id now_ms usable).removals)
      (m.record_activity session_id now_ms usable).manager := by
  rw [record_activity]
  split
  · exact .nil m
  next managed hlookup =>
  split
  · exact remove_session_updates call m session_id .Expired
  split
  · exact remove_session_updates call m session_id .Idle
  split
  · exact .nil m
  · exact .one (.rest hlookup (.touch _ managed now_ms))

theorem prune_pending_attaches_updates (call : ManagerCall) (m : V2SessionManager) (now_ms : ℕ) :
    Updates call m [] (m.prune_pending_attaches now_ms) := by
  rw [prune_pending_attaches]
  refine List.foldlRecOn (motive := fun pruned : V2SessionManager => Updates call m [] pruned) _ _
    (.nil m) ?_
  intro pruned hbefore e _
  refine hbefore.trans (.one ?_)
  rw [prune_pending_attach]
  dsimp only
  split
  · exact .forget e.1
  · next managed hlookup => exact .abort e.1 e.2.reservation hlookup

theorem sweep_prune_updates (m : V2SessionManager) (order : Traversal SessionId ManagedSession)
    (now_ms : ℕ) : Updates (.sweep order now_ms) m [] (m.sweep_prune now_ms) := by
  have hpass : ∀ m : V2SessionManager, Updates (.sweep order now_ms) m []
      (m.sessions.entries.foldl (fun m e => m.update_session e.1
        { e.2 with session := e.2.session.prune_path_tombstones now_ms }) m) := by
    intro m
    refine foldl_keeps (fun e : (Σ _ : SessionId, ManagedSession) => e.1)
      (fun m' => Updates (.sweep order now_ms) m [] m')
      (fun e m' => m'.sessions.lookup e.1 = some e.2) ?_ ?_ (AList.nodupKeys _) (.nil m) ?_
    · intro m' e hbefore hready
      exact hbefore.trans (.one (.rest hready (.prune e.2 now_ms e.2.session.next_path_id)))
    · intro m' e e' hne hready
      rwa [update_session_lookup, if_neg hne.symm]
    · exact fun e he => AList.mem_entries_iff.mp he
  rw [sweep_prune]
  refine .after (.release (m.admissions.retain (fun _ r => now_ms < r.expires_at_ms)) ?_)
    ((prune_pending_attaches_updates _ _ now_ms).trans (hpass _))
  intro id r hr
  exact (AList.lookup_retain_eq_some.mp hr).1

theorem reserve_owner_updates (call : ManagerCall) (m : V2SessionManager) (session_id : SessionId)
    (device_id : DeviceId) (organization_id : OrganizationId) (expires_at_ms : ℕ) :
    Updates call m []
      (m.reserve_owner session_id device_id organization_id expires_at_ms).1 := by
  rw [reserve_owner]
  split
  · dsimp only
    split
    · exact .nil m
    · exact .nil m
  next hsession =>
  split
  · split
    · exact .nil m
    · exact .nil m
  next hfree =>
  split
  · exact .nil m
  next hroom =>
  exact .one (.reserve ⟨session_id, device_id, organization_id, expires_at_ms, true⟩
    (AList.lookup_eq_none.mp hsession) (AList.lookup_eq_none.mp hfree) (Nat.not_le.mp hroom))

theorem reserve_admission_updates (call : ManagerCall) (m : V2SessionManager)
    (session_id : SessionId) (device_id : DeviceId) (organization_id : OrganizationId)
    (expires_at_ms now_ms : ℕ) :
    Updates call m
      (removed (m.reserve_admission session_id device_id organization_id expires_at_ms
        now_ms).removals)
      (m.reserve_admission session_id device_id organization_id expires_at_ms now_ms).manager := by
  rw [reserve_admission]
  split
  · exact .nil m
  split
  · exact .nil m
  dsimp only
  rw [expire_admitted]
  split
  · have hchain := (remove_session_updates call m session_id .Expired).trans
      (reserve_owner_updates call (m.remove_session session_id .Expired).1 session_id device_id
        organization_id expires_at_ms)
    rwa [List.append_nil] at hchain
  · exact reserve_owner_updates call m session_id device_id organization_id expires_at_ms

theorem insert_admitted_updates (call : ManagerCall) (m : V2SessionManager)
    (reservation : AdmissionReservation) (hcreates : reservation.creates_session = true)
    (now_ms : ℕ) :
    Updates call m ((m.admits reservation now_ms).map .admitted)
      (m.insert_admitted reservation now_ms).1 := by
  have hrelease : Update call m []
      { m with admissions := m.admissions.erase reservation.session_id } :=
    .release _ (fun id r hr => AList.lookup_of_erase hr)
  rw [admits, if_pos hcreates, insert_admitted]
  by_cases hheld : m.admissions.lookup reservation.session_id = some reservation
  · rw [if_neg (not_not.mpr hheld)]
    cases hsession : V2SessionManager.activated_session
        { m with admissions := m.admissions.erase reservation.session_id } reservation now_ms with
    | error e => exact .one hrelease
    | ok session => exact .one (.insert hheld hsession)
  · rw [if_pos hheld]
    exact .one hrelease

theorem bind_authenticated_connection_updates (call : ManagerCall) (m : V2SessionManager)
    (session_id : SessionId) (now_ms : ℕ) :
    Updates call m
      (((m.bind_authenticated_connection session_id now_ms).result.toOption.toList.map .issued) ++
        removed (m.bind_authenticated_connection session_id now_ms).removals)
      (m.bind_authenticated_connection session_id now_ms).manager := by
  rw [bind_authenticated_connection]
  split
  · exact .nil m
  next managed hlookup =>
  split
  · exact remove_session_updates call m session_id .Expired
  split
  · exact .nil m
  split
  · exact .nil m
  next hroom =>
  exact .one (.issue (AList.mem_of_lookup hlookup) (Nat.not_le.mp hroom))

theorem commit_admission_and_bind_updates (call : ManagerCall) (m : V2SessionManager)
    (reservation : AdmissionReservation) (now_ms : ℕ) :
    Updates call m
      ((m.admits reservation now_ms).map .admitted ++
        ((m.commit_admission_and_bind reservation now_ms).result.toOption.toList.map .issued ++
          removed (m.commit_admission_and_bind reservation now_ms).removals))
      (m.commit_admission_and_bind reservation now_ms).manager := by
  rw [commit_admission_and_bind]
  by_cases hcreates : reservation.creates_session = true
  · have hinsert := insert_admitted_updates call m reservation hcreates now_ms
    simp only [hcreates, Bool.not_true, Bool.false_eq_true, ↓reduceIte]
    refine hinsert.trans ?_
    split
    · next m' e he =>
      rw [he]
      exact .nil m'
    next m' he =>
    rw [he]
    split
    · exact remove_session_updates call m' reservation.session_id .Closed
    next hroom =>
    obtain ⟨-, session, -, rfl⟩ := insert_admitted_ok he
    refine .one (.issue ?_ (Nat.not_le.mp hroom))
    exact (AList.mem_insert _).mpr (.inl rfl)
  · simp only [hcreates, Bool.not_false, ↓reduceIte, admits, Bool.false_eq_true, List.map_nil,
      List.nil_append]
    exact bind_authenticated_connection_updates call m reservation.session_id now_ms

theorem authenticates_iff {connection : AuthenticatedConnection} :
    m.authenticates connection = true ↔
      m.authenticated_connections.lookup connection.connection_id = some connection.session_id := by
  rw [authenticates, decide_eq_true_eq]

theorem reserve_attach_updates (m : V2SessionManager) (connection : AuthenticatedConnection)
    (path_epoch : U64) (key_epoch : U32) (now_ms : ℕ) :
    Updates (.reserve_attach connection path_epoch key_epoch now_ms) m
      ((m.reserve_attach connection path_epoch key_epoch now_ms).result.toOption.toList.map
        .reserved)
      (m.reserve_attach connection path_epoch key_epoch now_ms).manager := by
  have hprune := prune_pending_attaches_updates
    (.reserve_attach connection path_epoch key_epoch now_ms) m now_ms
  rw [reserve_attach]
  dsimp only
  generalize m.prune_pending_attaches now_ms = pruned at hprune ⊢
  split
  · exact hprune
  next hauth =>
  split
  · exact hprune
  next hbusy =>
  split
  · exact hprune
  next hroom =>
  split
  · exact hprune
  next managed hlookup =>
  obtain ⟨hunbound, hidle⟩ := not_or.mp hbusy
  have hauthenticated : pruned.authenticated_connections.lookup connection.connection_id =
      some connection.session_id := authenticates_iff.mp (by simpa using hauth)
  refine hprune.trans (.one ?_)
  rcases managed.session.reserve_attach_cases connection.connection_id path_epoch key_epoch now_ms
    with ⟨next, e, hr⟩ | ⟨next, path_id, hadmits, hr⟩
  · rw [hr]
    exact .rest hlookup (.prune managed now_ms next)
  · rw [hr]
    exact .attach next _ rfl hauthenticated hunbound hidle (Nat.not_le.mp hroom) hlookup hadmits

theorem commit_attach_updates (h : m.Coherent) (call : ManagerCall)
    (reservation : GatewayAttachReservation) :
    Updates call m [] (m.commit_attach reservation).manager := by
  obtain ⟨session_id, path_id, path_epoch, key_epoch, connection_id⟩ := reservation
  have hforget : Update call m [] { m with
      pending_connections := m.pending_connections.erase connection_id } :=
    .forget connection_id
  rw [commit_attach]
  dsimp only
  split
  · exact .one hforget
  next hheld =>
  split
  · exact .one hforget
  next managed hlookup =>
  rcases managed.session.commit_attach_cases ⟨path_id, path_epoch, key_epoch, connection_id⟩ with
    ⟨e, hr⟩ | ⟨entry, hentry, hreserves, hr⟩
  · rw [hr]
    exact .after hforget (.one (.rest hlookup (.refl _ managed)))
  · have hkeyed := (h.orderly hlookup).distinct.keyed hentry
    have hcommitted := hreserves
    simp only [V2Session.reserves, decide_eq_true_eq] at hcommitted
    obtain ⟨-, hconnection, hpath, hkey⟩ := hcommitted
    dsimp only at hkeyed hconnection hpath hkey
    subst hkeyed hconnection hpath hkey
    rw [hr]
    dsimp only
    rw [V2Session.set_path_state_committed managed.session entry.binding rfl]
    exact .one (.commit (not_not.mp hheld) hlookup hentry hreserves)

/-- A detach changes nothing, or takes the connection's path off its session. -/
theorem detach_connection_cases (h : m.Coherent) (connection : AuthenticatedConnection)
    (path_id : PathId) (path_epoch : U64) (now_ms : ℕ) :
    (∃ result, result.toOption ≠ some true ∧
      m.detach_connection connection path_id path_epoch now_ms = ⟨m, result, []⟩) ∨
    ∃ key_epoch managed entry, m.connections.lookup connection.connection_id =
        some (connection.session_id, path_id, path_epoch, key_epoch) ∧
      m.sessions.lookup connection.session_id = some managed ∧
      managed.session.paths.lookup path_id = some entry ∧
      m.detach_connection connection path_id path_epoch now_ms =
        ⟨{ m with connections := m.connections.erase connection.connection_id }.update_session
            connection.session_id
            { managed with session := managed.session.quarantine_path path_id entry now_ms },
          .ok true, []⟩ := by
  rw [detach_connection]
  split
  · exact .inl ⟨.error .UnknownConnection, by simp [Except.toOption], rfl⟩
  split
  · exact .inl ⟨.ok false, by simp [Except.toOption], rfl⟩
  next session_id bound_path bound_epoch key_epoch hbound =>
  split
  · exact .inl ⟨.error .BindingMismatch, by simp [Except.toOption], rfl⟩
  next hmatches =>
  push Not at hmatches
  obtain ⟨rfl, rfl, rfl⟩ := hmatches
  obtain ⟨managed, hlookup, entry, hentry, hcommitted, hconnection, hepoch, -⟩ := h.bound hbound
  refine .inr ⟨key_epoch, managed, entry, hbound, hlookup, hentry, ?_⟩
  dsimp only
  have hdetach := V2Session.detach_bound hentry hcommitted now_ms
  rw [hconnection, hepoch] at hdetach
  rw [hlookup]
  dsimp only
  rw [hdetach]
  rfl

theorem detach_connection_updates (h : m.Coherent) (call : ManagerCall)
    (connection : AuthenticatedConnection) (path_id : PathId) (path_epoch : U64) (now_ms : ℕ) :
    Updates call m
      (((ManagerCall.detach_connection connection path_id path_epoch now_ms).detached m).map
        .detached)
      (m.detach_connection connection path_id path_epoch now_ms).manager := by
  rw [ManagerCall.detached]
  rcases detach_connection_cases h connection path_id path_epoch now_ms with
    ⟨result, hresult, hr⟩ | ⟨key_epoch, managed, entry, hbound, hlookup, hentry, hr⟩
  · rw [hr, if_neg hresult]
    exact .nil m
  · rw [hr]
    simp only [Except.toOption, ↓reduceIte, detachment, hbound, hlookup]
    exact .one (.detach now_ms hbound hlookup hentry)

theorem close_connection_updates (h : m.Coherent) (connection : AuthenticatedConnection) :
    Updates (.close_connection connection) m
      (((ManagerCall.close_connection connection).detached m).map .detached)
      (m.close_connection connection).manager := by
  rw [ManagerCall.detached, close_connection]
  dsimp only
  by_cases hheld : m.authenticated_connections.lookup connection.connection_id =
      some connection.session_id
  · rw [if_neg (not_not.mpr hheld)]
    cases hpending : m.pending_connections.lookup connection.connection_id with
    | some pending =>
      have hmem := AList.mem_of_lookup hpending
      rw [if_neg (fun hidle => hidle.2 hmem)]
      obtain ⟨managed, hlookup⟩ := AList.mem_iff_lookup.mp (h.pending hpending)
      dsimp only
      rw [hlookup]
      -- The attach is aborted before the capability goes; the two do not meet.
      refine .after (.abort connection.connection_id pending.reservation hlookup)
        (.one (.revoke connection rfl (.inr ⟨h.exclusive hmem, ?_⟩)))
      exact AList.mem_erase.not.mpr (fun hagain => hagain.1 rfl)
    | none =>
      rw [if_pos ⟨authenticates_iff.mpr hheld, AList.lookup_eq_none.mp hpending⟩, detachment]
      cases hbound : m.connections.lookup connection.connection_id with
      | none =>
        exact .one (.revoke connection rfl
          (.inr ⟨AList.lookup_eq_none.mp hbound, AList.lookup_eq_none.mp hpending⟩))
      | some binding =>
        obtain ⟨session_id, path_id, path_epoch, key_epoch⟩ := binding
        obtain ⟨managed, hlookup, entry, hentry, hcommitted, hconnection, hepoch, -⟩ :=
          h.bound hbound
        dsimp only
        rw [hlookup]
        dsimp only
        have hdetach := V2Session.detach_bound hentry hcommitted managed.last_activity_ms
        rw [hconnection, hepoch] at hdetach
        rw [hdetach]
        refine (Updates.one (.detach managed.last_activity_ms hbound hlookup hentry)).trans
          (.one (.revoke connection rfl (.inr ⟨?_, AList.lookup_eq_none.mp hpending⟩)))
        exact AList.mem_erase.not.mpr (fun hmem => hmem.1 rfl)
  · have hforeign : ¬(m.authenticates connection = true ∧
        connection.connection_id ∉ m.pending_connections) :=
      fun hauth => hheld (authenticates_iff.mp hauth.1)
    rw [if_pos hheld, if_neg hforeign]
    exact .one (.revoke connection rfl (.inl hheld))

end V2SessionManager

/-- **Every call is a chain of updates.** It reports what the call's reply reports. -/
theorem ManagerCall.updates {m : V2SessionManager} (h : m.Coherent) (call : ManagerCall) :
    V2SessionManager.Updates call m (call.events m) (call.apply m).1 := by
  cases call with
  | reserve_admission session_id device_id organization_id expires_at_ms now_ms =>
    exact V2SessionManager.reserve_admission_updates _ m session_id device_id organization_id
      expires_at_ms now_ms
  | commit_admission reservation now_ms =>
    by_cases hcreates : reservation.creates_session = true
    · have hinsert := V2SessionManager.insert_admitted_updates
        (.commit_admission reservation now_ms) m reservation hcreates now_ms
      simpa [events, admitted, issued, reserved, detached, apply, V2SessionManager.commit_admission,
        hcreates, Reply.effect] using hinsert
    · have hnil : V2SessionManager.Updates (.commit_admission reservation now_ms) m [] m := .nil m
      simpa [events, admitted, issued, reserved, detached, apply, V2SessionManager.commit_admission,
        hcreates, Reply.effect, V2SessionManager.admits, V2SessionManager.returns] using hnil
  | commit_admission_and_bind reservation now_ms =>
    have hchain := V2SessionManager.commit_admission_and_bind_updates
      (.commit_admission_and_bind reservation now_ms) m reservation now_ms
    simpa only [events, admitted, issued, reserved, detached, apply, Reply.effect,
      V2SessionManager.removed, List.map_nil, List.append_nil, List.append_assoc] using hchain
  | abort_admission reservation =>
    rw [events, apply, V2SessionManager.abort_admission]
    split
    · exact .nil m
    · exact .one (.release _ (fun id r hr => AList.lookup_of_erase hr))
  | bind_authenticated_connection session_id now_ms =>
    have hchain := V2SessionManager.bind_authenticated_connection_updates
      (.bind_authenticated_connection session_id now_ms) m session_id now_ms
    simpa only [events, admitted, issued, reserved, detached, apply, Reply.effect,
      V2SessionManager.removed, List.map_nil, List.nil_append, List.append_nil] using hchain
  | reserve_attach connection path_epoch key_epoch now_ms =>
    have hchain := V2SessionManager.reserve_attach_updates m connection path_epoch key_epoch now_ms
    have hsilent := (V2SessionManager.reserve_attach_keeps (m := m) connection path_epoch key_epoch
      now_ms).2
    simpa only [events, admitted, issued, reserved, detached, apply, Reply.effect, hsilent,
      List.map_nil, List.nil_append, List.append_nil] using hchain
  | commit_attach reservation =>
    have hsilent := (V2SessionManager.commit_attach_keeps (m := m) reservation).2
    rw [events, apply, Reply.effect, hsilent]
    exact V2SessionManager.commit_attach_updates h _ reservation
  | detach_connection connection path_id path_epoch now_ms =>
    have hsilent := (V2SessionManager.detach_connection_keeps (m := m) connection path_id path_epoch
      now_ms).2
    have hchain := V2SessionManager.detach_connection_updates h
      (.detach_connection connection path_id path_epoch now_ms) connection path_id path_epoch now_ms
    simpa only [events, admitted, issued, reserved, apply, Reply.effect, hsilent,
      List.map_nil, List.nil_append, List.append_nil] using hchain
  | close_connection connection =>
    have hsilent := (V2SessionManager.close_connection_keeps (m := m) connection).2
    have hchain := V2SessionManager.close_connection_updates h connection
    simpa only [events, admitted, issued, reserved, apply, Reply.effect, hsilent,
      List.map_nil, List.nil_append, List.append_nil] using hchain
  | validate_attached_path connection path_id path_epoch key_epoch now_ms =>
    rw [events, apply, V2SessionManager.validate_attached_path]
    split
    · exact .nil m
    split
    · exact .nil m
    · exact V2SessionManager.record_activity_updates _ m _ now_ms _
  | validate_ingress connection envelope now_ms =>
    rw [events, apply, V2SessionManager.validate_ingress]
    split
    · exact .nil m
    split
    · exact .nil m
    split
    · exact .nil m
    split
    · exact .nil m
    split
    · exact .nil m
    · exact V2SessionManager.record_activity_updates _ m _ now_ms _
  | record_authenticated_activity connection now_ms =>
    rw [events, apply, V2SessionManager.record_authenticated_activity]
    split
    · exact .nil m
    · exact V2SessionManager.record_activity_updates _ m _ now_ms _
  | begin_draining session_id =>
    rw [events, apply, V2SessionManager.begin_draining]
    split
    · exact .nil m
    · next managed hlookup => exact .one (.rest hlookup (.drain _ managed))
  | close session_id => exact V2SessionManager.remove_session_updates _ m session_id .Closed
  | close_all order => exact V2SessionManager.remove_sessions_updates _ _ m
  | close_session connection =>
    rw [events, apply, V2SessionManager.close_session]
    split
    · exact .nil m
    · exact V2SessionManager.remove_session_updates _ m connection.session_id .Closed
  | sweep order now_ms =>
    exact (V2SessionManager.sweep_prune_updates m order now_ms).trans
      (V2SessionManager.remove_sessions_updates _ _ _)

end StreamGuard.Gateway
