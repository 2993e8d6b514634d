/-
`V2SessionManager`: the gateway's session map, `streamguard-gateway/src/v2/session_manager.rs`.

Every method takes the one mutex for its whole body, so a method is one function
of the state. A session that a method removes is reported in the reply: the
cleanup hooks run for it after the lock is released, as steps of their own.
Passes over a hash map that decide the order of removals take a `Traversal`.
Counters and the poisoning of the mutex are left out: no method reads a counter.
-/
import StreamGuard.Session.Lifecycle

set_option autoImplicit false

namespace StreamGuard.Gateway

open StreamGuard StreamGuard.Lib StreamGuard.Session

/-! ## Data -/

structure V2SessionManagerConfig where
  maximum_sessions : ℕ
  idle_ttl_ms : ℕ
  maximum_paths_per_session : ℕ
  maximum_pending_attaches : ℕ
  pending_attach_ttl_ms : ℕ
  maximum_path_epoch_history : ℕ
  maximum_path_tombstones : ℕ
  path_tombstone_ttl_ms : ℕ
  deriving DecidableEq

inductive SessionRemovalReason where
  | Expired
  | Idle
  | Closed
  deriving DecidableEq

structure SessionRemoval where
  session_id : SessionId
  device_id : DeviceId
  organization_id : OrganizationId
  reason : SessionRemovalReason
  deriving DecidableEq

structure AdmissionReservation where
  session_id : SessionId
  device_id : DeviceId
  organization_id : OrganizationId
  expires_at_ms : ℕ
  creates_session : Bool
  deriving DecidableEq

structure GatewayAttachReservation where
  session_id : SessionId
  reservation : AttachReservation
  deriving DecidableEq

/-- The capability of one connection that has completed admission. -/
structure AuthenticatedConnection where
  session_id : SessionId
  connection_id : ConnectionId
  deriving DecidableEq

structure ValidatedIngress where
  session_id : SessionId
  path_id : PathId
  path_epoch : U64
  key_epoch : U32
  deriving DecidableEq

inductive V2SessionManagerError where
  | InvalidConfiguration
  | Unavailable
  | Capacity
  | InvalidIdentity
  | OwnerMismatch
  | UnknownAdmission
  | UnknownSession
  | ConnectionAlreadyBound
  | ConnectionCapacity
  | UnknownAttach
  | UnknownConnection
  | BindingMismatch
  | StaleKeyEpoch
  | InvalidDirection
  | Expired
  | Idle
  | Lifecycle
  deriving DecidableEq

structure ManagedSession where
  session : V2Session
  organization_id : OrganizationId
  last_activity_ms : ℕ

structure PendingAttach where
  reservation : GatewayAttachReservation
  expires_at_ms : ℕ

structure V2SessionManager where
  config : V2SessionManagerConfig
  sessions : Map SessionId ManagedSession
  admissions : Map SessionId AdmissionReservation
  /-- Session, path, path epoch and key epoch bound to a connection. -/
  connections : Map ConnectionId (SessionId × PathId × U64 × U32)
  pending_connections : Map ConnectionId PendingAttach
  authenticated_connections : Map ConnectionId SessionId
  next_connection_id : U64

/-- What a method leaves: the state, its result, and the sessions it removed. -/
structure Reply (α : Type) where
  manager : V2SessionManager
  result : Except V2SessionManagerError α
  removals : List SessionRemoval

def map_lifecycle : LifecycleError → V2SessionManagerError
  | .Expired => .Expired
  | .ConnectionAlreadyBound => .ConnectionAlreadyBound
  | _ => .Lifecycle

namespace V2SessionManager

variable (m : V2SessionManager)

/-- The method fails and leaves the state alone. -/
def fails {α : Type} (e : V2SessionManagerError) : Reply α := ⟨m, .error e, []⟩

/-- The method returns and removes nothing. -/
def returns {α : Type} (a : α) : Reply α := ⟨m, .ok a, []⟩

def new (config : V2SessionManagerConfig) : Except V2SessionManagerError V2SessionManager :=
  if config.maximum_sessions = 0 ∨ config.idle_ttl_ms = 0 ∨ config.maximum_paths_per_session = 0
      ∨ config.maximum_pending_attaches = 0 ∨ config.pending_attach_ttl_ms = 0
      ∨ config.maximum_path_epoch_history < config.maximum_paths_per_session
      ∨ u16Max.val < config.maximum_path_epoch_history
      ∨ config.maximum_path_tombstones = 0 ∨ config.path_tombstone_ttl_ms = 0 then
    .error .InvalidConfiguration
  else .ok ⟨config, ∅, ∅, ∅, ∅, ∅, 1⟩

def maximum_authenticated_connections : ℕ :=
  saturatingMul m.config.maximum_sessions m.config.maximum_paths_per_session

/-- Puts a session in the map. -/
def update_session (session_id : SessionId) (managed : ManagedSession) : V2SessionManager :=
  { m with sessions := m.sessions.insert session_id managed }

/-- The identity handed out next, skipping zero when the counter wraps. -/
def next_connection_identity : V2SessionManager × U64 :=
  if m.next_connection_id = 0 then ({ m with next_connection_id := 2 }, 1)
  else ({ m with next_connection_id := m.next_connection_id + 1 }, m.next_connection_id)

/-- Removes a session with every binding, pending attach and capability of it. -/
def remove_session (session_id : SessionId) (reason : SessionRemovalReason) :
    V2SessionManager × Option SessionRemoval :=
  match m.sessions.lookup session_id with
  | none => (m, none)
  | some managed =>
    ({ m with
      sessions := m.sessions.erase session_id
      connections := m.connections.retain (fun _ b => b.1 ≠ session_id)
      pending_connections :=
        m.pending_connections.retain (fun _ p => p.reservation.session_id ≠ session_id)
      authenticated_connections :=
        m.authenticated_connections.retain (fun _ bound => bound ≠ session_id) },
      some ⟨session_id, managed.session.admission.device_id, managed.organization_id, reason⟩)

/-- The method removes a session and returns. -/
def removes {α : Type} (session_id : SessionId) (reason : SessionRemovalReason)
    (result : Except V2SessionManagerError α) : Reply α :=
  let r := m.remove_session session_id reason
  ⟨r.1, result, r.2.toList⟩

/-! ## Admission -/

/-- An expired session makes way for a new admission. -/
def expire_admitted (session_id : SessionId) (now_ms : ℕ) :
    V2SessionManager × Option SessionRemoval :=
  if (m.sessions.lookup session_id).any (fun managed => managed.session.is_expired now_ms) then
    m.remove_session session_id .Expired
  else (m, none)

/-- The reservation of an owner: that of its session, the one it holds, or a new one. -/
def reserve_owner (session_id : SessionId) (device_id : DeviceId)
    (organization_id : OrganizationId) (expires_at_ms : ℕ) :
    V2SessionManager × Except V2SessionManagerError AdmissionReservation :=
  match m.sessions.lookup session_id with
  | some existing =>
    let admission := existing.session.admission
    if admission.device_id ≠ device_id ∨ existing.organization_id ≠ organization_id then
      (m, .error .OwnerMismatch)
    else (m, .ok ⟨session_id, device_id, organization_id, admission.expires_at_ms, false⟩)
  | none =>
    match m.admissions.lookup session_id with
    | some existing =>
      if existing.device_id ≠ device_id ∨ existing.organization_id ≠ organization_id then
        (m, .error .OwnerMismatch)
      else (m, .ok existing)
    | none =>
      if m.config.maximum_sessions ≤ m.sessions.len + m.admissions.len then (m, .error .Capacity)
      else
        let reservation : AdmissionReservation :=
          ⟨session_id, device_id, organization_id, expires_at_ms, true⟩
        ({ m with admissions := m.admissions.insert session_id reservation }, .ok reservation)

def reserve_admission (session_id : SessionId) (device_id : DeviceId)
    (organization_id : OrganizationId) (expires_at_ms now_ms : ℕ) : Reply AdmissionReservation :=
  if is_zero_id session_id.bytes ∨ is_zero_id device_id.bytes then m.fails .InvalidIdentity
  else if expires_at_ms = 0 ∨ expires_at_ms ≤ now_ms then m.fails .Expired
  else
    let cleanup := m.expire_admitted session_id now_ms
    let r := cleanup.1.reserve_owner session_id device_id organization_id expires_at_ms
    ⟨r.1, r.2, cleanup.2.toList⟩

/-- `V2Session::new` and `activate` for a reservation. -/
def activated_session (reservation : AdmissionReservation) (now_ms : ℕ) :
    Except LifecycleError V2Session :=
  match V2Session.new
      ⟨m.config.maximum_paths_per_session, m.config.maximum_path_epoch_history,
        m.config.maximum_path_tombstones, m.config.path_tombstone_ttl_ms⟩
      ⟨reservation.session_id, reservation.device_id, reservation.expires_at_ms⟩ now_ms with
  | .error e => .error e
  | .ok session =>
    match session.activate now_ms with
    | (_, .error e) => .error e
    | (session, .ok ()) => .ok session

/-- The part the two commits share: the reservation is taken, whatever it is, and
its session inserted. -/
def insert_admitted (reservation : AdmissionReservation) (now_ms : ℕ) :
    V2SessionManager × Except V2SessionManagerError Unit :=
  let held := m.admissions.lookup reservation.session_id
  let m := { m with admissions := m.admissions.erase reservation.session_id }
  if held ≠ some reservation then (m, .error .UnknownAdmission)
  else
    match m.activated_session reservation now_ms with
    | .error e => (m, .error (map_lifecycle e))
    | .ok session =>
      (m.update_session reservation.session_id ⟨session, reservation.organization_id, now_ms⟩,
        .ok ())

def commit_admission (reservation : AdmissionReservation) (now_ms : ℕ) : Reply Unit :=
  if !reservation.creates_session then m.returns ()
  else
    let r := m.insert_admitted reservation now_ms
    ⟨r.1, r.2, []⟩

/-- Hands out a capability for the session. -/
def bind (session_id : SessionId) : Reply AuthenticatedConnection :=
  let (m, identity) := m.next_connection_identity
  let connection_id : ConnectionId := ⟨identity⟩
  let authenticated_connections := m.authenticated_connections.insert connection_id session_id
  { m with authenticated_connections }.returns ⟨session_id, connection_id⟩

def bind_authenticated_connection (session_id : SessionId) (now_ms : ℕ) :
    Reply AuthenticatedConnection :=
  match m.sessions.lookup session_id with
  | none => m.fails .UnknownSession
  | some managed =>
    if managed.session.is_expired now_ms then m.removes session_id .Expired (.error .Expired)
    else if managed.session.state ≠ .Active then m.fails .Lifecycle
    else if m.maximum_authenticated_connections ≤ m.authenticated_connections.len then
      m.fails .ConnectionCapacity
    else m.bind session_id

def commit_admission_and_bind (reservation : AdmissionReservation) (now_ms : ℕ) :
    Reply AuthenticatedConnection :=
  if !reservation.creates_session then
    m.bind_authenticated_connection reservation.session_id now_ms
  else
    match m.insert_admitted reservation now_ms with
    | (m, .error e) => m.fails e
    | (m, .ok ()) =>
      if m.maximum_authenticated_connections ≤ m.authenticated_connections.len then
        m.removes reservation.session_id .Closed (.error .ConnectionCapacity)
      else m.bind reservation.session_id

def abort_admission (reservation : AdmissionReservation) : Reply Bool :=
  if !reservation.creates_session then m.returns false
  else
    let held := m.admissions.lookup reservation.session_id
    let admissions := m.admissions.erase reservation.session_id
    { m with admissions }.returns (held = some reservation)

/-! ## Paths -/

def prune_pending_attach (m : V2SessionManager) (e : Σ _ : ConnectionId, PendingAttach) :
    V2SessionManager :=
  let m := { m with pending_connections := m.pending_connections.erase e.1 }
  match m.sessions.lookup e.2.reservation.session_id with
  | none => m
  | some managed =>
    m.update_session e.2.reservation.session_id
      { managed with session := (managed.session.abort_attach e.2.reservation.reservation).1 }

def prune_pending_attaches (now_ms : ℕ) : V2SessionManager :=
  (m.pending_connections.entries.filter (fun e => e.2.expires_at_ms ≤ now_ms)).foldl
    prune_pending_attach m

/-- The capability is one the manager handed out and still holds. -/
def authenticates (connection : AuthenticatedConnection) : Bool :=
  m.authenticated_connections.lookup connection.connection_id = some connection.session_id

def reserve_attach (connection : AuthenticatedConnection) (path_epoch : U64) (key_epoch : U32)
    (now_ms : ℕ) : Reply GatewayAttachReservation :=
  let m := m.prune_pending_attaches now_ms
  if !m.authenticates connection then m.fails .UnknownConnection
  else if connection.connection_id ∈ m.connections
      ∨ connection.connection_id ∈ m.pending_connections then m.fails .ConnectionAlreadyBound
  else if m.config.maximum_pending_attaches ≤ m.pending_connections.len then m.fails .Capacity
  else
    match m.sessions.lookup connection.session_id with
    | none => m.fails .UnknownSession
    | some managed =>
      let (session, result) :=
        managed.session.reserve_attach connection.connection_id path_epoch key_epoch now_ms
      let m := m.update_session connection.session_id { managed with session := session }
      match result with
      | .error e => m.fails (map_lifecycle e)
      | .ok reservation =>
        let result : GatewayAttachReservation := ⟨connection.session_id, reservation⟩
        let pending : PendingAttach :=
          ⟨result, saturatingAdd now_ms m.config.pending_attach_ttl_ms⟩
        let pending_connections :=
          m.pending_connections.insert connection.connection_id pending
        { m with pending_connections }.returns result

def commit_attach (reservation : GatewayAttachReservation) : Reply PathBinding :=
  let connection_id := reservation.reservation.connection_id
  let held := (m.pending_connections.lookup connection_id).map (·.reservation)
  let m := { m with pending_connections := m.pending_connections.erase connection_id }
  if held ≠ some reservation then m.fails .UnknownAttach
  else
    match m.sessions.lookup reservation.session_id with
    | none => m.fails .UnknownSession
    | some managed =>
      match managed.session.commit_attach reservation.reservation with
      | (session, .error e) =>
        (m.update_session reservation.session_id { managed with session := session }).fails
          (map_lifecycle e)
      | (session, .ok path) =>
        match session.set_path_state path.path_id .Healthy with
        | (session, .error e) =>
          (m.update_session reservation.session_id { managed with session := session }).fails
            (map_lifecycle e)
        | (session, .ok path) =>
          let m := m.update_session reservation.session_id { managed with session := session }
          let binding := (reservation.session_id, path.path_id, path.path_epoch, path.key_epoch)
          let connections := m.connections.insert path.connection_id binding
          { m with connections }.returns path

def detach_connection (connection : AuthenticatedConnection) (path_id : PathId) (path_epoch : U64)
    (now_ms : ℕ) : Reply Bool :=
  if !m.authenticates connection then m.fails .UnknownConnection
  else
    match m.connections.lookup connection.connection_id with
    | none => m.returns false
    | some (session_id, bound_path_id, bound_path_epoch, _) =>
      if session_id ≠ connection.session_id ∨ bound_path_id ≠ path_id
          ∨ bound_path_epoch ≠ path_epoch then m.fails .BindingMismatch
      else
        let m := { m with connections := m.connections.erase connection.connection_id }
        match m.sessions.lookup session_id with
        | none => m.fails .UnknownSession
        | some managed =>
          let r := managed.session.detach path_id connection.connection_id path_epoch now_ms
          (m.update_session session_id { managed with session := r.1 }).returns r.2

def close_connection (connection : AuthenticatedConnection) : Reply Bool :=
  let held := m.authenticated_connections.lookup connection.connection_id
  let m := { m with
    authenticated_connections := m.authenticated_connections.erase connection.connection_id }
  if held ≠ some connection.session_id then m.returns false
  else
    match m.pending_connections.lookup connection.connection_id with
    | some pending =>
      let m := { m with
        pending_connections := m.pending_connections.erase connection.connection_id }
      match m.sessions.lookup pending.reservation.session_id with
      | none => m.returns false
      | some managed =>
        let r := managed.session.abort_attach pending.reservation.reservation
        (m.update_session pending.reservation.session_id { managed with session := r.1 }).returns r.2
    | none =>
      match m.connections.lookup connection.connection_id with
      | none => m.returns true
      | some (session_id, path_id, path_epoch, _) =>
        let m := { m with connections := m.connections.erase connection.connection_id }
        match m.sessions.lookup session_id with
        | none => m.returns false
        | some managed =>
          let r := managed.session.detach path_id connection.connection_id path_epoch
            managed.last_activity_ms
          (m.update_session session_id { managed with session := r.1 }).returns r.2

/-! ## Activity -/

/-- The gates that every activity passes: an expired or idle session is removed, a
session that fails `usable` is refused, and any other is marked as active now. -/
def record_activity {α : Type} (session_id : SessionId) (now_ms : ℕ)
    (usable : ManagedSession → Except V2SessionManagerError α) : Reply α :=
  match m.sessions.lookup session_id with
  | none => m.fails .UnknownSession
  | some managed =>
    if managed.session.is_expired now_ms then m.removes session_id .Expired (.error .Expired)
    else if m.config.idle_ttl_ms ≤ now_ms - managed.last_activity_ms then
      m.removes session_id .Idle (.error .Idle)
    else
      match usable managed with
      | .error e => m.fails e
      | .ok a =>
        (m.update_session session_id { managed with last_activity_ms := now_ms }).returns a

/-- The session is Active and the path healthy. -/
def healthy (path_id : PathId) (managed : ManagedSession) : Bool :=
  managed.session.state = .Active
    ∧ (managed.session.path path_id).any (fun path => path.state = .Healthy)

def validate_attached_path (connection : AuthenticatedConnection) (path_id : PathId)
    (path_epoch : U64) (key_epoch : U32) (now_ms : ℕ) : Reply Unit :=
  if !m.authenticates connection then m.fails .UnknownConnection
  else if m.connections.lookup connection.connection_id
      ≠ some (connection.session_id, path_id, path_epoch, key_epoch) then m.fails .BindingMismatch
  else
    m.record_activity connection.session_id now_ms
      (fun managed => if healthy path_id managed then .ok () else .error .BindingMismatch)

def validate_ingress (connection : AuthenticatedConnection) (envelope : V2Envelope) (now_ms : ℕ) :
    Reply ValidatedIngress :=
  if envelope.header.direction ≠ .ClientToGateway then m.fails .InvalidDirection
  else if !m.authenticates connection then m.fails .UnknownConnection
  else
    match m.connections.lookup connection.connection_id with
    | none => m.fails .UnknownConnection
    | some (session_id, path_id, path_epoch, key_epoch) =>
      if envelope.header.session_id ≠ session_id ∨ envelope.header.path_id ≠ path_id
          ∨ envelope.header.path_epoch ≠ path_epoch then m.fails .BindingMismatch
      else if envelope.header.key_epoch ≠ key_epoch then m.fails .StaleKeyEpoch
      else
        m.record_activity session_id now_ms (fun managed =>
          if healthy path_id managed then .ok ⟨session_id, path_id, path_epoch, key_epoch⟩
          else .error .BindingMismatch)

def record_authenticated_activity (connection : AuthenticatedConnection) (now_ms : ℕ) :
    Reply Unit :=
  if !m.authenticates connection then m.fails .UnknownConnection
  else
    m.record_activity connection.session_id now_ms
      (fun managed => if managed.session.state = .Active then .ok () else .error .Lifecycle)

/-! ## Removal -/

def begin_draining (session_id : SessionId) : Reply Unit :=
  match m.sessions.lookup session_id with
  | none => m.fails .UnknownSession
  | some managed =>
    let r := managed.session.begin_draining
    ⟨m.update_session session_id { managed with session := r.1 }, r.2.mapError map_lifecycle, []⟩

/-- Closes a session once. -/
def close (session_id : SessionId) : Reply Bool :=
  m.removes session_id .Closed (.ok (session_id ∈ m.sessions))

/-- Removes the listed sessions one after another. -/
def remove_sessions : V2SessionManager → List (SessionId × SessionRemovalReason) →
    V2SessionManager × List SessionRemoval
  | m, [] => (m, [])
  | m, (session_id, reason) :: rest =>
    let r := m.remove_session session_id reason
    let r' := remove_sessions r.1 rest
    (r'.1, r.2.toList ++ r'.2)

def close_all (order : Traversal SessionId ManagedSession) : V2SessionManager × List SessionRemoval :=
  m.remove_sessions ((order.visit m.sessions.entries).map (fun e => (e.1, .Closed)))

def close_session (connection : AuthenticatedConnection) : Reply Bool :=
  if !m.authenticates connection then m.returns false
  else m.removes connection.session_id .Closed (.ok (connection.session_id ∈ m.sessions))

/-- Why a sweep removes a session, if it does. -/
def due (now_ms : ℕ) (managed : ManagedSession) : Option SessionRemovalReason :=
  if managed.session.is_expired now_ms then some .Expired
  else if m.config.idle_ttl_ms ≤ now_ms - managed.last_activity_ms then some .Idle
  else none

/-- `sweep` up to the removals: expired reservations and pending attaches go, and
every session's tombstones are pruned. -/
def sweep_prune (now_ms : ℕ) : V2SessionManager :=
  let m := { m with admissions := m.admissions.retain (fun _ r => now_ms < r.expires_at_ms) }
  let m := m.prune_pending_attaches now_ms
  m.sessions.entries.foldl
    (fun m e => m.update_session e.1 { e.2 with session := e.2.session.prune_path_tombstones now_ms })
    m

def sweep (order : Traversal SessionId ManagedSession) (now_ms : ℕ) :
    V2SessionManager × List SessionRemoval :=
  let m := m.sweep_prune now_ms
  m.remove_sessions ((order.visit m.sessions.entries).filterMap
    (fun e => (m.due now_ms e.2).map (fun reason => (e.1, reason))))

end V2SessionManager

end StreamGuard.Gateway
