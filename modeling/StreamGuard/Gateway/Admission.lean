/-
Ticket admission: `streamguard-gateway/src/v2/admission.rs` and the clock and frame
helpers of `listener.rs`.

`admit_async` is split at its one await, the consumption of the ticket: `admit_begin`
is what runs before it, `admit_finish` what runs after it. The verdict of the ticket
verifier is an argument, since the signature check is a library's. A permit of the
limiter holds no lock, so taking one and dropping it are steps of their own.
-/
import StreamGuard.Gateway.AddressPool
import StreamGuard.Gateway.SessionManager

set_option autoImplicit false

namespace StreamGuard.Gateway

open StreamGuard StreamGuard.Lib StreamGuard.Session

/-! ## Clocks -/

/-- One sample of both clocks: wall seconds and monotonic milliseconds. -/
structure AdmissionTime where
  unix_seconds : ℕ
  monotonic_millis : ℕ

/-- The sample `base` moved on by what an `Instant` has measured since. -/
def advance_admission_time (base : AdmissionTime) (elapsed_millis : ℕ) : AdmissionTime where
  unix_seconds := saturatingAdd base.unix_seconds (elapsed_millis / 1000)
  monotonic_millis := saturatingAdd base.monotonic_millis (min elapsed_millis u64Max)

/-- `PoolTime::from_monotonic_and_wall_seconds`. -/
def PoolTime.from_monotonic_and_wall_seconds (monotonic_ms wall_seconds : ℕ) : PoolTime :=
  ⟨monotonic_ms, saturatingMul wall_seconds 1000⟩

/-! ## Tickets and owners -/

/-- A 16-byte ticket identity. -/
structure TicketId where
  bytes : BitVec 128
  deriving DecidableEq

inductive TicketVerificationError where
  | InvalidConfiguration
  | InvalidTrustSnapshot
  | ControllerUnavailable
  | MalformedTicket
  | InvalidHeader
  | UnknownSigningKey
  | InvalidSignatureOrClaims
  | InvalidClaims
  | DeviceIdentityMismatch
  | Revoked
  deriving DecidableEq

structure VerifiedAdmissionTicket where
  ticket_id : TicketId
  device_id : DeviceId
  organization_id : OrganizationId
  session_id : SessionId
  expires_at_unix_seconds : ℕ
  policy_version : ℕ

def MAX_TICKET_LIFETIME_SECONDS : ℕ := 15 * 60

/-- What the verifier has checked of the claims it passes on; the time of issue,
which is not kept, lies between `exp - MAX_TICKET_LIFETIME_SECONDS` and now. -/
structure VerifiedAdmissionTicket.VerifiedAt (ticket : VerifiedAdmissionTicket)
    (now_unix_seconds : ℕ) : Prop where
  policy_version : ticket.policy_version ≠ 0
  unexpired : now_unix_seconds < ticket.expires_at_unix_seconds
  lifetime : ticket.expires_at_unix_seconds ≤ now_unix_seconds + MAX_TICKET_LIFETIME_SECONDS
  u64 : ticket.expires_at_unix_seconds ≤ u64Max

structure SessionOwner where
  session_id : SessionId
  device_id : DeviceId
  organization_id : OrganizationId
  deriving DecidableEq

def SessionOwner.from_ticket (ticket : VerifiedAdmissionTicket) : SessionOwner :=
  ⟨ticket.session_id, ticket.device_id, ticket.organization_id⟩

/-- What a successful verification leaves for the listener. -/
structure AdmissionAccepted where
  owner : SessionOwner
  expires_at_unix_seconds : ℕ
  policy_version : ℕ
  reservation : AdmissionReservation
  deriving DecidableEq

inductive ReplayCacheError where
  | Replay
  | Capacity
  | Unavailable

inductive AdmissionError where
  | InvalidConfiguration
  | InvalidHello
  | Limited
  | Ticket (error : TicketVerificationError)
  | Replay
  | ReplayCapacity
  | ReplayStore
  | Unavailable
  | ProvisioningRejected

/-! ## The handshake limiter -/

inductive IpAddr where
  | V4 (address : Ipv4)
  | V6 (address : Ipv6)
  deriving DecidableEq

structure HandshakeAdmissionLimiterConfig where
  source_capacity : ℕ
  source_ttl_millis : ℕ
  maximum_per_source_in_flight : ℕ
  maximum_global_in_flight : ℕ
  maximum_verification_budget_millis : ℕ

structure SourceState where
  in_flight : ℕ
  last_seen_millis : ℕ

/-- The configuration and the `LimiterState` it guards. -/
structure HandshakeAdmissionLimiter where
  config : HandshakeAdmissionLimiterConfig
  sources : Map IpAddr SourceState
  global_in_flight : ℕ

structure AdmissionPermit where
  source : IpAddr
  deriving DecidableEq

inductive LimiterError where
  | BudgetExceeded
  | SourceCapacity
  | SourceInFlight
  | GlobalInFlight
  | Unavailable

namespace HandshakeAdmissionLimiter

def new (config : HandshakeAdmissionLimiterConfig) :
    Except AdmissionError HandshakeAdmissionLimiter :=
  if config.source_capacity = 0 ∨ config.source_ttl_millis = 0
      ∨ config.maximum_per_source_in_flight = 0 ∨ config.maximum_global_in_flight = 0
      ∨ config.maximum_verification_budget_millis = 0 then .error .InvalidConfiguration
  else .ok ⟨config, ∅, 0⟩

variable (l : HandshakeAdmissionLimiter)

/-- Forgets the sources that hold no permit and were not seen for a while. -/
def prune (now_millis : ℕ) : HandshakeAdmissionLimiter :=
  { l with sources := l.sources.retain (fun _ entry =>
      entry.in_flight ≠ 0 ∨ now_millis - entry.last_seen_millis < l.config.source_ttl_millis) }

/-- `acquire` once the source has an entry. -/
def acquire_source (source : IpAddr) (now_millis : ℕ) :
    HandshakeAdmissionLimiter × Except LimiterError AdmissionPermit :=
  match l.sources.lookup source with
  | none => (l, .error .Unavailable)
  | some entry =>
    if l.config.maximum_per_source_in_flight ≤ entry.in_flight then (l, .error .SourceInFlight)
    else
      let sources := l.sources.insert source ⟨entry.in_flight + 1, now_millis⟩
      let global_in_flight := l.global_in_flight + 1
      ({ l with sources, global_in_flight }, .ok ⟨source⟩)

def acquire (source : IpAddr) (started_at_millis now_millis : ℕ) :
    HandshakeAdmissionLimiter × Except LimiterError AdmissionPermit :=
  if l.config.maximum_verification_budget_millis < now_millis - started_at_millis then
    (l, .error .BudgetExceeded)
  else
    let l := l.prune now_millis
    if l.config.maximum_global_in_flight ≤ l.global_in_flight then (l, .error .GlobalInFlight)
    else if source ∈ l.sources then l.acquire_source source now_millis
    else if l.config.source_capacity ≤ l.sources.len then (l, .error .SourceCapacity)
    else
      { l with sources := l.sources.insert source ⟨0, now_millis⟩ }.acquire_source source now_millis

/-- The end of a permit. -/
def drop_permit (permit : AdmissionPermit) : HandshakeAdmissionLimiter :=
  { l with
    global_in_flight := l.global_in_flight - 1
    sources :=
      match l.sources.lookup permit.source with
      | some entry =>
        l.sources.insert permit.source { entry with in_flight := entry.in_flight - 1 }
      | none => l.sources }

/-- A limiter error as the handler reports it: all of them are `Limited`. -/
def limited (r : HandshakeAdmissionLimiter × Except LimiterError AdmissionPermit) :
    HandshakeAdmissionLimiter × Except AdmissionError AdmissionPermit :=
  (r.1, r.2.mapError (fun _ => .Limited))

/-- `AdmissionHandler::acquire_handshake`. -/
def acquire_handshake (source : IpAddr) (now : AdmissionTime) :
    HandshakeAdmissionLimiter × Except AdmissionError AdmissionPermit :=
  limited (l.acquire source now.monotonic_millis now.monotonic_millis)

end HandshakeAdmissionLimiter

/-! ## Admission -/

/-- `admit_async` up to the replay consume: the limiter, then the ticket. A refused
ticket drops the permit. -/
def admit_begin (l : HandshakeAdmissionLimiter) (source : IpAddr)
    (ticket : Except TicketVerificationError VerifiedAdmissionTicket)
    (started_at_monotonic_millis : ℕ) (now : AdmissionTime) :
    HandshakeAdmissionLimiter ×
      Except AdmissionError (AdmissionPermit × VerifiedAdmissionTicket) :=
  match HandshakeAdmissionLimiter.limited
      (l.acquire source started_at_monotonic_millis now.monotonic_millis) with
  | (l, .error e) => (l, .error e)
  | (l, .ok permit) =>
    match ticket with
    | .error e => (l.drop_permit permit, .error (.Ticket e))
    | .ok ticket => (l, .ok (permit, ticket))

/-- The deadline of a ticket on the monotonic clock, as seen at `now`. -/
def expires_at_monotonic_ms (ticket : VerifiedAdmissionTicket) (now : AdmissionTime) : ℕ :=
  saturatingAdd now.monotonic_millis
    (saturatingMul (ticket.expires_at_unix_seconds - now.unix_seconds) 1000)

/-- `admit_async` after the replay consume: the owner's reservation. -/
def admit_finish (m : V2SessionManager) (ticket : VerifiedAdmissionTicket) (now : AdmissionTime) :
    V2SessionManager × Except AdmissionError AdmissionAccepted × List SessionRemoval :=
  let owner := SessionOwner.from_ticket ticket
  let r := m.reserve_admission owner.session_id owner.device_id owner.organization_id
    (expires_at_monotonic_ms ticket now) now.monotonic_millis
  match r.result with
  | .error _ => (r.manager, .error .ProvisioningRejected, r.removals)
  | .ok reservation =>
    (r.manager, .ok ⟨owner, ticket.expires_at_unix_seconds, ticket.policy_version, reservation⟩,
      r.removals)

/-- `AdmissionHandler::commit_and_bind`. -/
def commit_and_bind (m : V2SessionManager) (admitted : AdmissionAccepted) (now : AdmissionTime) :
    V2SessionManager × Except AdmissionError AuthenticatedConnection × List SessionRemoval :=
  let r := m.commit_admission_and_bind admitted.reservation now.monotonic_millis
  (r.manager, r.result.mapError (fun _ => .ProvisioningRejected), r.removals)

/-- `AdmissionHandler::abort`. -/
def abort (m : V2SessionManager) (admitted : AdmissionAccepted) : V2SessionManager :=
  (m.abort_admission admitted.reservation).manager

/-! ## The answer to the client -/

/-- The fields of `ControlMessage::SessionAdmit`. -/
structure SessionAdmit where
  session_id : SessionId
  expires_at_ms : ℕ
  policy_epoch : ℕ
  assigned_ipv4 : Ipv4
  assigned_ipv4_prefix_len : ℕ
  assigned_ipv6_prefix : Ipv6
  assigned_ipv6_prefix_len : ℕ
  safe_mode_policy : Bytes

inductive V2AdmissionListenerError where
  | InvalidConfiguration
  | TlsConfiguration
  | Endpoint
  | EndpointClosed
  | Limited
  | Handshake
  | HandshakeDeadline
  | PeerIdentity
  | ControlStream
  | ControlStreamDeadline
  | InvalidControl
  | AdmissionRejected
  | InvalidAdmission
  | ResponseWrite
  | ConnectionClosed
  | ConnectionCleanup
  | AddressPool
  deriving DecidableEq

structure SessionAdmitTemplate where
  safe_mode_policy : Bytes

/-- `SessionAdmitTemplate::frame`: the transaction ID and the message of the frame. -/
def SessionAdmitTemplate.frame (template : SessionAdmitTemplate) (transaction_id : U64)
    (admitted : AdmissionAccepted) (lease : AssignedAddresses) :
    Except V2AdmissionListenerError (U64 × SessionAdmit) :=
  if u64Max < admitted.expires_at_unix_seconds * 1000 then .error .InvalidAdmission
  else
    .ok (transaction_id,
      { session_id := admitted.owner.session_id
        expires_at_ms := admitted.expires_at_unix_seconds * 1000
        policy_epoch := admitted.policy_version
        assigned_ipv4 := lease.ipv4
        assigned_ipv4_prefix_len := lease.ipv4_prefix_len
        assigned_ipv6_prefix := lease.ipv6_prefix_addr
        assigned_ipv6_prefix_len := lease.ipv6_prefix_len
        safe_mode_policy := template.safe_mode_policy })

end StreamGuard.Gateway
