/-
The per-connection control sequencing of `sg-protocol/src/v2/control/state.rs`.

`ControlConnectionState` is one endpoint, client or gateway. Two calls change it:
`on_outbound` records a frame the endpoint is about to send, `on_inbound` processes
a frame of the peer and says what to answer. Both take the clock reading of the
caller, prune what has expired, and close an admission whose time is over before
they look at the frame.

A call gives the state after it next to its result, because the source changes
`self` also on the way to an error.
-/
import StreamGuard.Protocol.Control
import StreamGuard.Lib.AssocMap

set_option autoImplicit false

namespace StreamGuard.Control

open StreamGuard StreamGuard.Lib

/-! ## Data -/

inductive ControlRole where
  | Client
  | Gateway
  deriving DecidableEq

/-- A client awaits its admission from the hello it has sent on; a gateway goes from `AwaitHello`
straight to `Active`. Nothing leads out of `Closed`. -/
inductive ConnectionPhase where
  | AwaitHello
  | AwaitAdmit
  | Active
  | Closed
  deriving DecidableEq

/-- What a call fails with, instead of answering the peer. -/
inductive ControlStateError where
  | ZeroCapacity
  | PendingAttachCapacity
  | PendingPolicyUpdateCapacity
  | ChangedLocalTransaction (transaction_id : U64)
  | LocalInvalidState (phase : ConnectionPhase)
  | InvalidAdmission
  | Expired
  deriving DecidableEq

/-- Claims returned by the admission verifier, with what `from_verified_claims` checks of them. -/
structure VerifiedAdmission where
  session_id : SessionId
  expires_at_ms : U64
  policy_epoch : U64
  assigned_ipv4 : BitVec 32
  assigned_ipv4_prefix_len : UInt8
  assigned_ipv6_prefix : BitVec 128
  assigned_ipv6_prefix_len : UInt8
  safe_mode_policy : SafeModePolicy
  session_id_nonzero : session_id.bytes ≠ 0
  epochs_nonzero : expires_at_ms ≠ 0 ∧ policy_epoch ≠ 0
  ipv4_nonzero : assigned_ipv4 ≠ 0
  ipv4_prefix_len : assigned_ipv4_prefix_len ≠ 0 ∧ assigned_ipv4_prefix_len ≤ 32
  ipv6_nonzero : assigned_ipv6_prefix ≠ 0
  ipv6_prefix_len : assigned_ipv6_prefix_len ≠ 0 ∧ assigned_ipv6_prefix_len ≤ 128

/-- `VerifiedAdmission::admit`. -/
def VerifiedAdmission.admit_frame (a : VerifiedAdmission) (transaction_id : U64) : ControlFrame :=
  ⟨transaction_id, .SessionAdmit a.session_id a.expires_at_ms a.policy_epoch a.assigned_ipv4
    a.assigned_ipv4_prefix_len a.assigned_ipv6_prefix a.assigned_ipv6_prefix_len
    a.safe_mode_policy⟩

/-- The capacities are for the entries of one table each, the lifetimes for each entry. -/
structure StateConfig where
  completed_request_capacity : ℕ
  completed_request_ttl_ms : ℕ
  attachment_capacity : ℕ
  pending_attach_capacity : ℕ
  pending_attach_ttl_ms : ℕ
  pending_policy_update_capacity : ℕ
  pending_policy_update_ttl_ms : ℕ

/-- What the caller puts on its reliable stream. -/
inductive ControlAction where
  | None
  | Reply (frame : ControlFrame)
  | Replay (frame : ControlFrame)
  deriving DecidableEq

/-- An answered request, kept so that it can be answered again in the same way. -/
structure CompletedRequest where
  request : ControlFrame
  response : ControlFrame
  expires_at_ms : ℕ

/-- What the gateway has answered to a path nonce. -/
structure AttachmentRecord where
  request : ControlMessage
  response : ControlMessage

/-- An attach that the client has sent and that is not answered yet. -/
structure PendingAttach where
  request : ControlMessage
  expires_at_ms : ℕ
  deriving DecidableEq

/-- A policy update that the gateway has sent and that is not answered yet. -/
structure PendingPolicyUpdate where
  policy_epoch : U64
  expires_at_ms : ℕ

/-- A detach that the client has sent, with the path as it was known then. -/
structure PendingDetach where
  request : ControlMessage
  path_id : PathId
  path_epoch : U64
  expires_at_ms : ℕ

/-- One endpoint of a reliable control connection. -/
structure ControlConnectionState where
  role : ControlRole
  phase : ConnectionPhase
  config : StateConfig
  verified_admission : Option VerifiedAdmission
  session_id : Option SessionId
  expires_at_ms : Option U64
  policy_epoch : U64
  protocol_paths : Map U16 U64
  attachments : Map (BitVec 128) AttachmentRecord
  pending_attaches : Map U64 PendingAttach
  pending_policy_updates : Map U64 PendingPolicyUpdate
  pending_detaches : Map U64 PendingDetach
  /-- Oldest first. -/
  completed : List CompletedRequest
  hello_transaction_id : Option U64
  next_path_id : Option U16

def ack (transaction_id : U64) : ControlFrame := ⟨transaction_id, .Ack⟩

def reject (transaction_id : U64) (code : RejectCode) (reason : String) : ControlFrame :=
  ⟨transaction_id, .Reject code reason⟩

/-- The epoch of a request that is known to be a `PathAttach`. -/
def path_attach_epoch : ControlMessage → Except ControlStateError U64
  | .PathAttach _ _ path_epoch _ _ => .ok path_epoch
  | _ => .error .InvalidAdmission

/-- `value.checked_add(1)` of a `u16`. -/
def checked_succ (value : U16) : Option U16 :=
  if h : value.val + 1 < 2 ^ 16 then some ⟨value.val + 1, h⟩ else none

namespace ControlConnectionState

/-! ## Construction -/

/-- An endpoint before its first frame. Path IDs are given out from 1 on. -/
def new (role : ControlRole) (config : StateConfig) (verified_admission : Option VerifiedAdmission) :
    Except ControlStateError ControlConnectionState :=
  if config.completed_request_capacity = 0 ∨ config.attachment_capacity = 0 ∨
      config.pending_attach_capacity = 0 ∨ config.pending_policy_update_capacity = 0 then
    .error .ZeroCapacity
  else .ok
    { role, phase := .AwaitHello, config, verified_admission
      session_id := none
      expires_at_ms := none
      policy_epoch := 0
      protocol_paths := ∅
      attachments := ∅
      pending_attaches := ∅
      pending_policy_updates := ∅
      pending_detaches := ∅
      completed := []
      hello_transaction_id := none
      next_path_id := some 1 }

def client (config : StateConfig) : Except ControlStateError ControlConnectionState :=
  new .Client config none

/-- A gateway endpoint exists only once the claims of its client were verified. -/
def gateway_after_verified_admission (config : StateConfig) (verified_admission : VerifiedAdmission) :
    Except ControlStateError ControlConnectionState :=
  new .Gateway config (some verified_admission)

/-! ## Reading the state -/

variable (s : ControlConnectionState)

/-- The epoch under which a path is attached, if it is. -/
def path_epoch (path_id : PathId) : Option U64 := s.protocol_paths.lookup path_id.get

/-- The connection is admitted, to this session. -/
def active_session (session_id : SessionId) : Prop :=
  s.phase = .Active ∧ s.session_id = some session_id

instance (session_id : SessionId) : Decidable (s.active_session session_id) :=
  inferInstanceAs (Decidable (_ ∧ _))

/-! ## Time -/

/-- Drops the answered requests whose time is over; an entry is gone at its deadline. -/
def prune_completed (now_ms : ℕ) : ControlConnectionState :=
  { s with completed := s.completed.filter (fun entry => now_ms < entry.expires_at_ms) }

/-- The same of the attaches, and below of the policy updates and the detaches. -/
def prune_pending_attaches (now_ms : ℕ) : ControlConnectionState :=
  { s with pending_attaches :=
      s.pending_attaches.retain (fun _ pending => now_ms < pending.expires_at_ms) }

def prune_pending_policy_updates (now_ms : ℕ) : ControlConnectionState :=
  { s with pending_policy_updates :=
      s.pending_policy_updates.retain (fun _ pending => now_ms < pending.expires_at_ms) }

def prune_pending_detaches (now_ms : ℕ) : ControlConnectionState :=
  { s with pending_detaches :=
      s.pending_detaches.retain (fun _ pending => now_ms < pending.expires_at_ms) }

/-- The three prunes of the pending tables, which every call starts with. -/
def prune_pending (now_ms : ℕ) : ControlConnectionState :=
  ((s.prune_pending_attaches now_ms).prune_pending_policy_updates now_ms).prune_pending_detaches
    now_ms

/-- The admission is over: what `expire_if_needed` tests. -/
def expires (now_ms : ℕ) : Prop :=
  s.phase = .Active ∧ s.expires_at_ms.any (fun expires_at_ms => expires_at_ms.val ≤ now_ms)

instance (now_ms : ℕ) : Decidable (s.expires now_ms) := inferInstanceAs (Decidable (_ ∧ _))

/-- Closes an admission that is over, and says so. -/
def expire_if_needed (now_ms : ℕ) : ControlConnectionState × Bool :=
  if s.expires now_ms then ({ s with phase := .Closed }, true) else (s, false)

/-! ## The completed requests -/

/-- A known transaction ID is answered from the cache: with the old response if the frame is the
old one, else with a reject that is not remembered. -/
def completed_action (frame : ControlFrame) : Option ControlAction :=
  (s.completed.find? (fun entry => entry.request.transaction_id = frame.transaction_id)).map
    (fun entry =>
      if entry.request = frame then .Replay entry.response
      else .Reply (reject frame.transaction_id .InvalidRequest "transaction replay changed"))

/-- The oldest entry makes room for a new one. -/
def remember (request response : ControlFrame) (now_ms : ℕ) : ControlConnectionState :=
  let kept := if s.completed.length = s.config.completed_request_capacity then s.completed.tail
    else s.completed
  { s with completed := kept ++
      [⟨request, response, saturatingAdd now_ms s.config.completed_request_ttl_ms⟩] }

/-- A refusal that is repeated to whoever sends the request again. -/
def reject_and_remember (request : ControlFrame) (code : RejectCode) (reason : String)
    (now_ms : ℕ) : ControlConnectionState × ControlAction :=
  let response := reject request.transaction_id code reason
  (s.remember request response now_ms, .Reply response)

/-! ## Sending -/

/-- The result of a call on a state. -/
abbrev Sent := ControlConnectionState × Except ControlStateError Unit

/-- What a client may send in which phase. An attach and a detach enter their tables, unless the
transaction is there already. -/
def client_outbound (frame : ControlFrame) (now_ms : ℕ) : Sent :=
  let invalid : Sent := (s, .error (.LocalInvalidState s.phase))
  match frame.message with
  | .ClientHello .. =>
    if s.phase = .AwaitHello then
      ({ s with phase := .AwaitAdmit, hello_transaction_id := some frame.transaction_id }, .ok ())
    else invalid
  | .PathAttach session_id .. =>
    if s.active_session session_id then
      match s.pending_attaches.lookup frame.transaction_id with
      | some pending =>
        if pending.request ≠ frame.message then
          (s, .error (.ChangedLocalTransaction frame.transaction_id))
        else (s, .ok ())
      | none =>
        if s.pending_attaches.len = s.config.pending_attach_capacity then
          (s, .error .PendingAttachCapacity)
        else
          let pending : PendingAttach :=
            ⟨frame.message, saturatingAdd now_ms s.config.pending_attach_ttl_ms⟩
          ({ s with
              pending_attaches := s.pending_attaches.insert frame.transaction_id pending }, .ok ())
    else invalid
  | .PathDetach session_id path_id path_epoch _ =>
    if s.active_session session_id ∧ s.path_epoch path_id = some path_epoch then
      match s.pending_detaches.lookup frame.transaction_id with
      | some pending =>
        if pending.request ≠ frame.message then
          (s, .error (.ChangedLocalTransaction frame.transaction_id))
        else (s, .ok ())
      | none =>
        if s.pending_detaches.len = s.config.pending_attach_capacity then
          (s, .error .PendingAttachCapacity)
        else
          let pending : PendingDetach := ⟨frame.message, path_id, path_epoch,
            saturatingAdd now_ms s.config.pending_attach_ttl_ms⟩
          ({ s with
              pending_detaches := s.pending_detaches.insert frame.transaction_id pending }, .ok ())
    else invalid
  | .PathHealth session_id path_id path_epoch _ _ =>
    if s.active_session session_id ∧ s.path_epoch path_id = some path_epoch then (s, .ok ())
    else invalid
  | .Ack => if s.phase = .Active then (s, .ok ()) else invalid
  | .Reject .. => if s.phase = .Active then (s, .ok ()) else invalid
  | .Close session_id _ =>
    if s.active_session session_id then ({ s with phase := .Closed }, .ok ()) else invalid
  | _ => invalid

/-- The same of a gateway: only a policy update enters a table. -/
def gateway_outbound (frame : ControlFrame) (now_ms : ℕ) : Sent :=
  let invalid : Sent := (s, .error (.LocalInvalidState s.phase))
  match frame.message with
  | .PolicyUpdate session_id policy_epoch _ =>
    if s.active_session session_id ∧ s.policy_epoch < policy_epoch then
      match s.pending_policy_updates.lookup frame.transaction_id with
      | some pending =>
        if pending.policy_epoch ≠ policy_epoch then
          (s, .error (.ChangedLocalTransaction frame.transaction_id))
        else (s, .ok ())
      | none =>
        if s.pending_policy_updates.len = s.config.pending_policy_update_capacity then
          (s, .error .PendingPolicyUpdateCapacity)
        else
          let pending : PendingPolicyUpdate :=
            ⟨policy_epoch, saturatingAdd now_ms s.config.pending_policy_update_ttl_ms⟩
          ({ s with
              pending_policy_updates :=
                s.pending_policy_updates.insert frame.transaction_id pending }, .ok ())
    else invalid
  | .Ack => if s.phase = .Active then (s, .ok ()) else invalid
  | .Reject .. => if s.phase = .Active then (s, .ok ()) else invalid
  | .Close session_id _ =>
    if s.active_session session_id then ({ s with phase := .Closed }, .ok ()) else invalid
  | _ => invalid

/-- Records a frame the endpoint is about to send. -/
def on_outbound (frame : ControlFrame) (now_ms : ℕ) : Sent :=
  match (s.prune_pending now_ms).expire_if_needed now_ms with
  | (s, true) => (s, .error .Expired)
  | (s, false) =>
    match s.role with
    | .Client => s.client_outbound frame now_ms
    | .Gateway => s.gateway_outbound frame now_ms

/-! ## Receiving -/

/-- The state after a frame of the peer, and what to answer. -/
abbrev Received := ControlConnectionState × Except ControlStateError ControlAction

/-- Answers a frame with a reject and leaves the state alone. -/
def rejects (frame : ControlFrame) (code : RejectCode) (reason : String) : Received :=
  (s, .ok (.Reply (reject frame.transaction_id code reason)))

/-- A client trusts the transaction ID of an answer to find the request in its tables; it caches
nothing. -/
def client_inbound (frame : ControlFrame) (now_ms : ℕ) : Received :=
  let invalid_state := s.rejects frame .InvalidState "message is invalid in this state"
  let invalid_direction := s.rejects frame .InvalidDirection "message is invalid from this peer"
  match frame.message with
  | .SessionAdmit session_id expires_at_ms policy_epoch _ _ _ _ _ =>
    if s.phase = .AwaitAdmit ∧ s.hello_transaction_id = some frame.transaction_id then
      if expires_at_ms.val ≤ now_ms then s.rejects frame .Expired "admission expired"
      else
        ({ s with
            session_id := some session_id
            expires_at_ms := some expires_at_ms
            policy_epoch
            phase := .Active }, .ok .None)
    else invalid_state
  | .PathAttached session_id path_id path_epoch =>
    if s.active_session session_id then
      match s.pending_attaches.lookup frame.transaction_id with
      | none => s.rejects frame .InvalidState "no matching path attach"
      | some pending =>
        match pending.request with
        | .PathAttach expected_session _ expected_epoch _ _ =>
          if expected_session ≠ session_id ∨ expected_epoch ≠ path_epoch then
            s.rejects frame .InvalidRequest "path attach reply mismatch"
          else if (s.path_epoch path_id).any (fun current => path_epoch ≤ current) then
            s.rejects frame .StaleEpoch "path attached epoch rejected"
          else
            ({ s with
                pending_attaches := s.pending_attaches.erase frame.transaction_id
                protocol_paths := s.protocol_paths.insert path_id.get path_epoch }, .ok .None)
        | _ => s.rejects frame .InvalidRequest "invalid pending path attach"
    else invalid_state
  | .PolicyUpdate session_id policy_epoch _ =>
    if s.active_session session_id then
      if policy_epoch ≤ s.policy_epoch then s.rejects frame .StaleEpoch "policy epoch rejected"
      else ({ s with policy_epoch }, .ok (.Reply (ack frame.transaction_id)))
    else invalid_state
  | .Close session_id _ =>
    if s.active_session session_id then
      ({ s with phase := .Closed }, .ok (.Reply (ack frame.transaction_id)))
    else invalid_state
  | .Ack =>
    if s.phase = .Active then
      match s.pending_detaches.lookup frame.transaction_id with
      | some pending =>
        if s.path_epoch pending.path_id = some pending.path_epoch then
          ({ s with
              pending_detaches := s.pending_detaches.erase frame.transaction_id
              protocol_paths := s.protocol_paths.erase pending.path_id.get }, .ok .None)
        else
          ({ s with pending_detaches := s.pending_detaches.erase frame.transaction_id }, .ok .None)
      | none => (s, .ok .None)
    else invalid_direction
  | .Reject .. =>
    if s.phase = .Active then
      ({ s with pending_detaches := s.pending_detaches.erase frame.transaction_id }, .ok .None)
    else invalid_direction
  | _ => invalid_direction

/-- Why a request on a path is refused, if it is. -/
def path_request_code (session_id : SessionId) (path_id : PathId) (path_epoch : U64) :
    Option RejectCode :=
  if ¬ s.active_session session_id then some .InvalidSession
  else
    match s.path_epoch path_id with
    | none => some .UnknownPath
    | some current => if current ≠ path_epoch then some .StaleEpoch else none

/-- A detach, or a health report, which leaves the paths as they are. -/
def gateway_path_request (frame : ControlFrame) (session_id : SessionId) (path_id : PathId)
    (path_epoch : U64) (now_ms : ℕ) (detach : Bool) : ControlConnectionState × ControlAction :=
  match s.path_request_code session_id path_id path_epoch with
  | some code => s.reject_and_remember frame code "path epoch rejected" now_ms
  | none =>
    let s := if detach then { s with protocol_paths := s.protocol_paths.erase path_id.get } else s
    let response := ack frame.transaction_id
    (s.remember frame response now_ms, .Reply response)

/-- The `PathAttach` arm of `gateway_inbound`. -/
def gateway_path_attach (frame : ControlFrame) (session_id : SessionId) (path_nonce : BitVec 128)
    (now_ms : ℕ) : Received :=
  let rejected (code : RejectCode) (reason : String) : Received :=
    let (s, action) := s.reject_and_remember frame code reason now_ms
    (s, .ok action)
  if ¬ s.active_session session_id then
    rejected .InvalidSession "session is not active on this connection"
  else
    match s.attachments.lookup path_nonce with
    | some existing =>
      if existing.request ≠ frame.message then rejected .InvalidRequest "path nonce replay changed"
      else
        let response : ControlFrame := ⟨frame.transaction_id, existing.response⟩
        (s.remember frame response now_ms, .ok (.Replay response))
    | none =>
      if s.attachments.len = s.config.attachment_capacity then
        rejected .InvalidRequest "path attachment capacity exhausted"
      else
        match s.next_path_id with
        | none => rejected .InvalidRequest "path identifier space exhausted"
        | some next_path_id =>
          match path_attach_epoch frame.message with
          | .error e => (s, .error e)
          | .ok path_epoch =>
            let response_message : ControlMessage :=
              .PathAttached session_id ⟨next_path_id⟩ path_epoch
            let s := { s with
              next_path_id := checked_succ next_path_id
              protocol_paths := s.protocol_paths.insert next_path_id path_epoch
              attachments := s.attachments.insert path_nonce ⟨frame.message, response_message⟩ }
            let response : ControlFrame := ⟨frame.transaction_id, response_message⟩
            (s.remember frame response now_ms, .ok (.Reply response))

/-- A gateway answers from the cache first. Acknowledgements and rejects settle its policy updates;
what it answers to a request of a client it remembers. -/
def gateway_inbound (frame : ControlFrame) (now_ms : ℕ) : Received :=
  match s.completed_action frame with
  | some action => (s, .ok action)
  | none =>
    let rejected (code : RejectCode) (reason : String) : Received :=
      let (s, action) := s.reject_and_remember frame code reason now_ms
      (s, .ok action)
    let invalid_direction := s.rejects frame .InvalidDirection "message is invalid from this peer"
    match frame.message with
    | .ClientHello .. =>
      if s.phase ≠ .AwaitHello then rejected .InvalidState "client hello is no longer allowed"
      else
        match s.verified_admission with
        | none => (s, .error .InvalidAdmission)
        | some admission =>
          if admission.expires_at_ms.val ≤ now_ms then rejected .Expired "admission expired"
          else
            let s := { s with
              session_id := some admission.session_id
              expires_at_ms := some admission.expires_at_ms
              policy_epoch := admission.policy_epoch
              phase := .Active }
            let response := admission.admit_frame frame.transaction_id
            (s.remember frame response now_ms, .ok (.Reply response))
    | .PathAttach session_id path_nonce _ _ _ =>
      s.gateway_path_attach frame session_id path_nonce now_ms
    | .PathDetach session_id path_id path_epoch _ =>
      let (s, action) := s.gateway_path_request frame session_id path_id path_epoch now_ms true
      (s, .ok action)
    | .PathHealth session_id path_id path_epoch _ _ =>
      let (s, action) := s.gateway_path_request frame session_id path_id path_epoch now_ms false
      (s, .ok action)
    | .Close session_id _ =>
      if ¬ s.active_session session_id then
        rejected .InvalidSession "session is not active on this connection"
      else
        let response := ack frame.transaction_id
        let s := s.remember frame response now_ms
        ({ s with phase := .Closed }, .ok (.Reply response))
    | .Ack =>
      if s.phase = .Active then
        match s.pending_policy_updates.lookup frame.transaction_id with
        | some pending =>
          ({ s with
              pending_policy_updates := s.pending_policy_updates.erase frame.transaction_id
              policy_epoch := pending.policy_epoch }, .ok .None)
        | none => s.rejects frame .InvalidState "unexpected acknowledgement"
      else invalid_direction
    | .Reject .. =>
      if s.phase = .Active then
        match s.pending_policy_updates.lookup frame.transaction_id with
        | some _ =>
          ({ s with pending_policy_updates :=
              s.pending_policy_updates.erase frame.transaction_id }, .ok .None)
        | none => s.rejects frame .InvalidState "unexpected rejection"
      else invalid_direction
    | _ => invalid_direction

/-- Processes a frame of the peer. -/
def on_inbound (frame : ControlFrame) (now_ms : ℕ) : Received :=
  match ((s.prune_completed now_ms).prune_pending now_ms).expire_if_needed now_ms with
  | (s, true) => s.rejects frame .Expired "admission expired"
  | (s, false) =>
    match s.role with
    | .Client => s.client_inbound frame now_ms
    | .Gateway => s.gateway_inbound frame now_ms

end ControlConnectionState

end StreamGuard.Control
