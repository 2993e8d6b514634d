/-
One V2 session and its paths, `sg-session/src/v2.rs`.

The source's methods mutate the session and return a result, and some mutate it
even when they fail: `reserve_attach` prunes tombstones first, and the path
number allocator moves on. Each is a function from the session to the session
afterwards and the result. The two counters of expired and evicted tombstones
are left out; no method reads them.
-/
import StreamGuard.Core.V2
import StreamGuard.Lib.AssocMap

set_option autoImplicit false

namespace StreamGuard.Session

open StreamGuard StreamGuard.Lib

inductive SessionState where
  | Pending
  | Active
  | Draining
  | Closed
  deriving DecidableEq

inductive PathState where
  | Connecting
  | Attached
  | Healthy
  | Suspect
  | Failed
  | Reconnecting
  deriving DecidableEq

/-- An authenticated transport identity assigned by the gateway. -/
structure ConnectionId where
  get : U64
  deriving DecidableEq

structure V2SessionConfig where
  maximum_paths : ℕ
  maximum_path_epoch_history : ℕ
  maximum_path_tombstones : ℕ
  path_tombstone_ttl_ms : ℕ

structure Admission where
  session_id : SessionId
  device_id : DeviceId
  expires_at_ms : ℕ
  deriving DecidableEq

structure PathBinding where
  path_id : PathId
  path_epoch : U64
  key_epoch : U32
  connection_id : ConnectionId
  state : PathState
  deriving DecidableEq

structure AttachReservation where
  path_id : PathId
  path_epoch : U64
  key_epoch : U32
  connection_id : ConnectionId
  deriving DecidableEq

inductive LifecycleError where
  | InvalidConfiguration
  | Expired
  | InvalidSessionState
  | InvalidPathEpoch
  | InvalidKeyEpoch
  | ConnectionAlreadyBound
  | PathCapacity
  | PathIdentifierExhausted
  | UnknownReservation
  | InvalidPathState
  deriving DecidableEq

structure PathEntry where
  binding : PathBinding
  reserved : Bool

structure PathEpochs where
  path_epoch : U64
  key_epoch : U32

structure PathTombstone where
  expires_at_ms : ℕ

structure V2Session where
  admission : Admission
  state : SessionState
  maximum_paths : ℕ
  paths : Map PathId PathEntry
  next_path_id : U16
  path_epoch_history : Map PathId PathEpochs
  path_tombstones : Map PathId PathTombstone
  tombstone_order : List PathId
  maximum_path_epoch_history : ℕ
  maximum_path_tombstones : ℕ
  path_tombstone_ttl_ms : ℕ

/-- `u16::MAX`. -/
def u16Max : U16 := Fin.last (2 ^ 16 - 1)

def valid_path_transition : PathState → PathState → Bool
  | .Connecting, .Attached | .Connecting, .Failed
  | .Attached, .Healthy | .Attached, .Failed
  | .Healthy, .Suspect | .Healthy, .Failed
  | .Suspect, .Healthy | .Suspect, .Failed
  | .Failed, .Reconnecting
  | .Reconnecting, .Connecting | .Reconnecting, .Failed => true
  | _, _ => false

namespace V2Session

def new (config : V2SessionConfig) (admission : Admission) (now_ms : ℕ) :
    Except LifecycleError V2Session :=
  if config.maximum_paths = 0 ∨ u16Max.val < config.maximum_paths
      ∨ config.maximum_path_epoch_history < config.maximum_paths
      ∨ u16Max.val < config.maximum_path_epoch_history
      ∨ config.maximum_path_tombstones = 0 ∨ config.path_tombstone_ttl_ms = 0
      ∨ admission.expires_at_ms = 0 then
    .error .InvalidConfiguration
  else if admission.expires_at_ms ≤ now_ms then .error .Expired
  else .ok ⟨admission, .Pending, config.maximum_paths, ∅, 1, ∅, ∅, [],
    config.maximum_path_epoch_history, config.maximum_path_tombstones,
    config.path_tombstone_ttl_ms⟩

def path (s : V2Session) (path_id : PathId) : Option PathBinding :=
  (s.paths.lookup path_id).map (·.binding)

def is_expired (s : V2Session) (now_ms : ℕ) : Bool := s.admission.expires_at_ms ≤ now_ms

def activate (s : V2Session) (now_ms : ℕ) : V2Session × Except LifecycleError Unit :=
  if s.is_expired now_ms then (s, .error .Expired)
  else if s.state ≠ .Pending then (s, .error .InvalidSessionState)
  else ({ s with state := .Active }, .ok ())

def begin_draining (s : V2Session) : V2Session × Except LifecycleError Unit :=
  if s.state ≠ .Active then (s, .error .InvalidSessionState)
  else ({ s with state := .Draining }, .ok ())

/-- True exactly once, when the session becomes closed. -/
def close (s : V2Session) : V2Session × Bool :=
  if s.state = .Closed then (s, false) else ({ s with state := .Closed, paths := ∅ }, true)

/-! ## Tombstones -/

/-- The loop of `prune_path_tombstones` over the tombstone order: an entry without
a tombstone is dropped, the first unexpired tombstone stops the loop. -/
def prune_tombstone_order (now_ms : ℕ) :
    List PathId → Map PathId PathTombstone → List PathId × Map PathId PathTombstone
  | [], tombstones => ([], tombstones)
  | path_id :: order, tombstones =>
    match tombstones.lookup path_id with
    | none => prune_tombstone_order now_ms order tombstones
    | some tombstone =>
      if now_ms < tombstone.expires_at_ms then (path_id :: order, tombstones)
      else prune_tombstone_order now_ms order (tombstones.erase path_id)

def prune_path_tombstones (s : V2Session) (now_ms : ℕ) : V2Session :=
  let r := prune_tombstone_order now_ms s.tombstone_order s.path_tombstones
  { s with tombstone_order := r.1, path_tombstones := r.2 }

/-- The eviction loop of `insert_tombstone`: the oldest go until there is room. -/
def evict_tombstones (maximum : ℕ) :
    List PathId → Map PathId PathTombstone → List PathId × Map PathId PathTombstone
  | [], tombstones => ([], tombstones)
  | path_id :: order, tombstones =>
    if maximum ≤ tombstones.len then evict_tombstones maximum order (tombstones.erase path_id)
    else (path_id :: order, tombstones)

def insert_tombstone (s : V2Session) (path_id : PathId) (path_epoch : U64) (key_epoch : U32)
    (now_ms : ℕ) : V2Session :=
  let r := evict_tombstones s.maximum_path_tombstones s.tombstone_order s.path_tombstones
  let epochs : PathEpochs :=
    match s.path_epoch_history.lookup path_id with
    | some epochs => ⟨max epochs.path_epoch path_epoch, max epochs.key_epoch key_epoch⟩
    | none => ⟨path_epoch, key_epoch⟩
  { s with
    path_epoch_history := s.path_epoch_history.insert path_id epochs
    path_tombstones := r.2.insert path_id ⟨saturatingAdd now_ms s.path_tombstone_ttl_ms⟩
    tombstone_order := r.1 ++ [path_id] }

/-! ## Paths -/

/-- A path number may be given out: it is free, and new or reused with both
epochs advanced. -/
def eligible_path_id (s : V2Session) (path_epoch : U64) (key_epoch : U32) (path_id : PathId) :
    Bool :=
  if path_id ∈ s.paths ∨ path_id ∈ s.path_tombstones then false
  else
    match s.path_epoch_history.lookup path_id with
    | some previous =>
      ¬ (path_epoch ≤ previous.path_epoch ∨ key_epoch ≤ previous.key_epoch)
    | none => s.path_epoch_history.len < s.maximum_path_epoch_history

/-- The number after `id` in the cycle `1, …, u16::MAX`. -/
def following_path_id (id : U16) : U16 := if id = u16Max then 1 else id + 1

/-- The loop of `allocate_path_id` from the number to try next. -/
def scan_path_id (s : V2Session) (path_epoch : U64) (key_epoch : U32) :
    ℕ → U16 → U16 × Option PathId
  | 0, next => (next, none)
  | rounds + 1, next =>
    if s.eligible_path_id path_epoch key_epoch ⟨next⟩ then (following_path_id next, some ⟨next⟩)
    else s.scan_path_id path_epoch key_epoch rounds (following_path_id next)

def allocate_path_id (s : V2Session) (path_epoch : U64) (key_epoch : U32) :
    V2Session × Option PathId :=
  let r := s.scan_path_id path_epoch key_epoch u16Max.val s.next_path_id
  ({ s with next_path_id := r.1 }, r.2)

def reserve_attach (s : V2Session) (connection_id : ConnectionId) (path_epoch : U64)
    (key_epoch : U32) (now_ms : ℕ) : V2Session × Except LifecycleError AttachReservation :=
  let s := s.prune_path_tombstones now_ms
  if s.is_expired now_ms then (s, .error .Expired)
  else if s.state ≠ .Active then (s, .error .InvalidSessionState)
  else if path_epoch = 0 then (s, .error .InvalidPathEpoch)
  else if key_epoch = 0 then (s, .error .InvalidKeyEpoch)
  else if s.paths.values.any (·.binding.connection_id = connection_id) then
    (s, .error .ConnectionAlreadyBound)
  else if s.maximum_paths ≤ s.paths.len then (s, .error .PathCapacity)
  else
    match s.allocate_path_id path_epoch key_epoch with
    | (s, none) => (s, .error .PathIdentifierExhausted)
    | (s, some path_id) =>
      ({ s with
        path_epoch_history := s.path_epoch_history.insert path_id ⟨path_epoch, key_epoch⟩
        paths := s.paths.insert path_id
          ⟨⟨path_id, path_epoch, key_epoch, connection_id, .Connecting⟩, true⟩ },
        .ok ⟨path_id, path_epoch, key_epoch, connection_id⟩)

/-- The entry is the uncommitted one the reservation was given for. -/
def reserves (entry : PathEntry) (reservation : AttachReservation) : Bool :=
  entry.reserved ∧ entry.binding.connection_id = reservation.connection_id
    ∧ entry.binding.path_epoch = reservation.path_epoch
    ∧ entry.binding.key_epoch = reservation.key_epoch

def commit_attach (s : V2Session) (reservation : AttachReservation) :
    V2Session × Except LifecycleError PathBinding :=
  match s.paths.lookup reservation.path_id with
  | none => (s, .error .UnknownReservation)
  | some entry =>
    if !reserves entry reservation then (s, .error .UnknownReservation)
    else
      let binding := { entry.binding with state := .Attached }
      ({ s with paths := s.paths.insert reservation.path_id ⟨binding, false⟩ }, .ok binding)

def abort_attach (s : V2Session) (reservation : AttachReservation) : V2Session × Bool :=
  match s.paths.lookup reservation.path_id with
  | none => (s, false)
  | some entry =>
    if reserves entry reservation then
      ({ s with paths := s.paths.erase reservation.path_id }, true)
    else (s, false)

def detach (s : V2Session) (path_id : PathId) (connection_id : ConnectionId) (path_epoch : U64)
    (now_ms : ℕ) : V2Session × Bool :=
  match s.paths.lookup path_id with
  | none => (s, false)
  | some entry =>
    if entry.reserved ∨ entry.binding.connection_id ≠ connection_id
        ∨ entry.binding.path_epoch ≠ path_epoch then (s, false)
    else
      let s := s.insert_tombstone path_id entry.binding.path_epoch entry.binding.key_epoch now_ms
      ({ s with paths := s.paths.erase path_id }, true)

def set_path_state (s : V2Session) (path_id : PathId) (next : PathState) :
    V2Session × Except LifecycleError PathBinding :=
  match s.paths.lookup path_id with
  | none => (s, .error .UnknownReservation)
  | some entry =>
    if entry.reserved ∨ !valid_path_transition entry.binding.state next then
      (s, .error .InvalidPathState)
    else
      let binding := { entry.binding with state := next }
      ({ s with paths := s.paths.insert path_id ⟨binding, entry.reserved⟩ }, .ok binding)

/-! ## What the path operations leave alone -/

/-- The part of a session that its path operations never touch. -/
def ticket (s : V2Session) : Admission × SessionState := (s.admission, s.state)

theorem reserve_attach_ticket (s : V2Session) (connection_id : ConnectionId) (path_epoch : U64)
    (key_epoch : U32) (now_ms : ℕ) :
    (s.reserve_attach connection_id path_epoch key_epoch now_ms).1.ticket = s.ticket := by
  rw [reserve_attach]
  split
  · rfl
  split
  · rfl
  split
  · rfl
  split
  · rfl
  split
  · rfl
  split
  · rfl
  split
  · next s' h =>
    have hs : s' = ((s.prune_path_tombstones now_ms).allocate_path_id path_epoch key_epoch).1 := by
      rw [h]
    rw [hs]
    rfl
  · next s' path_id h =>
    have hs : s' = ((s.prune_path_tombstones now_ms).allocate_path_id path_epoch key_epoch).1 := by
      rw [h]
    rw [hs]
    rfl

theorem commit_attach_ticket (s : V2Session) (reservation : AttachReservation) :
    (s.commit_attach reservation).1.ticket = s.ticket := by
  rw [commit_attach]
  split
  · rfl
  split
  · rfl
  · rfl

theorem abort_attach_ticket (s : V2Session) (reservation : AttachReservation) :
    (s.abort_attach reservation).1.ticket = s.ticket := by
  rw [abort_attach]
  split
  · rfl
  split
  · rfl
  · rfl

theorem detach_ticket (s : V2Session) (path_id : PathId) (connection_id : ConnectionId)
    (path_epoch : U64) (now_ms : ℕ) :
    (s.detach path_id connection_id path_epoch now_ms).1.ticket = s.ticket := by
  rw [detach]
  split
  · rfl
  split
  · rfl
  · rfl

theorem set_path_state_ticket (s : V2Session) (path_id : PathId) (next : PathState) :
    (s.set_path_state path_id next).1.ticket = s.ticket := by
  rw [set_path_state]
  split
  · rfl
  split
  · rfl
  · rfl

end V2Session

end StreamGuard.Session
