/-
The status plane: `streamguard-service/src/ipc.rs`.

A server challenges each connection with a nonce, and answers snapshot requests on those
that return it under a MAC keyed with the session token. Any number of connections run side
by side; they share the history of used nonces and the counter of failed authentications.
What arrives on a connection, and how it is cut, is up to the peer, who need not be a
client; what clients sign is on record in `signed`.

HMAC-SHA256 is a parameter.
-/
import StreamGuard.Core.Wire
import StreamGuard.Lib.AssocMap
import StreamGuard.Lib.Framed
import StreamGuard.Lib.Recent
import StreamGuard.Lib.Run

set_option autoImplicit false

namespace StreamGuard.Service

open StreamGuard StreamGuard.Lib

def NONCE_LEN : ℕ := 16
/-- `nonce ‖ session_prefix`. -/
def AUTH_MESSAGE_LEN : ℕ := 20
def AUTH_FRAME_LEN : ℕ := NONCE_LEN + 4 + 32
def REQUEST : Bytes := [0x01]
def MAX_SNAPSHOTS_PER_CONNECTION : ℕ := 64
def MAX_SEEN_NONCES : ℕ := 128
def MAX_FRAME_PAYLOAD : ℕ := 64 * 1024

/-- `[u8; NONCE_LEN]`. -/
abbrev Nonce := { bytes : Bytes // bytes.length = NONCE_LEN }

/-! ## Frames -/

/-- `write_frame`, if the payload is not too long. -/
def write_frame (payload : Bytes) : Option Bytes :=
  if MAX_FRAME_PAYLOAD < payload.length then none else some (framed 4 payload)

/-- The lengths that `read_frame` takes. -/
def frame_length (length : ℕ) : Bool := !(length == 0 || decide (MAX_FRAME_PAYLOAD < length))

/-- `read_frame` on what has arrived. -/
def read_frame (arrived : Bytes) : Unframed := unframe 4 frame_length arrived

/-- What is read was framed. -/
theorem read_frame_eq_frame {arrived payload rest : Bytes}
    (h : read_frame arrived = .frame payload rest) : arrived = framed 4 payload ++ rest :=
  (unframe_eq_frame h).1

/-! ## The client -/

section Client

variable (hmac : Bytes → Bytes → Bytes)

/-- What a client signs. -/
def auth_message (nonce : Nonce) (sid : ℕ) : Bytes :=
  nonce.val ++ toBigEndian 4 sid

/-- The payload of `send_auth`. -/
def auth_payload (token : Bytes) (sid : ℕ) (nonce : Nonce) : Bytes :=
  auth_message nonce sid ++ hmac token (auth_message nonce sid)

end Client

/-! ## The server -/

/-- Why a connection is rejected. -/
inductive AuthRejection where
  | malformed
  | nonce_mismatch
  | mac_mismatch
  | replayed
  deriving DecidableEq

/-- What `run_connection` checks of the auth frame before it looks at the history. The MAC
is verified by computing it anew. -/
def check_auth (hmac : Bytes → Bytes → Bytes) (key : Bytes) (nonce : Nonce) (auth : Bytes) :
    Except AuthRejection Unit :=
  if auth.length ≠ AUTH_FRAME_LEN then .error .malformed
  else if auth.take NONCE_LEN ≠ nonce.val then .error .nonce_mismatch
  else if hmac key (auth.take AUTH_MESSAGE_LEN) ≠
      (auth.take AUTH_FRAME_LEN).drop AUTH_MESSAGE_LEN then .error .mac_mismatch
  else .ok ()

/-- Where the worker of a connection is. -/
inductive Stage where
  | auth
  /-- The MAC is good; the history is not locked yet. -/
  | gate
  | serving (served : ℕ)
  /-- Rejected, and not counted yet. -/
  | rejected
  | closed
  deriving DecidableEq

/-- `inbox`: what has arrived and is not read; `ended`: the peer sends no more. -/
structure StatusConn where
  nonce : Nonce
  inbox : Bytes
  ended : Bool
  stage : Stage

structure StatusServer where
  key : Bytes
  seen : List Nonce
  status_auth_failures : ℕ
  conns : Map ℕ StatusConn
  next_conn : ℕ
  signed : List Bytes

inductive StatusLabel where
  /-- A peer is accepted; `written`: its challenge could be written. -/
  | accept (nonce : Nonce) (written : Bool)
  | arrive (id : ℕ) (bytes : Bytes)
  | hang_up (id : ℕ)
  | read_auth (id : ℕ)
  | pass_gate (id : ℕ)
  /-- `handle_connection` counts a rejection. -/
  | count (id : ℕ)
  /-- One round of the serve loop. `body`: what the snapshot serializes to, if it does. -/
  | serve (id : ℕ) (body : Option Bytes) (written : Bool)
  /-- The connection breaks. -/
  | io_error (id : ℕ)
  /-- A client with the token answers a challenge that it has read somewhere. -/
  | client (nonce : Nonce) (sid : ℕ)

inductive StatusEvent where
  | challenged (id : ℕ) (nonce : Nonce)
  | arrived (id : ℕ) (bytes : Bytes)
  | admitted (id : ℕ) (nonce : Nonce)
  | refused (id : ℕ) (rejection : AuthRejection)
  | snapshot (id : ℕ) (body : Bytes)
  deriving DecidableEq

namespace StatusServer

variable (hmac : Bytes → Bytes → Bytes)

def start (key : Bytes) : StatusServer := ⟨key, [], 0, ∅, 0, []⟩

/-- The server with a new state of one connection. -/
def put (s : StatusServer) (id : ℕ) (conn : StatusConn) : StatusServer :=
  { s with conns := s.conns.insert id conn }

/-- The read of the auth frame, and the checks on it. -/
def read_auth (s : StatusServer) (id : ℕ) (conn : StatusConn) :
    Option (StatusServer × List StatusEvent) :=
  match read_frame conn.inbox with
  -- the peer may still send the rest
  | .more => if conn.ended then some (s.put id { conn with stage := .closed }, []) else none
  | .bad => some (s.put id { conn with stage := .closed }, [])
  | .frame auth rest =>
    match check_auth hmac s.key conn.nonce auth with
    | .error rejection =>
      some (s.put id { conn with inbox := rest, stage := .rejected }, [.refused id rejection])
    | .ok _ => some (s.put id { conn with inbox := rest, stage := .gate }, [])

/-- The replay gate, under the lock of the history. -/
def pass_gate (s : StatusServer) (id : ℕ) (conn : StatusConn) : StatusServer × List StatusEvent :=
  if conn.nonce ∈ s.seen then
    (s.put id { conn with stage := .rejected }, [.refused id .replayed])
  else
    ({ s.put id { conn with stage := .serving 0 } with
        seen := keep_last MAX_SEEN_NONCES (s.seen ++ [conn.nonce]) }, [.admitted id conn.nonce])

/-- The stage after a snapshot. -/
def after_snapshot (served : ℕ) : Stage :=
  if served + 1 < MAX_SNAPSHOTS_PER_CONNECTION then .serving (served + 1) else .closed

/-- One round of the serve loop. -/
def serve (s : StatusServer) (id : ℕ) (conn : StatusConn) (served : ℕ) (body : Option Bytes)
    (written : Bool) : Option (StatusServer × List StatusEvent) :=
  match read_frame conn.inbox with
  | .more => if conn.ended then some (s.put id { conn with stage := .closed }, []) else none
  | .bad => some (s.put id { conn with stage := .closed }, [])
  | .frame request rest =>
    -- anything but the one byte ends the connection
    if request ≠ REQUEST then some (s.put id { conn with stage := .closed }, [])
    else
      match body.filter fun body => written && (write_frame body).isSome with
      | none => some (s.put id { conn with stage := .closed }, [])
      | some body =>
        some (s.put id { conn with inbox := rest, stage := after_snapshot served },
          [.snapshot id body])

def step (s : StatusServer) : StatusLabel → Option (StatusServer × List StatusEvent)
  | .accept nonce written =>
    some ({ s.put s.next_conn ⟨nonce, [], false, if written then .auth else .closed⟩ with
        next_conn := s.next_conn + 1 }, if written then [.challenged s.next_conn nonce] else [])
  | .arrive id bytes =>
    match s.conns.lookup id with
    | none => none
    | some conn =>
      if conn.ended = false ∧ conn.stage ≠ .closed then
        some (s.put id { conn with inbox := conn.inbox ++ bytes }, [.arrived id bytes])
      else none
  | .hang_up id =>
    match s.conns.lookup id with
    | none => none
    | some conn => some (s.put id { conn with ended := true }, [])
  | .read_auth id =>
    match s.conns.lookup id with
    | none => none
    | some conn => if conn.stage = .auth then s.read_auth hmac id conn else none
  | .pass_gate id =>
    match s.conns.lookup id with
    | none => none
    | some conn => if conn.stage = .gate then some (s.pass_gate id conn) else none
  | .count id =>
    match s.conns.lookup id with
    | none => none
    | some conn =>
      if conn.stage = .rejected then
        some ({ s.put id { conn with stage := .closed } with
            status_auth_failures := s.status_auth_failures + 1 }, [])
      else none
  | .serve id body written =>
    match s.conns.lookup id with
    | none => none
    | some conn =>
      match conn.stage with
      | .serving served => s.serve id conn served body written
      | _ => none
  | .io_error id =>
    match s.conns.lookup id with
    | none => none
    | some conn =>
      match conn.stage with
      | .auth | .serving _ => some (s.put id { conn with stage := .closed }, [])
      | _ => none
  | .client nonce sid =>
    some ({ s with signed := s.signed ++ [auth_message nonce sid] }, [])

end StatusServer

end StreamGuard.Service
