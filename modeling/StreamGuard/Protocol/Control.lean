/-
The V2 reliable-control frames of `sg-protocol/src/v2/control.rs`.

A frame is a header of 16 bytes (version, kind, transaction ID, body length) and
the body of one of ten messages. `encode_message` writes a body field by field;
`decode_message` reads it back through a `Reader` that takes pieces off the front.

A ticket and a Safe Mode policy carry their bounds. `decode` builds them with the
constructors that only this module can use and that check nothing: building one
whose bounds do not hold is modelled as a panic, and that this never happens is
part of what is proved about `decode`.
-/
import StreamGuard.Core.Wire

set_option autoImplicit false

namespace StreamGuard.Control

open StreamGuard StreamGuard.Lib

/-! ## Data -/

/-- The only accepted V2 reliable-control version. -/
def VERSION : UInt8 := 0x02

/-- Bytes before a control message body. -/
def FRAME_HEADER_LEN : ℕ := 16

def MAX_GATEWAY_NAME_LEN : ℕ := 255
def MAX_TICKET_LEN : ℕ := 2 * 1024
def MAX_PATH_METADATA_LEN : ℕ := 512
def MAX_REASON_LEN : ℕ := 255
def MAX_POLICY_LEN : ℕ := 4 * 1024
def MAX_SAFE_MODE_POLICY_LEN : ℕ := 4 * 1024

/-- Why a frame is not encoded or not decoded; `field` is the name of the field at fault. -/
inductive ControlCodecError where
  | TruncatedHeader
  | UnsupportedVersion (version : UInt8)
  | ReservedByte (byte : UInt8)
  | UnknownKind (kind : UInt8)
  | ZeroTransactionId
  | FrameTooLarge (length limit : ℕ)
  | TruncatedFrame (declared actual : ℕ)
  | TrailingData (declared actual : ℕ)
  | InvalidField (field : String)
  | FieldTooLong (field : String) (length maximum : ℕ)
  | InvalidUtf8 (field : String)
  deriving DecidableEq

/-- The length check of every text and every blob, on both sides. -/
def validate_len (field : String) (length maximum : ℕ) : Except ControlCodecError Unit :=
  if maximum < length then .error (.FieldTooLong field length maximum) else .ok ()

/-- A nonempty admission ticket of bounded length. -/
structure AdmissionTicket where
  value : String
  nonempty : value ≠ ""
  bounded : value.utf8ByteSize ≤ MAX_TICKET_LEN
  deriving DecidableEq

/-- The checked constructor. -/
def AdmissionTicket.new (value : String) : Except ControlCodecError AdmissionTicket :=
  if hempty : value = "" then .error (.InvalidField "ticket")
  else if hlong : MAX_TICKET_LEN < value.utf8ByteSize then
    .error (.FieldTooLong "ticket" value.utf8ByteSize MAX_TICKET_LEN)
  else .ok ⟨value, hempty, Nat.not_lt.mp hlong⟩

/-- `AdmissionTicket(value)`, the unchecked constructor. -/
def AdmissionTicket.wrap (value : String) : Outcome ControlCodecError AdmissionTicket :=
  if h : value ≠ "" ∧ value.utf8ByteSize ≤ MAX_TICKET_LEN then .ok ⟨value, h.1, h.2⟩ else .panic

/-- A nonempty Safe Mode policy payload of bounded length. -/
structure SafeModePolicy where
  value : Bytes
  nonempty : value ≠ []
  bounded : value.length ≤ MAX_SAFE_MODE_POLICY_LEN
  deriving DecidableEq

/-- The checked constructor. -/
def SafeModePolicy.new (value : Bytes) : Except ControlCodecError SafeModePolicy :=
  if hempty : value = [] then .error (.InvalidField "safe mode policy")
  else if hlong : MAX_SAFE_MODE_POLICY_LEN < value.length then
    .error (.FieldTooLong "safe mode policy" value.length MAX_SAFE_MODE_POLICY_LEN)
  else .ok ⟨value, hempty, Nat.not_lt.mp hlong⟩

/-- `SafeModePolicy(value)`, the unchecked constructor. -/
def SafeModePolicy.wrap (value : Bytes) : Outcome ControlCodecError SafeModePolicy :=
  if h : value ≠ [] ∧ value.length ≤ MAX_SAFE_MODE_POLICY_LEN then .ok ⟨value, h.1, h.2⟩ else .panic

/-- The codes of a `Reject`. -/
inductive RejectCode where
  | InvalidState
  | InvalidSession
  | StaleEpoch
  | UnknownPath
  | InvalidRequest
  | Expired
  | InvalidDirection
  deriving DecidableEq

/-- `code as u16`. -/
def RejectCode.to_wire : RejectCode → U16
  | .InvalidState => 1
  | .InvalidSession => 2
  | .StaleEpoch => 3
  | .UnknownPath => 4
  | .InvalidRequest => 5
  | .Expired => 6
  | .InvalidDirection => 7

/-- Zero and everything from 8 on is no code. -/
def RejectCode.from_wire (value : U16) : Option RejectCode :=
  if value = 1 then some .InvalidState
  else if value = 2 then some .InvalidSession
  else if value = 3 then some .StaleEpoch
  else if value = 4 then some .UnknownPath
  else if value = 5 then some .InvalidRequest
  else if value = 6 then some .Expired
  else if value = 7 then some .InvalidDirection
  else none

/-- V2 reliable-control messages. -/
inductive ControlMessage where
  | ClientHello (device_id : DeviceId) (requested_gateway : String) (ticket : AdmissionTicket)
  | SessionAdmit (session_id : SessionId) (expires_at_ms policy_epoch : U64)
      (assigned_ipv4 : BitVec 32) (assigned_ipv4_prefix_len : UInt8)
      (assigned_ipv6 : BitVec 128) (assigned_ipv6_prefix_len : UInt8)
      (safe_mode_policy : SafeModePolicy)
  | PathAttach (session_id : SessionId) (path_nonce : BitVec 128) (path_epoch : U64)
      (key_epoch : U32) (metadata : Bytes)
  | PathAttached (session_id : SessionId) (path_id : PathId) (path_epoch : U64)
  | PathDetach (session_id : SessionId) (path_id : PathId) (path_epoch : U64) (reason : String)
  | PathHealth (session_id : SessionId) (path_id : PathId) (path_epoch : U64)
      (rtt_ms loss_ppm : U32)
  | PolicyUpdate (session_id : SessionId) (policy_epoch : U64) (policy : Bytes)
  | Close (session_id : SessionId) (reason : String)
  | Ack
  | Reject (code : RejectCode) (reason : String)
  deriving DecidableEq

/-- A control message with its transaction identity. -/
structure ControlFrame where
  transaction_id : U64
  message : ControlMessage
  deriving DecidableEq

/-! ## Validation -/

/-- An identifier of sixteen zero bytes is none. -/
def validate_id (id : BitVec 128) (name : String) : Except ControlCodecError Unit :=
  if id = 0 then .error (.InvalidField name) else .ok ()

def validate_session (session_id : SessionId) : Except ControlCodecError Unit :=
  validate_id session_id.bytes "session ID"

/-- Addresses are not unspecified. -/
def validate_nonzero {w : ℕ} (value : BitVec w) (name : String) : Except ControlCodecError Unit :=
  if value = 0 then .error (.InvalidField name) else .ok ()

def validate_path (path_id : PathId) : Except ControlCodecError Unit :=
  if path_id.get = 0 then .error (.InvalidField "path ID") else .ok ()

/-- Epochs count from one. -/
def validate_epoch (value : U64) (name : String) : Except ControlCodecError Unit :=
  if value = 0 then .error (.InvalidField name) else .ok ()

/-- A prefix has at least one bit, and no more than the address. -/
def validate_prefix_len (value maximum : UInt8) (name : String) : Except ControlCodecError Unit :=
  if value = 0 ∨ maximum < value then .error (.InvalidField name) else .ok ()

/-! ## Encoding -/

/-- A text behind one byte of length. The cast is exact, as `maximum` is at most 255. -/
def put_string_u8 (body : Bytes) (value field : String) (maximum : ℕ) :
    Except ControlCodecError Bytes := do
  validate_len field value.utf8ByteSize maximum
  return body ++ [UInt8.ofNat value.utf8ByteSize] ++ utf8Bytes value

/-- A text behind two bytes of length. -/
def put_string_u16 (body : Bytes) (value field : String) (maximum : ℕ) :
    Except ControlCodecError Bytes := do
  validate_len field value.utf8ByteSize maximum
  return body ++ U16.to_be_bytes (Fin.ofNat _ value.utf8ByteSize) ++ utf8Bytes value

/-- The kind and the body of a message. -/
def encode_message : ControlMessage → Except ControlCodecError (UInt8 × Bytes)
  | .ClientHello device_id requested_gateway ticket => do
    validate_id device_id.bytes "device ID"
    let body ← put_string_u8 [] requested_gateway "gateway" MAX_GATEWAY_NAME_LEN
    let body ← put_string_u16 body ticket.value "ticket" MAX_TICKET_LEN
    return (1, id_bytes device_id.bytes ++ body)
  | .SessionAdmit session_id expires_at_ms policy_epoch assigned_ipv4 assigned_ipv4_prefix_len
      assigned_ipv6_prefix assigned_ipv6_prefix_len safe_mode_policy => do
    validate_session session_id
    if expires_at_ms = 0 ∨ policy_epoch = 0 then
      .error (.InvalidField "session admission epoch") else do
    validate_nonzero assigned_ipv4 "assigned IPv4"
    validate_nonzero assigned_ipv6_prefix "assigned IPv6 prefix"
    validate_prefix_len assigned_ipv4_prefix_len 32 "IPv4 prefix length"
    validate_prefix_len assigned_ipv6_prefix_len 128 "IPv6 prefix length"
    return (2, id_bytes session_id.bytes ++ U64.to_be_bytes expires_at_ms ++
      U64.to_be_bytes policy_epoch ++ array_bytes 4 assigned_ipv4 ++ [assigned_ipv4_prefix_len] ++
      array_bytes 16 assigned_ipv6_prefix ++ [assigned_ipv6_prefix_len] ++
      U16.to_be_bytes (Fin.ofNat _ safe_mode_policy.value.length) ++ safe_mode_policy.value)
  | .PathAttach session_id path_nonce path_epoch key_epoch metadata => do
    validate_session session_id
    validate_id path_nonce "path nonce"
    validate_epoch path_epoch "path epoch"
    if key_epoch = 0 then .error (.InvalidField "key epoch") else do
    validate_len "path metadata" metadata.length MAX_PATH_METADATA_LEN
    return (3, id_bytes session_id.bytes ++ id_bytes path_nonce ++ U64.to_be_bytes path_epoch ++
      U32.to_be_bytes key_epoch ++ U16.to_be_bytes (Fin.ofNat _ metadata.length) ++ metadata)
  | .PathAttached session_id path_id path_epoch => do
    validate_session session_id
    validate_path path_id
    validate_epoch path_epoch "path epoch"
    return (4, id_bytes session_id.bytes ++ U16.to_be_bytes path_id.get ++
      U64.to_be_bytes path_epoch)
  | .PathDetach session_id path_id path_epoch reason => do
    validate_session session_id
    validate_path path_id
    validate_epoch path_epoch "path epoch"
    let body ← put_string_u8 (id_bytes session_id.bytes ++ U16.to_be_bytes path_id.get ++
      U64.to_be_bytes path_epoch) reason "reason" MAX_REASON_LEN
    return (5, body)
  | .PathHealth session_id path_id path_epoch rtt_ms loss_ppm => do
    validate_session session_id
    validate_path path_id
    validate_epoch path_epoch "path epoch"
    return (6, id_bytes session_id.bytes ++ U16.to_be_bytes path_id.get ++
      U64.to_be_bytes path_epoch ++ U32.to_be_bytes rtt_ms ++ U32.to_be_bytes loss_ppm)
  | .PolicyUpdate session_id policy_epoch policy => do
    validate_session session_id
    validate_epoch policy_epoch "policy epoch"
    validate_len "policy" policy.length MAX_POLICY_LEN
    return (7, id_bytes session_id.bytes ++ U64.to_be_bytes policy_epoch ++
      U16.to_be_bytes (Fin.ofNat _ policy.length) ++ policy)
  | .Close session_id reason => do
    validate_session session_id
    let body ← put_string_u8 (id_bytes session_id.bytes) reason "reason" MAX_REASON_LEN
    return (8, body)
  | .Ack => return (9, [])
  | .Reject code reason => do
    let body ← put_string_u8 (U16.to_be_bytes code.to_wire) reason "reason" MAX_REASON_LEN
    return (10, body)

/-- `ControlFrame::encode`; `as u32` keeps the low 32 bits of the body length. -/
def ControlFrame.encode (f : ControlFrame) (limit : ℕ) : Except ControlCodecError Bytes :=
  if f.transaction_id = 0 then .error .ZeroTransactionId else do
  let (kind, body) ← encode_message f.message
  let length := FRAME_HEADER_LEN + body.length
  if limit < length then .error (.FrameTooLarge length limit) else
  return [VERSION, 0, kind, 0] ++ U64.to_be_bytes f.transaction_id ++
    U32.to_be_bytes (Fin.ofNat _ body.length) ++ body

/-! ## Decoding -/

/-- What is left of a body. -/
structure Reader where
  remaining : Bytes

namespace Reader

/-- Splitting past the end panics. -/
def split_at (bytes : Bytes) (count : ℕ) : Outcome ControlCodecError (Bytes × Bytes) :=
  if count ≤ bytes.length then .ok (bytes.take count, bytes.drop count) else .panic

/-- The next `count` bytes; that they are there is checked before the split. -/
def take (r : Reader) (count : ℕ) : Outcome ControlCodecError (Bytes × Reader) :=
  if r.remaining.length < count then .err (.InvalidField "truncated message body") else do
  let (value, remaining) ← split_at r.remaining count
  return (value, ⟨remaining⟩)

/-- Sixteen bytes that are not all zero. -/
def id (r : Reader) (name : String) : Outcome ControlCodecError (BitVec 128 × Reader) := do
  let (value, r) ← r.take 16
  let bytes := array_from_bytes 16 (← array 16 value)
  Outcome.ofExcept (validate_id bytes name)
  return (bytes, r)

def u16 (r : Reader) : Outcome ControlCodecError (U16 × Reader) := do
  let (value, r) ← r.take 2
  return (U16.from_be_bytes (← array 2 value), r)

def u32 (r : Reader) : Outcome ControlCodecError (U32 × Reader) := do
  let (value, r) ← r.take 4
  return (U32.from_be_bytes (← array 4 value), r)

def u64 (r : Reader) : Outcome ControlCodecError (U64 × Reader) := do
  let (value, r) ← r.take 8
  return (U64.from_be_bytes (← array 8 value), r)

/-- `reader.take(1)?[0]`. -/
def byte (r : Reader) : Outcome ControlCodecError (UInt8 × Reader) := do
  let (value, r) ← r.take 1
  return (← index value 0, r)

/-- `reader.take(w)?.try_into().unwrap()`, an array of `w` bytes. -/
def bytes (r : Reader) (w : ℕ) : Outcome ControlCodecError (BitVec (8 * w) × Reader) := do
  let (value, r) ← r.take w
  return (array_from_bytes w (← array w value), r)

/-- An epoch, checked as it is read. -/
def epoch (r : Reader) (name : String) : Outcome ControlCodecError (U64 × Reader) := do
  let (value, r) ← r.u64
  Outcome.ofExcept (validate_epoch value name)
  return (value, r)

def path_id (r : Reader) : Outcome ControlCodecError (PathId × Reader) := do
  let (value, r) ← r.u16
  Outcome.ofExcept (validate_path ⟨value⟩)
  return (⟨value⟩, r)

/-- A text of a length that was read before it: first its length is checked, then that it is
there, then that it is UTF-8. -/
def string (r : Reader) (field : String) (len maximum : ℕ) :
    Outcome ControlCodecError (String × Reader) := do
  Outcome.ofExcept (validate_len field len maximum)
  let (value, r) ← r.take len
  let text ← Outcome.ofOption (.InvalidUtf8 field) (fromUtf8 value)
  return (text, r)

def string_u8 (r : Reader) (field : String) (maximum : ℕ) :
    Outcome ControlCodecError (String × Reader) := do
  let (len, r) ← r.byte
  r.string field len.toNat maximum

def string_u16 (r : Reader) (field : String) (maximum : ℕ) :
    Outcome ControlCodecError (String × Reader) := do
  let (len, r) ← r.u16
  r.string field len.val maximum

/-- A blob behind two bytes of length. -/
def bytes_u16 (r : Reader) (field : String) (maximum : ℕ) :
    Outcome ControlCodecError (Bytes × Reader) := do
  let (len, r) ← r.u16
  Outcome.ofExcept (validate_len field len.val maximum)
  r.take len.val

/-- Nothing may be left of the body. -/
def finish (r : Reader) : Except ControlCodecError Unit :=
  if r.remaining = [] then .ok () else .error (.TrailingData 0 r.remaining.length)

end Reader

/-- The message of a kind and a body. -/
def decode_message (kind : UInt8) (body : Bytes) : Outcome ControlCodecError ControlMessage :=
  let r : Reader := ⟨body⟩
  match kind with
  | 1 => do
    let (device, r) ← r.id "device ID"
    let (gateway, r) ← r.string_u8 "gateway" MAX_GATEWAY_NAME_LEN
    let (ticket, r) ← r.string_u16 "ticket" MAX_TICKET_LEN
    if ticket = "" then .err (.InvalidField "ticket") else do
    Outcome.ofExcept r.finish
    return .ClientHello ⟨device⟩ gateway (← AdmissionTicket.wrap ticket)
  | 2 => do
    let (session, r) ← r.id "session ID"
    let (expires_at_ms, r) ← r.u64
    let (policy_epoch, r) ← r.u64
    let (assigned_ipv4, r) ← r.bytes 4
    let (assigned_ipv4_prefix_len, r) ← r.byte
    let (assigned_ipv6, r) ← r.bytes 16
    let (assigned_ipv6_prefix_len, r) ← r.byte
    let (safe_mode_policy, r) ← r.bytes_u16 "safe mode policy" MAX_SAFE_MODE_POLICY_LEN
    if expires_at_ms = 0 ∨ policy_epoch = 0 then
      .err (.InvalidField "session admission epoch") else do
    Outcome.ofExcept (validate_nonzero assigned_ipv4 "assigned IPv4")
    Outcome.ofExcept (validate_nonzero assigned_ipv6 "assigned IPv6 prefix")
    Outcome.ofExcept (validate_prefix_len assigned_ipv4_prefix_len 32 "IPv4 prefix length")
    Outcome.ofExcept (validate_prefix_len assigned_ipv6_prefix_len 128 "IPv6 prefix length")
    if safe_mode_policy = [] then .err (.InvalidField "safe mode policy") else do
    Outcome.ofExcept r.finish
    return .SessionAdmit ⟨session⟩ expires_at_ms policy_epoch assigned_ipv4
      assigned_ipv4_prefix_len assigned_ipv6 assigned_ipv6_prefix_len
      (← SafeModePolicy.wrap safe_mode_policy)
  | 3 => do
    let (session, r) ← r.id "session ID"
    let (nonce, r) ← r.id "path nonce"
    let (path_epoch, r) ← r.epoch "path epoch"
    let (key_epoch, r) ← r.u32
    if key_epoch = 0 then .err (.InvalidField "key epoch") else do
    let (metadata, r) ← r.bytes_u16 "path metadata" MAX_PATH_METADATA_LEN
    Outcome.ofExcept r.finish
    return .PathAttach ⟨session⟩ nonce path_epoch key_epoch metadata
  | 4 => do
    let (session, r) ← r.id "session ID"
    let (path_id, r) ← r.path_id
    let (path_epoch, r) ← r.epoch "path epoch"
    Outcome.ofExcept r.finish
    return .PathAttached ⟨session⟩ path_id path_epoch
  | 5 => do
    let (session, r) ← r.id "session ID"
    let (path_id, r) ← r.path_id
    let (path_epoch, r) ← r.epoch "path epoch"
    let (reason, r) ← r.string_u8 "reason" MAX_REASON_LEN
    Outcome.ofExcept r.finish
    return .PathDetach ⟨session⟩ path_id path_epoch reason
  | 6 => do
    let (session, r) ← r.id "session ID"
    let (path_id, r) ← r.path_id
    let (path_epoch, r) ← r.epoch "path epoch"
    let (rtt_ms, r) ← r.u32
    let (loss_ppm, r) ← r.u32
    Outcome.ofExcept r.finish
    return .PathHealth ⟨session⟩ path_id path_epoch rtt_ms loss_ppm
  | 7 => do
    let (session, r) ← r.id "session ID"
    let (policy_epoch, r) ← r.epoch "policy epoch"
    let (policy, r) ← r.bytes_u16 "policy" MAX_POLICY_LEN
    Outcome.ofExcept r.finish
    return .PolicyUpdate ⟨session⟩ policy_epoch policy
  | 8 => do
    let (session, r) ← r.id "session ID"
    let (reason, r) ← r.string_u8 "reason" MAX_REASON_LEN
    Outcome.ofExcept r.finish
    return .Close ⟨session⟩ reason
  | 9 => do
    Outcome.ofExcept r.finish
    return .Ack
  | 10 => do
    let (value, r) ← r.u16
    let code ← Outcome.ofOption (.InvalidField "reject code") (RejectCode.from_wire value)
    let (reason, r) ← r.string_u8 "reason" MAX_REASON_LEN
    Outcome.ofExcept r.finish
    return .Reject code reason
  | other => .err (.UnknownKind other)

/-- `ControlFrame::decode`. -/
def ControlFrame.decode (frame : Bytes) (limit : ℕ) : Outcome ControlCodecError ControlFrame :=
  if frame.length < FRAME_HEADER_LEN then .err .TruncatedHeader else do
  let version ← index frame 0
  if version ≠ VERSION then .err (.UnsupportedVersion version) else do
  let reserved ← index frame 1
  if reserved ≠ 0 then .err (.ReservedByte reserved) else do
  let reserved ← index frame 3
  if reserved ≠ 0 then .err (.ReservedByte reserved) else do
  let kind ← index frame 2
  let transaction_id := U64.from_be_bytes (← array 8 (← slice frame 4 12))
  if transaction_id = 0 then .err .ZeroTransactionId else do
  let body_len := (U32.from_be_bytes (← array 4 (← slice frame 12 16))).val
  let declared := FRAME_HEADER_LEN + body_len
  if limit < declared then .err (.FrameTooLarge declared limit) else do
  if frame.length < declared then .err (.TruncatedFrame declared frame.length) else do
  if declared < frame.length then .err (.TrailingData declared frame.length) else do
  let body ← slice_from frame FRAME_HEADER_LEN
  let message ← decode_message kind body
  return ⟨transaction_id, message⟩

end StreamGuard.Control
