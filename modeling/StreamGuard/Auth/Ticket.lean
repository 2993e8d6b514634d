/-
Admission tickets: the verifier of `sg-auth/src/ticket.rs`.

A ticket is a signed JWT. What the JWT library makes of a compact ticket (its
header, and its claims under a key) is a parameter; every check the verifier
makes itself is here. Identifiers are UUID text in lowercase: 32 hex digits in
groups of 8, 4, 4, 4 and 12.
-/
import StreamGuard.Core.Wire
import StreamGuard.Gateway.Admission

set_option autoImplicit false

namespace StreamGuard.Gateway

open StreamGuard StreamGuard.Lib

/-! ## Identifiers -/

def hex (value : UInt8) : Option UInt8 :=
  if 48 ≤ value ∧ value ≤ 57 then some (value - 48)
  else if 97 ≤ value ∧ value ≤ 102 then some (value - 97 + 10)
  else none

/-- Two hex digits off the source, the high one first. -/
def hex_byte : Bytes → Option (UInt8 × Bytes)
  | high :: low :: source => do
    let high ← hex high
    let low ← hex low
    return ((high <<< 4) ||| low, source)
  | _ => none

/-- The byte at an index; a dash stands before bytes 4, 6, 8 and 10. -/
def identifier_byte (index : ℕ) (source : Bytes) : Option (UInt8 × Bytes) :=
  if index = 4 ∨ index = 6 ∨ index = 8 ∨ index = 10 then
    match source with
    | 45 :: source => hex_byte source
    | _ => none
  else hex_byte source

/-- The next `count` bytes from an index on. -/
def identifier_bytes : ℕ → ℕ → Bytes → Option (Bytes × Bytes)
  | 0, _, source => some ([], source)
  | count + 1, index, source => do
    let (byte, source) ← identifier_byte index source
    let (bytes, source) ← identifier_bytes count (index + 1) source
    return (byte :: bytes, source)

def parse_identifier (value : String) : Option (BitVec 128) :=
  if value.utf8ByteSize ≠ 36 then none
  else match identifier_bytes 16 0 (utf8Bytes value) with
    | some (bytes, []) => some (array_from_bytes 16 bytes)
    | _ => none

/-! ## Text checks -/

def is_ascii (value : String) : Bool := (utf8Bytes value).all (· < 128)

def valid_text (value : String) (maximum : ℕ) : Bool :=
  decide (value ≠ "") && decide (value.utf8ByteSize ≤ maximum) && is_ascii value

def is_alphanumeric (byte : UInt8) : Bool :=
  decide (48 ≤ byte ∧ byte ≤ 57) || decide (65 ≤ byte ∧ byte ≤ 90) ||
    decide (97 ≤ byte ∧ byte ≤ 122)

def is_base64url (value : String) : Bool :=
  (utf8Bytes value).all fun byte => is_alphanumeric byte || byte == 45 || byte == 95

def MAX_COMPACT_TICKET_LEN : ℕ := 2 * 1024
def MAX_HEADER_SEGMENT_LEN : ℕ := 512
def MAX_CLAIMS_SEGMENT_LEN : ℕ := 1536
def MAX_SIGNATURE_SEGMENT_LEN : ℕ := 512
def MAX_KEY_ID_LEN : ℕ := 64
def MAX_REGION_LEN : ℕ := 32
def MAX_ALLOWED_REGIONS : ℕ := 16

def valid_key_id (value : String) : Bool := valid_text value MAX_KEY_ID_LEN && is_base64url value

def valid_region (value : String) : Bool :=
  valid_text value MAX_REGION_LEN && (utf8Bytes value).all fun byte =>
    decide (97 ≤ byte ∧ byte ≤ 122) || decide (48 ≤ byte ∧ byte ≤ 57) || byte == 45

def validate_compact_bounds (ticket : String) : Except TicketVerificationError Unit :=
  if ticket = "" ∨ MAX_COMPACT_TICKET_LEN < ticket.utf8ByteSize ∨ is_ascii ticket = false then
    .error .MalformedTicket
  else match ticket.toList.splitOn '.' |>.map String.ofList with
    | [header, claims, signature] =>
      if header = "" ∨ claims = "" ∨ signature = "" ∨
          MAX_HEADER_SEGMENT_LEN < header.utf8ByteSize ∨
          MAX_CLAIMS_SEGMENT_LEN < claims.utf8ByteSize ∨
          MAX_SIGNATURE_SEGMENT_LEN < signature.utf8ByteSize ∨
          is_base64url header = false ∨ is_base64url claims = false ∨
          is_base64url signature = false then
        .error .MalformedTicket
      else .ok ()
    | _ => .error .MalformedTicket

/-! ## Verification -/

structure WireClaims where
  jti : String
  iss : String
  aud : String
  device : String
  organization : String
  session : String
  iat : U64
  exp : U64
  policy_version : U64
  regions : List String
  nonce : String

/-- The header of a JWT; `eddsa` says whether its algorithm is EdDSA. -/
structure JwtHeader where
  eddsa : Bool
  typ : Option String
  kid : Option String

/-- The JWT library: the header of a compact ticket, and its claims where the signature
verifies under the key of an ID and issuer, audience and the required claims are
there. -/
structure JwtLibrary where
  decode_header : String → Option JwtHeader
  decode : String → String → String → String → Option WireClaims

structure ControllerTrustSnapshot where
  key_ids : List String
  revoked_ticket_ids : List TicketId
  fresh_until_unix_seconds : ℕ

structure TicketVerifier where
  issuer : String
  audience : String
  current_region : String

/-- The checks of `TicketVerifier::verify` on decoded claims. -/
def TicketVerifier.verify_claims (v : TicketVerifier) (trust : ControllerTrustSnapshot)
    (now_unix_seconds : ℕ) (verified_device : DeviceId) (claims : WireClaims) :
    Except TicketVerificationError VerifiedAdmissionTicket :=
  match parse_identifier claims.jti, parse_identifier claims.device,
      parse_identifier claims.organization, parse_identifier claims.session,
      parse_identifier claims.nonce with
  | some ticket_id, some device_id, some organization_id, some session_id, some _ =>
    if device_id ≠ verified_device.bytes ∨ claims.iss ≠ v.issuer ∨ claims.aud ≠ v.audience ∨
        claims.policy_version = 0 ∨ now_unix_seconds < claims.iat.val ∨
        claims.exp.val ≤ now_unix_seconds ∨ claims.exp ≤ claims.iat ∨
        MAX_TICKET_LIFETIME_SECONDS < claims.exp.val - claims.iat.val ∨
        claims.regions = [] ∨ MAX_ALLOWED_REGIONS < claims.regions.length ∨
        claims.regions.all valid_region = false ∨ v.current_region ∉ claims.regions then
      .error .InvalidClaims
    else if ⟨ticket_id⟩ ∈ trust.revoked_ticket_ids then .error .Revoked
    else .ok ⟨⟨ticket_id⟩, ⟨device_id⟩, ⟨organization_id⟩, ⟨session_id⟩, claims.exp.val,
      claims.policy_version.val⟩
  | _, _, _, _, _ => .error .InvalidClaims

/-- `TicketVerifier::verify`. -/
def TicketVerifier.verify (v : TicketVerifier) (jwt : JwtLibrary) (ticket : String)
    (trust : Option ControllerTrustSnapshot) (now_unix_seconds : ℕ)
    (verified_device client_hello_device : DeviceId) :
    Except TicketVerificationError VerifiedAdmissionTicket :=
  if verified_device ≠ client_hello_device then .error .DeviceIdentityMismatch
  else match trust with
    | none => .error .ControllerUnavailable
    | some trust =>
      if trust.fresh_until_unix_seconds ≤ now_unix_seconds then .error .ControllerUnavailable
      else do
        validate_compact_bounds ticket
        match jwt.decode_header ticket with
        | none => .error .MalformedTicket
        | some header =>
          if header.eddsa = false ∨ header.typ ≠ some "JWT" then .error .InvalidHeader
          else match header.kid with
            | none => .error .InvalidHeader
            | some key_id =>
              if valid_key_id key_id = false then .error .InvalidHeader
              else if key_id ∉ trust.key_ids then .error .UnknownSigningKey
              else match jwt.decode ticket key_id v.issuer v.audience with
                | none => .error .InvalidSignatureOrClaims
                | some claims => v.verify_claims trust now_unix_seconds verified_device claims

/-- A ticket that passes has an identity spelled by its `jti` and lies in its lifetime. -/
theorem TicketVerifier.verify_claims_ok {v : TicketVerifier} {trust : ControllerTrustSnapshot}
    {now_unix_seconds : ℕ} {verified_device : DeviceId} {claims : WireClaims}
    {ticket : VerifiedAdmissionTicket}
    (h : v.verify_claims trust now_unix_seconds verified_device claims = .ok ticket) :
    parse_identifier claims.jti = some ticket.ticket_id.bytes ∧
      ticket.VerifiedAt now_unix_seconds := by
  unfold verify_claims at h
  split at h
  · next ticket_id device_id organization_id session_id nonce hticket _ _ _ _ =>
    obtain ⟨hchecks, h⟩ := Outcome.except_ite_eq_ok.mp h
    obtain ⟨hrevoked, h⟩ := Outcome.except_ite_eq_ok.mp h
    simp only [not_or, not_lt, not_le] at hchecks
    obtain ⟨-, -, -, hpolicy, hissued, hexpires, hafter, hlifetime, -⟩ := hchecks
    rw [Except.ok.injEq] at h
    rw [← h]
    refine ⟨hticket, ?_, hexpires, ?_, Nat.le_sub_one_of_lt claims.exp.isLt⟩
    · intro hzero
      exact hpolicy (Fin.ext hzero)
    · show claims.exp.val ≤ now_unix_seconds + MAX_TICKET_LIFETIME_SECONDS
      omega
  · contradiction

/-- The same of a whole verification. -/
theorem TicketVerifier.verify_ok {v : TicketVerifier} {jwt : JwtLibrary} {text : String}
    {trust : Option ControllerTrustSnapshot} {now_unix_seconds : ℕ}
    {verified_device client_hello_device : DeviceId} {ticket : VerifiedAdmissionTicket}
    (h : v.verify jwt text trust now_unix_seconds verified_device client_hello_device =
      .ok ticket) :
    (∃ jti, parse_identifier jti = some ticket.ticket_id.bytes) ∧
      ticket.VerifiedAt now_unix_seconds := by
  unfold verify at h
  obtain ⟨-, h⟩ := Outcome.except_ite_eq_ok.mp h
  split at h
  · contradiction
  next trust =>
  obtain ⟨-, h⟩ := Outcome.except_ite_eq_ok.mp h
  obtain ⟨_, -, h⟩ := Outcome.except_bind_eq_ok.mp h
  split at h
  · contradiction
  next header hheader =>
  obtain ⟨-, h⟩ := Outcome.except_ite_eq_ok.mp h
  split at h
  · contradiction
  next key_id hkey =>
  obtain ⟨-, h⟩ := Outcome.except_ite_eq_ok.mp h
  obtain ⟨-, h⟩ := Outcome.except_ite_eq_ok.mp h
  split at h
  · contradiction
  next claims hclaims =>
  obtain ⟨hticket, hverified⟩ := verify_claims_ok h
  exact ⟨⟨claims.jti, hticket⟩, hverified⟩

example : parse_identifier "01234567-89ab-cdef-0123-456789abcdef" =
    some 0x0123456789abcdef0123456789abcdef := by decide

end StreamGuard.Gateway
