/-
The V2 datagram codec of `sg-protocol/src/v2.rs`.

A datagram is a fixed header of 52 bytes and a payload. `encode` writes a header
that passes its checks; `decode` reads the fields at their offsets and then makes
the same checks, in another order. The main result is `decode_iff_encode`: the two
are inverse to each other on exactly the valid envelopes, for every byte string and
every payload limit.
-/
import StreamGuard.Core.Wire

set_option autoImplicit false

namespace StreamGuard

open StreamGuard.Lib

/-! ## Wire values -/

/-- `traffic_class as u8`. -/
def TrafficClass.to_wire : TrafficClass → UInt8
  | .Realtime => 0
  | .Interactive => 1
  | .Bulk => 2
  | .Control => 3

def TrafficClass.from_wire (value : UInt8) : Option TrafficClass :=
  if value = 0 then some .Realtime
  else if value = 1 then some .Interactive
  else if value = 2 then some .Bulk
  else if value = 3 then some .Control
  else none

def Direction.from_wire (value : UInt8) : Option Direction :=
  if value = 1 then some .ClientToGateway
  else if value = 2 then some .GatewayToClient
  else none

theorem TrafficClass.from_wire_eq_some {value : UInt8} {traffic_class : TrafficClass} :
    TrafficClass.from_wire value = some traffic_class ↔ value = traffic_class.to_wire := by
  constructor
  · intro h
    unfold from_wire at h
    split_ifs at h with h0 h1 h2 h3
    all_goals
      obtain rfl := Option.some.inj h
      assumption
  · rintro rfl
    cases traffic_class <;> decide

theorem Direction.from_wire_eq_some {value : UInt8} {direction : Direction} :
    Direction.from_wire value = some direction ↔ value = UInt8.ofNat direction.to_wire := by
  constructor
  · intro h
    unfold from_wire at h
    split_ifs at h with h1 h2
    all_goals
      obtain rfl := Option.some.inj h
      assumption
  · rintro rfl
    cases direction <;> decide

/-! ## The codec -/

/-- The only accepted V2 datagram version. -/
def VERSION : UInt8 := 0x02

/-- Bytes in the fixed V2 datagram header. -/
def FIXED_HEADER_LEN : ℕ := 52

inductive V2EnvelopeError where
  | TruncatedHeader
  | UnsupportedVersion (version : UInt8)
  | ReservedFlags (flags : UInt8)
  | UnknownTrafficClass (value : UInt8)
  | ControlDatagram
  | UnknownDirection (value : UInt8)
  | ZeroPathEpoch
  | ZeroKeyEpoch
  | EmptyPayload
  | PayloadExceedsLimit (length limit : ℕ)
  | PayloadLengthOverflow
  | TruncatedPayload (declared actual : ℕ)
  | TrailingData (declared actual : ℕ)

def validate_header (header : V2Header) : Except V2EnvelopeError Unit :=
  if header.traffic_class = .Control then .error .ControlDatagram
  else if header.path_epoch = 0 then .error .ZeroPathEpoch
  else if header.key_epoch = 0 then .error .ZeroKeyEpoch
  else .ok ()

def validate_payload_len (len payload_limit : ℕ) : Except V2EnvelopeError Unit :=
  if len = 0 then .error .EmptyPayload
  else if payload_limit < len then .error (.PayloadExceedsLimit len payload_limit)
  -- `u16::MAX`, the largest length the wire field holds
  else if 65535 < len then .error .PayloadLengthOverflow
  else .ok ()

/-- The bytes `encode` puts together; `as u16` keeps the low 16 bits of the length. -/
def V2Envelope.datagram (e : V2Envelope) : Bytes :=
  [VERSION] ++ ([e.header.traffic_class.to_wire] ++ ([0] ++
    ([UInt8.ofNat e.header.direction.to_wire] ++ (id_bytes e.header.session_id.bytes ++
      (U16.to_be_bytes e.header.path_id.get ++ (U64.to_be_bytes e.header.path_epoch ++
        (U32.to_be_bytes e.header.key_epoch ++ (U64.to_be_bytes e.header.flow_id.get ++
          (U64.to_be_bytes e.header.packet_id.get ++
            (U16.to_be_bytes (Fin.ofNat _ e.payload.length) ++ e.payload))))))))))

/-- `V2Envelope::encode`. -/
def V2Envelope.encode (e : V2Envelope) (payload_limit : ℕ) : Except V2EnvelopeError Bytes := do
  validate_header e.header
  validate_payload_len e.payload.length payload_limit
  return e.datagram

/-- `V2Envelope::decode`. -/
def V2Envelope.decode (datagram : Bytes) (payload_limit : ℕ) :
    Outcome V2EnvelopeError V2Envelope :=
  if datagram.length < FIXED_HEADER_LEN then .err .TruncatedHeader else do
  let version ← index datagram 0
  if version ≠ VERSION then .err (.UnsupportedVersion version) else do
  let class_value ← index datagram 1
  let traffic_class ← Outcome.ofOption (.UnknownTrafficClass class_value)
    (TrafficClass.from_wire class_value)
  let flags ← index datagram 2
  if flags ≠ 0 then .err (.ReservedFlags flags) else do
  if traffic_class = .Control then .err .ControlDatagram else do
  let direction_value ← index datagram 3
  let direction ← Outcome.ofOption (.UnknownDirection direction_value)
    (Direction.from_wire direction_value)
  let session_id ← slice datagram 4 20
  let path_high ← index datagram 20
  let path_low ← index datagram 21
  let path_epoch ← array 8 (← slice datagram 22 30)
  let key_epoch ← array 4 (← slice datagram 30 34)
  let flow_id ← array 8 (← slice datagram 34 42)
  let packet_id ← array 8 (← slice datagram 42 50)
  let len_high ← index datagram 50
  let len_low ← index datagram 51
  let payload_len := (U16.from_be_bytes [len_high, len_low]).val
  let actual_payload_len := datagram.length - FIXED_HEADER_LEN
  let header : V2Header :=
    { traffic_class, direction
      session_id := ⟨array_from_bytes 16 session_id⟩
      path_id := ⟨U16.from_be_bytes [path_high, path_low]⟩
      path_epoch := U64.from_be_bytes path_epoch
      key_epoch := U32.from_be_bytes key_epoch
      flow_id := ⟨U64.from_be_bytes flow_id⟩
      packet_id := ⟨U64.from_be_bytes packet_id⟩ }
  Outcome.ofExcept (validate_header header)
  Outcome.ofExcept (validate_payload_len payload_len payload_limit)
  if actual_payload_len < payload_len then
    .err (.TruncatedPayload payload_len actual_payload_len) else do
  if payload_len < actual_payload_len then
    .err (.TrailingData payload_len actual_payload_len) else do
  let payload ← slice_from datagram FIXED_HEADER_LEN
  return ⟨header, payload⟩

/-! ## What both directions check -/

/-- An envelope that passes every check under a payload limit. -/
structure V2Envelope.Valid (e : V2Envelope) (payload_limit : ℕ) : Prop where
  data_class : e.header.traffic_class ≠ .Control
  path_epoch : e.header.path_epoch ≠ 0
  key_epoch : e.header.key_epoch ≠ 0
  nonempty : e.payload.length ≠ 0
  within_limit : e.payload.length ≤ payload_limit
  fits : e.payload.length ≤ 65535

theorem validate_header_eq_ok {header : V2Header} {u : Unit} :
    validate_header header = .ok u ↔
      header.traffic_class ≠ .Control ∧ header.path_epoch ≠ 0 ∧ header.key_epoch ≠ 0 := by
  unfold validate_header
  split_ifs with hclass hpath hkey
  all_goals simp_all

theorem validate_payload_len_eq_ok {len payload_limit : ℕ} {u : Unit} :
    validate_payload_len len payload_limit = .ok u ↔
      len ≠ 0 ∧ len ≤ payload_limit ∧ len ≤ 65535 := by
  unfold validate_payload_len
  split_ifs with hempty hlimit hwire
  · simp [hempty]
  · simp; omega
  · simp; omega
  · simp; omega

/-- Encoding succeeds on the valid envelopes and writes their datagram. -/
theorem V2Envelope.encode_eq_ok {e : V2Envelope} {payload_limit : ℕ} {d : Bytes} :
    e.encode payload_limit = .ok d ↔ e.Valid payload_limit ∧ d = e.datagram := by
  rw [V2Envelope.encode]
  constructor
  · intro h
    obtain ⟨_, hheader, h⟩ := Outcome.except_bind_eq_ok.mp h
    obtain ⟨_, hpayload, h⟩ := Outcome.except_bind_eq_ok.mp h
    obtain ⟨hclass, hpath, hkey⟩ := validate_header_eq_ok.mp hheader
    obtain ⟨hempty, hlimit, hfits⟩ := validate_payload_len_eq_ok.mp hpayload
    exact ⟨⟨hclass, hpath, hkey, hempty, hlimit, hfits⟩, (Except.ok.inj h).symm⟩
  · rintro ⟨h, rfl⟩
    refine Outcome.except_bind_eq_ok.mpr ⟨(), validate_header_eq_ok.mpr
      ⟨h.data_class, h.path_epoch, h.key_epoch⟩, ?_⟩
    exact Outcome.except_bind_eq_ok.mpr ⟨(), validate_payload_len_eq_ok.mpr
      ⟨h.nonempty, h.within_limit, h.fits⟩, rfl⟩

/-! ## Decoding -/

section Decode

variable {d : Bytes} {payload_limit : ℕ} {e : V2Envelope}

/-- The two bytes of a 16-bit word. -/
theorem U16.to_be_bytes_pair (value : U16) : ∃ high low, U16.to_be_bytes value = [high, low] :=
  List.length_eq_two.mp (U16.length_to_be_bytes value)

/-- What decodes is valid, and its datagram is the string: the reads cut the string
at the offsets of the header fields. -/
theorem V2Envelope.of_decode (h : V2Envelope.decode d payload_limit = .ok e) :
    e.Valid payload_limit ∧ d = e.datagram := by
  rw [V2Envelope.decode] at h
  obtain ⟨hlen, h⟩ := Outcome.ite_err_eq_ok.mp h
  obtain ⟨version, h0, h⟩ := Outcome.bind_eq_ok.mp h
  obtain ⟨hversion, h⟩ := Outcome.ite_err_eq_ok.mp h
  obtain ⟨class_value, h1, h⟩ := Outcome.bind_eq_ok.mp h
  obtain ⟨traffic_class, hclass, h⟩ := Outcome.bind_eq_ok.mp h
  obtain ⟨flags, h2, h⟩ := Outcome.bind_eq_ok.mp h
  obtain ⟨hflags, h⟩ := Outcome.ite_err_eq_ok.mp h
  obtain ⟨-, h⟩ := Outcome.ite_err_eq_ok.mp h
  obtain ⟨direction_value, h3, h⟩ := Outcome.bind_eq_ok.mp h
  obtain ⟨direction, hdirection, h⟩ := Outcome.bind_eq_ok.mp h
  obtain ⟨session_id, h4, h⟩ := Outcome.bind_eq_ok.mp h
  obtain ⟨path_high, h20, h⟩ := Outcome.bind_eq_ok.mp h
  obtain ⟨path_low, h21, h⟩ := Outcome.bind_eq_ok.mp h
  obtain ⟨path_slice, h22, h⟩ := Outcome.bind_eq_ok.mp h
  obtain ⟨path_epoch, hpath, h⟩ := Outcome.bind_eq_ok.mp h
  obtain ⟨key_slice, h30, h⟩ := Outcome.bind_eq_ok.mp h
  obtain ⟨key_epoch, hkey, h⟩ := Outcome.bind_eq_ok.mp h
  obtain ⟨flow_slice, h34, h⟩ := Outcome.bind_eq_ok.mp h
  obtain ⟨flow_id, hflow, h⟩ := Outcome.bind_eq_ok.mp h
  obtain ⟨packet_slice, h42, h⟩ := Outcome.bind_eq_ok.mp h
  obtain ⟨packet_id, hpacket, h⟩ := Outcome.bind_eq_ok.mp h
  obtain ⟨len_high, h50, h⟩ := Outcome.bind_eq_ok.mp h
  obtain ⟨len_low, h51, h⟩ := Outcome.bind_eq_ok.mp h
  obtain ⟨_, hheader, h⟩ := Outcome.bind_eq_ok.mp h
  obtain ⟨_, hpayload, h⟩ := Outcome.bind_eq_ok.mp h
  obtain ⟨hshort, h⟩ := Outcome.ite_err_eq_ok.mp h
  obtain ⟨hlong, h⟩ := Outcome.ite_err_eq_ok.mp h
  obtain ⟨payload, hrest, h⟩ := Outcome.bind_eq_ok.mp h
  obtain rfl := Outcome.pure_eq_ok.mp h
  obtain ⟨hdata, hpath_epoch, hkey_epoch⟩ :=
    validate_header_eq_ok.mp (Outcome.ofExcept_eq_ok.mp hheader)
  obtain ⟨hempty, hlimit, hwire⟩ :=
    validate_payload_len_eq_ok.mp (Outcome.ofExcept_eq_ok.mp hpayload)
  -- the arrays are the slices, and the payload is what is left after the header
  obtain ⟨hpath_len, rfl⟩ := array_eq_ok.mp hpath
  obtain ⟨hkey_len, rfl⟩ := array_eq_ok.mp hkey
  obtain ⟨hflow_len, rfl⟩ := array_eq_ok.mp hflow
  obtain ⟨hpacket_len, rfl⟩ := array_eq_ok.mp hpacket
  rw [slice_from_eq (Nat.not_lt.mp hlen)] at hrest
  obtain rfl := Outcome.ok.inj hrest
  obtain ⟨hsession_len, h4⟩ := (slice_eq_ok (by decide)).mp h4
  obtain ⟨-, h22⟩ := (slice_eq_ok (by decide)).mp h22
  obtain ⟨-, h30⟩ := (slice_eq_ok (by decide)).mp h30
  obtain ⟨-, h34⟩ := (slice_eq_ok (by decide)).mp h34
  obtain ⟨-, h42⟩ := (slice_eq_ok (by decide)).mp h42
  have hlength : (d.drop FIXED_HEADER_LEN).length = (U16.from_be_bytes [len_high, len_low]).val := by
    rw [List.length_drop]
    omega
  refine ⟨⟨hdata, hpath_epoch, hkey_epoch, ?_, ?_, ?_⟩, ?_⟩
  · rw [hlength]
    exact hempty
  · rw [hlength]
    exact hlimit
  · rw [hlength]
    exact hwire
  · -- every piece is the encoding of the word it was read as
    have hword : Fin.ofNat (2 ^ 16) (d.drop FIXED_HEADER_LEN).length =
        U16.from_be_bytes [len_high, len_low] := by
      rw [hlength, Fin.ofNat_val_eq_self]
    rw [V2Envelope.datagram, hword, ← (U16.from_be_bytes_eq_iff rfl).mp rfl,
      ← (U16.from_be_bytes_eq_iff rfl).mp rfl, ← (U64.from_be_bytes_eq_iff hpath_len).mp rfl,
      ← (U32.from_be_bytes_eq_iff hkey_len).mp rfl, ← (U64.from_be_bytes_eq_iff hflow_len).mp rfl,
      ← (U64.from_be_bytes_eq_iff hpacket_len).mp rfl, id_bytes,
      ← (array_from_bytes_eq_iff hsession_len).mp rfl,
      ← TrafficClass.from_wire_eq_some.mp (Outcome.ofOption_eq_ok.mp hclass),
      ← Direction.from_wire_eq_some.mp (Outcome.ofOption_eq_ok.mp hdirection),
      ← not_not.mp hversion, ← not_not.mp hflags]
    calc d = version :: d.drop 1 := index_eq_ok.mp h0
      _ = _ := by
        rw [index_eq_ok.mp h1, index_eq_ok.mp h2, index_eq_ok.mp h3, h4, index_eq_ok.mp h20,
          index_eq_ok.mp h21, h22, h30, h34, h42, index_eq_ok.mp h50, index_eq_ok.mp h51]
        rfl

theorem V2Envelope.length_datagram (e : V2Envelope) :
    e.datagram.length = FIXED_HEADER_LEN + e.payload.length := by
  simp only [V2Envelope.datagram, id_bytes, List.length_append, List.length_singleton,
    length_array_bytes, U16.length_to_be_bytes, U32.length_to_be_bytes, U64.length_to_be_bytes,
    FIXED_HEADER_LEN]
  omega

/-- The datagram of a valid envelope decodes to it. -/
theorem V2Envelope.decode_datagram (hvalid : e.Valid payload_limit) :
    V2Envelope.decode e.datagram payload_limit = .ok e := by
  obtain ⟨path_high, path_low, hpath⟩ := U16.to_be_bytes_pair e.header.path_id.get
  obtain ⟨len_high, len_low, hlen⟩ := U16.to_be_bytes_pair (Fin.ofNat _ e.payload.length)
  have hsize := e.length_datagram
  obtain ⟨d, hd⟩ : ∃ d, e.datagram = d := ⟨_, rfl⟩
  rw [hd] at hsize ⊢
  rw [V2Envelope.datagram, hpath, hlen] at hd
  -- what stands at each offset
  have h0 : d.drop 0 = _ := hd.symm
  have h1 := drop_after (j := 1) h0 rfl
  have h2 := drop_after (j := 2) h1 rfl
  have h3 := drop_after (j := 3) h2 rfl
  have h4 := drop_after (j := 4) h3 rfl
  have h20 := drop_after (j := 20) h4 (by rw [id_bytes, length_array_bytes])
  have h21 := drop_after (x := [path_high]) (j := 21) h20 rfl
  have h22 := drop_after (x := [path_low]) (j := 22) h21 rfl
  have h30 := drop_after (j := 30) h22 (by rw [U64.length_to_be_bytes])
  have h34 := drop_after (j := 34) h30 (by rw [U32.length_to_be_bytes])
  have h42 := drop_after (j := 42) h34 (by rw [U64.length_to_be_bytes])
  have h50 := drop_after (j := 50) h42 (by rw [U64.length_to_be_bytes])
  have h51 := drop_after (x := [len_high]) (j := 51) h50 rfl
  have h52 := drop_after (x := [len_low]) (j := 52) h51 rfl
  have hlen_value : (U16.from_be_bytes [len_high, len_low]).val = e.payload.length := by
    rw [(U16.from_be_bytes_eq_iff rfl).mpr hlen.symm, Fin.val_ofNat,
      Nat.mod_eq_of_lt (lt_of_le_of_lt hvalid.fits (by decide))]
  have hpath_value : U16.from_be_bytes [path_high, path_low] = e.header.path_id.get :=
    (U16.from_be_bytes_eq_iff rfl).mpr hpath.symm
  have hsession : array_from_bytes 16 (id_bytes e.header.session_id.bytes) =
      e.header.session_id.bytes :=
    (array_from_bytes_eq_iff (length_array_bytes 16 _)).mpr rfl
  have hepoch : U64.from_be_bytes (U64.to_be_bytes e.header.path_epoch) = e.header.path_epoch :=
    (U64.from_be_bytes_eq_iff (U64.length_to_be_bytes _)).mpr rfl
  have hkey : U32.from_be_bytes (U32.to_be_bytes e.header.key_epoch) = e.header.key_epoch :=
    (U32.from_be_bytes_eq_iff (U32.length_to_be_bytes _)).mpr rfl
  have hflow : U64.from_be_bytes (U64.to_be_bytes e.header.flow_id.get) = e.header.flow_id.get :=
    (U64.from_be_bytes_eq_iff (U64.length_to_be_bytes _)).mpr rfl
  have hpacket : U64.from_be_bytes (U64.to_be_bytes e.header.packet_id.get) =
      e.header.packet_id.get :=
    (U64.from_be_bytes_eq_iff (U64.length_to_be_bytes _)).mpr rfl
  -- the reads, in the order of `decode`
  rw [V2Envelope.decode]
  refine Outcome.ite_err_eq_ok.mpr ⟨by omega, ?_⟩
  refine Outcome.bind_eq_ok.mpr ⟨_, index_of_drop h0, ?_⟩
  refine Outcome.ite_err_eq_ok.mpr ⟨not_not.mpr rfl, ?_⟩
  refine Outcome.bind_eq_ok.mpr ⟨_, index_of_drop h1, ?_⟩
  refine Outcome.bind_eq_ok.mpr
    ⟨_, Outcome.ofOption_eq_ok.mpr (TrafficClass.from_wire_eq_some.mpr rfl), ?_⟩
  refine Outcome.bind_eq_ok.mpr ⟨_, index_of_drop h2, ?_⟩
  refine Outcome.ite_err_eq_ok.mpr ⟨not_not.mpr rfl, ?_⟩
  refine Outcome.ite_err_eq_ok.mpr ⟨hvalid.data_class, ?_⟩
  refine Outcome.bind_eq_ok.mpr ⟨_, index_of_drop h3, ?_⟩
  refine Outcome.bind_eq_ok.mpr
    ⟨_, Outcome.ofOption_eq_ok.mpr (Direction.from_wire_eq_some.mpr rfl), ?_⟩
  refine Outcome.bind_eq_ok.mpr ⟨_, slice_of_drop h4 (by decide)
    (length_array_bytes 16 _), ?_⟩
  refine Outcome.bind_eq_ok.mpr ⟨_, index_of_drop h20, ?_⟩
  refine Outcome.bind_eq_ok.mpr ⟨_, index_of_drop h21, ?_⟩
  refine Outcome.bind_eq_ok.mpr ⟨_, slice_of_drop h22 (by decide)
    (U64.length_to_be_bytes _), ?_⟩
  refine Outcome.bind_eq_ok.mpr ⟨_, array_eq_ok.mpr ⟨U64.length_to_be_bytes _, rfl⟩, ?_⟩
  refine Outcome.bind_eq_ok.mpr ⟨_, slice_of_drop h30 (by decide)
    (U32.length_to_be_bytes _), ?_⟩
  refine Outcome.bind_eq_ok.mpr ⟨_, array_eq_ok.mpr ⟨U32.length_to_be_bytes _, rfl⟩, ?_⟩
  refine Outcome.bind_eq_ok.mpr ⟨_, slice_of_drop h34 (by decide)
    (U64.length_to_be_bytes _), ?_⟩
  refine Outcome.bind_eq_ok.mpr ⟨_, array_eq_ok.mpr ⟨U64.length_to_be_bytes _, rfl⟩, ?_⟩
  refine Outcome.bind_eq_ok.mpr ⟨_, slice_of_drop h42 (by decide)
    (U64.length_to_be_bytes _), ?_⟩
  refine Outcome.bind_eq_ok.mpr ⟨_, array_eq_ok.mpr ⟨U64.length_to_be_bytes _, rfl⟩, ?_⟩
  refine Outcome.bind_eq_ok.mpr ⟨_, index_of_drop h50, ?_⟩
  refine Outcome.bind_eq_ok.mpr ⟨_, index_of_drop h51, ?_⟩
  rw [hlen_value, hpath_value, hsession, hepoch, hkey, hflow, hpacket]
  refine Outcome.bind_eq_ok.mpr ⟨(), Outcome.ofExcept_eq_ok.mpr
    (validate_header_eq_ok.mpr ⟨hvalid.data_class, hvalid.path_epoch, hvalid.key_epoch⟩), ?_⟩
  refine Outcome.bind_eq_ok.mpr ⟨(), Outcome.ofExcept_eq_ok.mpr
    (validate_payload_len_eq_ok.mpr ⟨hvalid.nonempty, hvalid.within_limit, hvalid.fits⟩), ?_⟩
  refine Outcome.ite_err_eq_ok.mpr ⟨by omega, ?_⟩
  refine Outcome.ite_err_eq_ok.mpr ⟨by omega, ?_⟩
  refine Outcome.bind_eq_ok.mpr ⟨_, slice_from_eq (by omega), ?_⟩
  rw [FIXED_HEADER_LEN, h52]
  rfl

/-- Past the length check every read stays inside the string. -/
theorem V2Envelope.decode_ne_panic (d : Bytes) (payload_limit : ℕ) :
    V2Envelope.decode d payload_limit ≠ .panic := by
  -- a slice of a word's length converts to its array
  have hword : ∀ {i j n : ℕ} {x : Bytes}, i < j → j - i = n →
      (slice d i j : Outcome V2EnvelopeError Bytes) = .ok x →
        (array n x : Outcome V2EnvelopeError Bytes) ≠ .panic := by
    intro i j n x hij hn hx
    exact array_ne_panic (((slice_eq_ok hij).mp hx).1.trans hn)
  rw [V2Envelope.decode]
  refine Outcome.ite_err_ne_panic fun hlen => ?_
  have hlen : 52 ≤ d.length := Nat.not_lt.mp hlen
  refine Outcome.bind_ne_panic (index_ne_panic (by omega)) fun _ _ => ?_
  refine Outcome.ite_err_ne_panic fun _ => ?_
  refine Outcome.bind_ne_panic (index_ne_panic (by omega)) fun _ _ => ?_
  refine Outcome.bind_ne_panic (Outcome.ofOption_ne_panic _ _) fun _ _ => ?_
  refine Outcome.bind_ne_panic (index_ne_panic (by omega)) fun _ _ => ?_
  refine Outcome.ite_err_ne_panic fun _ => ?_
  refine Outcome.ite_err_ne_panic fun _ => ?_
  refine Outcome.bind_ne_panic (index_ne_panic (by omega)) fun _ _ => ?_
  refine Outcome.bind_ne_panic (Outcome.ofOption_ne_panic _ _) fun _ _ => ?_
  refine Outcome.bind_ne_panic (slice_ne_panic (by omega) (by omega)) fun _ _ => ?_
  refine Outcome.bind_ne_panic (index_ne_panic (by omega)) fun _ _ => ?_
  refine Outcome.bind_ne_panic (index_ne_panic (by omega)) fun _ _ => ?_
  refine Outcome.bind_ne_panic (slice_ne_panic (by omega) (by omega)) fun _ hx => ?_
  refine Outcome.bind_ne_panic (hword (by omega) rfl hx) fun _ _ => ?_
  refine Outcome.bind_ne_panic (slice_ne_panic (by omega) (by omega)) fun _ hx => ?_
  refine Outcome.bind_ne_panic (hword (by omega) rfl hx) fun _ _ => ?_
  refine Outcome.bind_ne_panic (slice_ne_panic (by omega) (by omega)) fun _ hx => ?_
  refine Outcome.bind_ne_panic (hword (by omega) rfl hx) fun _ _ => ?_
  refine Outcome.bind_ne_panic (slice_ne_panic (by omega) (by omega)) fun _ hx => ?_
  refine Outcome.bind_ne_panic (hword (by omega) rfl hx) fun _ _ => ?_
  refine Outcome.bind_ne_panic (index_ne_panic (by omega)) fun _ _ => ?_
  refine Outcome.bind_ne_panic (index_ne_panic (by omega)) fun _ _ => ?_
  refine Outcome.bind_ne_panic (Outcome.ofExcept_ne_panic _) fun _ _ => ?_
  refine Outcome.bind_ne_panic (Outcome.ofExcept_ne_panic _) fun _ _ => ?_
  refine Outcome.ite_err_ne_panic fun _ => ?_
  refine Outcome.ite_err_ne_panic fun _ => ?_
  refine Outcome.bind_ne_panic (slice_from_ne_panic hlen) fun _ _ => ?_
  intro h
  contradiction

/-- Decoding succeeds on the datagrams of the valid envelopes. -/
theorem V2Envelope.decode_eq_ok :
    V2Envelope.decode d payload_limit = .ok e ↔ e.Valid payload_limit ∧ d = e.datagram := by
  constructor
  · intro h
    exact V2Envelope.of_decode h
  · rintro ⟨hvalid, rfl⟩
    exact V2Envelope.decode_datagram hvalid

end Decode

/-! ## The codec is a bijection -/

/-- **The datagram codec is a bijection on its image.** Under every limit, decoding
and encoding are inverse to each other; so no two datagrams decode to one envelope,
no two envelopes have one datagram, and whatever is not the datagram of a valid
envelope is rejected with an error. -/
theorem V2Envelope.datagram_codec_bijective (payload_limit : ℕ) :
    (∀ d e, V2Envelope.decode d payload_limit = .ok e ↔ e.encode payload_limit = .ok d) ∧
      (∀ d d' e, V2Envelope.decode d payload_limit = .ok e ∧
        V2Envelope.decode d' payload_limit = .ok e → d = d') ∧
      (∀ (e e' : V2Envelope) d, e.encode payload_limit = .ok d ∧
        e'.encode payload_limit = .ok d → e = e') ∧
      ∀ d, (∀ e : V2Envelope, e.encode payload_limit ≠ .ok d) →
        ∃ error, V2Envelope.decode d payload_limit = .err error := by
  have hiff : ∀ d e, V2Envelope.decode d payload_limit = .ok e ↔
      e.encode payload_limit = .ok d := by
    intro d e
    rw [V2Envelope.decode_eq_ok, V2Envelope.encode_eq_ok]
  refine ⟨hiff, ?_, ?_, ?_⟩
  · rintro d d' e ⟨h, h'⟩
    exact (V2Envelope.decode_eq_ok.mp h).2.trans (V2Envelope.decode_eq_ok.mp h').2.symm
  · rintro e e' d ⟨h, h'⟩
    exact Outcome.ok.inj (((hiff d e).mpr h).symm.trans ((hiff d e').mpr h'))
  · intro d hnone
    cases hd : V2Envelope.decode d payload_limit with
    | ok e => exact absurd ((hiff d e).mp hd) (hnone e)
    | err error => exact ⟨error, rfl⟩
    | panic => exact absurd hd (V2Envelope.decode_ne_panic d payload_limit)

end StreamGuard
