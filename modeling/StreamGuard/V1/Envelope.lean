/-
The V1 datagram codec of `sg-protocol/src/lib.rs`.

An envelope is a header of 20 bytes and a payload. The header holds the first four
bytes of the session and the low 48 bits of the packet number; `encode` checks the
length of the payload, and neither of these two. `decode_eq_ok` says which envelopes
decode: those with a wire-safe session and a number below `2 ^ 48`, each from exactly the
bytes `encode` writes for it.
-/
import StreamGuard.Core.V1
import StreamGuard.Lib.Cursor

set_option autoImplicit false

namespace StreamGuard.V1

open StreamGuard StreamGuard.Lib

/-! ## Words at the cursor -/

section Words

variable {ε : Type} {b rest : Bytes}

def get_u16 : Reader ε U16 := do
  let bytes ← Reader.take 2
  return U16.from_be_bytes bytes

def get_u32 : Reader ε U32 := do
  let bytes ← Reader.take 4
  return U32.from_be_bytes bytes

theorem get_u16_eq_ok {value : U16} :
    (get_u16 : Reader ε U16) b = .ok (value, rest) ↔ b = U16.to_be_bytes value ++ rest := by
  rw [get_u16, Reader.bind_eq_ok]
  constructor
  · rintro ⟨bytes, mid, htake, hpure⟩
    obtain ⟨hlen, rfl⟩ := Reader.take_eq_ok.mp htake
    obtain ⟨hvalue, rfl⟩ := Reader.pure_eq_ok.mp hpure
    rw [(U16.from_be_bytes_eq_iff hlen).mp hvalue]
  · rintro rfl
    refine ⟨_, rest, Reader.take_eq_ok.mpr ⟨U16.length_to_be_bytes value, rfl⟩, ?_⟩
    exact Reader.pure_eq_ok.mpr
      ⟨(U16.from_be_bytes_eq_iff (U16.length_to_be_bytes value)).mpr rfl, rfl⟩

theorem get_u32_eq_ok {value : U32} :
    (get_u32 : Reader ε U32) b = .ok (value, rest) ↔ b = U32.to_be_bytes value ++ rest := by
  rw [get_u32, Reader.bind_eq_ok]
  constructor
  · rintro ⟨bytes, mid, htake, hpure⟩
    obtain ⟨hlen, rfl⟩ := Reader.take_eq_ok.mp htake
    obtain ⟨hvalue, rfl⟩ := Reader.pure_eq_ok.mp hpure
    rw [(U32.from_be_bytes_eq_iff hlen).mp hvalue]
  · rintro rfl
    refine ⟨_, rest, Reader.take_eq_ok.mpr ⟨U32.length_to_be_bytes value, rfl⟩, ?_⟩
    exact Reader.pure_eq_ok.mpr
      ⟨(U32.from_be_bytes_eq_iff (U32.length_to_be_bytes value)).mpr rfl, rfl⟩

end Words

/-! ## The codec -/

def VERSION : UInt8 := 0x01

/-- Bytes in the V1 envelope header. -/
def FIXED_HEADER_LEN : ℕ := 20

/-- `u16::MAX`, the longest payload of one envelope. -/
def MAX_PAYLOAD_LEN : ℕ := 65535

inductive PacketType where
  | Data
  | Duplicate
  | Control
  | Probe
  | Keepalive
  | PathStatus
  deriving DecidableEq

/-- `packet_type as u8`. -/
def PacketType.to_wire : PacketType → UInt8
  | .Data => 0
  | .Duplicate => 1
  | .Control => 2
  | .Probe => 3
  | .Keepalive => 4
  | .PathStatus => 5

/-- `PacketType::try_from`, but for the text of its error. -/
def PacketType.from_wire (value : UInt8) : Option PacketType :=
  if value = 0 then some .Data
  else if value = 1 then some .Duplicate
  else if value = 2 then some .Control
  else if value = 3 then some .Probe
  else if value = 4 then some .Keepalive
  else if value = 5 then some .PathStatus
  else none

structure Envelope where
  version : UInt8
  packet_type : PacketType
  flags : UInt8
  path_id : PathId
  session_id : SessionId
  sequence : Sequence
  timestamp_ms : U32
  payload : Bytes
  deriving DecidableEq

/-- The packet number of a Data envelope. -/
def Envelope.data_number (e : Envelope) : Option U64 :=
  if e.packet_type = .Data then some e.sequence.get else none

/-- The six bytes of a packet number, `(seq >> 40) as u8` to `seq as u8`. -/
def sequence_bytes (seq : U64) : Bytes :=
  [UInt8.ofNat (seq.val >>> 40), UInt8.ofNat (seq.val >>> 32), UInt8.ofNat (seq.val >>> 24),
    UInt8.ofNat (seq.val >>> 16), UInt8.ofNat (seq.val >>> 8), UInt8.ofNat seq.val]

/-- `seq = (seq << 8) | byte` over the bytes; six of them stay inside the word. -/
def sequence_from_bytes (bytes : Bytes) : U64 :=
  Fin.ofNat _ (bytes.foldl (fun seq byte => seq <<< 8 ||| byte.toNat) 0)

/-- The bytes `encode` puts; `as u16` keeps the low 16 bits of the length. -/
def Envelope.image (e : Envelope) : Bytes :=
  e.version :: e.packet_type.to_wire :: e.flags :: e.path_id.get ::
    (e.session_id.wire ++ (sequence_bytes e.sequence.get ++ (U32.to_be_bytes e.timestamp_ms ++
      (U16.to_be_bytes (Fin.ofNat _ e.payload.length) ++ e.payload))))

/-- `Envelope::encode`: the bytes it appends to the buffer. -/
def Envelope.encode (e : Envelope) : Except Error Bytes :=
  if MAX_PAYLOAD_LEN < e.payload.length then .error (.Protocol "payload exceeds u16::MAX")
  else .ok e.image

/-- `Envelope::decode`: the envelope, and what is left of the buffer. -/
def Envelope.decode : Reader Error Envelope := do
  if (← Reader.remaining) < FIXED_HEADER_LEN then
    Reader.fail (.Protocol "short envelope header") else do
  let version ← Reader.get_u8
  let type ← Reader.get_u8
  let packet_type ← Reader.ofOption
    (.Protocol ("unknown packet type " ++ toString type.toNat)) (PacketType.from_wire type)
  let flags ← Reader.get_u8
  let path_id ← Reader.get_u8
  let four ← Reader.take 4
  let seq ← Reader.take 6
  let timestamp_ms ← get_u32
  let payload_len ← get_u16
  if (← Reader.remaining) < payload_len.val then
    Reader.fail (.Protocol "truncated payload") else do
  let payload ← Reader.take payload_len.val
  return ⟨version, packet_type, flags, ⟨path_id⟩, SessionId.of_wire four,
    ⟨sequence_from_bytes seq⟩, timestamp_ms, payload⟩

/-! ## The fields -/

theorem PacketType.from_wire_eq_some {value : UInt8} {packet_type : PacketType} :
    PacketType.from_wire value = some packet_type ↔ value = packet_type.to_wire := by
  constructor
  · intro h
    unfold from_wire at h
    split_ifs at h
    all_goals
      obtain rfl := Option.some.inj h
      assumption
  · rintro rfl
    cases packet_type <;> decide

/-- The six bytes are the last six of the big-endian word. -/
theorem sequence_bytes_eq (seq : U64) : sequence_bytes seq = toBigEndian 6 seq.val := by
  simp only [sequence_bytes, toBigEndian, Nat.shiftRight_eq_div_pow, Nat.div_div_eq_div_mul,
    List.nil_append, List.cons_append]

theorem foldl_shift_eq (bytes : Bytes) (seq : ℕ) :
    bytes.foldl (fun seq byte => seq <<< 8 ||| byte.toNat) seq =
      bytes.foldl (fun seq byte => 256 * seq + byte.toNat) seq := by
  induction bytes generalizing seq with
  | nil => rfl
  | cons byte bytes ih =>
    have hbyte : byte.toNat < 2 ^ 8 := byte.toNat_lt
    rw [List.foldl_cons, List.foldl_cons, ih, ← Nat.shiftLeft_add_eq_or_of_lt hbyte,
      Nat.shiftLeft_eq, Nat.mul_comm]

/-- Six bytes and the number they are read as determine each other. -/
theorem sequence_from_bytes_eq_iff {bytes : Bytes} {seq : U64} (hlen : bytes.length = 6) :
    sequence_from_bytes bytes = seq ↔ bytes = sequence_bytes seq ∧ seq.val < 2 ^ 48 := by
  have hlt : ofBigEndian bytes < 2 ^ 48 := by
    have h := ofBigEndian_lt bytes
    rw [hlen] at h
    exact h
  have hval : (sequence_from_bytes bytes).val = ofBigEndian bytes := by
    rw [sequence_from_bytes, foldl_shift_eq, Fin.val_ofNat]
    exact Nat.mod_eq_of_lt (by unfold ofBigEndian at hlt; omega)
  rw [Fin.ext_iff, hval, sequence_bytes_eq]
  constructor
  · intro h
    rw [h] at hlt
    exact ⟨(ofBigEndian_eq_iff hlen hlt).mp h, hlt⟩
  · rintro ⟨hbytes, hseq⟩
    exact (ofBigEndian_eq_iff hlen hseq).mpr hbytes

/-! ## Which envelopes decode -/

/-- An envelope that its image tells: the wire holds its session, its number and the length of
its payload. -/
structure Envelope.Fits (e : Envelope) : Prop where
  session : e.session_id.WireSafe
  sequence : e.sequence.get.val < 2 ^ 48
  payload : e.payload.length ≤ MAX_PAYLOAD_LEN

section Decode

variable {e : Envelope} {b rest : Bytes}

theorem Envelope.encode_eq_ok {image : Bytes} :
    e.encode = .ok image ↔ e.payload.length ≤ MAX_PAYLOAD_LEN ∧ image = e.image := by
  unfold encode
  by_cases hlong : MAX_PAYLOAD_LEN < e.payload.length
  · simp [hlong]
  · simp [hlong, Nat.not_lt.mp hlong, eq_comm]

/-- What decodes fits the wire, and its image was read off the buffer. -/
theorem Envelope.of_decode (h : Envelope.decode b = .ok (e, rest)) :
    e.Fits ∧ b = e.image ++ rest := by
  obtain ⟨-, h⟩ := Reader.check_remaining_eq_ok.mp h
  obtain ⟨version, b₁, hversion, h⟩ := Reader.bind_eq_ok.mp h
  obtain ⟨type, b₂, htype, h⟩ := Reader.bind_eq_ok.mp h
  obtain ⟨packet_type, b₃, hpacket, h⟩ := Reader.bind_eq_ok.mp h
  obtain ⟨flags, b₄, hflags, h⟩ := Reader.bind_eq_ok.mp h
  obtain ⟨path_id, b₅, hpath, h⟩ := Reader.bind_eq_ok.mp h
  obtain ⟨four, b₆, hfour, h⟩ := Reader.bind_eq_ok.mp h
  obtain ⟨seq, b₇, hseq, h⟩ := Reader.bind_eq_ok.mp h
  obtain ⟨timestamp_ms, b₈, htimestamp, h⟩ := Reader.bind_eq_ok.mp h
  obtain ⟨payload_len, b₉, hpayload_len, h⟩ := Reader.bind_eq_ok.mp h
  obtain ⟨-, h⟩ := Reader.check_remaining_eq_ok.mp h
  obtain ⟨payload, b', hpayload, h⟩ := Reader.bind_eq_ok.mp h
  obtain ⟨rfl, rfl⟩ := Reader.pure_eq_ok.mp h
  -- what each read says of the bytes it took
  obtain ⟨htype_wire, rfl⟩ := Reader.ofOption_eq_ok.mp hpacket
  obtain ⟨hfour_len, hfour⟩ := Reader.take_eq_ok.mp hfour
  obtain ⟨hseq_len, hseq⟩ := Reader.take_eq_ok.mp hseq
  obtain ⟨hlen, hpayload⟩ := Reader.take_eq_ok.mp hpayload
  obtain ⟨hsequence, hbelow⟩ := (sequence_from_bytes_eq_iff hseq_len).mp rfl
  have hword : payload_len.val < 2 ^ 16 := payload_len.isLt
  refine ⟨⟨SessionId.wireSafe_of_wire hfour_len, hbelow, ?_⟩, ?_⟩
  · dsimp only [MAX_PAYLOAD_LEN]
    omega
  · -- the reads in order, each followed by what it left
    have hfield : Fin.ofNat (2 ^ 16) payload.length = payload_len := by
      rw [hlen, Fin.ofNat_val_eq_self]
    rw [Reader.get_u8_eq_ok.mp hversion, Reader.get_u8_eq_ok.mp htype,
      Reader.get_u8_eq_ok.mp hflags, Reader.get_u8_eq_ok.mp hpath, hfour, hseq,
      get_u32_eq_ok.mp htimestamp, get_u16_eq_ok.mp hpayload_len, hpayload]
    simp only [image, SessionId.wire_of_wire hfour_len, ← hsequence, hfield,
      PacketType.from_wire_eq_some.mp htype_wire, List.cons_append, List.append_assoc]

/-- **Decoding.** -/
theorem Envelope.decode_eq_ok :
    Envelope.decode b = .ok (e, rest) ↔ e.Fits ∧ b = e.image ++ rest := by
  constructor
  · exact Envelope.of_decode
  · rintro ⟨⟨hsession, hbelow, hpayload⟩, rfl⟩
    have hseq_len : (sequence_bytes e.sequence.get).length = 6 := rfl
    have hword : (Fin.ofNat (2 ^ 16) e.payload.length).val = e.payload.length := by
      rw [Fin.val_ofNat]
      exact Nat.mod_eq_of_lt (by unfold MAX_PAYLOAD_LEN at hpayload; omega)
    refine Reader.check_remaining_eq_ok.mpr ⟨?_, ?_⟩
    · simp only [image, FIXED_HEADER_LEN, List.length_append, List.length_cons,
        SessionId.length_wire, hseq_len, U32.length_to_be_bytes, U16.length_to_be_bytes]
      omega
    simp only [image, List.cons_append, List.append_assoc]
    -- field by field, in the order of the header
    refine Reader.bind_eq_ok.mpr ⟨_, _, Reader.get_u8_eq_ok.mpr rfl, ?_⟩
    refine Reader.bind_eq_ok.mpr ⟨_, _, Reader.get_u8_eq_ok.mpr rfl, ?_⟩
    refine Reader.bind_eq_ok.mpr ⟨_, _,
      Reader.ofOption_eq_ok.mpr ⟨PacketType.from_wire_eq_some.mpr rfl, rfl⟩, ?_⟩
    refine Reader.bind_eq_ok.mpr ⟨_, _, Reader.get_u8_eq_ok.mpr rfl, ?_⟩
    refine Reader.bind_eq_ok.mpr ⟨_, _, Reader.get_u8_eq_ok.mpr rfl, ?_⟩
    refine Reader.bind_eq_ok.mpr ⟨_, _,
      Reader.take_eq_ok.mpr ⟨SessionId.length_wire _, rfl⟩, ?_⟩
    refine Reader.bind_eq_ok.mpr ⟨_, _, Reader.take_eq_ok.mpr ⟨hseq_len, rfl⟩, ?_⟩
    refine Reader.bind_eq_ok.mpr ⟨_, _, get_u32_eq_ok.mpr rfl, ?_⟩
    refine Reader.bind_eq_ok.mpr ⟨_, _, get_u16_eq_ok.mpr rfl, ?_⟩
    refine Reader.check_remaining_eq_ok.mpr ⟨?_, ?_⟩
    · rw [hword, List.length_append]
      omega
    refine Reader.bind_eq_ok.mpr ⟨_, _, Reader.take_eq_ok.mpr ⟨hword.symm, rfl⟩, ?_⟩
    refine Reader.pure_eq_ok.mpr ⟨?_, rfl⟩
    rw [SessionId.of_wire_wire hsession,
      (sequence_from_bytes_eq_iff hseq_len).mpr ⟨rfl, hbelow⟩]

end Decode

end StreamGuard.V1
