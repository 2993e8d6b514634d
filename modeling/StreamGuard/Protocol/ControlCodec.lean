/-
The control codec is a bijection on its image.

The format is stated once: `ControlMessage.kind`, `ControlMessage.body` and
`ControlMessage.Valid` say which byte string a message is and which messages have
one. `encode_message` writes it and `decode_message` reads exactly it, each field
through a lemma of the `Reader` that says which piece a read takes off the front.
The frame header adds the transaction ID and the length, and the main result
`ControlFrame.frame_codec_bijective` puts the two together.
-/
import StreamGuard.Protocol.Control

set_option autoImplicit false

namespace StreamGuard.Control

open StreamGuard StreamGuard.Lib

/-! ## The format -/

/-- A text behind its length in one byte. -/
def text_u8 (value : String) : Bytes := UInt8.ofNat value.utf8ByteSize :: utf8Bytes value

/-- A text behind its length in two bytes. -/
def text_u16 (value : String) : Bytes :=
  U16.to_be_bytes (Fin.ofNat _ value.utf8ByteSize) ++ utf8Bytes value

/-- Bytes behind their length in two bytes. -/
def counted_u16 (value : Bytes) : Bytes := U16.to_be_bytes (Fin.ofNat _ value.length) ++ value

namespace ControlMessage

def kind : ControlMessage → UInt8
  | ClientHello .. => 1
  | SessionAdmit .. => 2
  | PathAttach .. => 3
  | PathAttached .. => 4
  | PathDetach .. => 5
  | PathHealth .. => 6
  | PolicyUpdate .. => 7
  | Close .. => 8
  | Ack => 9
  | Reject .. => 10

/-- The body of a message, piece by piece. -/
def body : ControlMessage → Bytes
  | ClientHello device_id gateway ticket =>
    id_bytes device_id.bytes ++ (text_u8 gateway ++ text_u16 ticket.value)
  | SessionAdmit session_id expires_at_ms policy_epoch ipv4 ipv4_len ipv6 ipv6_len policy =>
    id_bytes session_id.bytes ++ (U64.to_be_bytes expires_at_ms ++ (U64.to_be_bytes policy_epoch ++
      (array_bytes 4 ipv4 ++ (ipv4_len :: (array_bytes 16 ipv6 ++ (ipv6_len ::
        counted_u16 policy.value))))))
  | PathAttach session_id nonce path_epoch key_epoch metadata =>
    id_bytes session_id.bytes ++ (id_bytes nonce ++ (U64.to_be_bytes path_epoch ++
      (U32.to_be_bytes key_epoch ++ counted_u16 metadata)))
  | PathAttached session_id path_id path_epoch =>
    id_bytes session_id.bytes ++ (U16.to_be_bytes path_id.get ++ U64.to_be_bytes path_epoch)
  | PathDetach session_id path_id path_epoch reason =>
    id_bytes session_id.bytes ++ (U16.to_be_bytes path_id.get ++ (U64.to_be_bytes path_epoch ++
      text_u8 reason))
  | PathHealth session_id path_id path_epoch rtt_ms loss_ppm =>
    id_bytes session_id.bytes ++ (U16.to_be_bytes path_id.get ++ (U64.to_be_bytes path_epoch ++
      (U32.to_be_bytes rtt_ms ++ U32.to_be_bytes loss_ppm)))
  | PolicyUpdate session_id policy_epoch policy =>
    id_bytes session_id.bytes ++ (U64.to_be_bytes policy_epoch ++ counted_u16 policy)
  | Close session_id reason => id_bytes session_id.bytes ++ text_u8 reason
  | Ack => []
  | Reject code reason => U16.to_be_bytes code.to_wire ++ text_u8 reason

/-- The field checks of each message. -/
def Valid : ControlMessage → Prop
  | ClientHello device_id gateway _ =>
    device_id.bytes ≠ 0 ∧ gateway.utf8ByteSize ≤ MAX_GATEWAY_NAME_LEN
  | SessionAdmit session_id expires_at_ms policy_epoch ipv4 ipv4_len ipv6 ipv6_len _ =>
    session_id.bytes ≠ 0 ∧ (expires_at_ms ≠ 0 ∧ policy_epoch ≠ 0) ∧ ipv4 ≠ 0 ∧ ipv6 ≠ 0 ∧
      (ipv4_len ≠ 0 ∧ ipv4_len ≤ 32) ∧ ipv6_len ≠ 0 ∧ ipv6_len ≤ 128
  | PathAttach session_id nonce path_epoch key_epoch metadata =>
    session_id.bytes ≠ 0 ∧ nonce ≠ 0 ∧ path_epoch ≠ 0 ∧ key_epoch ≠ 0 ∧
      metadata.length ≤ MAX_PATH_METADATA_LEN
  | PathAttached session_id path_id path_epoch =>
    session_id.bytes ≠ 0 ∧ path_id.get ≠ 0 ∧ path_epoch ≠ 0
  | PathDetach session_id path_id path_epoch reason =>
    session_id.bytes ≠ 0 ∧ path_id.get ≠ 0 ∧ path_epoch ≠ 0 ∧ reason.utf8ByteSize ≤ MAX_REASON_LEN
  | PathHealth session_id path_id path_epoch _ _ =>
    session_id.bytes ≠ 0 ∧ path_id.get ≠ 0 ∧ path_epoch ≠ 0
  | PolicyUpdate session_id policy_epoch policy =>
    session_id.bytes ≠ 0 ∧ policy_epoch ≠ 0 ∧ policy.length ≤ MAX_POLICY_LEN
  | Close session_id reason => session_id.bytes ≠ 0 ∧ reason.utf8ByteSize ≤ MAX_REASON_LEN
  | Ack => True
  | Reject _ reason => reason.utf8ByteSize ≤ MAX_REASON_LEN

end ControlMessage

/-! ## The checks -/

section Checks

variable {name : String} {u : Unit}

theorem validate_len_eq_ok {length maximum : ℕ} :
    validate_len name length maximum = .ok u ↔ length ≤ maximum := by
  rw [validate_len, Outcome.except_ite_eq_ok, Nat.not_lt, and_iff_left rfl]

theorem validate_id_eq_ok {id : BitVec 128} : validate_id id name = .ok u ↔ id ≠ 0 := by
  rw [validate_id, Outcome.except_ite_eq_ok, and_iff_left rfl]

theorem validate_session_eq_ok {session_id : SessionId} :
    validate_session session_id = .ok u ↔ session_id.bytes ≠ 0 :=
  validate_id_eq_ok

theorem validate_nonzero_eq_ok {w : ℕ} {value : BitVec w} :
    validate_nonzero value name = .ok u ↔ value ≠ 0 := by
  rw [validate_nonzero, Outcome.except_ite_eq_ok, and_iff_left rfl]

theorem validate_path_eq_ok {path_id : PathId} :
    validate_path path_id = .ok u ↔ path_id.get ≠ 0 := by
  rw [validate_path, Outcome.except_ite_eq_ok, and_iff_left rfl]

theorem validate_epoch_eq_ok {value : U64} : validate_epoch value name = .ok u ↔ value ≠ 0 := by
  rw [validate_epoch, Outcome.except_ite_eq_ok, and_iff_left rfl]

theorem validate_prefix_len_eq_ok {value maximum : UInt8} :
    validate_prefix_len value maximum name = .ok u ↔ value ≠ 0 ∧ value ≤ maximum := by
  rw [validate_prefix_len, Outcome.except_ite_eq_ok, not_or, UInt8.not_lt, and_iff_left rfl]

theorem RejectCode.from_wire_eq_some {value : U16} {code : RejectCode} :
    RejectCode.from_wire value = some code ↔ value = code.to_wire := by
  constructor
  · intro h
    unfold RejectCode.from_wire at h
    split_ifs at h
    all_goals
      obtain rfl := Option.some.inj h
      assumption
  · rintro rfl
    cases code <;> decide

theorem put_string_u8_eq_ok {body value field : _} {maximum : ℕ} {written : Bytes} :
    put_string_u8 body value field maximum = .ok written ↔
      value.utf8ByteSize ≤ maximum ∧ written = body ++ text_u8 value := by
  rw [put_string_u8, Outcome.except_bind_eq_ok]
  constructor
  · rintro ⟨_, hlen, h⟩
    refine ⟨validate_len_eq_ok.mp hlen, ?_⟩
    rw [← Except.ok.inj h, List.append_assoc]
    rfl
  · rintro ⟨hlen, rfl⟩
    refine ⟨(), validate_len_eq_ok.mpr hlen, ?_⟩
    rw [List.append_assoc]
    rfl

theorem put_string_u16_eq_ok {body value field : _} {maximum : ℕ} {written : Bytes} :
    put_string_u16 body value field maximum = .ok written ↔
      value.utf8ByteSize ≤ maximum ∧ written = body ++ text_u16 value := by
  rw [put_string_u16, Outcome.except_bind_eq_ok]
  constructor
  · rintro ⟨_, hlen, h⟩
    refine ⟨validate_len_eq_ok.mp hlen, ?_⟩
    rw [← Except.ok.inj h, List.append_assoc]
    rfl
  · rintro ⟨hlen, rfl⟩
    refine ⟨(), validate_len_eq_ok.mpr hlen, ?_⟩
    rw [List.append_assoc]
    rfl

end Checks

/-! ## Encoding a message -/

/-- **A message is encoded exactly when its fields pass their checks**, as its kind
and its body. -/
theorem encode_message_eq_ok {m : ControlMessage} {kind : UInt8} {body : Bytes} :
    encode_message m = .ok (kind, body) ↔ m.Valid ∧ kind = m.kind ∧ body = m.body := by
  have hpure : ∀ (k : UInt8) (b : Bytes),
      (pure (k, b) : Except ControlCodecError (UInt8 × Bytes)) = .ok (kind, body) ↔
        kind = k ∧ body = b := by
    intro k b
    constructor
    · intro h
      obtain ⟨rfl, rfl⟩ := Prod.mk.inj (Except.ok.inj h)
      exact ⟨rfl, rfl⟩
    · rintro ⟨rfl, rfl⟩
      rfl
  rw [ControlMessage.Valid.eq_def, ControlMessage.kind.eq_def, ControlMessage.body.eq_def]
  cases m with
  | ClientHello device_id gateway ticket =>
    -- the ticket passes its length check by construction
    simp only [encode_message, Outcome.except_bind_eq_ok, validate_id_eq_ok, put_string_u8_eq_ok,
      put_string_u16_eq_ok, hpure, exists_const, ticket.bounded, true_and, and_assoc,
      List.nil_append, exists_eq_left, exists_and_left]
  | SessionAdmit =>
    simp only [encode_message, Outcome.except_bind_eq_ok, Outcome.except_ite_eq_ok,
      validate_session_eq_ok, validate_nonzero_eq_ok, validate_prefix_len_eq_ok, hpure,
      exists_const, not_or, and_assoc, List.append_assoc, List.cons_append, List.nil_append,
      counted_u16]
  | PathAttach =>
    simp only [encode_message, Outcome.except_bind_eq_ok, Outcome.except_ite_eq_ok,
      validate_session_eq_ok, validate_id_eq_ok, validate_epoch_eq_ok, validate_len_eq_ok, hpure,
      exists_const, and_assoc, List.append_assoc, counted_u16]
  | PathAttached =>
    simp only [encode_message, Outcome.except_bind_eq_ok, validate_session_eq_ok,
      validate_path_eq_ok, validate_epoch_eq_ok, hpure, exists_const, and_assoc, List.append_assoc]
  | PathDetach =>
    simp only [encode_message, Outcome.except_bind_eq_ok, validate_session_eq_ok,
      validate_path_eq_ok, validate_epoch_eq_ok, put_string_u8_eq_ok, hpure, exists_const,
      exists_and_left, exists_eq_left, and_assoc, List.append_assoc]
  | PathHealth =>
    simp only [encode_message, Outcome.except_bind_eq_ok, validate_session_eq_ok,
      validate_path_eq_ok, validate_epoch_eq_ok, hpure, exists_const, and_assoc, List.append_assoc]
  | PolicyUpdate =>
    simp only [encode_message, Outcome.except_bind_eq_ok, validate_session_eq_ok,
      validate_epoch_eq_ok, validate_len_eq_ok, hpure, exists_const, and_assoc, List.append_assoc,
      counted_u16]
  | Close =>
    simp only [encode_message, Outcome.except_bind_eq_ok, validate_session_eq_ok,
      put_string_u8_eq_ok, hpure, exists_const, exists_and_left, exists_eq_left, and_assoc]
  | Ack => simp only [encode_message, hpure, true_and]
  | Reject =>
    simp only [encode_message, Outcome.except_bind_eq_ok, put_string_u8_eq_ok, hpure,
      exists_and_left, exists_eq_left, and_assoc]

/-! ## Reading a body

Each read is characterized by the piece it takes off the front of what is left. -/

namespace Reader

variable {r r' : Reader} {name field : String} {maximum : ℕ}

theorem take_eq_ok {count : ℕ} {value : Bytes} :
    r.take count = .ok (value, r') ↔
      value.length = count ∧ r.remaining = value ++ r'.remaining := by
  rw [take, Outcome.ite_err_eq_ok, split_at]
  constructor
  · rintro ⟨hlen, h⟩
    rw [if_pos (Nat.not_lt.mp hlen)] at h
    obtain ⟨rfl, rfl⟩ := Prod.mk.inj (Outcome.pure_eq_ok.mp h)
    refine ⟨List.length_take_of_le (Nat.not_lt.mp hlen), ?_⟩
    exact (List.take_append_drop _ _).symm
  · rintro ⟨rfl, h⟩
    have hlen : value.length ≤ r.remaining.length := by
      rw [h, List.length_append]
      omega
    refine ⟨Nat.not_lt.mpr hlen, ?_⟩
    rw [if_pos hlen, h, List.take_left, List.drop_left]
    rfl

theorem byte_eq_ok {value : UInt8} :
    r.byte = .ok (value, r') ↔ r.remaining = value :: r'.remaining := by
  rw [byte, Outcome.bind_eq_ok]
  constructor
  · rintro ⟨⟨piece, rest⟩, htake, h⟩
    obtain ⟨hlen, hpiece⟩ := take_eq_ok.mp htake
    obtain ⟨first, rfl⟩ := List.length_eq_one_iff.mp hlen
    obtain ⟨rfl, rfl⟩ := Prod.mk.inj (Outcome.pure_eq_ok.mp h)
    exact hpiece
  · intro h
    exact ⟨([value], r'), take_eq_ok.mpr ⟨rfl, h⟩, rfl⟩

/-- A read of a fixed-width word: take its bytes, convert them to an array, and
turn the array into the word. -/
theorem word_eq_ok {α : Type} {w : ℕ} {of_bytes : Bytes → α} {to_bytes : α → Bytes}
    (hlen : ∀ value, (to_bytes value).length = w)
    (hword : ∀ {bytes value}, bytes.length = w → (of_bytes bytes = value ↔ bytes = to_bytes value))
    {value : α} :
    (do
        let (piece, r) ← r.take w
        return (of_bytes (← array w piece), r) : Outcome ControlCodecError (α × Reader)) =
          .ok (value, r') ↔
      r.remaining = to_bytes value ++ r'.remaining := by
  rw [Outcome.bind_eq_ok]
  constructor
  · rintro ⟨⟨piece, rest⟩, htake, h⟩
    obtain ⟨hpiece, hsplit⟩ := take_eq_ok.mp htake
    obtain ⟨_, harray, h⟩ := Outcome.bind_eq_ok.mp h
    obtain ⟨-, rfl⟩ := array_eq_ok.mp harray
    obtain ⟨hvalue, rfl⟩ := Prod.mk.inj (Outcome.pure_eq_ok.mp h)
    rw [hsplit, (hword hpiece).mp hvalue]
  · intro h
    refine ⟨(to_bytes value, r'), take_eq_ok.mpr ⟨hlen value, h⟩, ?_⟩
    refine Outcome.bind_eq_ok.mpr ⟨_, array_eq_ok.mpr ⟨hlen value, rfl⟩, ?_⟩
    rw [(hword (hlen value)).mpr rfl]
    rfl

theorem u16_eq_ok {value : U16} :
    r.u16 = .ok (value, r') ↔ r.remaining = U16.to_be_bytes value ++ r'.remaining :=
  word_eq_ok U16.length_to_be_bytes U16.from_be_bytes_eq_iff

theorem u32_eq_ok {value : U32} :
    r.u32 = .ok (value, r') ↔ r.remaining = U32.to_be_bytes value ++ r'.remaining :=
  word_eq_ok U32.length_to_be_bytes U32.from_be_bytes_eq_iff

theorem u64_eq_ok {value : U64} :
    r.u64 = .ok (value, r') ↔ r.remaining = U64.to_be_bytes value ++ r'.remaining :=
  word_eq_ok U64.length_to_be_bytes U64.from_be_bytes_eq_iff

theorem bytes_eq_ok {w : ℕ} {value : BitVec (8 * w)} :
    r.bytes w = .ok (value, r') ↔ r.remaining = array_bytes w value ++ r'.remaining :=
  word_eq_ok (length_array_bytes w) array_from_bytes_eq_iff

theorem id_eq_ok {value : BitVec 128} :
    r.id name = .ok (value, r') ↔ value ≠ 0 ∧ r.remaining = id_bytes value ++ r'.remaining := by
  rw [id, Outcome.bind_eq_ok]
  constructor
  · rintro ⟨⟨piece, rest⟩, htake, h⟩
    obtain ⟨hpiece, hsplit⟩ := take_eq_ok.mp htake
    obtain ⟨_, harray, h⟩ := Outcome.bind_eq_ok.mp h
    obtain ⟨-, rfl⟩ := array_eq_ok.mp harray
    obtain ⟨_, hvalid, h⟩ := Outcome.bind_eq_ok.mp h
    obtain ⟨hvalue, rfl⟩ := Prod.mk.inj (Outcome.pure_eq_ok.mp h)
    refine ⟨hvalue ▸ validate_id_eq_ok.mp (Outcome.ofExcept_eq_ok.mp hvalid), ?_⟩
    rw [hsplit, (array_from_bytes_eq_iff hpiece).mp hvalue]
    rfl
  · rintro ⟨hvalue, h⟩
    have hlen : (id_bytes value).length = 16 := length_array_bytes 16 value
    refine ⟨(id_bytes value, r'), take_eq_ok.mpr ⟨hlen, h⟩, ?_⟩
    refine Outcome.bind_eq_ok.mpr ⟨_, array_eq_ok.mpr ⟨hlen, rfl⟩, ?_⟩
    rw [(array_from_bytes_eq_iff (w := 16) hlen).mpr rfl]
    exact Outcome.bind_eq_ok.mpr
      ⟨(), Outcome.ofExcept_eq_ok.mpr (validate_id_eq_ok.mpr hvalue), rfl⟩

theorem epoch_eq_ok {value : U64} :
    r.epoch name = .ok (value, r') ↔
      value ≠ 0 ∧ r.remaining = U64.to_be_bytes value ++ r'.remaining := by
  rw [epoch, Outcome.bind_eq_ok]
  constructor
  · rintro ⟨⟨word, rest⟩, hword, h⟩
    obtain ⟨_, hvalid, h⟩ := Outcome.bind_eq_ok.mp h
    obtain ⟨rfl, rfl⟩ := Prod.mk.inj (Outcome.pure_eq_ok.mp h)
    exact ⟨validate_epoch_eq_ok.mp (Outcome.ofExcept_eq_ok.mp hvalid), u64_eq_ok.mp hword⟩
  · rintro ⟨hvalue, h⟩
    refine ⟨(value, r'), u64_eq_ok.mpr h, ?_⟩
    exact Outcome.bind_eq_ok.mpr
      ⟨(), Outcome.ofExcept_eq_ok.mpr (validate_epoch_eq_ok.mpr hvalue), rfl⟩

theorem path_id_eq_ok {value : PathId} :
    r.path_id = .ok (value, r') ↔
      value.get ≠ 0 ∧ r.remaining = U16.to_be_bytes value.get ++ r'.remaining := by
  rw [path_id, Outcome.bind_eq_ok]
  constructor
  · rintro ⟨⟨word, rest⟩, hword, h⟩
    obtain ⟨_, hvalid, h⟩ := Outcome.bind_eq_ok.mp h
    obtain ⟨rfl, rfl⟩ := Prod.mk.inj (Outcome.pure_eq_ok.mp h)
    exact ⟨validate_path_eq_ok.mp (Outcome.ofExcept_eq_ok.mp hvalid), u16_eq_ok.mp hword⟩
  · rintro ⟨hvalue, h⟩
    refine ⟨(value.get, r'), u16_eq_ok.mpr h, ?_⟩
    exact Outcome.bind_eq_ok.mpr
      ⟨(), Outcome.ofExcept_eq_ok.mpr (validate_path_eq_ok.mpr hvalue), rfl⟩

theorem string_eq_ok {len : ℕ} {value : String} :
    r.string field len maximum = .ok (value, r') ↔
      len ≤ maximum ∧ value.utf8ByteSize = len ∧ r.remaining = utf8Bytes value ++ r'.remaining := by
  rw [string, Outcome.bind_eq_ok]
  constructor
  · rintro ⟨_, hvalid, h⟩
    obtain ⟨⟨piece, rest⟩, htake, h⟩ := Outcome.bind_eq_ok.mp h
    obtain ⟨hlen, hsplit⟩ := take_eq_ok.mp htake
    obtain ⟨text, htext, h⟩ := Outcome.bind_eq_ok.mp h
    obtain ⟨rfl, rfl⟩ := Prod.mk.inj (Outcome.pure_eq_ok.mp h)
    obtain rfl := fromUtf8_eq_some.mp (Outcome.ofOption_eq_ok.mp htext)
    exact ⟨validate_len_eq_ok.mp (Outcome.ofExcept_eq_ok.mp hvalid),
      (length_utf8Bytes text).symm.trans hlen, hsplit⟩
  · rintro ⟨hmax, hlen, h⟩
    refine ⟨(), Outcome.ofExcept_eq_ok.mpr (validate_len_eq_ok.mpr hmax), ?_⟩
    refine Outcome.bind_eq_ok.mpr
      ⟨_, take_eq_ok.mpr ⟨(length_utf8Bytes value).trans hlen, h⟩, ?_⟩
    exact Outcome.bind_eq_ok.mpr
      ⟨value, Outcome.ofOption_eq_ok.mpr (fromUtf8_eq_some.mpr rfl), rfl⟩

theorem string_u8_eq_ok (hmaximum : maximum ≤ 255) {value : String} :
    r.string_u8 field maximum = .ok (value, r') ↔
      value.utf8ByteSize ≤ maximum ∧ r.remaining = text_u8 value ++ r'.remaining := by
  rw [string_u8, Outcome.bind_eq_ok]
  constructor
  · rintro ⟨⟨len, rest⟩, hbyte, h⟩
    obtain ⟨hmax, hlen, hsplit⟩ := string_eq_ok.mp h
    refine ⟨hlen ▸ hmax, ?_⟩
    rw [byte_eq_ok.mp hbyte, hsplit, text_u8, hlen, UInt8.ofNat_toNat]
    rfl
  · rintro ⟨hmax, h⟩
    have hlen : (UInt8.ofNat value.utf8ByteSize).toNat = value.utf8ByteSize := by
      rw [UInt8.toNat_ofNat']
      omega
    refine ⟨(UInt8.ofNat value.utf8ByteSize, ⟨utf8Bytes value ++ r'.remaining⟩),
      byte_eq_ok.mpr h, ?_⟩
    exact string_eq_ok.mpr ⟨by omega, hlen.symm, rfl⟩

theorem string_u16_eq_ok (hmaximum : maximum ≤ 65535) {value : String} :
    r.string_u16 field maximum = .ok (value, r') ↔
      value.utf8ByteSize ≤ maximum ∧ r.remaining = text_u16 value ++ r'.remaining := by
  rw [string_u16, Outcome.bind_eq_ok]
  constructor
  · rintro ⟨⟨len, rest⟩, hword, h⟩
    obtain ⟨hmax, hlen, hsplit⟩ := string_eq_ok.mp h
    refine ⟨hlen ▸ hmax, ?_⟩
    rw [u16_eq_ok.mp hword, hsplit, text_u16, hlen, Fin.ofNat_val_eq_self, List.append_assoc]
  · rintro ⟨hmax, h⟩
    have hlen : (Fin.ofNat (2 ^ 16) value.utf8ByteSize).val = value.utf8ByteSize :=
      Nat.mod_eq_of_lt (by omega)
    rw [text_u16, List.append_assoc] at h
    refine ⟨(Fin.ofNat _ value.utf8ByteSize, ⟨utf8Bytes value ++ r'.remaining⟩),
      u16_eq_ok.mpr h, ?_⟩
    exact string_eq_ok.mpr ⟨hlen.le.trans hmax, hlen.symm, rfl⟩

theorem bytes_u16_eq_ok (hmaximum : maximum ≤ 65535) {value : Bytes} :
    r.bytes_u16 field maximum = .ok (value, r') ↔
      value.length ≤ maximum ∧ r.remaining = counted_u16 value ++ r'.remaining := by
  rw [bytes_u16, Outcome.bind_eq_ok]
  constructor
  · rintro ⟨⟨len, rest⟩, hword, h⟩
    obtain ⟨_, hvalid, h⟩ := Outcome.bind_eq_ok.mp h
    obtain ⟨hlen, hsplit⟩ := take_eq_ok.mp h
    refine ⟨hlen ▸ validate_len_eq_ok.mp (Outcome.ofExcept_eq_ok.mp hvalid), ?_⟩
    rw [u16_eq_ok.mp hword, hsplit, counted_u16, hlen, Fin.ofNat_val_eq_self, List.append_assoc]
  · rintro ⟨hmax, h⟩
    have hlen : (Fin.ofNat (2 ^ 16) value.length).val = value.length :=
      Nat.mod_eq_of_lt (by omega)
    rw [counted_u16, List.append_assoc] at h
    refine ⟨(Fin.ofNat _ value.length, ⟨value ++ r'.remaining⟩), u16_eq_ok.mpr h, ?_⟩
    refine Outcome.bind_eq_ok.mpr ⟨(), Outcome.ofExcept_eq_ok.mpr
      (validate_len_eq_ok.mpr (hlen.le.trans hmax)), ?_⟩
    exact take_eq_ok.mpr ⟨hlen.symm, rfl⟩

theorem finish_eq_ok {u : Unit} : r.finish = .ok u ↔ r.remaining = [] := by
  rw [finish]
  by_cases h : r.remaining = []
  · rw [if_pos h]
    simp [h]
  · rw [if_neg h]
    simp [h]

end Reader

theorem AdmissionTicket.wrap_eq_ok {value : String} {ticket : AdmissionTicket} :
    AdmissionTicket.wrap value = .ok ticket ↔ value = ticket.value := by
  rw [AdmissionTicket.wrap]
  constructor
  · intro h
    split_ifs at h
    obtain rfl := Outcome.ok.inj h
    rfl
  · rintro rfl
    rw [dif_pos ⟨ticket.nonempty, ticket.bounded⟩]

theorem SafeModePolicy.wrap_eq_ok {value : Bytes} {policy : SafeModePolicy} :
    SafeModePolicy.wrap value = .ok policy ↔ value = policy.value := by
  rw [SafeModePolicy.wrap]
  constructor
  · intro h
    split_ifs at h
    obtain rfl := Outcome.ok.inj h
    rfl
  · rintro rfl
    rw [dif_pos ⟨policy.nonempty, policy.bounded⟩]

/-- The checked constructors build every ticket and every policy. -/
theorem AdmissionTicket.new_value (ticket : AdmissionTicket) :
    AdmissionTicket.new ticket.value = .ok ticket := by
  rw [AdmissionTicket.new, dif_neg ticket.nonempty, dif_neg (Nat.not_lt.mpr ticket.bounded)]

theorem SafeModePolicy.new_value (policy : SafeModePolicy) :
    SafeModePolicy.new policy.value = .ok policy := by
  rw [SafeModePolicy.new, dif_neg policy.nonempty, dif_neg (Nat.not_lt.mpr policy.bounded)]

/-! ## Decoding a message -/

/-- The reads of a message leave nothing behind. -/
theorem finish_remaining {r : Reader} {u : Unit}
    (h : (Outcome.ofExcept r.finish : Outcome ControlCodecError Unit) = .ok u) : r.remaining = [] :=
  Reader.finish_eq_ok.mp (Outcome.ofExcept_eq_ok.mp h)

section Sound

variable {m : ControlMessage} {body : Bytes}

theorem of_decode_client_hello (h : decode_message 1 body = .ok m) :
    m.Valid ∧ 1 = m.kind ∧ body = m.body := by
  obtain ⟨⟨device, r⟩, hdevice, h⟩ := Outcome.bind_eq_ok.mp h
  obtain ⟨⟨gateway, r⟩, hgateway, h⟩ := Outcome.bind_eq_ok.mp h
  obtain ⟨⟨ticket, r⟩, hticket, h⟩ := Outcome.bind_eq_ok.mp h
  obtain ⟨-, h⟩ := Outcome.ite_err_eq_ok.mp h
  obtain ⟨_, hfinish, h⟩ := Outcome.bind_eq_ok.mp h
  obtain ⟨wrapped, hwrap, h⟩ := Outcome.bind_eq_ok.mp h
  obtain rfl := Outcome.pure_eq_ok.mp h
  obtain ⟨hid, hdevice⟩ := Reader.id_eq_ok.mp hdevice
  obtain ⟨hname, hgateway⟩ := (Reader.string_u8_eq_ok (by decide)).mp hgateway
  obtain ⟨-, hticket⟩ := (Reader.string_u16_eq_ok (by decide)).mp hticket
  obtain rfl := AdmissionTicket.wrap_eq_ok.mp hwrap
  refine ⟨⟨hid, hname⟩, rfl, ?_⟩
  rw [hgateway, hticket, finish_remaining hfinish, List.append_nil] at hdevice
  exact hdevice

theorem of_decode_session_admit (h : decode_message 2 body = .ok m) :
    m.Valid ∧ 2 = m.kind ∧ body = m.body := by
  obtain ⟨⟨session, r⟩, hsession, h⟩ := Outcome.bind_eq_ok.mp h
  obtain ⟨⟨expires_at_ms, r⟩, hexpires, h⟩ := Outcome.bind_eq_ok.mp h
  obtain ⟨⟨policy_epoch, r⟩, hepoch, h⟩ := Outcome.bind_eq_ok.mp h
  obtain ⟨⟨ipv4, r⟩, hipv4, h⟩ := Outcome.bind_eq_ok.mp h
  obtain ⟨⟨ipv4_len, r⟩, hipv4_len, h⟩ := Outcome.bind_eq_ok.mp h
  obtain ⟨⟨ipv6, r⟩, hipv6, h⟩ := Outcome.bind_eq_ok.mp h
  obtain ⟨⟨ipv6_len, r⟩, hipv6_len, h⟩ := Outcome.bind_eq_ok.mp h
  obtain ⟨⟨policy, r⟩, hpolicy, h⟩ := Outcome.bind_eq_ok.mp h
  obtain ⟨hepochs, h⟩ := Outcome.ite_err_eq_ok.mp h
  obtain ⟨_, hv4, h⟩ := Outcome.bind_eq_ok.mp h
  obtain ⟨_, hv6, h⟩ := Outcome.bind_eq_ok.mp h
  obtain ⟨_, hv4_len, h⟩ := Outcome.bind_eq_ok.mp h
  obtain ⟨_, hv6_len, h⟩ := Outcome.bind_eq_ok.mp h
  obtain ⟨-, h⟩ := Outcome.ite_err_eq_ok.mp h
  obtain ⟨_, hfinish, h⟩ := Outcome.bind_eq_ok.mp h
  obtain ⟨wrapped, hwrap, h⟩ := Outcome.bind_eq_ok.mp h
  obtain rfl := Outcome.pure_eq_ok.mp h
  obtain ⟨hid, hsession⟩ := Reader.id_eq_ok.mp hsession
  obtain ⟨-, hpolicy⟩ := (Reader.bytes_u16_eq_ok (by decide)).mp hpolicy
  obtain rfl := SafeModePolicy.wrap_eq_ok.mp hwrap
  refine ⟨⟨hid, not_or.mp hepochs, validate_nonzero_eq_ok.mp (Outcome.ofExcept_eq_ok.mp hv4),
    validate_nonzero_eq_ok.mp (Outcome.ofExcept_eq_ok.mp hv6),
    validate_prefix_len_eq_ok.mp (Outcome.ofExcept_eq_ok.mp hv4_len),
    validate_prefix_len_eq_ok.mp (Outcome.ofExcept_eq_ok.mp hv6_len)⟩, rfl, ?_⟩
  rw [Reader.u64_eq_ok.mp hexpires, Reader.u64_eq_ok.mp hepoch, Reader.bytes_eq_ok.mp hipv4,
    Reader.byte_eq_ok.mp hipv4_len, Reader.bytes_eq_ok.mp hipv6, Reader.byte_eq_ok.mp hipv6_len,
    hpolicy, finish_remaining hfinish, List.append_nil] at hsession
  exact hsession

theorem of_decode_path_attach (h : decode_message 3 body = .ok m) :
    m.Valid ∧ 3 = m.kind ∧ body = m.body := by
  obtain ⟨⟨session, r⟩, hsession, h⟩ := Outcome.bind_eq_ok.mp h
  obtain ⟨⟨nonce, r⟩, hnonce, h⟩ := Outcome.bind_eq_ok.mp h
  obtain ⟨⟨path_epoch, r⟩, hepoch, h⟩ := Outcome.bind_eq_ok.mp h
  obtain ⟨⟨key_epoch, r⟩, hkey, h⟩ := Outcome.bind_eq_ok.mp h
  obtain ⟨hkey_epoch, h⟩ := Outcome.ite_err_eq_ok.mp h
  obtain ⟨⟨metadata, r⟩, hmetadata, h⟩ := Outcome.bind_eq_ok.mp h
  obtain ⟨_, hfinish, h⟩ := Outcome.bind_eq_ok.mp h
  obtain rfl := Outcome.pure_eq_ok.mp h
  obtain ⟨hid, hsession⟩ := Reader.id_eq_ok.mp hsession
  obtain ⟨hnonzero, hnonce⟩ := Reader.id_eq_ok.mp hnonce
  obtain ⟨hpath_epoch, hepoch⟩ := Reader.epoch_eq_ok.mp hepoch
  obtain ⟨hlen, hmetadata⟩ := (Reader.bytes_u16_eq_ok (by decide)).mp hmetadata
  refine ⟨⟨hid, hnonzero, hpath_epoch, hkey_epoch, hlen⟩, rfl, ?_⟩
  rw [hnonce, hepoch, Reader.u32_eq_ok.mp hkey, hmetadata, finish_remaining hfinish,
    List.append_nil] at hsession
  exact hsession

theorem of_decode_path_attached (h : decode_message 4 body = .ok m) :
    m.Valid ∧ 4 = m.kind ∧ body = m.body := by
  obtain ⟨⟨session, r⟩, hsession, h⟩ := Outcome.bind_eq_ok.mp h
  obtain ⟨⟨path_id, r⟩, hpath, h⟩ := Outcome.bind_eq_ok.mp h
  obtain ⟨⟨path_epoch, r⟩, hepoch, h⟩ := Outcome.bind_eq_ok.mp h
  obtain ⟨_, hfinish, h⟩ := Outcome.bind_eq_ok.mp h
  obtain rfl := Outcome.pure_eq_ok.mp h
  obtain ⟨hid, hsession⟩ := Reader.id_eq_ok.mp hsession
  obtain ⟨hpath_id, hpath⟩ := Reader.path_id_eq_ok.mp hpath
  obtain ⟨hpath_epoch, hepoch⟩ := Reader.epoch_eq_ok.mp hepoch
  refine ⟨⟨hid, hpath_id, hpath_epoch⟩, rfl, ?_⟩
  rw [hpath, hepoch, finish_remaining hfinish, List.append_nil] at hsession
  exact hsession

theorem of_decode_path_detach (h : decode_message 5 body = .ok m) :
    m.Valid ∧ 5 = m.kind ∧ body = m.body := by
  obtain ⟨⟨session, r⟩, hsession, h⟩ := Outcome.bind_eq_ok.mp h
  obtain ⟨⟨path_id, r⟩, hpath, h⟩ := Outcome.bind_eq_ok.mp h
  obtain ⟨⟨path_epoch, r⟩, hepoch, h⟩ := Outcome.bind_eq_ok.mp h
  obtain ⟨⟨reason, r⟩, hreason, h⟩ := Outcome.bind_eq_ok.mp h
  obtain ⟨_, hfinish, h⟩ := Outcome.bind_eq_ok.mp h
  obtain rfl := Outcome.pure_eq_ok.mp h
  obtain ⟨hid, hsession⟩ := Reader.id_eq_ok.mp hsession
  obtain ⟨hpath_id, hpath⟩ := Reader.path_id_eq_ok.mp hpath
  obtain ⟨hpath_epoch, hepoch⟩ := Reader.epoch_eq_ok.mp hepoch
  obtain ⟨hlen, hreason⟩ := (Reader.string_u8_eq_ok (by decide)).mp hreason
  refine ⟨⟨hid, hpath_id, hpath_epoch, hlen⟩, rfl, ?_⟩
  rw [hpath, hepoch, hreason, finish_remaining hfinish, List.append_nil] at hsession
  exact hsession

theorem of_decode_path_health (h : decode_message 6 body = .ok m) :
    m.Valid ∧ 6 = m.kind ∧ body = m.body := by
  obtain ⟨⟨session, r⟩, hsession, h⟩ := Outcome.bind_eq_ok.mp h
  obtain ⟨⟨path_id, r⟩, hpath, h⟩ := Outcome.bind_eq_ok.mp h
  obtain ⟨⟨path_epoch, r⟩, hepoch, h⟩ := Outcome.bind_eq_ok.mp h
  obtain ⟨⟨rtt_ms, r⟩, hrtt, h⟩ := Outcome.bind_eq_ok.mp h
  obtain ⟨⟨loss_ppm, r⟩, hloss, h⟩ := Outcome.bind_eq_ok.mp h
  obtain ⟨_, hfinish, h⟩ := Outcome.bind_eq_ok.mp h
  obtain rfl := Outcome.pure_eq_ok.mp h
  obtain ⟨hid, hsession⟩ := Reader.id_eq_ok.mp hsession
  obtain ⟨hpath_id, hpath⟩ := Reader.path_id_eq_ok.mp hpath
  obtain ⟨hpath_epoch, hepoch⟩ := Reader.epoch_eq_ok.mp hepoch
  refine ⟨⟨hid, hpath_id, hpath_epoch⟩, rfl, ?_⟩
  rw [hpath, hepoch, Reader.u32_eq_ok.mp hrtt, Reader.u32_eq_ok.mp hloss,
    finish_remaining hfinish, List.append_nil] at hsession
  exact hsession

theorem of_decode_policy_update (h : decode_message 7 body = .ok m) :
    m.Valid ∧ 7 = m.kind ∧ body = m.body := by
  obtain ⟨⟨session, r⟩, hsession, h⟩ := Outcome.bind_eq_ok.mp h
  obtain ⟨⟨policy_epoch, r⟩, hepoch, h⟩ := Outcome.bind_eq_ok.mp h
  obtain ⟨⟨policy, r⟩, hpolicy, h⟩ := Outcome.bind_eq_ok.mp h
  obtain ⟨_, hfinish, h⟩ := Outcome.bind_eq_ok.mp h
  obtain rfl := Outcome.pure_eq_ok.mp h
  obtain ⟨hid, hsession⟩ := Reader.id_eq_ok.mp hsession
  obtain ⟨hpolicy_epoch, hepoch⟩ := Reader.epoch_eq_ok.mp hepoch
  obtain ⟨hlen, hpolicy⟩ := (Reader.bytes_u16_eq_ok (by decide)).mp hpolicy
  refine ⟨⟨hid, hpolicy_epoch, hlen⟩, rfl, ?_⟩
  rw [hepoch, hpolicy, finish_remaining hfinish, List.append_nil] at hsession
  exact hsession

theorem of_decode_close (h : decode_message 8 body = .ok m) :
    m.Valid ∧ 8 = m.kind ∧ body = m.body := by
  obtain ⟨⟨session, r⟩, hsession, h⟩ := Outcome.bind_eq_ok.mp h
  obtain ⟨⟨reason, r⟩, hreason, h⟩ := Outcome.bind_eq_ok.mp h
  obtain ⟨_, hfinish, h⟩ := Outcome.bind_eq_ok.mp h
  obtain rfl := Outcome.pure_eq_ok.mp h
  obtain ⟨hid, hsession⟩ := Reader.id_eq_ok.mp hsession
  obtain ⟨hlen, hreason⟩ := (Reader.string_u8_eq_ok (by decide)).mp hreason
  refine ⟨⟨hid, hlen⟩, rfl, ?_⟩
  rw [hreason, finish_remaining hfinish, List.append_nil] at hsession
  exact hsession

theorem of_decode_ack (h : decode_message 9 body = .ok m) :
    m.Valid ∧ 9 = m.kind ∧ body = m.body := by
  obtain ⟨_, hfinish, h⟩ := Outcome.bind_eq_ok.mp h
  obtain rfl := Outcome.pure_eq_ok.mp h
  exact ⟨trivial, rfl, finish_remaining hfinish⟩

theorem of_decode_reject (h : decode_message 10 body = .ok m) :
    m.Valid ∧ 10 = m.kind ∧ body = m.body := by
  obtain ⟨⟨value, r⟩, hvalue, h⟩ := Outcome.bind_eq_ok.mp h
  obtain ⟨code, hcode, h⟩ := Outcome.bind_eq_ok.mp h
  obtain ⟨⟨reason, r⟩, hreason, h⟩ := Outcome.bind_eq_ok.mp h
  obtain ⟨_, hfinish, h⟩ := Outcome.bind_eq_ok.mp h
  obtain rfl := Outcome.pure_eq_ok.mp h
  obtain rfl := RejectCode.from_wire_eq_some.mp (Outcome.ofOption_eq_ok.mp hcode)
  obtain ⟨hlen, hreason⟩ := (Reader.string_u8_eq_ok (by decide)).mp hreason
  have hvalue := Reader.u16_eq_ok.mp hvalue
  refine ⟨hlen, rfl, ?_⟩
  rw [hreason, finish_remaining hfinish, List.append_nil] at hvalue
  exact hvalue

/-- **What decodes passes its checks, and its kind and body are what was read.** -/
theorem of_decode_message {kind : UInt8} (h : decode_message kind body = .ok m) :
    m.Valid ∧ kind = m.kind ∧ body = m.body := by
  by_cases hkind : kind ∈ ([1, 2, 3, 4, 5, 6, 7, 8, 9, 10] : List UInt8)
  · simp only [List.mem_cons, List.not_mem_nil, or_false] at hkind
    rcases hkind with rfl | rfl | rfl | rfl | rfl | rfl | rfl | rfl | rfl | rfl
    · exact of_decode_client_hello h
    · exact of_decode_session_admit h
    · exact of_decode_path_attach h
    · exact of_decode_path_attached h
    · exact of_decode_path_detach h
    · exact of_decode_path_health h
    · exact of_decode_policy_update h
    · exact of_decode_close h
    · exact of_decode_ack h
    · exact of_decode_reject h
  · -- no message has another kind
    simp only [List.mem_cons, List.not_mem_nil, or_false, not_or] at hkind
    unfold decode_message at h
    split at h
    all_goals simp at hkind h

end Sound

/-- The end of a body that was read off completely. -/
theorem finish_nil : (Outcome.ofExcept (Reader.finish ⟨[]⟩) : Outcome ControlCodecError Unit) =
    .ok () :=
  rfl

/-- **The body of a message that passes its checks decodes to it.** Each read takes
off the next piece of the body and leaves the rest. -/
theorem decode_body {m : ControlMessage} (h : m.Valid) : decode_message m.kind m.body = .ok m := by
  cases m with
  | ClientHello device_id gateway ticket =>
    obtain ⟨hid, hname⟩ := h
    refine Outcome.bind_eq_ok.mpr ⟨(_, ⟨text_u8 gateway ++ text_u16 ticket.value⟩),
      Reader.id_eq_ok.mpr ⟨hid, rfl⟩, ?_⟩
    refine Outcome.bind_eq_ok.mpr ⟨(_, ⟨text_u16 ticket.value⟩),
      (Reader.string_u8_eq_ok (by decide)).mpr ⟨hname, rfl⟩, ?_⟩
    refine Outcome.bind_eq_ok.mpr ⟨(_, ⟨[]⟩), (Reader.string_u16_eq_ok (by decide)).mpr
      ⟨ticket.bounded, (List.append_nil _).symm⟩, ?_⟩
    refine Outcome.ite_err_eq_ok.mpr ⟨ticket.nonempty, ?_⟩
    refine Outcome.bind_eq_ok.mpr ⟨(), finish_nil, ?_⟩
    exact Outcome.bind_eq_ok.mpr ⟨ticket, AdmissionTicket.wrap_eq_ok.mpr rfl, rfl⟩
  | SessionAdmit session_id expires_at_ms policy_epoch ipv4 ipv4_len ipv6 ipv6_len policy =>
    obtain ⟨hid, hepochs, hv4, hv6, hv4_len, hv6_len⟩ := h
    refine Outcome.bind_eq_ok.mpr ⟨(_, ⟨_⟩), Reader.id_eq_ok.mpr ⟨hid, rfl⟩, ?_⟩
    refine Outcome.bind_eq_ok.mpr ⟨(_, ⟨_⟩), Reader.u64_eq_ok.mpr rfl, ?_⟩
    refine Outcome.bind_eq_ok.mpr ⟨(_, ⟨_⟩), Reader.u64_eq_ok.mpr rfl, ?_⟩
    refine Outcome.bind_eq_ok.mpr ⟨(_, ⟨_⟩), Reader.bytes_eq_ok.mpr rfl, ?_⟩
    refine Outcome.bind_eq_ok.mpr ⟨(_, ⟨_⟩), Reader.byte_eq_ok.mpr rfl, ?_⟩
    refine Outcome.bind_eq_ok.mpr ⟨(_, ⟨_⟩), Reader.bytes_eq_ok.mpr rfl, ?_⟩
    refine Outcome.bind_eq_ok.mpr ⟨(_, ⟨_⟩), Reader.byte_eq_ok.mpr rfl, ?_⟩
    refine Outcome.bind_eq_ok.mpr ⟨(_, ⟨[]⟩), (Reader.bytes_u16_eq_ok (by decide)).mpr
      ⟨policy.bounded, (List.append_nil _).symm⟩, ?_⟩
    refine Outcome.ite_err_eq_ok.mpr ⟨not_or.mpr hepochs, ?_⟩
    refine Outcome.bind_eq_ok.mpr
      ⟨(), Outcome.ofExcept_eq_ok.mpr (validate_nonzero_eq_ok.mpr hv4), ?_⟩
    refine Outcome.bind_eq_ok.mpr
      ⟨(), Outcome.ofExcept_eq_ok.mpr (validate_nonzero_eq_ok.mpr hv6), ?_⟩
    refine Outcome.bind_eq_ok.mpr
      ⟨(), Outcome.ofExcept_eq_ok.mpr (validate_prefix_len_eq_ok.mpr hv4_len), ?_⟩
    refine Outcome.bind_eq_ok.mpr
      ⟨(), Outcome.ofExcept_eq_ok.mpr (validate_prefix_len_eq_ok.mpr hv6_len), ?_⟩
    refine Outcome.ite_err_eq_ok.mpr ⟨policy.nonempty, ?_⟩
    refine Outcome.bind_eq_ok.mpr ⟨(), finish_nil, ?_⟩
    exact Outcome.bind_eq_ok.mpr ⟨policy, SafeModePolicy.wrap_eq_ok.mpr rfl, rfl⟩
  | PathAttach session_id nonce path_epoch key_epoch metadata =>
    obtain ⟨hid, hnonce, hepoch, hkey, hlen⟩ := h
    refine Outcome.bind_eq_ok.mpr ⟨(_, ⟨_⟩), Reader.id_eq_ok.mpr ⟨hid, rfl⟩, ?_⟩
    refine Outcome.bind_eq_ok.mpr ⟨(_, ⟨_⟩), Reader.id_eq_ok.mpr ⟨hnonce, rfl⟩, ?_⟩
    refine Outcome.bind_eq_ok.mpr ⟨(_, ⟨_⟩), Reader.epoch_eq_ok.mpr ⟨hepoch, rfl⟩, ?_⟩
    refine Outcome.bind_eq_ok.mpr ⟨(_, ⟨_⟩), Reader.u32_eq_ok.mpr rfl, ?_⟩
    refine Outcome.ite_err_eq_ok.mpr ⟨hkey, ?_⟩
    refine Outcome.bind_eq_ok.mpr ⟨(_, ⟨[]⟩), (Reader.bytes_u16_eq_ok (by decide)).mpr
      ⟨hlen, (List.append_nil _).symm⟩, ?_⟩
    exact Outcome.bind_eq_ok.mpr ⟨(), finish_nil, rfl⟩
  | PathAttached session_id path_id path_epoch =>
    obtain ⟨hid, hpath, hepoch⟩ := h
    refine Outcome.bind_eq_ok.mpr ⟨(_, ⟨_⟩), Reader.id_eq_ok.mpr ⟨hid, rfl⟩, ?_⟩
    refine Outcome.bind_eq_ok.mpr ⟨(_, ⟨_⟩), Reader.path_id_eq_ok.mpr ⟨hpath, rfl⟩, ?_⟩
    refine Outcome.bind_eq_ok.mpr ⟨(_, ⟨[]⟩), Reader.epoch_eq_ok.mpr
      ⟨hepoch, (List.append_nil _).symm⟩, ?_⟩
    exact Outcome.bind_eq_ok.mpr ⟨(), finish_nil, rfl⟩
  | PathDetach session_id path_id path_epoch reason =>
    obtain ⟨hid, hpath, hepoch, hlen⟩ := h
    refine Outcome.bind_eq_ok.mpr ⟨(_, ⟨_⟩), Reader.id_eq_ok.mpr ⟨hid, rfl⟩, ?_⟩
    refine Outcome.bind_eq_ok.mpr ⟨(_, ⟨_⟩), Reader.path_id_eq_ok.mpr ⟨hpath, rfl⟩, ?_⟩
    refine Outcome.bind_eq_ok.mpr ⟨(_, ⟨_⟩), Reader.epoch_eq_ok.mpr ⟨hepoch, rfl⟩, ?_⟩
    refine Outcome.bind_eq_ok.mpr ⟨(_, ⟨[]⟩), (Reader.string_u8_eq_ok (by decide)).mpr
      ⟨hlen, (List.append_nil _).symm⟩, ?_⟩
    exact Outcome.bind_eq_ok.mpr ⟨(), finish_nil, rfl⟩
  | PathHealth session_id path_id path_epoch rtt_ms loss_ppm =>
    obtain ⟨hid, hpath, hepoch⟩ := h
    refine Outcome.bind_eq_ok.mpr ⟨(_, ⟨_⟩), Reader.id_eq_ok.mpr ⟨hid, rfl⟩, ?_⟩
    refine Outcome.bind_eq_ok.mpr ⟨(_, ⟨_⟩), Reader.path_id_eq_ok.mpr ⟨hpath, rfl⟩, ?_⟩
    refine Outcome.bind_eq_ok.mpr ⟨(_, ⟨_⟩), Reader.epoch_eq_ok.mpr ⟨hepoch, rfl⟩, ?_⟩
    refine Outcome.bind_eq_ok.mpr ⟨(_, ⟨_⟩), Reader.u32_eq_ok.mpr rfl, ?_⟩
    refine Outcome.bind_eq_ok.mpr ⟨(_, ⟨[]⟩),
      Reader.u32_eq_ok.mpr (List.append_nil _).symm, ?_⟩
    exact Outcome.bind_eq_ok.mpr ⟨(), finish_nil, rfl⟩
  | PolicyUpdate session_id policy_epoch policy =>
    obtain ⟨hid, hepoch, hlen⟩ := h
    refine Outcome.bind_eq_ok.mpr ⟨(_, ⟨_⟩), Reader.id_eq_ok.mpr ⟨hid, rfl⟩, ?_⟩
    refine Outcome.bind_eq_ok.mpr ⟨(_, ⟨_⟩), Reader.epoch_eq_ok.mpr ⟨hepoch, rfl⟩, ?_⟩
    refine Outcome.bind_eq_ok.mpr ⟨(_, ⟨[]⟩), (Reader.bytes_u16_eq_ok (by decide)).mpr
      ⟨hlen, (List.append_nil _).symm⟩, ?_⟩
    exact Outcome.bind_eq_ok.mpr ⟨(), finish_nil, rfl⟩
  | Close session_id reason =>
    obtain ⟨hid, hlen⟩ := h
    refine Outcome.bind_eq_ok.mpr ⟨(_, ⟨_⟩), Reader.id_eq_ok.mpr ⟨hid, rfl⟩, ?_⟩
    refine Outcome.bind_eq_ok.mpr ⟨(_, ⟨[]⟩), (Reader.string_u8_eq_ok (by decide)).mpr
      ⟨hlen, (List.append_nil _).symm⟩, ?_⟩
    exact Outcome.bind_eq_ok.mpr ⟨(), finish_nil, rfl⟩
  | Ack => rfl
  | Reject code reason =>
    refine Outcome.bind_eq_ok.mpr ⟨(_, ⟨_⟩), Reader.u16_eq_ok.mpr rfl, ?_⟩
    refine Outcome.bind_eq_ok.mpr
      ⟨code, Outcome.ofOption_eq_ok.mpr (RejectCode.from_wire_eq_some.mpr rfl), ?_⟩
    refine Outcome.bind_eq_ok.mpr ⟨(_, ⟨[]⟩), (Reader.string_u8_eq_ok (by decide)).mpr
      ⟨h, (List.append_nil _).symm⟩, ?_⟩
    exact Outcome.bind_eq_ok.mpr ⟨(), finish_nil, rfl⟩

/-! ## No read leaves the body -/

namespace Reader

variable {r : Reader}

theorem take_ne_panic (r : Reader) (count : ℕ) : r.take count ≠ .panic := by
  rw [take]
  refine Outcome.ite_err_ne_panic fun hlen => ?_
  rw [split_at, if_pos (Nat.not_lt.mp hlen)]
  intro h
  contradiction

/-- A taken piece has the length asked for, so it converts to an array. -/
theorem take_array_ne_panic {count : ℕ} {piece : Bytes × Reader} (h : r.take count = .ok piece) :
    (array count piece.1 : Outcome ControlCodecError Bytes) ≠ .panic :=
  array_ne_panic (take_eq_ok.mp h).1

theorem word_ne_panic {α : Type} {w : ℕ} (r : Reader) (of_bytes : Bytes → α) :
    (do
        let (piece, r) ← r.take w
        return (of_bytes (← array w piece), r) : Outcome ControlCodecError (α × Reader)) ≠
      .panic := by
  refine Outcome.bind_ne_panic (take_ne_panic r w) fun _ htake => ?_
  refine Outcome.bind_ne_panic (take_array_ne_panic htake) fun _ _ => ?_
  intro h
  contradiction

theorem u16_ne_panic (r : Reader) : r.u16 ≠ .panic := word_ne_panic r _

theorem u32_ne_panic (r : Reader) : r.u32 ≠ .panic := word_ne_panic r _

theorem u64_ne_panic (r : Reader) : r.u64 ≠ .panic := word_ne_panic r _

theorem bytes_ne_panic (r : Reader) (w : ℕ) : r.bytes w ≠ .panic := word_ne_panic r _

theorem byte_ne_panic (r : Reader) : r.byte ≠ .panic := by
  refine Outcome.bind_ne_panic (take_ne_panic r 1) fun piece htake => ?_
  have hlen := (take_eq_ok.mp htake).1
  refine Outcome.bind_ne_panic (index_ne_panic (by omega)) fun _ _ => ?_
  intro h
  contradiction

theorem id_ne_panic (r : Reader) (name : String) : r.id name ≠ .panic := by
  refine Outcome.bind_ne_panic (take_ne_panic r 16) fun _ htake => ?_
  refine Outcome.bind_ne_panic (take_array_ne_panic htake) fun _ _ => ?_
  refine Outcome.bind_ne_panic (Outcome.ofExcept_ne_panic _) fun _ _ => ?_
  intro h
  contradiction

theorem epoch_ne_panic (r : Reader) (name : String) : r.epoch name ≠ .panic := by
  refine Outcome.bind_ne_panic (u64_ne_panic r) fun _ _ => ?_
  refine Outcome.bind_ne_panic (Outcome.ofExcept_ne_panic _) fun _ _ => ?_
  intro h
  contradiction

theorem path_id_ne_panic (r : Reader) : r.path_id ≠ .panic := by
  refine Outcome.bind_ne_panic (u16_ne_panic r) fun _ _ => ?_
  refine Outcome.bind_ne_panic (Outcome.ofExcept_ne_panic _) fun _ _ => ?_
  intro h
  contradiction

theorem string_ne_panic (r : Reader) (field : String) (len maximum : ℕ) :
    r.string field len maximum ≠ .panic := by
  refine Outcome.bind_ne_panic (Outcome.ofExcept_ne_panic _) fun _ _ => ?_
  refine Outcome.bind_ne_panic (take_ne_panic r len) fun _ _ => ?_
  refine Outcome.bind_ne_panic (Outcome.ofOption_ne_panic _ _) fun _ _ => ?_
  intro h
  contradiction

theorem string_u8_ne_panic (r : Reader) (field : String) (maximum : ℕ) :
    r.string_u8 field maximum ≠ .panic :=
  Outcome.bind_ne_panic (byte_ne_panic r) fun _ _ => string_ne_panic _ _ _ _

theorem string_u16_ne_panic (r : Reader) (field : String) (maximum : ℕ) :
    r.string_u16 field maximum ≠ .panic :=
  Outcome.bind_ne_panic (u16_ne_panic r) fun _ _ => string_ne_panic _ _ _ _

theorem bytes_u16_ne_panic (r : Reader) (field : String) (maximum : ℕ) :
    r.bytes_u16 field maximum ≠ .panic := by
  refine Outcome.bind_ne_panic (u16_ne_panic r) fun _ _ => ?_
  exact Outcome.bind_ne_panic (Outcome.ofExcept_ne_panic _) fun _ _ => take_ne_panic _ _

end Reader

/-- The end of a body: after `finish` only the message is built. -/
theorem finish_ne_panic {α : Type} {r : Reader} {x : Outcome ControlCodecError α}
    (hx : x ≠ .panic) : (do Outcome.ofExcept r.finish; x) ≠ .panic :=
  Outcome.bind_ne_panic (Outcome.ofExcept_ne_panic _) fun _ _ => hx

/-- The unchecked constructors get values within their bounds, and no read leaves
the body. -/
theorem decode_message_ne_panic (kind : UInt8) (body : Bytes) :
    decode_message kind body ≠ .panic := by
  unfold decode_message
  split
  · refine Outcome.bind_ne_panic (Reader.id_ne_panic _ _) fun _ _ => ?_
    refine Outcome.bind_ne_panic (Reader.string_u8_ne_panic _ _ _) fun _ _ => ?_
    refine Outcome.bind_ne_panic (Reader.string_u16_ne_panic _ _ _) fun ticket hticket => ?_
    have hbounded := ((Reader.string_u16_eq_ok (by decide)).mp hticket).1
    refine Outcome.ite_err_ne_panic fun hempty => finish_ne_panic ?_
    refine Outcome.bind_ne_panic ?_ fun _ _ h => by contradiction
    rw [AdmissionTicket.wrap, dif_pos ⟨hempty, hbounded⟩]
    intro h
    contradiction
  · refine Outcome.bind_ne_panic (Reader.id_ne_panic _ _) fun _ _ => ?_
    refine Outcome.bind_ne_panic (Reader.u64_ne_panic _) fun _ _ => ?_
    refine Outcome.bind_ne_panic (Reader.u64_ne_panic _) fun _ _ => ?_
    refine Outcome.bind_ne_panic (Reader.bytes_ne_panic _ _) fun _ _ => ?_
    refine Outcome.bind_ne_panic (Reader.byte_ne_panic _) fun _ _ => ?_
    refine Outcome.bind_ne_panic (Reader.bytes_ne_panic _ _) fun _ _ => ?_
    refine Outcome.bind_ne_panic (Reader.byte_ne_panic _) fun _ _ => ?_
    refine Outcome.bind_ne_panic (Reader.bytes_u16_ne_panic _ _ _) fun policy hpolicy => ?_
    have hbounded := ((Reader.bytes_u16_eq_ok (by decide)).mp hpolicy).1
    refine Outcome.ite_err_ne_panic fun _ => ?_
    refine Outcome.bind_ne_panic (Outcome.ofExcept_ne_panic _) fun _ _ => ?_
    refine Outcome.bind_ne_panic (Outcome.ofExcept_ne_panic _) fun _ _ => ?_
    refine Outcome.bind_ne_panic (Outcome.ofExcept_ne_panic _) fun _ _ => ?_
    refine Outcome.bind_ne_panic (Outcome.ofExcept_ne_panic _) fun _ _ => ?_
    refine Outcome.ite_err_ne_panic fun hempty => finish_ne_panic ?_
    refine Outcome.bind_ne_panic ?_ fun _ _ h => by contradiction
    rw [SafeModePolicy.wrap, dif_pos ⟨hempty, hbounded⟩]
    intro h
    contradiction
  · refine Outcome.bind_ne_panic (Reader.id_ne_panic _ _) fun _ _ => ?_
    refine Outcome.bind_ne_panic (Reader.id_ne_panic _ _) fun _ _ => ?_
    refine Outcome.bind_ne_panic (Reader.epoch_ne_panic _ _) fun _ _ => ?_
    refine Outcome.bind_ne_panic (Reader.u32_ne_panic _) fun _ _ => ?_
    refine Outcome.ite_err_ne_panic fun _ => ?_
    refine Outcome.bind_ne_panic (Reader.bytes_u16_ne_panic _ _ _) fun _ _ => ?_
    exact finish_ne_panic (fun h => by contradiction)
  · refine Outcome.bind_ne_panic (Reader.id_ne_panic _ _) fun _ _ => ?_
    refine Outcome.bind_ne_panic (Reader.path_id_ne_panic _) fun _ _ => ?_
    refine Outcome.bind_ne_panic (Reader.epoch_ne_panic _ _) fun _ _ => ?_
    exact finish_ne_panic (fun h => by contradiction)
  · refine Outcome.bind_ne_panic (Reader.id_ne_panic _ _) fun _ _ => ?_
    refine Outcome.bind_ne_panic (Reader.path_id_ne_panic _) fun _ _ => ?_
    refine Outcome.bind_ne_panic (Reader.epoch_ne_panic _ _) fun _ _ => ?_
    refine Outcome.bind_ne_panic (Reader.string_u8_ne_panic _ _ _) fun _ _ => ?_
    exact finish_ne_panic (fun h => by contradiction)
  · refine Outcome.bind_ne_panic (Reader.id_ne_panic _ _) fun _ _ => ?_
    refine Outcome.bind_ne_panic (Reader.path_id_ne_panic _) fun _ _ => ?_
    refine Outcome.bind_ne_panic (Reader.epoch_ne_panic _ _) fun _ _ => ?_
    refine Outcome.bind_ne_panic (Reader.u32_ne_panic _) fun _ _ => ?_
    refine Outcome.bind_ne_panic (Reader.u32_ne_panic _) fun _ _ => ?_
    exact finish_ne_panic (fun h => by contradiction)
  · refine Outcome.bind_ne_panic (Reader.id_ne_panic _ _) fun _ _ => ?_
    refine Outcome.bind_ne_panic (Reader.epoch_ne_panic _ _) fun _ _ => ?_
    refine Outcome.bind_ne_panic (Reader.bytes_u16_ne_panic _ _ _) fun _ _ => ?_
    exact finish_ne_panic (fun h => by contradiction)
  · refine Outcome.bind_ne_panic (Reader.id_ne_panic _ _) fun _ _ => ?_
    refine Outcome.bind_ne_panic (Reader.string_u8_ne_panic _ _ _) fun _ _ => ?_
    exact finish_ne_panic (fun h => by contradiction)
  · exact finish_ne_panic (fun h => by contradiction)
  · refine Outcome.bind_ne_panic (Reader.u16_ne_panic _) fun _ _ => ?_
    refine Outcome.bind_ne_panic (Outcome.ofOption_ne_panic _ _) fun _ _ => ?_
    refine Outcome.bind_ne_panic (Reader.string_u8_ne_panic _ _ _) fun _ _ => ?_
    exact finish_ne_panic (fun h => by contradiction)
  · intro h
    contradiction

/-! ## The frame -/

/-- The frame of a transaction and a message. -/
def ControlFrame.bytes (f : ControlFrame) : Bytes :=
  [VERSION] ++ ([0] ++ ([f.message.kind] ++ ([0] ++ (U64.to_be_bytes f.transaction_id ++
    (U32.to_be_bytes (Fin.ofNat _ f.message.body.length) ++ f.message.body)))))

/-- A frame that passes every check under a length limit. -/
structure ControlFrame.Valid (f : ControlFrame) (limit : ℕ) : Prop where
  transaction_id : f.transaction_id ≠ 0
  message : f.message.Valid
  within_limit : FRAME_HEADER_LEN + f.message.body.length ≤ limit

theorem length_text_u8 (value : String) : (text_u8 value).length = 1 + value.utf8ByteSize := by
  rw [text_u8, List.length_cons, length_utf8Bytes, Nat.add_comm]

theorem length_text_u16 (value : String) : (text_u16 value).length = 2 + value.utf8ByteSize := by
  rw [text_u16, List.length_append, U16.length_to_be_bytes, length_utf8Bytes]

theorem length_counted_u16 (value : Bytes) : (counted_u16 value).length = 2 + value.length := by
  rw [counted_u16, List.length_append, U16.length_to_be_bytes]

/-- Every field is bounded, so a body is small. -/
theorem length_body_le {m : ControlMessage} (h : m.Valid) : m.body.length ≤ 8192 := by
  cases m with
  | ClientHello device_id gateway ticket =>
    have hname := h.2
    have hticket := ticket.bounded
    simp only [ControlMessage.body, List.length_append, id_bytes, length_array_bytes,
      length_text_u8, length_text_u16, MAX_GATEWAY_NAME_LEN, MAX_TICKET_LEN] at *
    omega
  | SessionAdmit session_id expires_at_ms policy_epoch ipv4 ipv4_len ipv6 ipv6_len policy =>
    have hpolicy := policy.bounded
    simp only [ControlMessage.body, List.length_append, List.length_cons, id_bytes,
      length_array_bytes, U64.length_to_be_bytes, length_counted_u16,
      MAX_SAFE_MODE_POLICY_LEN] at *
    omega
  | PathAttach session_id nonce path_epoch key_epoch metadata =>
    have hlen := h.2.2.2.2
    simp only [ControlMessage.body, List.length_append, id_bytes, length_array_bytes,
      U64.length_to_be_bytes, U32.length_to_be_bytes, length_counted_u16,
      MAX_PATH_METADATA_LEN] at *
    omega
  | PathAttached session_id path_id path_epoch =>
    simp only [ControlMessage.body, List.length_append, id_bytes, length_array_bytes,
      U64.length_to_be_bytes, U16.length_to_be_bytes]
    omega
  | PathDetach session_id path_id path_epoch reason =>
    have hlen := h.2.2.2
    simp only [ControlMessage.body, List.length_append, id_bytes, length_array_bytes,
      U64.length_to_be_bytes, U16.length_to_be_bytes, length_text_u8, MAX_REASON_LEN] at *
    omega
  | PathHealth session_id path_id path_epoch rtt_ms loss_ppm =>
    simp only [ControlMessage.body, List.length_append, id_bytes, length_array_bytes,
      U64.length_to_be_bytes, U32.length_to_be_bytes, U16.length_to_be_bytes]
    omega
  | PolicyUpdate session_id policy_epoch policy =>
    have hlen := h.2.2
    simp only [ControlMessage.body, List.length_append, id_bytes, length_array_bytes,
      U64.length_to_be_bytes, length_counted_u16, MAX_POLICY_LEN] at *
    omega
  | Close session_id reason =>
    have hlen := h.2
    simp only [ControlMessage.body, List.length_append, id_bytes, length_array_bytes,
      length_text_u8, MAX_REASON_LEN] at *
    omega
  | Ack => simp [ControlMessage.body]
  | Reject code reason =>
    have hlen : reason.utf8ByteSize ≤ MAX_REASON_LEN := h
    simp only [ControlMessage.body, List.length_append, U16.length_to_be_bytes, length_text_u8,
      MAX_REASON_LEN] at *
    omega

/-- The body length fits its wire field. -/
theorem length_body_lt {m : ControlMessage} (h : m.Valid) : m.body.length < 2 ^ 32 :=
  lt_of_le_of_lt (length_body_le h) (by decide)

namespace ControlFrame

variable {b : Bytes} {limit : ℕ} {f : ControlFrame}

/-- Encoding succeeds on the valid frames and writes their bytes. -/
theorem encode_eq_ok : f.encode limit = .ok b ↔ f.Valid limit ∧ b = f.bytes := by
  rw [ControlFrame.encode]
  constructor
  · intro h
    obtain ⟨hid, h⟩ := Outcome.except_ite_eq_ok.mp h
    obtain ⟨⟨kind, body⟩, hmessage, h⟩ := Outcome.except_bind_eq_ok.mp h
    obtain ⟨hlimit, h⟩ := Outcome.except_ite_eq_ok.mp h
    obtain ⟨hvalid, rfl, rfl⟩ := encode_message_eq_ok.mp hmessage
    refine ⟨⟨hid, hvalid, Nat.not_lt.mp hlimit⟩, ?_⟩
    rw [← Except.ok.inj h, List.append_assoc, List.append_assoc]
    rfl
  · rintro ⟨h, rfl⟩
    refine Outcome.except_ite_eq_ok.mpr ⟨h.transaction_id, ?_⟩
    refine Outcome.except_bind_eq_ok.mpr
      ⟨(_, _), encode_message_eq_ok.mpr ⟨h.message, rfl, rfl⟩, ?_⟩
    refine Outcome.except_ite_eq_ok.mpr ⟨Nat.not_lt.mpr h.within_limit, ?_⟩
    rw [List.append_assoc, List.append_assoc]
    rfl

/-- What decodes is valid, and its bytes are the frame. -/
theorem of_decode (h : ControlFrame.decode b limit = .ok f) : f.Valid limit ∧ b = f.bytes := by
  rw [ControlFrame.decode] at h
  obtain ⟨hlen, h⟩ := Outcome.ite_err_eq_ok.mp h
  obtain ⟨version, h0, h⟩ := Outcome.bind_eq_ok.mp h
  obtain ⟨hversion, h⟩ := Outcome.ite_err_eq_ok.mp h
  obtain ⟨reserved₁, h1, h⟩ := Outcome.bind_eq_ok.mp h
  obtain ⟨hreserved₁, h⟩ := Outcome.ite_err_eq_ok.mp h
  obtain ⟨reserved₃, h3, h⟩ := Outcome.bind_eq_ok.mp h
  obtain ⟨hreserved₃, h⟩ := Outcome.ite_err_eq_ok.mp h
  obtain ⟨kind, h2, h⟩ := Outcome.bind_eq_ok.mp h
  obtain ⟨id_slice, h4, h⟩ := Outcome.bind_eq_ok.mp h
  obtain ⟨_, hid, h⟩ := Outcome.bind_eq_ok.mp h
  obtain ⟨hnonzero, h⟩ := Outcome.ite_err_eq_ok.mp h
  obtain ⟨len_slice, h12, h⟩ := Outcome.bind_eq_ok.mp h
  obtain ⟨_, hbody_len, h⟩ := Outcome.bind_eq_ok.mp h
  obtain ⟨hlimit, h⟩ := Outcome.ite_err_eq_ok.mp h
  obtain ⟨hshort, h⟩ := Outcome.ite_err_eq_ok.mp h
  obtain ⟨hlong, h⟩ := Outcome.ite_err_eq_ok.mp h
  obtain ⟨body, hrest, h⟩ := Outcome.bind_eq_ok.mp h
  obtain ⟨message, hmessage, h⟩ := Outcome.bind_eq_ok.mp h
  obtain rfl := Outcome.pure_eq_ok.mp h
  obtain ⟨hid_len, rfl⟩ := array_eq_ok.mp hid
  obtain ⟨hlen_len, rfl⟩ := array_eq_ok.mp hbody_len
  rw [slice_from_eq (Nat.not_lt.mp hlen)] at hrest
  obtain rfl := Outcome.ok.inj hrest
  obtain ⟨-, h4⟩ := (slice_eq_ok (by decide)).mp h4
  obtain ⟨-, h12⟩ := (slice_eq_ok (by decide)).mp h12
  obtain ⟨hvalid, hkind, hbody⟩ := of_decode_message hmessage
  -- the declared length is the length of the body
  have hlength : message.body.length = (U32.from_be_bytes len_slice).val := by
    rw [← hbody, List.length_drop]
    omega
  refine ⟨⟨hnonzero, hvalid, ?_⟩, ?_⟩
  · rw [hlength]
    exact Nat.not_lt.mp hlimit
  · have hword : Fin.ofNat (2 ^ 32) message.body.length = U32.from_be_bytes len_slice := by
      rw [hlength, Fin.ofNat_val_eq_self]
    rw [ControlFrame.bytes, hword, ← (U32.from_be_bytes_eq_iff hlen_len).mp rfl,
      ← (U64.from_be_bytes_eq_iff hid_len).mp rfl, ← hkind, ← hbody, ← not_not.mp hversion]
    calc b = version :: b.drop 1 := index_eq_ok.mp h0
      _ = _ := by
        rw [index_eq_ok.mp h1, index_eq_ok.mp h2, index_eq_ok.mp h3, h4, h12,
          not_not.mp hreserved₁, not_not.mp hreserved₃]
        rfl

/-- The bytes of a valid frame decode to it. -/
theorem decode_bytes (hvalid : f.Valid limit) : ControlFrame.decode f.bytes limit = .ok f := by
  have hsize : f.bytes.length = FRAME_HEADER_LEN + f.message.body.length := by
    simp only [ControlFrame.bytes, List.length_singleton, List.length_append, U32.length_to_be_bytes,
      U64.length_to_be_bytes, FRAME_HEADER_LEN]
    omega
  have hlen_value : (U32.from_be_bytes
      (U32.to_be_bytes (Fin.ofNat _ f.message.body.length))).val = f.message.body.length := by
    rw [(U32.from_be_bytes_eq_iff (U32.length_to_be_bytes _)).mpr rfl, Fin.val_ofNat,
      Nat.mod_eq_of_lt (length_body_lt hvalid.message)]
  have hid_value : U64.from_be_bytes (U64.to_be_bytes f.transaction_id) = f.transaction_id :=
    (U64.from_be_bytes_eq_iff (U64.length_to_be_bytes _)).mpr rfl
  obtain ⟨b, hb⟩ : ∃ b, f.bytes = b := ⟨_, rfl⟩
  rw [hb] at hsize ⊢
  rw [ControlFrame.bytes] at hb
  -- what stands at each offset
  have h0 : b.drop 0 = _ := hb.symm
  have h1 := drop_after (j := 1) h0 rfl
  have h2 := drop_after (j := 2) h1 rfl
  have h3 := drop_after (j := 3) h2 rfl
  have h4 := drop_after (j := 4) h3 rfl
  have h12 := drop_after (j := 12) h4 (by rw [U64.length_to_be_bytes])
  have h16 := drop_after (j := 16) h12 (by rw [U32.length_to_be_bytes])
  rw [ControlFrame.decode]
  refine Outcome.ite_err_eq_ok.mpr ⟨by omega, ?_⟩
  refine Outcome.bind_eq_ok.mpr ⟨_, index_of_drop h0, ?_⟩
  refine Outcome.ite_err_eq_ok.mpr ⟨not_not.mpr rfl, ?_⟩
  refine Outcome.bind_eq_ok.mpr ⟨_, index_of_drop h1, ?_⟩
  refine Outcome.ite_err_eq_ok.mpr ⟨not_not.mpr rfl, ?_⟩
  refine Outcome.bind_eq_ok.mpr ⟨_, index_of_drop h3, ?_⟩
  refine Outcome.ite_err_eq_ok.mpr ⟨not_not.mpr rfl, ?_⟩
  refine Outcome.bind_eq_ok.mpr ⟨_, index_of_drop h2, ?_⟩
  refine Outcome.bind_eq_ok.mpr ⟨_, slice_of_drop h4 (by decide) (U64.length_to_be_bytes _), ?_⟩
  refine Outcome.bind_eq_ok.mpr ⟨_, array_eq_ok.mpr ⟨U64.length_to_be_bytes _, rfl⟩, ?_⟩
  rw [hid_value]
  refine Outcome.ite_err_eq_ok.mpr ⟨hvalid.transaction_id, ?_⟩
  refine Outcome.bind_eq_ok.mpr ⟨_, slice_of_drop h12 (by decide) (U32.length_to_be_bytes _), ?_⟩
  refine Outcome.bind_eq_ok.mpr ⟨_, array_eq_ok.mpr ⟨U32.length_to_be_bytes _, rfl⟩, ?_⟩
  rw [hlen_value]
  refine Outcome.ite_err_eq_ok.mpr ⟨Nat.not_lt.mpr hvalid.within_limit, ?_⟩
  refine Outcome.ite_err_eq_ok.mpr ⟨by omega, ?_⟩
  refine Outcome.ite_err_eq_ok.mpr ⟨by omega, ?_⟩
  refine Outcome.bind_eq_ok.mpr ⟨_, slice_from_eq (by omega), ?_⟩
  rw [FRAME_HEADER_LEN, h16]
  exact Outcome.bind_eq_ok.mpr ⟨_, decode_body hvalid.message, rfl⟩

/-- Past the length check every read stays inside the frame. -/
theorem decode_ne_panic (b : Bytes) (limit : ℕ) : ControlFrame.decode b limit ≠ .panic := by
  rw [ControlFrame.decode]
  refine Outcome.ite_err_ne_panic fun hlen => ?_
  have hlen : 16 ≤ b.length := Nat.not_lt.mp hlen
  refine Outcome.bind_ne_panic (index_ne_panic (by omega)) fun _ _ => ?_
  refine Outcome.ite_err_ne_panic fun _ => ?_
  refine Outcome.bind_ne_panic (index_ne_panic (by omega)) fun _ _ => ?_
  refine Outcome.ite_err_ne_panic fun _ => ?_
  refine Outcome.bind_ne_panic (index_ne_panic (by omega)) fun _ _ => ?_
  refine Outcome.ite_err_ne_panic fun _ => ?_
  refine Outcome.bind_ne_panic (index_ne_panic (by omega)) fun _ _ => ?_
  refine Outcome.bind_ne_panic (slice_ne_panic (by omega) (by omega)) fun _ hid => ?_
  have hid_len := ((slice_eq_ok (by decide)).mp hid).1
  refine Outcome.bind_ne_panic (array_ne_panic hid_len) fun _ _ => ?_
  refine Outcome.ite_err_ne_panic fun _ => ?_
  refine Outcome.bind_ne_panic (slice_ne_panic (by omega) (by omega)) fun _ hbody => ?_
  have hbody_len := ((slice_eq_ok (by decide)).mp hbody).1
  refine Outcome.bind_ne_panic (array_ne_panic hbody_len) fun _ _ => ?_
  refine Outcome.ite_err_ne_panic fun _ => ?_
  refine Outcome.ite_err_ne_panic fun _ => ?_
  refine Outcome.ite_err_ne_panic fun _ => ?_
  refine Outcome.bind_ne_panic (slice_from_ne_panic hlen) fun _ _ => ?_
  refine Outcome.bind_ne_panic (decode_message_ne_panic _ _) fun _ _ => ?_
  intro h
  contradiction

/-- **The control codec is a bijection on its image.** For every byte string, every
limit and every frame, decoding and encoding are inverse to each other; whatever
decodes passes every field check of the encoder, and decoding reads only inside the
byte string. -/
theorem frame_codec_bijective (b : Bytes) (limit : ℕ) :
    (∀ f, ControlFrame.decode b limit = .ok f ↔ f.encode limit = .ok b) ∧
      ControlFrame.decode b limit ≠ .panic := by
  refine ⟨fun f => ?_, decode_ne_panic b limit⟩
  rw [encode_eq_ok]
  constructor
  · intro h
    exact of_decode h
  · rintro ⟨hvalid, rfl⟩
    exact decode_bytes hvalid

end ControlFrame

end StreamGuard.Control
