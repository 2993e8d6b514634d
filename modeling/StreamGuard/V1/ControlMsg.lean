/-
The V1 control messages of `sg-protocol/src/control.rs`, and where the V1 codecs
are lossless.

`encode` checks every length it narrows, so `decode` is its inverse on all messages, and
`read_eq_ok` says so for both directions. The envelope around a message is not so
careful: it writes the low 48 bits of a packet number that counts to `2 ^ 64`. The main
result is exact about which envelopes survive.

A weight is its bit pattern here, as it goes on the wire.
-/
import StreamGuard.V1.Envelope

set_option autoImplicit false

namespace StreamGuard.V1

open StreamGuard StreamGuard.Lib

/-! ## The model -/

/-- A control message; `W` is what stands for an `f32`. -/
inductive ControlMsg (W : Type) where
  | Init (sid : U32) (token : String)
  | Ack (sid : U32)
  | Nack (sid : U32) (reason : String)
  | PathSelect (path : UInt8)
  | WeightSet (weights : List (PathId × W))

/-- The message with other weights. -/
def ControlMsg.map {V W : Type} (f : V → W) : ControlMsg V → ControlMsg W
  | .Init sid token => .Init sid token
  | .Ack sid => .Ack sid
  | .Nack sid reason => .Nack sid reason
  | .PathSelect path => .PathSelect path
  | .WeightSet weights => .WeightSet (weights.map (fun w => (w.1, f w.2)))

/-- `put_u32(sid)`, `put_u16(len)` and the text. -/
def text_bytes (sid : U32) (text : String) : Bytes :=
  U32.to_be_bytes sid ++ (U16.to_be_bytes (Fin.ofNat _ text.utf8ByteSize) ++ utf8Bytes text)

/-- The entries of a weight set, five bytes each. -/
def weights_bytes (weights : List (PathId × U32)) : Bytes :=
  weights.flatMap (fun w => w.1.get :: U32.to_be_bytes w.2)

namespace ControlMsg

/-- The bytes `encode` puts; `as u16` and `as u8` keep the low bits of a length. -/
def image : ControlMsg U32 → Bytes
  | .Init sid token => 0x00 :: text_bytes sid token
  | .Ack sid => 0x01 :: U32.to_be_bytes sid
  | .Nack sid reason => 0x02 :: text_bytes sid reason
  | .PathSelect path => [0x03, path]
  | .WeightSet weights => 0x04 :: UInt8.ofNat weights.length :: weights_bytes weights

/-- `ControlMsg::encode`. -/
def encode (msg : ControlMsg U32) : Except Error Bytes :=
  match msg with
  | .Init _ token =>
    if 65535 < token.utf8ByteSize then .error (.Protocol "init token too long") else .ok msg.image
  | .Ack _ => .ok msg.image
  | .Nack _ reason =>
    if 65535 < reason.utf8ByteSize then .error (.Protocol "nack reason too long") else .ok msg.image
  | .PathSelect _ => .ok msg.image
  | .WeightSet weights =>
    if 255 < weights.length then .error (.Protocol "too many weight entries") else .ok msg.image

/-- The body of an Init and of a Nack, with the texts of its three errors. -/
def read_text (short truncated not_utf8 : String) : Reader Error (U32 × String) := do
  if (← Reader.remaining) < 6 then Reader.fail (.Protocol short) else do
  let sid ← get_u32
  let len ← get_u16
  if (← Reader.remaining) < len.val then Reader.fail (.Protocol truncated) else do
  let bytes ← Reader.take len.val
  let text ← Reader.ofOption (.Protocol not_utf8) (fromUtf8 bytes)
  return (sid, text)

/-- The loop over the entries. -/
def read_weights : ℕ → Reader Error (List (PathId × U32))
  | 0 => return []
  | count + 1 => do
    let path ← Reader.get_u8
    let weight ← get_u32
    let weights ← read_weights count
    return (⟨path⟩, weight) :: weights

/-- The body of `ControlMsg::decode`, with what it leaves of the buffer. -/
def read : Reader Error (ControlMsg U32) := do
  if (← Reader.remaining) < 1 then Reader.fail (.Protocol "empty control message") else do
  let kind ← Reader.get_u8
  if kind = 0x00 then do
    let body ← read_text "short init" "truncated init token" "init token not utf-8"
    return .Init body.1 body.2
  else if kind = 0x01 then do
    if (← Reader.remaining) < 4 then Reader.fail (.Protocol "short ack") else do
    let sid ← get_u32
    return .Ack sid
  else if kind = 0x02 then do
    let body ← read_text "short nack" "truncated nack reason" "nack reason not utf-8"
    return .Nack body.1 body.2
  else if kind = 0x03 then do
    if (← Reader.remaining) < 1 then Reader.fail (.Protocol "short path select") else do
    let path ← Reader.get_u8
    return .PathSelect path
  else if kind = 0x04 then do
    if (← Reader.remaining) < 1 then Reader.fail (.Protocol "short weight set") else do
    let count ← Reader.get_u8
    if (← Reader.remaining) < count.toNat * 5 then
      Reader.fail (.Protocol "truncated weight set") else do
    let weights ← read_weights count.toNat
    return .WeightSet weights
  else Reader.fail (.Protocol ("unknown control kind " ++ toString kind.toNat))

/-- `ControlMsg::decode`: what is left of the buffer is dropped. -/
def decode (buf : Bytes) : Outcome Error (ControlMsg U32) :=
  (read buf).bind (fun r => .ok r.1)

/-- A message whose lengths the wire holds. -/
def Fits : ControlMsg U32 → Prop
  | .Init _ token => token.utf8ByteSize ≤ 65535
  | .Ack _ => True
  | .Nack _ reason => reason.utf8ByteSize ≤ 65535
  | .PathSelect _ => True
  | .WeightSet weights => weights.length ≤ 255

/-! ## Which messages decode -/

section Read

variable {b rest : Bytes} {msg : ControlMsg U32}

theorem encode_eq_ok {bytes : Bytes} : msg.encode = .ok bytes ↔ msg.Fits ∧ bytes = msg.image := by
  cases msg with
  | Init sid token =>
    by_cases hlong : 65535 < token.utf8ByteSize
    · simp [encode, Fits, hlong]
    · simp [encode, Fits, hlong, Nat.not_lt.mp hlong, eq_comm]
  | Nack sid reason =>
    by_cases hlong : 65535 < reason.utf8ByteSize
    · simp [encode, Fits, hlong]
    · simp [encode, Fits, hlong, Nat.not_lt.mp hlong, eq_comm]
  | WeightSet weights =>
    by_cases hlong : 255 < weights.length
    · simp [encode, Fits, hlong]
    · simp [encode, Fits, hlong, Nat.not_lt.mp hlong, eq_comm]
  | Ack sid => simp [encode, Fits, eq_comm]
  | PathSelect path => simp [encode, Fits, eq_comm]

theorem read_text_eq_ok {short truncated not_utf8 : String} {sid : U32} {text : String} :
    read_text short truncated not_utf8 b = .ok ((sid, text), rest) ↔
      text.utf8ByteSize ≤ 65535 ∧ b = text_bytes sid text ++ rest := by
  constructor
  · intro h
    obtain ⟨-, h⟩ := Reader.check_remaining_eq_ok.mp h
    obtain ⟨sid', b₁, hsid, h⟩ := Reader.bind_eq_ok.mp h
    obtain ⟨len, b₂, hlen, h⟩ := Reader.bind_eq_ok.mp h
    obtain ⟨-, h⟩ := Reader.check_remaining_eq_ok.mp h
    obtain ⟨bytes, b₃, hbytes, h⟩ := Reader.bind_eq_ok.mp h
    obtain ⟨text', b₄, htext, h⟩ := Reader.bind_eq_ok.mp h
    obtain ⟨he, rfl⟩ := Reader.pure_eq_ok.mp h
    obtain ⟨rfl, rfl⟩ := Prod.mk.inj he
    obtain ⟨hutf8, rfl⟩ := Reader.ofOption_eq_ok.mp htext
    obtain rfl := fromUtf8_eq_some.mp hutf8
    -- the length was read as a word, so the text fits one
    obtain ⟨hsize, hbytes⟩ := Reader.take_eq_ok.mp hbytes
    rw [length_utf8Bytes] at hsize
    have hword : len.val < 2 ^ 16 := len.isLt
    refine ⟨by omega, ?_⟩
    rw [get_u32_eq_ok.mp hsid, get_u16_eq_ok.mp hlen, hbytes, text_bytes, hsize,
      Fin.ofNat_val_eq_self, List.append_assoc, List.append_assoc]
  · rintro ⟨hsize, rfl⟩
    have hword : (Fin.ofNat (2 ^ 16) text.utf8ByteSize).val = text.utf8ByteSize := by
      rw [Fin.val_ofNat]
      exact Nat.mod_eq_of_lt (by omega)
    rw [text_bytes, List.append_assoc, List.append_assoc]
    refine Reader.check_remaining_eq_ok.mpr ⟨?_, ?_⟩
    · rw [List.length_append, List.length_append, U32.length_to_be_bytes, U16.length_to_be_bytes]
      omega
    refine Reader.bind_eq_ok.mpr ⟨_, _, get_u32_eq_ok.mpr rfl, ?_⟩
    refine Reader.bind_eq_ok.mpr ⟨_, _, get_u16_eq_ok.mpr rfl, ?_⟩
    refine Reader.check_remaining_eq_ok.mpr ⟨?_, ?_⟩
    · rw [hword, List.length_append, length_utf8Bytes]
      omega
    refine Reader.bind_eq_ok.mpr ⟨_, _,
      Reader.take_eq_ok.mpr ⟨(length_utf8Bytes text).trans hword.symm, rfl⟩, ?_⟩
    refine Reader.bind_eq_ok.mpr ⟨_, _,
      Reader.ofOption_eq_ok.mpr ⟨fromUtf8_eq_some.mpr rfl, rfl⟩, ?_⟩
    exact Reader.pure_eq_ok.mpr ⟨rfl, rfl⟩

/-- The loop reads the entries one by one. -/
theorem read_weights_eq_ok {count : ℕ} {weights : List (PathId × U32)} :
    read_weights count b = .ok (weights, rest) ↔
      weights.length = count ∧ b = weights_bytes weights ++ rest := by
  induction count generalizing b weights with
  | zero =>
    rw [read_weights, Reader.pure_eq_ok, List.length_eq_zero_iff]
    constructor
    · rintro ⟨rfl, rfl⟩
      exact ⟨rfl, rfl⟩
    · rintro ⟨rfl, rfl⟩
      exact ⟨rfl, rfl⟩
  | succ count ih =>
    constructor
    · intro h
      obtain ⟨path, b₁, hpath, h⟩ := Reader.bind_eq_ok.mp h
      obtain ⟨weight, b₂, hweight, h⟩ := Reader.bind_eq_ok.mp h
      obtain ⟨weights', b₃, hweights, h⟩ := Reader.bind_eq_ok.mp h
      obtain ⟨rfl, rfl⟩ := Reader.pure_eq_ok.mp h
      obtain ⟨hlen, hrest⟩ := ih.mp hweights
      rw [Reader.get_u8_eq_ok.mp hpath, get_u32_eq_ok.mp hweight, hrest]
      simp [hlen, weights_bytes]
    · rintro ⟨hlen, rfl⟩
      obtain ⟨⟨path, weight⟩, weights', rfl⟩ := List.exists_cons_of_length_eq_add_one hlen
      simp only [weights_bytes, List.flatMap_cons, List.cons_append, List.append_assoc]
      refine Reader.bind_eq_ok.mpr ⟨_, _, Reader.get_u8_eq_ok.mpr rfl, ?_⟩
      refine Reader.bind_eq_ok.mpr ⟨_, _, get_u32_eq_ok.mpr rfl, ?_⟩
      refine Reader.bind_eq_ok.mpr ⟨_, _, ih.mpr ⟨by simpa using hlen, rfl⟩, ?_⟩
      exact Reader.pure_eq_ok.mpr ⟨rfl, rfl⟩

theorem length_weights_bytes (weights : List (PathId × U32)) :
    (weights_bytes weights).length = weights.length * 5 := by
  induction weights with
  | nil => rfl
  | cons w weights ih =>
    rw [weights_bytes, List.flatMap_cons, List.length_append] at *
    rw [ih, List.length_cons, List.length_cons, U32.length_to_be_bytes]
    omega

/-- What is read fits the wire, and its image was read off the buffer. -/
theorem of_read (h : read b = .ok (msg, rest)) : msg.Fits ∧ b = msg.image ++ rest := by
  obtain ⟨-, h⟩ := Reader.check_remaining_eq_ok.mp h
  obtain ⟨kind, b₁, hkind, h⟩ := Reader.bind_eq_ok.mp h
  rw [Reader.get_u8_eq_ok.mp hkind]
  by_cases hinit : kind = 0x00
  · rw [if_pos hinit] at h
    obtain ⟨⟨sid, token⟩, b₂, hbody, h⟩ := Reader.bind_eq_ok.mp h
    obtain ⟨rfl, rfl⟩ := Reader.pure_eq_ok.mp h
    obtain ⟨hsize, rfl⟩ := read_text_eq_ok.mp hbody
    exact ⟨hsize, by rw [hinit]; rfl⟩
  rw [if_neg hinit] at h
  by_cases hack : kind = 0x01
  · rw [if_pos hack] at h
    obtain ⟨-, h⟩ := Reader.check_remaining_eq_ok.mp h
    obtain ⟨sid, b₂, hsid, h⟩ := Reader.bind_eq_ok.mp h
    obtain ⟨rfl, rfl⟩ := Reader.pure_eq_ok.mp h
    obtain rfl := get_u32_eq_ok.mp hsid
    exact ⟨trivial, by rw [hack]; rfl⟩
  rw [if_neg hack] at h
  by_cases hnack : kind = 0x02
  · rw [if_pos hnack] at h
    obtain ⟨⟨sid, reason⟩, b₂, hbody, h⟩ := Reader.bind_eq_ok.mp h
    obtain ⟨rfl, rfl⟩ := Reader.pure_eq_ok.mp h
    obtain ⟨hsize, rfl⟩ := read_text_eq_ok.mp hbody
    exact ⟨hsize, by rw [hnack]; rfl⟩
  rw [if_neg hnack] at h
  by_cases hselect : kind = 0x03
  · rw [if_pos hselect] at h
    obtain ⟨-, h⟩ := Reader.check_remaining_eq_ok.mp h
    obtain ⟨path, b₂, hpath, h⟩ := Reader.bind_eq_ok.mp h
    obtain ⟨rfl, rfl⟩ := Reader.pure_eq_ok.mp h
    obtain rfl := Reader.get_u8_eq_ok.mp hpath
    exact ⟨trivial, by rw [hselect]; rfl⟩
  rw [if_neg hselect] at h
  by_cases hweights : kind = 0x04
  · rw [if_pos hweights] at h
    obtain ⟨-, h⟩ := Reader.check_remaining_eq_ok.mp h
    obtain ⟨count, b₂, hcount, h⟩ := Reader.bind_eq_ok.mp h
    obtain ⟨-, h⟩ := Reader.check_remaining_eq_ok.mp h
    obtain ⟨weights, b₃, hentries, h⟩ := Reader.bind_eq_ok.mp h
    obtain ⟨rfl, rfl⟩ := Reader.pure_eq_ok.mp h
    obtain ⟨hlen, rfl⟩ := read_weights_eq_ok.mp hentries
    obtain rfl := Reader.get_u8_eq_ok.mp hcount
    -- as many entries as the count byte says
    have hbyte : count.toNat < 256 := count.toNat_lt
    refine ⟨?_, ?_⟩
    · show weights.length ≤ 255
      omega
    · rw [hweights, image, hlen, UInt8.ofNat_toNat]
      rfl
  rw [if_neg hweights] at h
  contradiction

/-- **Reading.** -/
theorem read_eq_ok : read b = .ok (msg, rest) ↔ msg.Fits ∧ b = msg.image ++ rest := by
  constructor
  · exact of_read
  · rintro ⟨hfits, rfl⟩
    cases msg with
    | Init sid token =>
      refine Reader.check_remaining_eq_ok.mpr ⟨by simp [image], ?_⟩
      refine Reader.bind_eq_ok.mpr ⟨0x00, _, Reader.get_u8_eq_ok.mpr rfl, ?_⟩
      rw [if_pos rfl]
      refine Reader.bind_eq_ok.mpr ⟨(sid, token), _, read_text_eq_ok.mpr ⟨hfits, rfl⟩, ?_⟩
      exact Reader.pure_eq_ok.mpr ⟨rfl, rfl⟩
    | Ack sid =>
      refine Reader.check_remaining_eq_ok.mpr ⟨by simp [image], ?_⟩
      refine Reader.bind_eq_ok.mpr ⟨0x01, _, Reader.get_u8_eq_ok.mpr rfl, ?_⟩
      rw [if_neg (by decide), if_pos rfl]
      refine Reader.check_remaining_eq_ok.mpr ⟨by simp, ?_⟩
      refine Reader.bind_eq_ok.mpr ⟨sid, _, get_u32_eq_ok.mpr rfl, ?_⟩
      exact Reader.pure_eq_ok.mpr ⟨rfl, rfl⟩
    | Nack sid reason =>
      refine Reader.check_remaining_eq_ok.mpr ⟨by simp [image], ?_⟩
      refine Reader.bind_eq_ok.mpr ⟨0x02, _, Reader.get_u8_eq_ok.mpr rfl, ?_⟩
      rw [if_neg (by decide), if_neg (by decide), if_pos rfl]
      refine Reader.bind_eq_ok.mpr ⟨(sid, reason), _, read_text_eq_ok.mpr ⟨hfits, rfl⟩, ?_⟩
      exact Reader.pure_eq_ok.mpr ⟨rfl, rfl⟩
    | PathSelect path =>
      refine Reader.check_remaining_eq_ok.mpr ⟨by simp [image], ?_⟩
      refine Reader.bind_eq_ok.mpr ⟨0x03, _, Reader.get_u8_eq_ok.mpr rfl, ?_⟩
      rw [if_neg (by decide), if_neg (by decide), if_neg (by decide), if_pos rfl]
      refine Reader.check_remaining_eq_ok.mpr ⟨by simp, ?_⟩
      refine Reader.bind_eq_ok.mpr ⟨path, _, Reader.get_u8_eq_ok.mpr rfl, ?_⟩
      exact Reader.pure_eq_ok.mpr ⟨rfl, rfl⟩
    | WeightSet weights =>
      have hfits : weights.length ≤ 255 := hfits
      have hcount : (UInt8.ofNat weights.length).toNat = weights.length := by
        rw [UInt8.toNat_ofNat']
        omega
      refine Reader.check_remaining_eq_ok.mpr ⟨by simp [image], ?_⟩
      refine Reader.bind_eq_ok.mpr ⟨0x04, _, Reader.get_u8_eq_ok.mpr rfl, ?_⟩
      rw [if_neg (by decide), if_neg (by decide), if_neg (by decide), if_neg (by decide),
        if_pos rfl]
      refine Reader.check_remaining_eq_ok.mpr ⟨by simp, ?_⟩
      refine Reader.bind_eq_ok.mpr ⟨UInt8.ofNat weights.length, _, Reader.get_u8_eq_ok.mpr rfl, ?_⟩
      refine Reader.check_remaining_eq_ok.mpr ⟨?_, ?_⟩
      · rw [hcount, List.append_eq, List.length_append, length_weights_bytes]
        omega
      refine Reader.bind_eq_ok.mpr ⟨weights, rest,
        read_weights_eq_ok.mpr ⟨hcount.symm, rfl⟩, ?_⟩
      exact Reader.pure_eq_ok.mpr ⟨rfl, rfl⟩

/-- What encodes decodes to the same message. -/
theorem decode_of_encode {bytes : Bytes} (h : msg.encode = .ok bytes) :
    decode bytes = .ok msg := by
  obtain ⟨hfits, rfl⟩ := encode_eq_ok.mp h
  rw [decode, read_eq_ok.mpr ⟨hfits, (List.append_nil msg.image).symm⟩]
  rfl

end Read

end ControlMsg

/-! ## Where the codecs are lossless -/

/-- What encodes decodes to the same envelope, and uses up the bytes. -/
def Envelope.RoundTrips (e : Envelope) : Prop :=
  ∀ image, e.encode = .ok image → Envelope.decode image = .ok (e, [])

/-- **Lossless, but for the packet number.** An envelope of a wire-safe session encodes and
decodes to itself, or fails to encode, if and only if its payload is too long or its number
lies below `2 ^ 48`; two such envelopes with one image, both below, are one envelope. For
every byte string, what decodes encodes to exactly the bytes that were read. For control
messages both laws hold without condition. -/
theorem envelope_round_trips_iff {e : Envelope} (hwire : e.session_id.WireSafe) :
    (e.RoundTrips ↔ MAX_PAYLOAD_LEN < e.payload.length ∨ e.sequence.get.val < 2 ^ 48) ∧
    (∀ e' image, e'.session_id.WireSafe → e.sequence.get.val < 2 ^ 48 →
      e'.sequence.get.val < 2 ^ 48 → e.encode = .ok image → e'.encode = .ok image → e = e') ∧
    (∀ b d rest, Envelope.decode b = .ok (d, rest) →
      ∃ image, d.encode = .ok image ∧ b = image ++ rest) ∧
    (∀ (msg : ControlMsg U32) bytes, msg.encode = .ok bytes → ControlMsg.decode bytes = .ok msg) ∧
    ∀ b (msg : ControlMsg U32) rest, ControlMsg.read b = .ok (msg, rest) →
      ∃ bytes, msg.encode = .ok bytes ∧ b = bytes ++ rest := by
  refine ⟨⟨?_, ?_⟩, ?_, ?_, ?_, ?_⟩
  · intro h
    by_cases hlong : MAX_PAYLOAD_LEN < e.payload.length
    · exact .inl hlong
    · have hdecode := h e.image (Envelope.encode_eq_ok.mpr ⟨Nat.not_lt.mp hlong, rfl⟩)
      exact .inr (Envelope.decode_eq_ok.mp hdecode).1.sequence
  · intro hcond image hencode
    obtain ⟨hpayload, rfl⟩ := Envelope.encode_eq_ok.mp hencode
    have hbelow := hcond.resolve_left (Nat.not_lt.mpr hpayload)
    exact Envelope.decode_eq_ok.mpr ⟨⟨hwire, hbelow, hpayload⟩, (List.append_nil _).symm⟩
  · intro e' image hwire' hbelow hbelow' hencode hencode'
    obtain ⟨hpayload, rfl⟩ := Envelope.encode_eq_ok.mp hencode
    obtain ⟨hpayload', himage⟩ := Envelope.encode_eq_ok.mp hencode'
    have hdecode := Envelope.decode_eq_ok.mpr
      ⟨⟨hwire, hbelow, hpayload⟩, (List.append_nil e.image).symm⟩
    have hdecode' := Envelope.decode_eq_ok.mpr
      ⟨⟨hwire', hbelow', hpayload'⟩, (List.append_nil e'.image).symm⟩
    rw [himage, hdecode'] at hdecode
    exact (Prod.mk.inj (Outcome.ok.inj hdecode)).1.symm
  · intro b d rest h
    obtain ⟨hfits, rfl⟩ := Envelope.decode_eq_ok.mp h
    exact ⟨d.image, Envelope.encode_eq_ok.mpr ⟨hfits.payload, rfl⟩, rfl⟩
  · intro msg bytes h
    exact ControlMsg.decode_of_encode h
  · intro b msg rest h
    obtain ⟨hfits, rfl⟩ := ControlMsg.read_eq_ok.mp h
    exact ⟨msg.image, ControlMsg.encode_eq_ok.mpr ⟨hfits, rfl⟩, rfl⟩

/-- A data packet of session 7. -/
def data_packet (seq : U64) : Envelope :=
  ⟨VERSION, .Data, 0, ⟨1⟩, SessionId.of_wire [0, 0, 0, 7], ⟨seq⟩, 0, [69]⟩

theorem envelope_round_trips_last : (data_packet (2 ^ 48 - 1)).RoundTrips := by
  have hwire : (SessionId.of_wire [0, 0, 0, 7]).WireSafe := SessionId.wireSafe_of_wire rfl
  have hbelow : ((2 : U64) ^ 48 - 1).val < 2 ^ 48 := by decide
  have h := envelope_round_trips_iff (e := data_packet (2 ^ 48 - 1)) hwire
  exact h.1.mpr (.inr hbelow)

/-- The first number past the wire's six bytes comes back as the first of all. -/
theorem sequence_wraps_on_the_wire : ∃ image, (data_packet (2 ^ 48)).encode = .ok image ∧
    (data_packet 0).encode = .ok image ∧ Envelope.decode image = .ok (data_packet 0, []) ∧
    data_packet (2 ^ 48) ≠ data_packet 0 :=
  ⟨(data_packet 0).image, by decide, by decide, by decide, by decide⟩

end StreamGuard.V1
