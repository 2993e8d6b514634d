/-
Base64url without padding (`sg-auth/src/lib.rs`).

The encoder takes three bytes at a time to four letters, and the decoder shifts six bits for each
letter into a word that it never clears. Of that word only the bits that it has not put out yet
count, so what has been shifted up before does not matter.
-/
import StreamGuard.Core.V2
import StreamGuard.Lib.Text

set_option autoImplicit false

namespace StreamGuard.Auth

open StreamGuard StreamGuard.Lib

def B64 : Bytes :=
  Text.as_bytes "ABCDEFGHIJKLMNOPQRSTUVWXYZabcdefghijklmnopqrstuvwxyz0123456789-_".toList

def as_char (byte : UInt8) : Char := Char.ofNat byte.toNat

/-! ## Encoding -/

section Code

variable {ε : Type}

/-- The letters of a chunk. -/
def encode_chunk (chunk : Bytes) : Outcome ε Text := do
  let b0 := (← index chunk 0).toNat
  let b1 := (chunk.getD 1 0).toNat
  let b2 := (chunk.getD 2 0).toNat
  let first ← index B64 (b0 >>> 2)
  let second ← index B64 (((b0 &&& 0x03) <<< 4) ||| (b1 >>> 4))
  let third ←
    if 2 ≤ chunk.length then do pure [← index B64 (((b1 &&& 0x0f) <<< 2) ||| (b2 >>> 6))]
    else pure []
  let fourth ← if chunk.length = 3 then do pure [← index B64 (b2 &&& 0x3f)] else pure []
  return ([first, second] ++ third ++ fourth).map as_char

/-- `base64url_nopad`, over `data.chunks(3)`. -/
def base64url_nopad : Bytes → Outcome ε Text
  | [] => .ok []
  | [b0] => encode_chunk [b0]
  | [b0, b1] => encode_chunk [b0, b1]
  | b0 :: b1 :: b2 :: data => do
    let letters ← encode_chunk [b0, b1, b2]
    let out ← base64url_nopad data
    return letters ++ out

/-! ## Decoding -/

/-- `a - b`. -/
def checked_sub (a b : ℕ) : Outcome ε ℕ := if b ≤ a then .ok (a - b) else .panic

/-- `a + b` of words. -/
def checked_add (a b : ℕ) : Outcome ε ℕ := if a + b < 2 ^ 32 then .ok (a + b) else .panic

/-- `a >> bits`. -/
def checked_shr (a bits : ℕ) : Outcome ε ℕ := if bits < 32 then .ok (a >>> bits) else .panic

/-- The value of a letter; none is the error. -/
def sextet (c : UInt8) : Outcome Unit ℕ :=
  if 65 ≤ c ∧ c ≤ 90 then checked_sub c.toNat 65
  else if 97 ≤ c ∧ c ≤ 122 then do checked_add (← checked_sub c.toNat 97) 26
  else if 48 ≤ c ∧ c ≤ 57 then do checked_add (← checked_sub c.toNat 48) 52
  else if c = 45 then .ok 62
  else if c = 95 then .ok 63
  else .err ()

/-- What the loop puts out from here on. -/
def decode_loop (acc bits : ℕ) : Bytes → Outcome Unit Bytes
  | [] => .ok []
  | c :: s => do
    let v ← sextet c
    -- a word: what is shifted out of it at the top is lost
    let acc := ((acc <<< 6) % 2 ^ 32) ||| v
    let bits ← checked_add bits 6
    if 8 ≤ bits then
      let bits ← checked_sub bits 8
      let byte ← checked_shr acc bits
      let out ← decode_loop acc bits s
      return UInt8.ofNat byte :: out
    else decode_loop acc bits s

/-- `base64url_nopad_decode`; none is the error. -/
def base64url_nopad_decode (s : Text) : Outcome Unit Bytes := decode_loop 0 0 (Text.as_bytes s)

end Code

/-! ## Letters -/

/-- The letter of a value. -/
def letter (v : ℕ) : Char := as_char (B64.getD v 0)

section Letters

variable {ε : Type} {v acc bits : ℕ} {s data : Bytes} {b0 b1 b2 : UInt8}

set_option maxRecDepth 8000 in
/-- A letter is one byte, is read as its value, and is not a dot. -/
theorem letter_spec : ∀ v : Fin 64, String.utf8EncodeChar (letter v) = [B64.getD v 0] ∧
    sextet (B64.getD v 0) = .ok v.val ∧ letter v ≠ '.' := by
  decide

theorem length_B64 : B64.length = 64 := by decide

theorem index_B64 (h : v < 64) : (index B64 v : Outcome ε UInt8) = .ok (B64.getD v 0) :=
  index_eq (by rw [length_B64]; exact h)

/-- Bits put behind bits. -/
theorem shiftLeft_or {a b k : ℕ} (h : b < 2 ^ k) : (a <<< k) ||| b = a * 2 ^ k + b := by
  rw [← Nat.shiftLeft_add_eq_or_of_lt h, Nat.shiftLeft_eq]

/-- The letters of a chunk hold its bits, with zeros behind them. -/
theorem encode_chunk_cons (b0 : UInt8) (chunk : Bytes) (b1 b2 : ℕ)
    (hb1 : (chunk.getD 0 0).toNat = b1) (hb2 : (chunk.getD 1 0).toNat = b2) :
    (encode_chunk (b0 :: chunk) : Outcome ε Text) =
      .ok ([letter (b0.toNat / 4), letter (b0.toNat % 4 * 16 + b1 / 16)] ++
        (if 1 ≤ chunk.length then [letter (b1 % 16 * 4 + b2 / 64)] else []) ++
          if chunk.length = 2 then [letter (b2 % 64)] else []) := by
  have h0 := b0.toNat_lt
  have h1 : b1 < 256 := hb1 ▸ (chunk.getD 0 0).toNat_lt
  have h2 : b2 < 256 := hb2 ▸ (chunk.getD 1 0).toNat_lt
  have hfirst : b0.toNat >>> 2 = b0.toNat / 4 := Nat.shiftRight_eq_div_pow _ _
  have hsecond : ((b0.toNat &&& 0x03) <<< 4) ||| (b1 >>> 4) = b0.toNat % 4 * 16 + b1 / 16 := by
    rw [Nat.shiftRight_eq_div_pow, shiftLeft_or (by omega)]
    exact congrArg (· * 2 ^ 4 + b1 / 2 ^ 4) (Nat.and_two_pow_sub_one_eq_mod b0.toNat 2)
  have hthird : ((b1 &&& 0x0f) <<< 2) ||| (b2 >>> 6) = b1 % 16 * 4 + b2 / 64 := by
    rw [Nat.shiftRight_eq_div_pow, shiftLeft_or (by omega)]
    exact congrArg (· * 2 ^ 2 + b2 / 2 ^ 6) (Nat.and_two_pow_sub_one_eq_mod b1 4)
  have hfourth : b2 &&& 0x3f = b2 % 64 := Nat.and_two_pow_sub_one_eq_mod b2 6
  have hindex : (index (b0 :: chunk) 0 : Outcome ε UInt8) = .ok b0 := rfl
  simp only [encode_chunk, hindex, Outcome.ok_bind, List.getD_cons_succ, hb1, hb2, hfirst, hsecond,
    hthird, hfourth]
  rw [index_B64 (by omega), Outcome.ok_bind, index_B64 (by omega), Outcome.ok_bind,
    index_B64 (by omega), index_B64 (by omega)]
  -- one, two or three bytes, with two, three or four letters
  by_cases hone : 1 ≤ chunk.length
  · by_cases htwo : chunk.length = 2
    · simp only [List.length_cons, htwo]
      rfl
    · have hlong : 2 ≤ chunk.length + 1 := by omega
      have hshort : ¬ chunk.length + 1 = 3 := by omega
      simp only [List.length_cons, hlong, hshort, hone, htwo, if_true, if_false]
      rfl
  · have hnil : chunk.length = 0 := by omega
    simp only [List.length_cons, hnil]
    rfl

/-! ## Decoding letters -/

/-- The word after a letter. What is in it above 26 bits is shifted out. -/
def shifted (acc v : ℕ) : ℕ := 64 * acc % 2 ^ 32 + v

theorem shifted_eq (hv : v < 64) (acc : ℕ) : ((acc <<< 6) % 2 ^ 32) ||| v = shifted acc v := by
  have hshift : (acc <<< 6) % 2 ^ 32 = (acc % 2 ^ 26) <<< 6 := by
    rw [Nat.shiftLeft_eq, Nat.shiftLeft_eq]
    omega
  rw [hshift, shiftLeft_or hv, shifted]
  omega

theorem as_bytes_letter (hv : v < 64) (text : Text) :
    Text.as_bytes (letter v :: text) = B64.getD v 0 :: Text.as_bytes text := by
  rw [Text.as_bytes, List.flatMap_cons, (letter_spec ⟨v, hv⟩).1]
  rfl

/-- A letter that does not complete a byte. -/
theorem decode_letter (hv : v < 64) (hbits : bits < 2) (text : Text) :
    decode_loop acc bits (Text.as_bytes (letter v :: text)) =
      decode_loop (shifted acc v) (bits + 6) (Text.as_bytes text) := by
  have hadd : (checked_add bits 6 : Outcome Unit ℕ) = .ok (bits + 6) := if_pos (by omega)
  rw [as_bytes_letter hv, decode_loop, (letter_spec ⟨v, hv⟩).2.1, Outcome.ok_bind]
  simp only [shifted_eq hv, hadd, Outcome.ok_bind]
  rw [if_neg (by omega)]

/-- A letter that does. -/
theorem decode_letter_byte (hv : v < 64) (hlow : 2 ≤ bits) (hhigh : bits < 8) {text : Text}
    {byte : UInt8} (hbyte : shifted acc v / 2 ^ (bits - 2) % 256 = byte.toNat)
    (h : decode_loop (shifted acc v) (bits - 2) (Text.as_bytes text) = .ok data) :
    decode_loop acc bits (Text.as_bytes (letter v :: text)) = .ok (byte :: data) := by
  have hadd : (checked_add bits 6 : Outcome Unit ℕ) = .ok (bits + 6) := if_pos (by omega)
  have hsub : (checked_sub (bits + 6) 8 : Outcome Unit ℕ) = .ok (bits - 2) := by
    rw [checked_sub, if_pos (by omega)]
    congr 1
  have hshr : (checked_shr (shifted acc v) (bits - 2) : Outcome Unit ℕ) =
      .ok (shifted acc v / 2 ^ (bits - 2)) := by
    rw [checked_shr, if_pos (by omega), Nat.shiftRight_eq_div_pow]
  have hsame : UInt8.ofNat (shifted acc v / 2 ^ (bits - 2)) = byte := by
    apply UInt8.toNat_inj.mp
    rw [UInt8.toNat_ofNat', ← hbyte]
  rw [as_bytes_letter hv, decode_loop, (letter_spec ⟨v, hv⟩).2.1, Outcome.ok_bind]
  simp only [shifted_eq hv, hadd, Outcome.ok_bind]
  rw [if_pos (by omega), hsub, Outcome.ok_bind, hshr, Outcome.ok_bind, h, Outcome.ok_bind, hsame]
  rfl

/-! ## Round trip -/

/-- The first byte of a chunk is in two letters. Whatever the word has been, what is left in it for
later are the bits that the second letter has over. -/
theorem decode_first {text : Text} {rest : ℕ} (hrest : rest < 16)
    (h : ∀ acc, acc % 16 = rest → decode_loop acc 4 (Text.as_bytes text) = .ok data) (acc : ℕ) :
    decode_loop acc 0 (Text.as_bytes (letter (b0.toNat / 4) ::
      letter (b0.toNat % 4 * 16 + rest) :: text)) = .ok (b0 :: data) := by
  have h0 := b0.toNat_lt
  rw [decode_letter (by omega) (by omega)]
  refine decode_letter_byte (by omega) (by omega) (by omega) ?_ (h _ ?_)
  · rw [shifted, shifted]
    omega
  · rw [shifted]
    omega

/-- The second byte is in what is left and one letter. -/
theorem decode_second {text : Text} {rest : ℕ} (hrest : rest < 4)
    (h : ∀ acc, acc % 4 = rest → decode_loop acc 2 (Text.as_bytes text) = .ok data)
    (hacc : acc % 16 = b1.toNat / 16) :
    decode_loop acc 4 (Text.as_bytes (letter (b1.toNat % 16 * 4 + rest) :: text)) =
      .ok (b1 :: data) := by
  have h1 := b1.toNat_lt
  refine decode_letter_byte (by omega) (by omega) (by omega) ?_ (h _ ?_)
  · rw [shifted]
    omega
  · rw [shifted]
    omega

/-- The third completes the chunk, and nothing that the word holds counts for the next one. -/
theorem decode_third {text : Text}
    (h : ∀ acc, decode_loop acc 0 (Text.as_bytes text) = .ok data)
    (hacc : acc % 4 = b2.toNat / 64) :
    decode_loop acc 2 (Text.as_bytes (letter (b2.toNat % 64) :: text)) = .ok (b2 :: data) := by
  refine decode_letter_byte (by omega) (by omega) (by omega) ?_ (h _)
  rw [shifted]
  omega

/-- **What is encoded can be decoded**, and has no dot. -/
theorem base64url_round_trip (ε : Type) (data : Bytes) :
    ∃ text, (base64url_nopad data : Outcome ε Text) = .ok text ∧
      (∀ acc, decode_loop acc 0 (Text.as_bytes text) = .ok data) ∧ '.' ∉ text := by
  have hdot : ∀ v < 64, '.' ≠ letter v := fun v hv => ((letter_spec ⟨v, hv⟩).2.2).symm
  -- the word is arbitrary, since a chunk begins with the one that the chunks before it have left
  fun_induction base64url_nopad data with
  | case1 => exact ⟨[], rfl, fun _ => rfl, List.not_mem_nil⟩
  | case2 b0 =>
    have h0 := b0.toNat_lt
    refine ⟨_, encode_chunk_cons b0 [] 0 0 rfl rfl, ?_, ?_⟩
    · exact decode_first (by omega) fun _ _ => rfl
    · have hfirst := hdot (b0.toNat / 4) (by omega)
      have hsecond := hdot (b0.toNat % 4 * 16) (by omega)
      simp [hfirst, hsecond]
  | case3 b0 b1 =>
    have h0 := b0.toNat_lt
    have h1 := b1.toNat_lt
    refine ⟨_, encode_chunk_cons b0 [b1] b1.toNat 0 rfl rfl, ?_, ?_⟩
    · refine decode_first (by omega) fun acc hacc => ?_
      exact decode_second (by omega) (fun _ _ => rfl) hacc
    · have hfirst := hdot (b0.toNat / 4) (by omega)
      have hsecond := hdot (b0.toNat % 4 * 16 + b1.toNat / 16) (by omega)
      have hthird := hdot (b1.toNat % 16 * 4) (by omega)
      simp [hfirst, hsecond, hthird]
  | case4 b0 b1 b2 data ih =>
    have h0 := b0.toNat_lt
    have h1 := b1.toNat_lt
    have h2 := b2.toNat_lt
    obtain ⟨text, hencode, hdecode, hrest⟩ := ih
    rw [encode_chunk_cons b0 [b1, b2] b1.toNat b2.toNat rfl rfl, Outcome.ok_bind, hencode,
      Outcome.ok_bind]
    refine ⟨_, rfl, ?_, ?_⟩
    · refine decode_first (by omega) fun acc hacc => ?_
      refine decode_second (by omega) (fun acc hacc => ?_) hacc
      exact decode_third hdecode hacc
    · have hfirst := hdot (b0.toNat / 4) (by omega)
      have hsecond := hdot (b0.toNat % 4 * 16 + b1.toNat / 16) (by omega)
      have hthird := hdot (b1.toNat % 16 * 4 + b2.toNat / 64) (by omega)
      have hfourth := hdot (b2.toNat % 64) (by omega)
      simp [hfirst, hsecond, hthird, hfourth, hrest]

/-! ## Nothing panics -/

theorem checked_sub_ne_panic {a b : ℕ} (h : b ≤ a) : (checked_sub a b : Outcome ε ℕ) ≠ .panic := by
  simp [checked_sub, h]

theorem checked_add_ne_panic {a b : ℕ} (h : a + b < 2 ^ 32) :
    (checked_add a b : Outcome ε ℕ) ≠ .panic := by
  rw [checked_add, if_pos h]
  simp

theorem checked_shr_ne_panic {a b : ℕ} (h : b < 32) : (checked_shr a b : Outcome ε ℕ) ≠ .panic := by
  simp [checked_shr, h]

theorem offset_ne_panic {a b offset : ℕ} (h : b ≤ a) (ha : a < 256) (hoffset : offset < 64) :
    (checked_sub a b >>= fun d => checked_add d offset : Outcome ε ℕ) ≠ .panic := by
  refine Outcome.bind_ne_panic (checked_sub_ne_panic h) fun d hd => checked_add_ne_panic ?_
  rw [checked_sub, if_pos h, Outcome.ok.injEq] at hd
  omega

theorem sextet_ne_panic (c : UInt8) : sextet c ≠ .panic := by
  have hc := c.toNat_lt
  unfold sextet
  split
  · next hupper => exact checked_sub_ne_panic hupper.1
  · split
    · next hlower => exact offset_ne_panic hlower.1 hc (by decide)
    · split
      · next hdigit => exact offset_ne_panic hdigit.1 hc (by decide)
      · split
        · simp
        · split <;> simp

theorem decode_loop_ne_panic (hbits : bits < 8) : decode_loop acc bits s ≠ .panic := by
  induction s generalizing acc bits with
  | nil => simp [decode_loop]
  | cons c s ih =>
    rw [decode_loop]
    refine Outcome.bind_ne_panic (sextet_ne_panic c) fun v _ => ?_
    -- below eight bits six more are less than a word, and there are eight less after a byte
    refine Outcome.bind_ne_panic (checked_add_ne_panic (by omega)) fun sum hsum => ?_
    rw [checked_add, if_pos (by omega), Outcome.ok.injEq] at hsum
    split
    · next hfull =>
      refine Outcome.bind_ne_panic (checked_sub_ne_panic hfull) fun left hleft => ?_
      rw [checked_sub, if_pos hfull, Outcome.ok.injEq] at hleft
      refine Outcome.bind_ne_panic (checked_shr_ne_panic (by omega)) fun byte _ => ?_
      refine Outcome.bind_ne_panic (ih (by omega)) fun out _ => ?_
      show Outcome.ok _ ≠ _
      simp
    · exact ih (by omega)

theorem base64url_nopad_decode_ne_panic (s : Text) : base64url_nopad_decode s ≠ .panic :=
  decode_loop_ne_panic (by decide)

end Letters

end StreamGuard.Auth
