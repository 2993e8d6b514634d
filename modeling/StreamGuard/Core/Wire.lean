/-
Words and identifiers on the wire.

Every number is sent in network byte order, an identity as its bytes. A reader has
a byte string of the right length in hand before it turns it into a word, and then
the word and the bytes determine each other; the lemmas say so for each width.
-/
import StreamGuard.Core.V2
import StreamGuard.Lib.Bytes

set_option autoImplicit false

namespace StreamGuard

open StreamGuard.Lib

/-! ## Machine words -/

/-- `value.to_be_bytes()` of a `u16`. -/
def U16.to_be_bytes (value : U16) : Bytes := toBigEndian 2 value.val

/-- `u16::from_be_bytes`. -/
def U16.from_be_bytes (bytes : Bytes) : U16 := Fin.ofNat _ (ofBigEndian bytes)

/-- `value.to_be_bytes()` of a `u32`. -/
def U32.to_be_bytes (value : U32) : Bytes := toBigEndian 4 value.val

/-- `u32::from_be_bytes`. -/
def U32.from_be_bytes (bytes : Bytes) : U32 := Fin.ofNat _ (ofBigEndian bytes)

/-- `value.to_be_bytes()` of a `u64`. -/
def U64.to_be_bytes (value : U64) : Bytes := toBigEndian 8 value.val

/-- `u64::from_be_bytes`. -/
def U64.from_be_bytes (bytes : Bytes) : U64 := Fin.ofNat _ (ofBigEndian bytes)

/-- The bytes of a word and the word determine each other. -/
theorem word_eq_iff {n w : ℕ} [NeZero n] (hn : n = 256 ^ w) {bytes : Bytes}
    (hlen : bytes.length = w) {value : Fin n} :
    Fin.ofNat n (ofBigEndian bytes) = value ↔ bytes = toBigEndian w value.val := by
  have hlt : ofBigEndian bytes < n := by
    rw [hn, ← hlen]
    exact ofBigEndian_lt bytes
  rw [← ofBigEndian_eq_iff hlen (hn ▸ value.isLt), Fin.ext_iff, Fin.val_ofNat,
    Nat.mod_eq_of_lt hlt]

theorem U16.from_be_bytes_eq_iff {bytes : Bytes} {value : U16} (hlen : bytes.length = 2) :
    U16.from_be_bytes bytes = value ↔ bytes = U16.to_be_bytes value :=
  word_eq_iff (by decide) hlen

theorem U32.from_be_bytes_eq_iff {bytes : Bytes} {value : U32} (hlen : bytes.length = 4) :
    U32.from_be_bytes bytes = value ↔ bytes = U32.to_be_bytes value :=
  word_eq_iff (by decide) hlen

theorem U64.from_be_bytes_eq_iff {bytes : Bytes} {value : U64} (hlen : bytes.length = 8) :
    U64.from_be_bytes bytes = value ↔ bytes = U64.to_be_bytes value :=
  word_eq_iff (by decide) hlen

theorem U16.to_be_bytes_inj {value value' : U16}
    (h : U16.to_be_bytes value = U16.to_be_bytes value') : value = value' :=
  ((U16.from_be_bytes_eq_iff (length_toBigEndian 2 _)).mpr rfl).symm.trans
    ((U16.from_be_bytes_eq_iff (length_toBigEndian 2 _)).mpr h)

@[simp] theorem U16.length_to_be_bytes (value : U16) : (U16.to_be_bytes value).length = 2 :=
  length_toBigEndian 2 _

@[simp] theorem U32.length_to_be_bytes (value : U32) : (U32.to_be_bytes value).length = 4 :=
  length_toBigEndian 4 _

@[simp] theorem U64.length_to_be_bytes (value : U64) : (U64.to_be_bytes value).length = 8 :=
  length_toBigEndian 8 _

/-! ## Byte arrays

A fixed array of `w` bytes that is compared but not calculated with is the
bit vector of its bytes. -/

/-- The bytes of an array, in order. -/
def array_bytes (w : ℕ) (value : BitVec (8 * w)) : Bytes := toBigEndian w value.toNat

/-- The array of these bytes. -/
def array_from_bytes (w : ℕ) (bytes : Bytes) : BitVec (8 * w) :=
  BitVec.ofNat (8 * w) (ofBigEndian bytes)

theorem array_from_bytes_eq_iff {w : ℕ} {bytes : Bytes} {value : BitVec (8 * w)}
    (hlen : bytes.length = w) : array_from_bytes w bytes = value ↔ bytes = array_bytes w value := by
  have hpow : 2 ^ (8 * w) = 256 ^ w := pow_mul 2 8 w
  have hlt : ofBigEndian bytes < 2 ^ (8 * w) := by
    rw [hpow, ← hlen]
    exact ofBigEndian_lt bytes
  rw [array_bytes, ← ofBigEndian_eq_iff hlen (hpow ▸ value.isLt), array_from_bytes,
    ← BitVec.toNat_inj, BitVec.toNat_ofNat, Nat.mod_eq_of_lt hlt]

@[simp] theorem length_array_bytes (w : ℕ) (value : BitVec (8 * w)) :
    (array_bytes w value).length = w :=
  length_toBigEndian w _

theorem array_bytes_inj {w : ℕ} {value value' : BitVec (8 * w)}
    (h : array_bytes w value = array_bytes w value') : value = value' :=
  ((array_from_bytes_eq_iff (length_array_bytes w _)).mpr rfl).symm.trans
    ((array_from_bytes_eq_iff (length_array_bytes w _)).mpr h)

/-- `id.as_bytes()` of a 16-byte identity. -/
def id_bytes (bytes : BitVec 128) : Bytes := array_bytes 16 bytes

end StreamGuard
