/-
Byte strings: big-endian words, checked slicing, and calls that can panic.

A decoder reads a byte string at fixed offsets, and what it reads there is a
fixed-width word. Two facts carry a proof that it inverts its encoder: a word and
its bytes determine each other (`ofBigEndian_toBigEndian`, `toBigEndian_ofBigEndian`), and reading
the range from `i` to `j` gives exactly the piece that stands there
(`slice_eq_ok`), so that consecutive reads cut the string into consecutive pieces.

Reading outside the string is not an error but a panic, a third outcome next to
value and error; that it never happens is then something to prove.
-/
import Mathlib.Data.List.Basic
import Mathlib.Data.List.Induction
import Mathlib.Tactic.Ring

set_option autoImplicit false

namespace StreamGuard.Lib

/-! ## Outcomes -/

/-- What a call comes to: a value, an error value, or a panic. -/
inductive Outcome (ε α : Type) where
  | ok (value : α)
  | err (error : ε)
  | panic
  deriving DecidableEq

namespace Outcome

variable {ε α β : Type}

/-- Goes on with the value; an error or a panic ends the computation. -/
protected def bind (x : Outcome ε α) (f : α → Outcome ε β) : Outcome ε β :=
  match x with
  | ok a => f a
  | err e => err e
  | panic => panic

instance : Monad (Outcome ε) where
  pure := ok
  bind := Outcome.bind

/-- A call that can fail but not panic. -/
def ofExcept : Except ε α → Outcome ε α
  | .ok a => ok a
  | .error e => err e

/-- A check that turns into an error. -/
def ofOption (error : ε) : Option α → Outcome ε α
  | some a => ok a
  | none => err error

theorem ok_bind (a : α) (f : α → Outcome ε β) : ok a >>= f = f a := rfl

theorem bind_eq_ok {x : Outcome ε α} {f : α → Outcome ε β} {b : β} :
    x >>= f = ok b ↔ ∃ a, x = ok a ∧ f a = ok b := by
  constructor
  · intro h
    cases x with
    | ok a => exact ⟨a, rfl, h⟩
    | err e => contradiction
    | panic => contradiction
  · rintro ⟨a, rfl, h⟩
    exact h

@[simp] theorem pure_eq_ok {a b : α} : (pure a : Outcome ε α) = ok b ↔ a = b := by
  constructor
  · intro h
    exact ok.inj h
  · rintro rfl
    rfl

@[simp] theorem ofExcept_eq_ok {x : Except ε α} {a : α} : ofExcept x = ok a ↔ x = .ok a := by
  cases x with
  | ok b => simp [ofExcept]
  | error e => simp [ofExcept]

@[simp] theorem ofOption_eq_ok {error : ε} {x : Option α} {a : α} :
    ofOption error x = ok a ↔ x = some a := by
  cases x with
  | some b => simp [ofOption]
  | none => simp [ofOption]

/-- An early return of an error. -/
theorem ite_err_eq_ok {c : Prop} [Decidable c] {e : ε} {x : Outcome ε α} {a : α} :
    (if c then err e else x) = ok a ↔ ¬ c ∧ x = ok a := by
  by_cases hc : c
  · rw [if_pos hc]
    simp [hc]
  · rw [if_neg hc]
    simp [hc]

/-- The same inversion for a computation that cannot panic. -/
theorem except_bind_eq_ok {x : Except ε α} {f : α → Except ε β} {b : β} :
    x >>= f = .ok b ↔ ∃ a, x = .ok a ∧ f a = .ok b := by
  constructor
  · intro h
    cases x with
    | ok a => exact ⟨a, rfl, h⟩
    | error e => contradiction
  · rintro ⟨a, rfl, h⟩
    exact h

/-- An early return of an error from a computation that cannot panic. -/
theorem except_ite_eq_ok {c : Prop} [Decidable c] {e : ε} {x : Except ε α} {a : α} :
    (if c then .error e else x) = .ok a ↔ ¬ c ∧ x = .ok a := by
  by_cases hc : c
  · rw [if_pos hc]
    simp [hc]
  · rw [if_neg hc]
    simp [hc]

/-! ### Calls that do not panic -/

theorem bind_ne_panic {x : Outcome ε α} {f : α → Outcome ε β} (hx : x ≠ panic)
    (hf : ∀ a, x = ok a → f a ≠ panic) : x >>= f ≠ panic := by
  cases x with
  | ok a => exact hf a rfl
  | err e => intro h; contradiction
  | panic => exact absurd rfl hx

theorem ofExcept_ne_panic (x : Except ε α) : ofExcept x ≠ panic := by
  cases x with
  | ok a => simp [ofExcept]
  | error e => simp [ofExcept]

theorem ofOption_ne_panic (error : ε) (x : Option α) : ofOption error x ≠ panic := by
  cases x with
  | some a => simp [ofOption]
  | none => simp [ofOption]

theorem ite_err_ne_panic {c : Prop} [Decidable c] {e : ε} {x : Outcome ε α}
    (hx : ¬ c → x ≠ panic) : (if c then err e else x) ≠ panic := by
  by_cases hc : c
  · rw [if_pos hc]
    intro h
    contradiction
  · rw [if_neg hc]
    exact hx hc

end Outcome

/-! ## Big-endian words -/

/-- The `w` low bytes of a number, the most significant one first. -/
def toBigEndian : ℕ → ℕ → List UInt8
  | 0, _ => []
  | w + 1, x => toBigEndian w (x / 256) ++ [UInt8.ofNat x]

/-- The number some bytes spell, the most significant one first. -/
def ofBigEndian (bytes : List UInt8) : ℕ := bytes.foldl (fun word byte => 256 * word + byte.toNat) 0

@[simp] theorem length_toBigEndian (w x : ℕ) : (toBigEndian w x).length = w := by
  induction w generalizing x with
  | zero => rfl
  | succ w ih => rw [toBigEndian, List.length_append, ih, List.length_singleton]

theorem ofBigEndian_append_singleton (bytes : List UInt8) (byte : UInt8) :
    ofBigEndian (bytes ++ [byte]) = 256 * ofBigEndian bytes + byte.toNat := by
  simp only [ofBigEndian, List.foldl_append, List.foldl_cons, List.foldl_nil]

theorem ofBigEndian_lt (bytes : List UInt8) : ofBigEndian bytes < 256 ^ bytes.length := by
  induction bytes using List.reverseRecOn with
  | nil => simp [ofBigEndian]
  | append_singleton bytes byte ih =>
    rw [ofBigEndian_append_singleton, List.length_append, List.length_singleton, pow_succ]
    have hbyte : byte.toNat < 256 := byte.toNat_lt
    omega

/-- A number that fits is read back from its bytes. -/
theorem ofBigEndian_toBigEndian {w x : ℕ} (h : x < 256 ^ w) : ofBigEndian (toBigEndian w x) = x := by
  induction w generalizing x with
  | zero =>
    have hx : x = 0 := by omega
    rw [hx]
    rfl
  | succ w ih =>
    rw [toBigEndian, ofBigEndian_append_singleton, ih (by rw [pow_succ] at h; omega)]
    have hlow : (UInt8.ofNat x).toNat = x % 256 := UInt8.toNat_ofNat'
    omega

/-- Bytes are the bytes of the number they spell. -/
theorem toBigEndian_ofBigEndian (bytes : List UInt8) :
    toBigEndian bytes.length (ofBigEndian bytes) = bytes := by
  induction bytes using List.reverseRecOn with
  | nil => rfl
  | append_singleton bytes byte ih =>
    rw [ofBigEndian_append_singleton, List.length_append, List.length_singleton, toBigEndian]
    have hbyte : byte.toNat < 256 := byte.toNat_lt
    have hhigh : (256 * ofBigEndian bytes + byte.toNat) / 256 = ofBigEndian bytes := by omega
    have hlow : UInt8.ofNat (256 * ofBigEndian bytes + byte.toNat) = byte := by
      apply UInt8.toNat_inj.mp
      rw [UInt8.toNat_ofNat']
      omega
    rw [hhigh, hlow, ih]

/-- **A word and its bytes determine each other.** -/
theorem ofBigEndian_eq_iff {bytes : List UInt8} {w x : ℕ} (hlen : bytes.length = w)
    (hx : x < 256 ^ w) : ofBigEndian bytes = x ↔ bytes = toBigEndian w x := by
  constructor
  · rintro rfl
    rw [← hlen, toBigEndian_ofBigEndian]
  · rintro rfl
    exact ofBigEndian_toBigEndian hx

/-! ## Nibbles -/

/-- The byte of two nibbles, the high one first. -/
def ofNibbles (high low : ℕ) : UInt8 := UInt8.ofNat (16 * high + low)

section Nibbles

variable {high low : ℕ}

theorem toNat_low_nibble (byte : UInt8) : (byte &&& 0x0F).toNat = byte.toNat % 16 := by
  rw [UInt8.toNat_and]
  exact Nat.and_two_pow_sub_one_eq_mod byte.toNat 4

theorem toNat_high_nibble (byte : UInt8) : (byte >>> 4).toNat = byte.toNat / 16 := by
  rw [UInt8.toNat_shiftRight, Nat.shiftRight_eq_div_pow]
  rfl

theorem toNat_ofNibbles (hhigh : high < 16) (hlow : low < 16) :
    (ofNibbles high low).toNat = 16 * high + low := by
  rw [ofNibbles, UInt8.toNat_ofNat']
  omega

@[simp] theorem low_ofNibbles (hhigh : high < 16) (hlow : low < 16) :
    (ofNibbles high low &&& 0x0F).toNat = low := by
  rw [toNat_low_nibble, toNat_ofNibbles hhigh hlow]
  omega

@[simp] theorem high_ofNibbles (hhigh : high < 16) (hlow : low < 16) :
    (ofNibbles high low >>> 4).toNat = high := by
  rw [toNat_high_nibble, toNat_ofNibbles hhigh hlow]
  omega

/-- A byte is the byte of its nibbles. -/
theorem ofNibbles_of_byte (byte : UInt8) :
    ofNibbles (byte >>> 4).toNat (byte &&& 0x0F).toNat = byte := by
  have hbyte : byte.toNat < 256 := byte.toNat_lt
  apply UInt8.toNat_inj.mp
  rw [toNat_high_nibble, toNat_low_nibble, toNat_ofNibbles (by omega) (by omega)]
  omega

end Nibbles

/-! ## Text -/

/-- The bytes of a text. -/
def utf8Bytes (text : String) : List UInt8 := text.toByteArray.data.toList

/-- The text some bytes encode, if they are valid UTF-8. -/
def fromUtf8 (bytes : List UInt8) : Option String := String.fromUTF8? bytes.toByteArray

@[simp] theorem length_utf8Bytes (text : String) : (utf8Bytes text).length = text.utf8ByteSize := by
  rw [utf8Bytes, Array.length_toList]
  rfl

theorem toByteArray_utf8Bytes (text : String) : (utf8Bytes text).toByteArray = text.toByteArray := by
  apply ByteArray.ext
  rw [utf8Bytes, List.data_toByteArray]

/-- **A text and its bytes determine each other.** -/
theorem fromUtf8_eq_some {bytes : List UInt8} {text : String} :
    fromUtf8 bytes = some text ↔ bytes = utf8Bytes text := by
  rw [fromUtf8, String.fromUTF8?]
  constructor
  · intro h
    obtain ⟨hvalid, h⟩ := Option.dite_none_right_eq_some.mp h
    obtain rfl := Option.some.inj h
    rw [utf8Bytes, String.fromUTF8, List.data_toByteArray]
  · rintro rfl
    have hbytes := toByteArray_utf8Bytes text
    have hvalid : (utf8Bytes text).toByteArray.IsValidUTF8 := by
      rw [hbytes]
      exact text.isValidUTF8
    rw [dif_pos hvalid, Option.some.injEq]
    apply String.toByteArray_inj.mp
    exact hbytes

/-! ## Reading at an offset -/

section Reading

variable {ε : Type} {d x : List UInt8} {i j : ℕ}

/-- `d[i]`. -/
def index (d : List UInt8) (i : ℕ) : Outcome ε UInt8 :=
  match d[i]? with
  | some byte => .ok byte
  | none => .panic

/-- `d[i..j]`. -/
def slice (d : List UInt8) (i j : ℕ) : Outcome ε (List UInt8) :=
  if i ≤ j ∧ j ≤ d.length then .ok ((d.drop i).take (j - i)) else .panic

/-- `d[i..]`. -/
def slice_from (d : List UInt8) (i : ℕ) : Outcome ε (List UInt8) :=
  if i ≤ d.length then .ok (d.drop i) else .panic

/-- `bytes.try_into().unwrap()` to an array of `n` bytes. -/
def array (n : ℕ) (bytes : List UInt8) : Outcome ε (List UInt8) :=
  if bytes.length = n then .ok bytes else .panic

/-- Reading one byte takes off the byte that stands there. -/
theorem index_eq_ok {b : UInt8} :
    (index d i : Outcome ε UInt8) = .ok b ↔ d.drop i = b :: d.drop (i + 1) := by
  rw [index]
  by_cases hi : i < d.length
  · rw [List.getElem?_eq_getElem hi, List.drop_eq_getElem_cons hi, List.cons.injEq,
      and_iff_left rfl]
    exact ⟨Outcome.ok.inj, congrArg Outcome.ok⟩
  · rw [List.getElem?_eq_none (by omega), List.drop_eq_nil_of_le (by omega)]
    simp

theorem index_ne_panic (hi : i < d.length) : (index d i : Outcome ε UInt8) ≠ .panic := by
  rw [index, List.getElem?_eq_getElem hi]
  intro h
  contradiction

/-- **Reading a range takes off the piece that stands there.** -/
theorem slice_eq_ok (hij : i < j) :
    (slice d i j : Outcome ε (List UInt8)) = .ok x ↔
      x.length = j - i ∧ d.drop i = x ++ d.drop j := by
  have hsplit : j ≤ d.length → d.drop i = (d.drop i).take (j - i) ++ d.drop j := by
    intro _
    have htail : d.drop j = (d.drop i).drop (j - i) := by
      rw [List.drop_drop]
      congr 1
      omega
    rw [htail, List.take_append_drop]
  rw [slice]
  by_cases hj : j ≤ d.length
  · rw [if_pos ⟨by omega, hj⟩, Outcome.ok.injEq]
    constructor
    · rintro rfl
      refine ⟨?_, hsplit hj⟩
      rw [List.length_take, List.length_drop]
      omega
    · rintro ⟨hlen, hx⟩
      rw [hx, ← hlen, List.take_left]
  · rw [if_neg (fun h => hj h.2)]
    constructor
    · intro h
      contradiction
    · rintro ⟨hlen, hx⟩
      -- the piece would be longer than what is left of the string
      have := congrArg List.length hx
      rw [List.length_append, List.length_drop, List.length_drop] at this
      omega

theorem slice_ne_panic (hij : i ≤ j) (hj : j ≤ d.length) :
    (slice d i j : Outcome ε (List UInt8)) ≠ .panic := by
  rw [slice, if_pos ⟨hij, hj⟩]
  intro h
  contradiction

theorem slice_from_eq (hi : i ≤ d.length) :
    (slice_from d i : Outcome ε (List UInt8)) = .ok (d.drop i) :=
  if_pos hi

theorem slice_from_ne_panic (hi : i ≤ d.length) :
    (slice_from d i : Outcome ε (List UInt8)) ≠ .panic := by
  rw [slice_from_eq hi]
  intro h
  contradiction

theorem array_eq_ok {n : ℕ} {bytes x : List UInt8} :
    (array n bytes : Outcome ε (List UInt8)) = .ok x ↔ bytes.length = n ∧ bytes = x := by
  rw [array]
  by_cases hn : bytes.length = n
  · rw [if_pos hn, Outcome.ok.injEq, and_iff_right hn]
  · rw [if_neg hn]
    simp [hn]

theorem array_ne_panic {n : ℕ} {bytes : List UInt8} (hn : bytes.length = n) :
    (array n bytes : Outcome ε (List UInt8)) ≠ .panic := by
  rw [array, if_pos hn]
  intro h
  contradiction

/-- What is left after a piece, from what stands before it. -/
theorem drop_after {rest : List UInt8} (h : d.drop i = x ++ rest) (hj : i + x.length = j) :
    d.drop j = rest := by
  rw [← hj, ← List.drop_drop, h, List.drop_left]

/-- What is read at an offset, from what stands there. -/
theorem index_of_drop {b : UInt8} {rest : List UInt8} (h : d.drop i = [b] ++ rest) :
    (index d i : Outcome ε UInt8) = .ok b := by
  have hrest : d.drop (i + 1) = rest := drop_after h rfl
  rw [index_eq_ok, hrest]
  exact h

theorem slice_of_drop {rest : List UInt8} (h : d.drop i = x ++ rest) (hij : i < j)
    (hlen : x.length = j - i) : (slice d i j : Outcome ε (List UInt8)) = .ok x := by
  have hrest : d.drop j = rest := drop_after h (by omega)
  rw [slice_eq_ok hij, hrest]
  exact ⟨hlen, h⟩

/-! ### Fields at fixed offsets

What a read inside the string gives, as a function of the string. -/

/-- The bytes from `i` to `j`. -/
def field (d : List UInt8) (i j : ℕ) : List UInt8 := (d.drop i).take (j - i)

theorem index_eq (hi : i < d.length) : (index d i : Outcome ε UInt8) = .ok (d.getD i 0) := by
  rw [index, List.getD_eq_getElem?_getD, List.getElem?_eq_getElem hi]
  rfl

theorem slice_eq (hij : i ≤ j) (hj : j ≤ d.length) :
    (slice d i j : Outcome ε (List UInt8)) = .ok (field d i j) :=
  if_pos ⟨hij, hj⟩

theorem field_length (hj : j ≤ d.length) : (field d i j).length = j - i := by
  rw [field, List.length_take, List.length_drop]
  omega

theorem field_zero (d : List UInt8) (j : ℕ) : field d 0 j = d.take j := rfl

/-- A byte before the cut is read the same. -/
theorem getD_take {n : ℕ} (hi : i < n) : (d.take n).getD i 0 = d.getD i 0 := by
  simp only [List.getD_eq_getElem?_getD, List.getElem?_take_of_lt hi]

/-- A field before the cut is read the same. -/
theorem field_take {n : ℕ} (hj : j ≤ n) : field (d.take n) i j = field d i j := by
  rw [field, field, List.drop_take, List.take_take]
  congr 1
  omega

end Reading

end StreamGuard.Lib
