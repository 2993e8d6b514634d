/-
Texts that are searched and cut at byte offsets.

A text is the list of its characters. An offset into it counts bytes, and a cut at an offset that is
not between two characters is a panic. A search answers with an offset where the text can be cut, so
what is found can be cut out (`find_eq_some`, `slice_append`). Numbers are printed and read in
decimal, and bytes are read as text with a replacement for what is not one.
-/
import Mathlib.Data.List.Infix
import StreamGuard.Lib.Bytes

set_option autoImplicit false

namespace StreamGuard.Lib

abbrev Text := List Char

namespace Text

/-! ## Offsets -/

/-- The number of bytes. -/
def size (text : Text) : ℕ := (text.map Char.utf8Size).sum

def as_bytes (text : Text) : List UInt8 := text.flatMap String.utf8EncodeChar

/-- The parts before and after an offset, if it is between two characters. -/
def split_at : Text → ℕ → Option (Text × Text)
  | text, 0 => some ([], text)
  | [], _ + 1 => none
  | c :: text, i + 1 =>
    if c.utf8Size ≤ i + 1 then
      (split_at text (i + 1 - c.utf8Size)).map fun parts => (c :: parts.1, parts.2)
    else none

/-- `text[i..]`. -/
def slice_from {ε : Type} (text : Text) (i : ℕ) : Outcome ε Text :=
  match split_at text i with
  | some parts => .ok parts.2
  | none => .panic

/-- `text[i..j]`. -/
def slice {ε : Type} (text : Text) (i j : ℕ) : Outcome ε Text :=
  match split_at text j with
  | some parts => slice_from parts.1 i
  | none => .panic

/-- The offset of the first occurrence of a text. -/
def find (needle : Text) : Text → Option ℕ
  | [] => if needle = [] then some 0 else none
  | c :: text =>
    if needle.isPrefixOf (c :: text) = true then some 0
    else (find needle text).map (· + c.utf8Size)

/-- The offset of the first character with a property. -/
def find_char (p : Char → Bool) : Text → Option ℕ
  | [] => none
  | c :: text => if p c = true then some 0 else (find_char p text).map (· + c.utf8Size)

def contains (needle text : Text) : Bool := (find needle text).isSome

section Offsets

variable {ε : Type} {text needle before middle after : Text} {c x : Char} {p : Char → Bool} {i : ℕ}

@[simp] theorem size_nil : size [] = 0 := rfl

@[simp] theorem size_cons : size (c :: text) = c.utf8Size + size text := by simp [size]

@[simp] theorem size_append : size (before ++ after) = size before + size after := by simp [size]

theorem split_at_append (before after : Text) :
    split_at (before ++ after) (size before) = some (before, after) := by
  induction before with
  | nil =>
    show split_at after 0 = some ([], after)
    unfold split_at
    rfl
  | cons c before ih =>
    have hpos := c.utf8Size_pos
    obtain ⟨i, hi⟩ : ∃ i, c.utf8Size + size before = i + 1 :=
      ⟨c.utf8Size + size before - 1, by omega⟩
    have hrest : i + 1 - c.utf8Size = size before := by omega
    rw [size_cons, hi, List.cons_append, split_at, if_pos (by omega), hrest, ih]
    rfl

theorem slice_from_append (before after : Text) :
    (slice_from (before ++ after) (size before) : Outcome ε Text) = .ok after := by
  rw [slice_from, split_at_append]

/-- **What is between two offsets** is cut out. -/
theorem slice_append (before middle after : Text) :
    (slice (before ++ middle ++ after) (size before) (size before + size middle) :
      Outcome ε Text) = .ok middle := by
  rw [slice, ← size_append, split_at_append]
  exact slice_from_append before middle

/-- **A search** finds an occurrence. -/
theorem find_eq_some (h : find needle text = some i) :
    ∃ before after, text = before ++ needle ++ after ∧ i = size before := by
  induction text generalizing i with
  | nil =>
    rw [find] at h
    split at h
    · next hneedle =>
      obtain rfl := Option.some.inj h
      exact ⟨[], [], by simp [hneedle], rfl⟩
    · contradiction
  | cons c text ih =>
    rw [find] at h
    split at h
    · next hprefix =>
      obtain rfl := Option.some.inj h
      obtain ⟨after, hafter⟩ := List.isPrefixOf_iff_prefix.mp hprefix
      exact ⟨[], after, hafter.symm, rfl⟩
    · obtain ⟨j, hj, rfl⟩ := Option.map_eq_some_iff.mp h
      obtain ⟨before, after, rfl, rfl⟩ := ih hj
      exact ⟨c :: before, after, rfl, by simp [Nat.add_comm]⟩

theorem find_char_eq_some (h : find_char p text = some i) :
    ∃ before c after, text = before ++ c :: after ∧ i = size before := by
  induction text generalizing i with
  | nil => contradiction
  | cons c text ih =>
    rw [find_char] at h
    split at h
    · obtain rfl := Option.some.inj h
      exact ⟨[], c, text, rfl, rfl⟩
    · obtain ⟨j, hj, rfl⟩ := Option.map_eq_some_iff.mp h
      obtain ⟨before, d, after, rfl, rfl⟩ := ih hj
      exact ⟨c :: before, d, after, rfl, by simp [Nat.add_comm]⟩

/-- An occurrence is the first one if some character of it has not come before. -/
theorem find_first (front back : Text) (hbefore : x ∉ before) (hfront : x ∉ front) :
    find (front ++ x :: back) (before ++ (front ++ x :: back) ++ after) = some (size before) := by
  induction before with
  | nil =>
    cases front with
    | nil => simp [find]
    | cons c front => simp [find]
  | cons c before ih =>
    rw [List.mem_cons, not_or] at hbefore
    have hno : ¬ (front ++ x :: back).isPrefixOf
        (c :: (before ++ (front ++ x :: back) ++ after)) = true := by
      rw [List.isPrefixOf_iff_prefix]
      rintro ⟨rest, heq⟩
      have hfirst : x ∉ c :: before ++ front := by
        simp [hbefore.1, hbefore.2, hfront]
      -- the first `x` of the text would be nearer than it is
      have hfound := congrArg (List.idxOf x) heq
      rw [List.append_assoc, List.idxOf_append_of_notMem hfront, ← List.cons_append,
        ← List.cons_append, ← List.append_assoc, List.append_assoc,
        List.idxOf_append_of_notMem hfirst] at hfound
      simp at hfound
      omega
    rw [List.cons_append, List.cons_append, find, if_neg hno, ih hbefore.2, Option.map_some,
      size_cons, Nat.add_comm]

theorem find_char_first (hbefore : ∀ d ∈ before, p d = false) (hc : p c = true) :
    find_char p (before ++ c :: after) = some (size before) := by
  induction before with
  | nil => simp [find_char, hc]
  | cons d before ih =>
    rw [List.forall_mem_cons] at hbefore
    rw [List.cons_append, find_char, if_neg (by simp [hbefore.1]), ih hbefore.2, Option.map_some,
      size_cons, Nat.add_comm]

end Offsets

/-! ## Numbers -/

def digit (c : Char) : Option ℕ := if c.isDigit = true then some (c.toNat - '0'.toNat) else none

/-- One more digit, if the number still fits. -/
def push_digit {n : ℕ} (value : Fin n) (c : Char) : Option (Fin n) := do
  let d ← digit c
  if h : 10 * value.val + d < n then some ⟨10 * value.val + d, h⟩ else none

/-- A number of a type with `n` values, in decimal, with a plus sign or without. -/
def parse (n : ℕ) [NeZero n] : Text → Option (Fin n)
  | [] => none
  | c :: text =>
    if c = '+' then if text = [] then none else text.foldlM push_digit 0
    else (c :: text).foldlM push_digit 0

/-- `to_string`. -/
def decimal (n : ℕ) : Text := Nat.toDigits 10 n

section Numbers

variable {n v : ℕ} {digits : Text} {c : Char}

theorem foldlM_push_digit (hdigits : ∀ c ∈ digits, c.isDigit = true) (init : Fin n)
    (h : Nat.ofDigitChars 10 digits init.val < n) :
    digits.foldlM push_digit init = some ⟨Nat.ofDigitChars 10 digits init.val, h⟩ := by
  induction digits generalizing init with
  | nil => rfl
  | cons c digits ih =>
    rw [List.forall_mem_cons] at hdigits
    have hcons : Nat.ofDigitChars 10 (c :: digits) init.val =
        Nat.ofDigitChars 10 digits (10 * init.val + (c.toNat - '0'.toNat)) := Nat.ofDigitChars_cons
    -- what is read so far is not more than the number
    have hfits : 10 * init.val + (c.toNat - '0'.toNat) < n := by
      refine lt_of_le_of_lt ?_ (hcons ▸ h)
      rw [Nat.ofDigitChars_eq_ofDigitChars_zero]
      exact (Nat.le_mul_of_pos_left _ (Nat.pow_pos (by decide))).trans (Nat.le_add_right _ _)
    have hpush : push_digit init c = some ⟨10 * init.val + (c.toNat - '0'.toNat), hfits⟩ := by
      simp only [push_digit, digit, hdigits.1, if_true, Option.bind_eq_bind, Option.bind_some]
      rw [dif_pos hfits]
    rw [List.foldlM_cons, hpush, Option.bind_eq_bind, Option.bind_some, ih hdigits.2 _ (hcons ▸ h)]
    simp only [hcons]

theorem isDigit_of_mem_decimal (h : c ∈ decimal v) : c.isDigit = true :=
  Nat.isDigit_of_mem_toDigits (by decide) (by decide) h

/-- **A number that fits** is read as it was printed. -/
theorem parse_decimal [NeZero n] (h : v < n) : parse n (decimal v) = some ⟨v, h⟩ := by
  have hvalue : Nat.ofDigitChars 10 (decimal v) 0 = v := Nat.ofDigitChars_ten_toDigits
  have hdigits : ∀ c ∈ decimal v, c.isDigit = true := fun c hc => isDigit_of_mem_decimal hc
  have hfold := foldlM_push_digit hdigits (0 : Fin n) (by simpa [hvalue] using h)
  cases htext : decimal v with
  | nil => exact absurd htext Nat.toDigits_ne_nil
  | cons c text =>
    have hplus : c ≠ '+' := by
      rintro rfl
      have hdigit := hdigits '+' (htext ▸ List.mem_cons_self)
      simp at hdigit
    rw [parse, if_neg hplus, ← htext, hfold]
    simp [hvalue]

end Numbers

/-! ## Bytes as text -/

def REPLACEMENT_CHARACTER : Char := '\uFFFD'

/-- The bytes that go on with a character. -/
def is_continuation (byte : UInt8) : Bool := 0x80 ≤ byte && byte ≤ 0xbf

/-- Those that can be second of three and of four. -/
def second_of_three (first second : UInt8) : Bool :=
  if first = 0xe0 then 0xa0 ≤ second && second ≤ 0xbf
  else if first = 0xed then 0x80 ≤ second && second ≤ 0x9f
  else is_continuation second

def second_of_four (first second : UInt8) : Bool :=
  if first = 0xf0 then 0x90 ≤ second && second ≤ 0xbf
  else if first = 0xf4 then 0x80 ≤ second && second ≤ 0x8f
  else is_continuation second

/-- The character that begins with a byte, and how many of the bytes that follow belong to it. Where
they do not make a character they are replaced, up to the first that cannot follow. -/
def decode_char (first : UInt8) (rest : List UInt8) : Char × ℕ :=
  let second := rest.getD 0 0
  let third := rest.getD 1 0
  let fourth := rest.getD 2 0
  if first < 0x80 then (Char.ofNat first.toNat, 0)
  else if 0xc2 ≤ first ∧ first ≤ 0xdf then
    if is_continuation second = true then
      (Char.ofNat (first.toNat % 32 * 64 + second.toNat % 64), 1)
    else (REPLACEMENT_CHARACTER, 0)
  else if 0xe0 ≤ first ∧ first ≤ 0xef then
    if second_of_three first second = false then (REPLACEMENT_CHARACTER, 0)
    else if is_continuation third = false then (REPLACEMENT_CHARACTER, 1)
    else (Char.ofNat ((first.toNat % 16 * 64 + second.toNat % 64) * 64 + third.toNat % 64), 2)
  else if 0xf0 ≤ first ∧ first ≤ 0xf4 then
    if second_of_four first second = false then (REPLACEMENT_CHARACTER, 0)
    else if is_continuation third = false then (REPLACEMENT_CHARACTER, 1)
    else if is_continuation fourth = false then (REPLACEMENT_CHARACTER, 2)
    else (Char.ofNat (((first.toNat % 8 * 64 + second.toNat % 64) * 64 + third.toNat % 64) * 64 +
      fourth.toNat % 64), 3)
  else (REPLACEMENT_CHARACTER, 0)

/-- `String::from_utf8_lossy`. -/
def from_utf8_lossy : List UInt8 → Text
  | [] => []
  | first :: rest =>
    (decode_char first rest).1 :: from_utf8_lossy (rest.drop (decode_char first rest).2)
termination_by bytes => bytes.length
decreasing_by
  rw [List.length_drop, List.length_cons]
  omega

section Ascii

variable {text : Text} {c : Char}

theorem encode_ascii (h : c.toNat < 128) : String.utf8EncodeChar c = [UInt8.ofNat c.toNat] := by
  have hle : c.val.toNat ≤ 127 := by
    show c.toNat ≤ 127
    omega
  rw [String.utf8EncodeChar]
  simp only [hle, if_true]
  rfl

/-- ASCII bytes are read as the text that they are. -/
theorem from_utf8_lossy_ascii (h : ∀ c ∈ text, c.toNat < 128) :
    from_utf8_lossy (as_bytes text) = text := by
  induction text with
  | nil => exact from_utf8_lossy.eq_1
  | cons c text ih =>
    rw [List.forall_mem_cons] at h
    have hbyte : UInt8.ofNat c.toNat < 0x80 := by
      rw [UInt8.lt_iff_toNat_lt, UInt8.toNat_ofNat']
      show c.toNat % 2 ^ 8 < 128
      omega
    have hdecode : ∀ rest, decode_char (UInt8.ofNat c.toNat) rest = (c, 0) := by
      intro rest
      have hnat : (UInt8.ofNat c.toNat).toNat = c.toNat := by
        rw [UInt8.toNat_ofNat']
        omega
      rw [decode_char, if_pos hbyte, hnat, Char.ofNat_toNat]
    rw [as_bytes, List.flatMap_cons, encode_ascii h.1, List.singleton_append, from_utf8_lossy,
      hdecode, List.drop_zero, ← as_bytes, ih h.2]

end Ascii

end Text

end StreamGuard.Lib
