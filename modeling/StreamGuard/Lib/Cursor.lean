/-
Readers that take values off the front of a byte string.

A reader maps a byte string to a value and what is left, to an error, or, where it
reads past the end, to a panic. Each primitive has one law, an iff: it succeeds with
`a` and leaves `rest` exactly if the string is the bytes of `a` followed by `rest`. The
law of a sequence of reads is put together from those of its parts with `bind_eq_ok`, and
holds in both directions, so the reader and the writer of a format are inverse to each other
as soon as the format's own law is proved.
-/
import StreamGuard.Lib.Bytes

set_option autoImplicit false

namespace StreamGuard.Lib

/-- A reader of values `α` that fails with `ε`. -/
def Reader (ε α : Type) : Type := List UInt8 → Outcome ε (α × List UInt8)

namespace Reader

variable {ε α β : Type} {b rest : List UInt8}

instance : Monad (Reader ε) where
  pure a := fun b => .ok (a, b)
  bind x f := fun b => (x b).bind (fun r => f r.1 r.2)

/-- Ends with an error. -/
def fail (error : ε) : Reader ε α := fun _ => .err error

/-- How many bytes are left. -/
def remaining : Reader ε ℕ := fun b => .ok (b.length, b)

/-- The next byte. -/
def get_u8 : Reader ε UInt8
  | [] => .panic
  | byte :: rest => .ok (byte, rest)

/-- The next `n` bytes. -/
def take (n : ℕ) : Reader ε (List UInt8) := fun b =>
  if n ≤ b.length then .ok (b.take n, b.drop n) else .panic

/-- A check that turns into an error. -/
def ofOption (error : ε) (x : Option α) : Reader ε α := fun b =>
  match x with
  | some a => .ok (a, b)
  | none => .err error

/-! ## The laws -/

@[simp] theorem pure_eq_ok {a c : α} :
    (pure a : Reader ε α) b = .ok (c, rest) ↔ a = c ∧ b = rest := by
  show Outcome.ok (a, b) = Outcome.ok (c, rest) ↔ _
  rw [Outcome.ok.injEq, Prod.mk.injEq]

/-- **Two reads in a row.** -/
theorem bind_eq_ok {x : Reader ε α} {f : α → Reader ε β} {c : β} :
    (x >>= f) b = .ok (c, rest) ↔ ∃ a mid, x b = .ok (a, mid) ∧ f a mid = .ok (c, rest) := by
  show (x b).bind _ = _ ↔ _
  cases x b with
  | ok r =>
    obtain ⟨a, mid⟩ := r
    simp [Outcome.bind]
  | err error => simp [Outcome.bind]
  | panic => simp [Outcome.bind]

@[simp] theorem remaining_eq_ok {n : ℕ} :
    (remaining : Reader ε ℕ) b = .ok (n, rest) ↔ b.length = n ∧ b = rest := by
  simp [remaining]

theorem get_u8_eq_ok {byte : UInt8} :
    (get_u8 : Reader ε UInt8) b = .ok (byte, rest) ↔ b = byte :: rest := by
  cases b with
  | nil => simp [get_u8]
  | cons first b => simp [get_u8]

theorem take_eq_ok {n : ℕ} {x : List UInt8} :
    (take n : Reader ε (List UInt8)) b = .ok (x, rest) ↔ x.length = n ∧ b = x ++ rest := by
  unfold take
  constructor
  · intro h
    split at h
    · next hn =>
      simp only [Outcome.ok.injEq, Prod.mk.injEq] at h
      obtain ⟨rfl, rfl⟩ := h
      exact ⟨List.length_take_of_le hn, (List.take_append_drop n b).symm⟩
    · contradiction
  · rintro ⟨rfl, rfl⟩
    rw [if_pos (by simp), List.take_left, List.drop_left]

@[simp] theorem ofOption_eq_ok {error : ε} {x : Option α} {a : α} :
    ofOption error x b = .ok (a, rest) ↔ x = some a ∧ b = rest := by
  cases x with
  | none => simp [ofOption]
  | some c => simp [ofOption]

/-- An early return of an error. -/
theorem ite_fail_eq_ok {c : Prop} [Decidable c] {error : ε} {x : Reader ε α} {a : α} :
    (if c then fail error else x) b = .ok (a, rest) ↔ ¬ c ∧ x b = .ok (a, rest) := by
  by_cases hc : c
  · rw [if_pos hc]
    simp [hc, fail]
  · rw [if_neg hc]
    simp [hc]

/-- A check on how much is left, before the reads that need it. -/
theorem check_remaining_eq_ok {n : ℕ} {error : ε} {x : Reader ε α} {a : α} :
    (do if (← remaining) < n then fail error else x) b = .ok (a, rest) ↔
      n ≤ b.length ∧ x b = .ok (a, rest) := by
  rw [bind_eq_ok]
  constructor
  · rintro ⟨_, _, hlen, h⟩
    obtain ⟨rfl, rfl⟩ := remaining_eq_ok.mp hlen
    obtain ⟨hn, h⟩ := ite_fail_eq_ok.mp h
    exact ⟨Nat.not_lt.mp hn, h⟩
  · rintro ⟨hn, h⟩
    exact ⟨_, b, remaining_eq_ok.mpr ⟨rfl, rfl⟩, ite_fail_eq_ok.mpr ⟨Nat.not_lt.mpr hn, h⟩⟩

end Reader

end StreamGuard.Lib
