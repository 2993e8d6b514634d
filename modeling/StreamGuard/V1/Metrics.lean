/-
Path health, `sg-health/src/lib.rs`, over single-precision arithmetic.

The engine calculates with `f32`, and nothing it decides from scores and weights
depends on how a result was rounded except through comparisons. So the arithmetic is a
parameter: `F32` has the operations the code calls, each as the code calls it, and
the definitions below are for every interpretation of them.
-/
import StreamGuard.Core.V1
import Mathlib.Tactic.Linarith
import Mathlib.Tactic.NormNum
import Mathlib.Tactic.NormNum.OfScientific
import Mathlib.Tactic.Positivity

set_option autoImplicit false

namespace StreamGuard.V1

open StreamGuard

/-- The operations on `f32`. The comparisons are the operators of the language, so they
are false on a NaN. -/
class F32 (F : Type) extends Add F, Sub F, Mul F, Div F where
  /-- `f32::min`. -/
  min : F → F → F
  abs : F → F
  /-- `<`. -/
  lt : F → F → Bool
  /-- `<=`. -/
  le : F → F → Bool
  /-- `==`. -/
  eq : F → F → Bool
  is_finite : F → Bool
  /-- `x as f32`. -/
  of_u32 : U32 → F
  /-- `f32::to_bits`. -/
  to_bits : F → U32
  /-- `f32::from_bits`. -/
  of_bits : U32 → F
  /-- The value of a literal. -/
  literal : ℚ → F

/-- What is used of the arithmetic itself, as IEEE 754 has it. -/
class LawfulF32 (F : Type) [F32 F] : Prop where
  not_lt_of_le {w : F} : F32.le w (F32.literal 0) = true → F32.lt (F32.literal 0) w = false
  zero_div_le {t : F} : F32.lt (F32.literal 0) t = true →
    F32.le (F32.literal 0 / t) (F32.literal 0) = true

/-- What is used of it to rank paths. The bounds on the literals keep off the cases in which
a literal is rounded to 0 or to infinity. -/
class OrderedF32 (F : Type) [F32 F] : Prop extends LawfulF32 F where
  literal_nonneg {q : ℚ} : 0 ≤ q → F32.le (F32.literal 0) (F32.literal q : F) = true
  add_nonneg {x y : F} : F32.le (F32.literal 0) x = true → F32.le (F32.literal 0) y = true →
    F32.le (F32.literal 0) (x + y) = true
  mul_nonneg {q : ℚ} {x : F} : 1 / 100 ≤ q → q ≤ 1 → F32.le (F32.literal 0) x = true →
    F32.le (F32.literal 0) (F32.literal q * x) = true
  div_nonneg {n : U32} {q : ℚ} : 1 ≤ q →
    F32.le (F32.literal 0) (F32.of_u32 n / F32.literal q : F) = true
  min_nonneg {x y : F} : F32.le (F32.literal 0) x = true → F32.le (F32.literal 0) y = true →
    F32.le (F32.literal 0) (F32.min x y) = true
  sub_min_nonneg {x : F} :
    F32.le (F32.literal 0) (F32.literal 1 - F32.min x (F32.literal 1)) = true
  neg_one_lt {x : F} : F32.le (F32.literal 0) x = true → F32.lt (F32.literal (-1)) x = true
  not_lt_neg_one {x : F} : F32.le (F32.literal 0) x = true → F32.lt x (F32.literal (-1)) = false
  lt_self {x : F} : F32.lt x x = false
  ne_of_lt {x y : F} : F32.lt x y = true → F32.eq x y = false
  literal_eq {q : ℚ} : F32.eq (F32.literal q : F) (F32.literal q) = true

/-! ## Exact arithmetic

The interpretation in which nothing is rounded and nothing overflows. What is no number is
one marker, `none`. -/

abbrev Exact := Option ℚ

namespace Exact

def lift (op : ℚ → ℚ → Option ℚ) (x y : Exact) : Exact :=
  Option.bind x (fun a => Option.bind y (op a))

def holds (rel : ℚ → ℚ → Bool) (x y : Exact) : Bool :=
  match x, y with
  | some a, some b => rel a b
  | _, _ => false

/-- `f32::min` ignores what is no number. -/
def min (x y : Exact) : Exact :=
  match x, y with
  | some a, some b => some (if a ≤ b then a else b)
  | some a, none => some a
  | none, y => y

/-- The value of a bit pattern: sign, eight bits of exponent, 23 bits of fraction. -/
def of_bits (bits : U32) : Exact :=
  let exponent : ℕ := bits.val / 2 ^ 23 % 2 ^ 8
  let fraction : ℕ := bits.val % 2 ^ 23
  let size : ℚ :=
    if exponent = 0 then fraction / 2 ^ 149
    else (2 ^ 23 + fraction) * 2 ^ exponent / 2 ^ 150
  if exponent = 255 then none
  else some (if 2 ^ 31 ≤ bits.val then -size else size)

/-- The bit pattern of a number, cut off after the last bit of the fraction; that of infinity
if it is too large. -/
def to_bits : Exact → U32
  | none => Fin.ofNat _ 0x7fc00000
  | some q =>
    -- the number in units of the smallest one
    let units := (|q| * 2 ^ 149).floor.toNat
    let shift := Nat.log2 units - 23
    let bits :=
      if units < 2 ^ 23 then units
      else (shift + 1) * 2 ^ 23 + (units / 2 ^ shift - 2 ^ 23)
    Fin.ofNat _ ((if q < 0 then 2 ^ 31 else 0) + Nat.min bits 0x7f800000)

instance : F32 Exact where
  add := lift (fun a b => some (a + b))
  sub := lift (fun a b => some (a - b))
  mul := lift (fun a b => some (a * b))
  div := lift (fun a b => if b = 0 then none else some (a / b))
  min := min
  abs := Option.map (fun a => |a|)
  lt := holds (fun a b => a < b)
  le := holds (fun a b => a ≤ b)
  eq := holds (fun a b => a = b)
  is_finite := Option.isSome
  of_u32 x := some (x.val : ℚ)
  to_bits := to_bits
  of_bits := of_bits
  literal := some

instance : LawfulF32 Exact where
  not_lt_of_le {w} h := by
    cases w with
    | none => rfl
    | some q =>
      have hq : q ≤ 0 := of_decide_eq_true h
      exact decide_eq_false (not_lt.mpr hq)
  zero_div_le {t} h := by
    cases t with
    | none => contradiction
    | some q =>
      have hq : 0 < q := of_decide_eq_true h
      have hdiv : (F32.literal 0 / some q : Exact) = some 0 := by
        change (if q = 0 then none else some (0 / q)) = some 0
        rw [if_neg hq.ne', zero_div]
      rw [hdiv]
      exact decide_eq_true (le_refl (0 : ℚ))

/-- A comparison that holds is one of numbers. -/
theorem of_holds {rel : ℚ → ℚ → Bool} {x y : Exact} (h : holds rel x y = true) :
    ∃ a b : ℚ, x = some a ∧ y = some b ∧ rel a b = true := by
  cases x with
  | none => contradiction
  | some a =>
    cases y with
    | none => contradiction
    | some b => exact ⟨a, b, rfl, rfl, h⟩

theorem nonneg_iff {x : Exact} : F32.le (F32.literal 0) x = true ↔ ∃ q : ℚ, x = some q ∧ 0 ≤ q := by
  constructor
  · intro h
    obtain ⟨a, b, ha, rfl, hle⟩ := of_holds h
    obtain rfl := Option.some.inj ha
    exact ⟨b, rfl, of_decide_eq_true hle⟩
  · rintro ⟨q, rfl, hq⟩
    exact decide_eq_true hq

instance : OrderedF32 Exact where
  literal_nonneg hq := nonneg_iff.mpr ⟨_, rfl, hq⟩
  add_nonneg hx hy := by
    obtain ⟨a, rfl, ha⟩ := nonneg_iff.mp hx
    obtain ⟨b, rfl, hb⟩ := nonneg_iff.mp hy
    exact nonneg_iff.mpr ⟨a + b, rfl, add_nonneg ha hb⟩
  mul_nonneg {q x} hq _ hx := by
    obtain ⟨a, rfl, ha⟩ := nonneg_iff.mp hx
    exact nonneg_iff.mpr ⟨q * a, rfl, mul_nonneg (by linarith) ha⟩
  div_nonneg {n q} hq := by
    refine nonneg_iff.mpr ⟨(n.val : ℚ) / q, ?_, by positivity⟩
    change (if q = 0 then none else some ((n.val : ℚ) / q)) = _
    rw [if_neg (by linarith)]
  min_nonneg hx hy := by
    obtain ⟨a, rfl, ha⟩ := nonneg_iff.mp hx
    obtain ⟨b, rfl, hb⟩ := nonneg_iff.mp hy
    refine nonneg_iff.mpr ⟨if a ≤ b then a else b, rfl, ?_⟩
    split
    · exact ha
    · exact hb
  sub_min_nonneg {x} := by
    cases x with
    | none => exact nonneg_iff.mpr ⟨1 - 1, rfl, by norm_num⟩
    | some a =>
      refine nonneg_iff.mpr ⟨1 - (if a ≤ 1 then a else 1), rfl, ?_⟩
      split
      · linarith
      · norm_num
  neg_one_lt hx := by
    obtain ⟨a, rfl, ha⟩ := nonneg_iff.mp hx
    exact decide_eq_true (by linarith)
  not_lt_neg_one hx := by
    obtain ⟨a, rfl, ha⟩ := nonneg_iff.mp hx
    exact decide_eq_false (by linarith)
  lt_self {x} := by
    cases x with
    | none => rfl
    | some a => exact decide_eq_false (lt_irrefl a)
  ne_of_lt h := by
    obtain ⟨a, b, rfl, rfl, hlt⟩ := of_holds h
    exact decide_eq_false (of_decide_eq_true hlt).ne
  literal_eq := decide_eq_true rfl

end Exact

variable {F : Type} [F32 F]

/-- The health of a path, as far as scoring reads it. -/
structure PathMetrics (F : Type) where
  reachable : Bool
  srtt_ms : U32
  jitter_ms : U32
  loss : F
  available_kbps : U32

namespace PathMetrics

/-- `PathMetrics::default`. -/
def default : PathMetrics F := ⟨false, 0, 0, F32.literal 0, 0⟩

def is_eligible (m : PathMetrics F) : Bool := m.reachable && F32.lt m.loss (F32.literal 0.20)

/-- `1.0 - x.min(1.0)`: how far a measure is from its worst. -/
def headroom (x : F) : F := F32.literal 1 - F32.min x (F32.literal 1)

/-- `DefaultScorer::score` with the default weights. -/
def score (m : PathMetrics F) : F :=
  if m.reachable = false then F32.literal 0
  else
    let bw := F32.min (F32.of_u32 m.available_kbps / F32.literal 50000) (F32.literal 1)
    let loss := headroom (m.loss * F32.literal 4)
    let latency := headroom (F32.of_u32 m.srtt_ms / F32.literal 200)
    let jitter := headroom (F32.of_u32 m.jitter_ms / F32.literal 50)
    F32.literal 0.40 * bw + F32.literal 0.30 * loss + F32.literal 0.20 * latency +
      F32.literal 0.10 * jitter

/-- No score is negative. -/
theorem score_nonneg [OrderedF32 F] (m : PathMetrics F) :
    F32.le (F32.literal 0) m.score = true := by
  rw [score]
  split
  · exact OrderedF32.literal_nonneg (le_refl 0)
  · have hbw : F32.le (F32.literal 0)
        (F32.min (F32.of_u32 m.available_kbps / F32.literal 50000) (F32.literal 1) : F) = true :=
      OrderedF32.min_nonneg (OrderedF32.div_nonneg (by norm_num))
        (OrderedF32.literal_nonneg (by norm_num))
    have hroom (x : F) : F32.le (F32.literal 0) (headroom x) = true := OrderedF32.sub_min_nonneg
    refine OrderedF32.add_nonneg (OrderedF32.add_nonneg (OrderedF32.add_nonneg ?_ ?_) ?_) ?_
    · exact OrderedF32.mul_nonneg (by norm_num) (by norm_num) hbw
    · exact OrderedF32.mul_nonneg (by norm_num) (by norm_num) (hroom _)
    · exact OrderedF32.mul_nonneg (by norm_num) (by norm_num) (hroom _)
    · exact OrderedF32.mul_nonneg (by norm_num) (by norm_num) (hroom _)

end PathMetrics

end StreamGuard.V1
