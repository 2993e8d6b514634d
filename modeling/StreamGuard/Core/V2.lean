/-
The V2 identifiers and the machine integers they are made of.

Identifiers are the newtypes of `sg-core/src/v2.rs`. A 16-byte identity is the
big-endian number its bytes spell: comparing two of them byte by byte is
comparing the numbers, and the all-zero identity is zero.

Fixed-width words that name something (`PacketId`, epochs, path numbers) are
`Fin (2 ^ w)`. Clock readings, lengths and counters are natural numbers, with
the saturation of the source written out where the source has it.
-/
import Mathlib.Data.Fin.Basic
import Mathlib.Data.BitVec
import Mathlib.Data.Nat.Cast.Order.Basic

set_option autoImplicit false

namespace StreamGuard

/-! ## Machine integers -/

abbrev U16 := Fin (2 ^ 16)
abbrev U32 := Fin (2 ^ 32)
abbrev U64 := Fin (2 ^ 64)

instance U16.neZero : NeZero (2 ^ 16) := ⟨by decide⟩
instance U32.neZero : NeZero (2 ^ 32) := ⟨by decide⟩
instance U64.neZero : NeZero (2 ^ 64) := ⟨by decide⟩

/-- `u64::MAX` as a number; `usize` is 64 bits wide as well. -/
def u64Max : ℕ := 2 ^ 64 - 1

/-- `u64::saturating_add` on clock readings, lengths and counters. Saturating
subtraction is subtraction of natural numbers. -/
def saturatingAdd (a b : ℕ) : ℕ := min (a + b) u64Max

/-- `u64::saturating_mul`. -/
def saturatingMul (a b : ℕ) : ℕ := min (a * b) u64Max

theorem saturatingAdd_le_max (a b : ℕ) : saturatingAdd a b ≤ u64Max := Nat.min_le_right _ _

theorem saturatingAdd_eq {a b : ℕ} (h : a + b ≤ u64Max) : saturatingAdd a b = a + b :=
  Nat.min_eq_left h

/-- A saturating count of `n` events, and of one more. -/
theorem saturatingAdd_min (n : ℕ) : saturatingAdd (min n u64Max) 1 = min (n + 1) u64Max := by
  unfold saturatingAdd
  omega

namespace U64

/-- `u64::MAX`. -/
def max : U64 := Fin.last (2 ^ 64 - 1)

@[simp] theorem val_max : (max : U64).val = u64Max := rfl

/-- `value.saturating_add(1)`. -/
def succSat (x : U64) : U64 := ⟨min (x.val + 1) u64Max, by unfold u64Max; omega⟩

/-- `value.saturating_sub(1)`. -/
def predSat (x : U64) : U64 := ⟨x.val - 1, by omega⟩

theorem val_succSat {x : U64} (h : x ≠ max) : x.succSat.val = x.val + 1 := by
  have hx : x.val ≠ u64Max := fun hv => h (Fin.ext hv)
  have := x.isLt
  simp only [succSat, u64Max] at *
  omega

theorem le_max (x : U64) : x ≤ max := Fin.le_last x

end U64

/-! ## Identifiers -/

/-- A 16-byte session identity. -/
structure SessionId where
  bytes : BitVec 128
  deriving DecidableEq

/-- A 16-byte device identity. -/
structure DeviceId where
  bytes : BitVec 128
  deriving DecidableEq

/-- A 16-byte organization identity. -/
structure OrganizationId where
  bytes : BitVec 128
  deriving DecidableEq

/-- A path number, scoped to one session. -/
structure PathId where
  get : U16
  deriving DecidableEq

/-- A flow number, scoped to one session. -/
structure FlowId where
  get : U64
  deriving DecidableEq

/-- A packet number, scoped to session, direction, key epoch and flow. -/
structure PacketId where
  get : U64
  deriving DecidableEq

/-- `is_zero_id`. -/
def is_zero_id (bytes : BitVec 128) : Bool := bytes == 0

/-- A datagram payload. -/
abbrev Bytes := List UInt8

inductive TrafficClass where
  | Realtime
  | Interactive
  | Bulk
  | Control
  deriving DecidableEq

inductive Direction where
  | ClientToGateway
  | GatewayToClient
  deriving DecidableEq

/-- The wire value, `direction as u8`. -/
def Direction.to_wire : Direction → ℕ
  | .ClientToGateway => 1
  | .GatewayToClient => 2

/-! ## Datagrams -/

/-- Validated metadata of one datagram, `sg-protocol/src/v2.rs`. -/
structure V2Header where
  traffic_class : TrafficClass
  direction : Direction
  session_id : SessionId
  path_id : PathId
  path_epoch : U64
  key_epoch : U32
  flow_id : FlowId
  packet_id : PacketId

structure V2Envelope where
  header : V2Header
  payload : Bytes

end StreamGuard
