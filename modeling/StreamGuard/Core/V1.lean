/-
The V1 identifiers and errors of `sg-core`, and the connections they travel with.

V1 numbers its paths with one byte and its packets with one counter for each
session. A session identity is a UUID of sixteen bytes, of which the wire carries
the first four.
-/
import StreamGuard.Core.Wire

set_option autoImplicit false

namespace StreamGuard.V1

open StreamGuard.Lib

/-- A path number, scoped to one session. -/
structure PathId where
  get : UInt8
  deriving DecidableEq

/-- A session identity, the bytes of a UUID. -/
structure SessionId where
  bytes : BitVec 128
  deriving DecidableEq

/-- A packet number, scoped to session and direction. -/
structure Sequence where
  get : U64
  deriving DecidableEq

/-- A QUIC connection, by its stable ID; the transport of one path rides on one. -/
structure Connection where
  stable_id : ℕ
  deriving DecidableEq

/-- The errors of the engine that V1 code makes, with their texts. -/
inductive Error where
  | Transport (message : String)
  | Protocol (message : String)
  deriving DecidableEq

/-- The session a receiver makes of the four bytes on the wire: the rest is zero. -/
def SessionId.of_wire (four : Bytes) : SessionId :=
  ⟨array_from_bytes 16 (four ++ List.replicate 12 0)⟩

/-- The four bytes that go on the wire. -/
def SessionId.wire (id : SessionId) : Bytes := (id_bytes id.bytes).take 4

/-- A session identity that its four bytes tell: all others are zero. -/
def SessionId.WireSafe (id : SessionId) : Prop :=
  (id_bytes id.bytes).drop 4 = List.replicate 12 0

instance (id : SessionId) : Decidable id.WireSafe := inferInstanceAs (Decidable (_ = _))

namespace SessionId

variable {id : SessionId} {four : Bytes}

theorem bytes_of_wire (h : four.length = 4) :
    id_bytes (of_wire four).bytes = four ++ List.replicate 12 0 := by
  refine ((array_from_bytes_eq_iff ?_).mp rfl).symm
  simp [h]

theorem wire_of_wire (h : four.length = 4) : (of_wire four).wire = four := by
  rw [wire, bytes_of_wire h, ← h, List.take_left]

theorem wireSafe_of_wire (h : four.length = 4) : (of_wire four).WireSafe := by
  rw [WireSafe, bytes_of_wire h, ← h, List.drop_left]

@[simp] theorem length_wire (id : SessionId) : id.wire.length = 4 := by
  simp [wire, id_bytes]

/-- A wire-safe session is the session of its four bytes. -/
theorem of_wire_wire (h : id.WireSafe) : of_wire id.wire = id := by
  have hbytes : id.wire ++ List.replicate 12 0 = id_bytes id.bytes := by
    rw [← h, wire, List.take_append_drop]
  rw [of_wire, hbytes]
  exact congrArg SessionId.mk ((array_from_bytes_eq_iff (length_array_bytes 16 _)).mpr rfl)

end SessionId

end StreamGuard.V1
