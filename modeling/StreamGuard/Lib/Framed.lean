/-
Payloads behind their length on a byte stream.

A frame is its length in `width` big-endian bytes and then the payload. A reader sees the
bytes that have arrived so far: they begin with a whole frame, or with a length it does not
allow, or it needs more. A frame it takes off stays one when more arrive
(`unframe_append_frame`), and a frame it takes off is one that was put there (`unframe_eq_frame`),
so it finds the same frames however the bytes are cut.
-/
import StreamGuard.Lib.Bytes

set_option autoImplicit false

namespace StreamGuard.Lib

/-- What the bytes so far begin with. -/
inductive Unframed where
  | more
  | bad
  | frame (payload rest : List UInt8)
  deriving DecidableEq

/-- A payload behind its length. -/
def framed (width : ℕ) (payload : List UInt8) : List UInt8 :=
  toBigEndian width payload.length ++ payload

variable {width : ℕ} {allowed : ℕ → Bool} {stream payload rest : List UInt8}

/-- Reads a length, and then as many bytes. -/
def unframe (width : ℕ) (allowed : ℕ → Bool) (stream : List UInt8) : Unframed :=
  if stream.length < width then .more
  else
    let length := ofBigEndian (stream.take width)
    if allowed length then
      if (stream.drop width).length < length then .more
      else .frame ((stream.drop width).take length) ((stream.drop width).drop length)
    else .bad

theorem framed_length (width : ℕ) (payload : List UInt8) :
    (framed width payload).length = width + payload.length := by
  rw [framed, List.length_append, length_toBigEndian]

/-- A whole frame is read back, whatever follows it. -/
theorem unframe_framed (hfits : payload.length < 256 ^ width)
    (hallowed : allowed payload.length = true) (rest : List UInt8) :
    unframe width allowed (framed width payload ++ rest) = .frame payload rest := by
  have hwidth : (toBigEndian width payload.length).length = width := length_toBigEndian _ _
  have htake : (framed width payload ++ rest).take width = toBigEndian width payload.length := by
    rw [framed, List.append_assoc, List.take_left' hwidth]
  have hdrop : (framed width payload ++ rest).drop width = payload ++ rest := by
    rw [framed, List.append_assoc, List.drop_left' hwidth]
  rw [unframe, if_neg (by rw [List.length_append, framed_length]; omega), htake, hdrop,
    ofBigEndian_toBigEndian hfits]
  dsimp only
  rw [if_pos hallowed, if_neg (by rw [List.length_append]; omega), List.take_left, List.drop_left]

/-- What is taken off was there, and its length was allowed. -/
theorem unframe_eq_frame (h : unframe width allowed stream = .frame payload rest) :
    stream = framed width payload ++ rest ∧ allowed payload.length = true := by
  rw [unframe] at h
  split at h
  · contradiction
  next hwidth =>
  dsimp only at h
  split at h
  · next hallowed =>
    split at h
    · contradiction
    · next hlong =>
      obtain ⟨hpayload, hrest⟩ := Unframed.frame.inj h
      have hlen : payload.length = ofBigEndian (stream.take width) := by
        rw [← hpayload, List.length_take]
        omega
      have hhead : (stream.take width).length = width := by
        rw [List.length_take]
        omega
      refine ⟨?_, by rw [hlen]; exact hallowed⟩
      have hback := toBigEndian_ofBigEndian (stream.take width)
      rw [hhead] at hback
      rw [framed, hlen, hback, List.append_assoc, ← hpayload, ← hrest, List.take_append_drop,
        List.take_append_drop]
  · contradiction

/-- More bytes only come behind what is read. -/
theorem unframe_append_frame (h : unframe width allowed stream = .frame payload rest)
    (more : List UInt8) :
    unframe width allowed (stream ++ more) = .frame payload (rest ++ more) := by
  rw [unframe] at h
  split at h
  · contradiction
  next hwidth =>
  dsimp only at h
  split at h
  · next hallowed =>
    split at h
    · contradiction
    · next hlong =>
      obtain ⟨hpayload, hrest⟩ := Unframed.frame.inj h
      rw [unframe, if_neg (by rw [List.length_append]; omega),
        List.take_append_of_le_length (by omega), List.drop_append_of_le_length (by omega)]
      dsimp only
      rw [if_pos hallowed, if_neg (by rw [List.length_append]; omega),
        List.take_append_of_le_length (by omega), List.drop_append_of_le_length (by omega),
        hpayload, hrest]
  · contradiction

/-- Reads so many frames. -/
def unframe_many (width : ℕ) (allowed : ℕ → Bool) :
    ℕ → List UInt8 → Option (List (List UInt8) × List UInt8)
  | 0, stream => some ([], stream)
  | n + 1, stream =>
    match unframe width allowed stream with
    | .frame payload rest =>
      (unframe_many width allowed n rest).map fun read => (payload :: read.1, read.2)
    | _ => none

/-- Payloads written in a row are read back in that order. -/
theorem unframe_many_framed {payloads : List (List UInt8)}
    (h : ∀ payload ∈ payloads, payload.length < 256 ^ width ∧ allowed payload.length = true)
    (rest : List UInt8) :
    unframe_many width allowed payloads.length ((payloads.map (framed width)).flatten ++ rest) =
      some (payloads, rest) := by
  induction payloads with
  | nil => rfl
  | cons payload payloads ih =>
    obtain ⟨hfits, hallowed⟩ := h payload List.mem_cons_self
    rw [List.length_cons, unframe_many, List.map_cons, List.flatten_cons, List.append_assoc,
      unframe_framed hfits hallowed]
    dsimp only
    rw [ih fun p hp => h p (List.mem_cons_of_mem payload hp)]
    rfl

end StreamGuard.Lib
