/-
Frames on a control stream: `ControlFramed` of `sg-transport/src/v2.rs`.

A frame goes out behind its length in four bytes, and comes in by two reads, one of
the length and one of the body. The stream is the bytes that have not been read
yet and the bytes that have been written; what a call meets on it (how many bytes
arrive before it fails or its deadline elapses) is an argument of the call, so a
statement about all of them holds for every peer and every clock.

Two facts carry the file. The codec is a bijection on its image, so a body that
decodes is the encoding of its frame; and a body has at least a header and at
most the limit, so the length in front of it is the only place where a frame can
end. A failed call poisons the adapter, which makes every later call a
refusal.
-/
import StreamGuard.Lib.Run
import StreamGuard.Protocol.ControlCodec

set_option autoImplicit false

namespace StreamGuard.Transport

open StreamGuard StreamGuard.Lib StreamGuard.Control

/-- `u32::MAX`. -/
def u32Max : ℕ := 2 ^ 32 - 1

/-! ## The stream -/

inductive ControlStreamError where
  | Poisoned
  | ReadDeadline
  | WriteDeadline
  | FrameTooLarge (length limit : ℕ)
  | Io
  | Codec (error : ControlCodecError)
  deriving DecidableEq

/-- How an operation on the stream fails: an error of the stream, its end among them, or the
deadline of the call. -/
inductive StreamFailure where
  | io
  | deadline

/-- What a read meets: the bytes that arrive while it waits, and what comes after them. -/
structure Arrival where
  available : ℕ
  failure : StreamFailure

/-- What a write meets: it fails after some bytes, if it fails. -/
inductive Acceptance where
  | all
  | part (accepted : ℕ) (failure : StreamFailure)

/-- An operation that a call makes on the stream. -/
inductive IoCall where
  | read_exact (length : ℕ)
  | write_all (bytes : Bytes)
  | flush
  deriving DecidableEq

/-- The two directions of the stream: what is still to be read, and what has been written. -/
structure ControlIo where
  incoming : Bytes
  outgoing : Bytes
  deriving DecidableEq

/-- `read_exact` into a buffer of `length` bytes, of which at most `available` arrive. A read
that fails has consumed what arrived. -/
def ControlIo.read_exact (io : ControlIo) (available length : ℕ) : ControlIo × Option Bytes :=
  if length ≤ available ∧ length ≤ io.incoming.length then
    ({ io with incoming := io.incoming.drop length }, some (io.incoming.take length))
  else ({ io with incoming := io.incoming.drop available }, none)

/-! ## The adapter -/

/-- `deadlines` are in what the calls meet. -/
structure ControlFramed where
  io : ControlIo
  limit : ℕ
  poisoned : Bool
  deriving DecidableEq

namespace ControlFramed

def new (io : ControlIo) (limit : ℕ) : ControlFramed := ⟨io, limit, false⟩

def poison (s : ControlFramed) (io : ControlIo) : ControlFramed := ⟨io, s.limit, true⟩

def read_error : StreamFailure → ControlStreamError
  | .io => .Io
  | .deadline => .ReadDeadline

def write_error : StreamFailure → ControlStreamError
  | .io => .Io
  | .deadline => .WriteDeadline

/-- `read_frame` once the length is known: the body and its frame. -/
def read_body (s : ControlFramed) (io : ControlIo) (arrival : Arrival) (length : ℕ) :
    ControlFramed × List IoCall × Outcome ControlStreamError ControlFrame :=
  if s.limit < length then
    (s.poison io, [.read_exact 4], .err (.FrameTooLarge length s.limit))
  else
    match io.read_exact (arrival.available - 4) length with
    | (io, none) => (s.poison io, [.read_exact 4, .read_exact length],
        .err (read_error arrival.failure))
    | (io, some body) =>
      match ControlFrame.decode body s.limit with
      | .ok frame => ({ s with io }, [.read_exact 4, .read_exact length], .ok frame)
      | .err error => (s.poison io, [.read_exact 4, .read_exact length], .err (.Codec error))
      | .panic => ({ s with io }, [.read_exact 4, .read_exact length], .panic)

def read_frame (s : ControlFramed) (arrival : Arrival) :
    ControlFramed × List IoCall × Outcome ControlStreamError ControlFrame :=
  if s.poisoned = true then (s, [], .err .Poisoned)
  else
    match s.io.read_exact arrival.available 4 with
    | (io, none) => (s.poison io, [.read_exact 4], .err (read_error arrival.failure))
    | (io, some length) => s.read_body io arrival (U32.from_be_bytes length).val

/-- The calls of a write, up to the one that fails. -/
def write_calls (length encoded : Bytes) : Acceptance → List IoCall
  | .all => [.write_all length, .write_all encoded, .flush]
  | .part accepted _ =>
    if accepted < length.length then [.write_all length]
    else if accepted < length.length + encoded.length then [.write_all length, .write_all encoded]
    else [.write_all length, .write_all encoded, .flush]

def write_frame (s : ControlFramed) (frame : ControlFrame) (acceptance : Acceptance) :
    ControlFramed × List IoCall × Except ControlStreamError Unit :=
  if s.poisoned = true then (s, [], .error .Poisoned)
  else
    match frame.encode s.limit with
    | .error error => (s.poison s.io, [], .error (.Codec error))
    | .ok encoded =>
      if u32Max < encoded.length then
        (s.poison s.io, [], .error (.FrameTooLarge encoded.length u32Max))
      else
        let length := U32.to_be_bytes (Fin.ofNat _ encoded.length)
        let calls := write_calls length encoded acceptance
        match acceptance with
        | .all =>
          let io := { s.io with outgoing := s.io.outgoing ++ (length ++ encoded) }
          ({ s with io }, calls, .ok ())
        | .part accepted failure =>
          let io := { s.io with
            outgoing := s.io.outgoing ++ (length ++ encoded).take accepted }
          (s.poison io, calls, .error (write_error failure))

end ControlFramed

/-! ## Runs -/

inductive StreamCall where
  | read (arrival : Arrival)
  | write (frame : ControlFrame) (acceptance : Acceptance)

/-- What a call did on the stream and what it returned. -/
inductive StreamRecord where
  | read (calls : List IoCall) (result : Outcome ControlStreamError ControlFrame)
  | write (calls : List IoCall) (result : Except ControlStreamError Unit)
  deriving DecidableEq

namespace StreamRecord

/-- The frame that a read returned. -/
def frame : StreamRecord → Option ControlFrame
  | .read _ (.ok frame) => some frame
  | .read _ (.err _) => none
  | .read _ .panic => none
  | .write _ _ => none

/-- The error that the call returned. -/
def error : StreamRecord → Option ControlStreamError
  | .read _ (.err error) => some error
  | .read _ (.ok _) => none
  | .read _ .panic => none
  | .write _ (.error error) => some error
  | .write _ (.ok _) => none

def calls : StreamRecord → List IoCall
  | .read calls _ => calls
  | .write calls _ => calls

/-- A read is a read of the length, and perhaps one of a body within the limit. -/
def BodyWithin (limit : ℕ) : StreamRecord → Prop
  | .read calls result => result ≠ .panic ∧
      (calls = [] ∨ calls = [.read_exact 4] ∨
        ∃ length, calls = [.read_exact 4, .read_exact length] ∧ length ≤ limit)
  | .write _ _ => True

end StreamRecord

def ControlFramed.step (s : ControlFramed) : StreamCall → Option (ControlFramed × List StreamRecord)
  | .read arrival =>
    let r := s.read_frame arrival
    some (r.1, [.read r.2.1 r.2.2])
  | .write frame acceptance =>
    let r := s.write_frame frame acceptance
    some (r.1, [.write r.2.1 r.2.2])

/-! ## One call -/

section Calls

variable {io : ControlIo} {s : ControlFramed} {f : ControlFrame} {limit : ℕ} {x rest : Bytes}

/-- A frame behind its length, as it stands on the stream. -/
def prefixed (f : ControlFrame) : Bytes :=
  U32.to_be_bytes (Fin.ofNat _ f.bytes.length) ++ f.bytes

theorem length_frame (f : ControlFrame) :
    f.bytes.length = FRAME_HEADER_LEN + f.message.body.length := by
  simp only [ControlFrame.bytes, List.length_append, List.length_singleton, U32.length_to_be_bytes,
    U64.length_to_be_bytes, FRAME_HEADER_LEN]
  omega

/-- The length of a valid frame fits its prefix. -/
theorem length_value (h : f.Valid limit) :
    (U32.from_be_bytes (U32.to_be_bytes (Fin.ofNat _ f.bytes.length))).val = f.bytes.length := by
  have hbody := length_body_le h.message
  have hlength := length_frame f
  rw [FRAME_HEADER_LEN] at hlength
  rw [(U32.from_be_bytes_eq_iff (U32.length_to_be_bytes _)).mpr rfl, Fin.val_ofNat]
  exact Nat.mod_eq_of_lt (by omega)

/-- A read of what stands at the front, once it has arrived. -/
theorem read_exact_front {available length : ℕ} (hio : io.incoming = x ++ rest)
    (hlength : x.length = length) (havailable : length ≤ available) :
    io.read_exact available length = ({ io with incoming := rest }, some x) := by
  have hwhole : length ≤ io.incoming.length := by
    rw [hio, List.length_append]
    omega
  rw [ControlIo.read_exact, if_pos ⟨havailable, hwhole⟩, hio, ← hlength, List.drop_left,
    List.take_left]

/-- A read that succeeds has taken off the front what it returns. -/
theorem of_read_exact {io' : ControlIo} {available length : ℕ}
    (h : io.read_exact available length = (io', some x)) :
    x.length = length ∧ io' = { io with incoming := io'.incoming } ∧
      io.incoming = x ++ io'.incoming := by
  rw [ControlIo.read_exact] at h
  split at h
  · next hwhole =>
    obtain ⟨rfl, hx⟩ := Prod.mk.inj h
    obtain rfl := Option.some.inj hx
    refine ⟨?_, rfl, (List.take_append_drop _ _).symm⟩
    rw [List.length_take]
    omega
  · simp at h

/-- **What a read can do.** It is refused, or it fails and poisons the adapter, or it takes
one frame with its length off the front of the stream. -/
theorem read_frame_cases (s : ControlFramed) (arrival : Arrival) :
    (s.poisoned = true ∧ s.read_frame arrival = (s, [], .err .Poisoned)) ∨
    s.poisoned = false ∧
      ((∃ io calls error, s.read_frame arrival = (s.poison io, calls, .err error) ∧
        (calls = [.read_exact 4] ∨
          ∃ length, calls = [.read_exact 4, .read_exact length] ∧ length ≤ s.limit)) ∨
      ∃ f rest, f.Valid s.limit ∧ s.io.incoming = prefixed f ++ rest ∧
        s.read_frame arrival = ({ s with io := { s.io with incoming := rest } },
          [.read_exact 4, .read_exact f.bytes.length], .ok f)) := by
  by_cases hpoisoned : s.poisoned = true
  · left
    refine ⟨hpoisoned, ?_⟩
    rw [ControlFramed.read_frame, if_pos hpoisoned]
  · right
    refine ⟨by simpa using hpoisoned, ?_⟩
    rw [ControlFramed.read_frame, if_neg hpoisoned]
    cases hfirst : s.io.read_exact arrival.available 4 with
    | mk io length =>
      cases length with
      | none => exact .inl ⟨io, _, _, rfl, .inl rfl⟩
      | some length =>
        dsimp only
        rw [ControlFramed.read_body]
        by_cases hlimit : s.limit < (U32.from_be_bytes length).val
        · rw [if_pos hlimit]
          exact .inl ⟨io, _, _, rfl, .inl rfl⟩
        · rw [if_neg hlimit]
          have hwithin := Nat.not_lt.mp hlimit
          cases hbody : io.read_exact (arrival.available - 4) (U32.from_be_bytes length).val with
          | mk io' body =>
            cases body with
            | none => exact .inl ⟨io', _, _, rfl, .inr ⟨_, rfl, hwithin⟩⟩
            | some body =>
              dsimp only
              cases hdecode : ControlFrame.decode body s.limit with
              | panic => exact absurd hdecode (ControlFrame.decode_ne_panic body s.limit)
              | err error => exact .inl ⟨io', _, _, rfl, .inr ⟨_, rfl, hwithin⟩⟩
              | ok f =>
                right
                obtain ⟨hvalid, rfl⟩ := ControlFrame.of_decode hdecode
                obtain ⟨hfour, hio, hfront⟩ := of_read_exact hfirst
                obtain ⟨hlength, hio', hrest⟩ := of_read_exact hbody
                refine ⟨f, io'.incoming, hvalid, ?_, ?_⟩
                · -- the length in front of the body is that of the frame it decodes to
                  have hword : length = U32.to_be_bytes (Fin.ofNat _ f.bytes.length) := by
                    rw [hlength, Fin.ofNat_val_eq_self]
                    exact (U32.from_be_bytes_eq_iff hfour).mp rfl
                  rw [hfront, hrest, prefixed, ← hword, List.append_assoc]
                · rw [← hlength, hio', hio]

/-- A frame that stands at the front is read, once it has arrived. -/
theorem read_frame_front (hpoisoned : s.poisoned = false) (hvalid : f.Valid s.limit)
    (hio : s.io.incoming = prefixed f ++ rest) {arrival : Arrival}
    (harrived : (prefixed f).length ≤ arrival.available) :
    s.read_frame arrival = ({ s with io := { s.io with incoming := rest } },
      [.read_exact 4, .read_exact f.bytes.length], .ok f) := by
  have hfour : (U32.to_be_bytes (Fin.ofNat _ f.bytes.length)).length = 4 :=
    U32.length_to_be_bytes _
  rw [prefixed, List.length_append, hfour] at harrived
  rw [prefixed, List.append_assoc] at hio
  have hlength := length_frame f
  have hwithin := hvalid.within_limit
  have hnot : ¬ s.poisoned = true := by simp [hpoisoned]
  rw [ControlFramed.read_frame, if_neg hnot, read_exact_front hio hfour (by omega)]
  dsimp only
  rw [ControlFramed.read_body, length_value hvalid, if_neg (by omega),
    read_exact_front rfl rfl (by omega)]
  dsimp only
  rw [ControlFrame.decode_bytes hvalid]

/-- **What a write can do.** It is refused, or it fails and poisons the adapter, or it appends
one frame with its length to the stream. Nothing is read. -/
theorem write_frame_cases (s : ControlFramed) (f : ControlFrame) (acceptance : Acceptance) :
    (s.poisoned = true ∧ s.write_frame f acceptance = (s, [], .error .Poisoned)) ∨
    s.poisoned = false ∧
      ((∃ io calls error, s.write_frame f acceptance = (s.poison io, calls, .error error) ∧
        io.incoming = s.io.incoming) ∨
      ∃ calls, f.Valid s.limit ∧ s.write_frame f acceptance =
        ({ s with io := { s.io with outgoing := s.io.outgoing ++ prefixed f } }, calls,
          .ok ())) := by
  by_cases hpoisoned : s.poisoned = true
  · left
    refine ⟨hpoisoned, ?_⟩
    rw [ControlFramed.write_frame, if_pos hpoisoned]
  · right
    refine ⟨by simpa using hpoisoned, ?_⟩
    rw [ControlFramed.write_frame, if_neg hpoisoned]
    cases hencode : f.encode s.limit with
    | error error => exact .inl ⟨s.io, _, _, rfl, rfl⟩
    | ok encoded =>
      obtain ⟨hvalid, rfl⟩ := ControlFrame.encode_eq_ok.mp hencode
      dsimp only
      by_cases hlong : u32Max < f.bytes.length
      · rw [if_pos hlong]
        exact .inl ⟨s.io, _, _, rfl, rfl⟩
      · rw [if_neg hlong]
        cases acceptance with
        | all => exact .inr ⟨_, hvalid, rfl⟩
        | part accepted failure => exact .inl ⟨_, _, _, rfl, rfl⟩

/-- A valid frame is written. -/
theorem write_frame_all (hpoisoned : s.poisoned = false) (hvalid : f.Valid s.limit) :
    ∃ calls, s.write_frame f .all =
      ({ s with io := { s.io with outgoing := s.io.outgoing ++ prefixed f } }, calls, .ok ()) := by
  have hbody := length_body_le hvalid.message
  have hlength := length_frame f
  have hshort : ¬ u32Max < f.bytes.length := by
    rw [hlength, u32Max, FRAME_HEADER_LEN]
    omega
  have hnot : ¬ s.poisoned = true := by simp [hpoisoned]
  rw [ControlFramed.write_frame, if_neg hnot, ControlFrame.encode_eq_ok.mpr ⟨hvalid, rfl⟩]
  dsimp only
  rw [if_neg hshort]
  exact ⟨_, rfl⟩

end Calls

/-! ## Runs -/

section Runs

variable {s t : ControlFramed} {calls : List StreamCall} {records : List StreamRecord}

/-- What one step of a run leaves: the limit; the stream less the frame that was read; and
an adapter that is poisoned exactly when the call failed. -/
theorem step_spec {c : StreamCall} {o : List StreamRecord}
    (hstep : s.step c = some (t, o)) : ∃ record, o = [record] ∧ t.limit = s.limit ∧
      record.BodyWithin s.limit ∧
      (s.poisoned = true → t = s ∧ record.calls = [] ∧ record.error = some .Poisoned) ∧
      (record.error = none → t.poisoned = false ∧
        s.io.incoming = record.frame.toList.flatMap prefixed ++ t.io.incoming ∧
        ∀ f ∈ record.frame, f.Valid s.limit) ∧
      (record.error ≠ none → t.poisoned = true) := by
  cases c with
  | read arrival =>
    obtain ⟨rfl, rfl⟩ := step_inj hstep
    refine ⟨_, rfl, ?_⟩
    rcases read_frame_cases s arrival with ⟨hpoisoned, hread⟩ | ⟨hclean, hread⟩
    · rw [hread]
      simp [StreamRecord.BodyWithin, StreamRecord.error, StreamRecord.calls, hpoisoned]
    · rcases hread with ⟨io, calls, error, hread, hcalls⟩ | ⟨f, rest, hvalid, hio, hread⟩
      · rw [hread]
        refine ⟨rfl, ⟨by simp, .inr hcalls⟩, ?_⟩
        simp [StreamRecord.error, ControlFramed.poison, hclean]
      · rw [hread]
        have hwithin : f.bytes.length ≤ s.limit := by
          rw [length_frame]
          exact hvalid.within_limit
        refine ⟨rfl, ⟨by simp, .inr (.inr ⟨_, rfl, hwithin⟩)⟩, ?_⟩
        simp [StreamRecord.error, StreamRecord.frame, hclean, hio, hvalid]
  | write f acceptance =>
    obtain ⟨rfl, rfl⟩ := step_inj hstep
    refine ⟨_, rfl, ?_⟩
    rcases write_frame_cases s f acceptance with ⟨hpoisoned, hwrite⟩ | ⟨hclean, hwrite⟩
    · rw [hwrite]
      simp [StreamRecord.BodyWithin, StreamRecord.error, StreamRecord.calls, hpoisoned]
    · rcases hwrite with ⟨io, calls, error, hwrite, hio⟩ | ⟨calls, hvalid, hwrite⟩
      · rw [hwrite]
        refine ⟨rfl, trivial, ?_⟩
        simp [StreamRecord.error, ControlFramed.poison, hclean]
      · rw [hwrite]
        refine ⟨rfl, trivial, ?_⟩
        simp [StreamRecord.error, StreamRecord.frame, hclean]

/-- A poisoned adapter refuses every call and leaves the stream as it is. -/
theorem exec_poisoned (hpoisoned : s.poisoned = true)
    (hrun : exec ControlFramed.step s calls = some (t, records)) :
    t = s ∧ ∀ record ∈ records, record.calls = [] ∧ record.error = some .Poisoned := by
  induction calls generalizing records with
  | nil =>
    obtain ⟨rfl, rfl⟩ := step_inj hrun
    simp
  | cons c calls ih =>
    obtain ⟨s₁, o, o', hs, he, rfl⟩ := exec_cons_eq_some.mp hrun
    obtain ⟨record, rfl, -, -, hrefused, -⟩ := step_spec hs
    obtain ⟨rfl, hcalls, herror⟩ := hrefused hpoisoned
    obtain ⟨rfl, hrest⟩ := ih he
    refine ⟨rfl, ?_⟩
    intro other hother
    rcases List.mem_cons.mp hother with rfl | hother
    · exact ⟨hcalls, herror⟩
    · exact hrest other hother

/-- No call reads a body beyond the limit, whatever the run. -/
theorem exec_bounded (hrun : exec ControlFramed.step s calls = some (t, records)) :
    t.limit = s.limit ∧ ∀ record ∈ records, record.BodyWithin s.limit := by
  induction calls generalizing s records with
  | nil =>
    obtain ⟨rfl, rfl⟩ := step_inj hrun
    simp
  | cons c calls ih =>
    obtain ⟨s₁, o, o', hs, he, rfl⟩ := exec_cons_eq_some.mp hrun
    obtain ⟨record, rfl, hlimit, hwithin, -⟩ := step_spec hs
    obtain ⟨hlimit', hrest⟩ := ih he
    rw [hlimit] at hlimit' hrest
    refine ⟨hlimit', ?_⟩
    intro other hother
    rcases List.mem_cons.mp hother with rfl | hother
    · exact hwithin
    · exact hrest other hother

/-- Up to the first error the frames that were read are what was consumed. -/
theorem exec_consumed (hrun : exec ControlFramed.step s calls = some (t, records))
    (hok : ∀ record ∈ records, record.error = none) :
    s.io.incoming = (records.filterMap StreamRecord.frame).flatMap prefixed ++ t.io.incoming ∧
      ∀ f ∈ records.filterMap StreamRecord.frame, f.Valid s.limit := by
  induction calls generalizing s records with
  | nil =>
    obtain ⟨rfl, rfl⟩ := step_inj hrun
    simp
  | cons c calls ih =>
    obtain ⟨s₁, o, o', hs, he, rfl⟩ := exec_cons_eq_some.mp hrun
    obtain ⟨record, rfl, hlimit, -, -, hclean, -⟩ := step_spec hs
    obtain ⟨-, hio, hvalid⟩ := hclean (hok record List.mem_cons_self)
    obtain ⟨hio', hvalid'⟩ := ih he (fun r hr => hok r (List.mem_cons_of_mem _ hr))
    rw [hlimit] at hvalid'
    have hframes : ([record] ++ o').filterMap StreamRecord.frame =
        record.frame.toList ++ o'.filterMap StreamRecord.frame := by
      cases hframe : record.frame <;> simp [hframe]
    rw [hframes]
    refine ⟨?_, ?_⟩
    · rw [hio, hio', List.flatMap_append, List.append_assoc]
    · intro f hf
      rcases List.mem_append.mp hf with hf | hf
      · exact hvalid f (by simpa using hf)
      · exact hvalid' f hf

/-- Valid frames are written one behind the other. -/
theorem exec_writes {frames : List ControlFrame} (hclean : s.poisoned = false)
    (hvalid : ∀ f ∈ frames, f.Valid s.limit) :
    ∃ records, exec ControlFramed.step s (frames.map (.write · .all)) =
        some ({ s with io := { s.io with outgoing := s.io.outgoing ++ frames.flatMap prefixed } },
          records) ∧
      ∀ record ∈ records, record.error = none := by
  induction frames generalizing s with
  | nil => exact ⟨[], by simp, by simp⟩
  | cons f frames ih =>
    obtain ⟨calls, hwrite⟩ := write_frame_all hclean (hvalid f List.mem_cons_self)
    have hstep : s.step (.write f .all) = some ({ s with
        io := { s.io with outgoing := s.io.outgoing ++ prefixed f } },
          [.write calls (.ok ())]) := by
      rw [ControlFramed.step, hwrite]
    obtain ⟨records, hrun, hok⟩ := ih (s := { s with
      io := { s.io with outgoing := s.io.outgoing ++ prefixed f } }) hclean
      (fun g hg => hvalid g (List.mem_cons_of_mem _ hg))
    refine ⟨.write calls (.ok ()) :: records, ?_, ?_⟩
    · rw [List.map_cons, exec_cons_eq_some]
      refine ⟨_, _, _, hstep, ?_, rfl⟩
      rw [hrun, List.flatMap_cons, List.append_assoc]
    · intro record hrecord
      rcases List.mem_cons.mp hrecord with rfl | hrecord
      · rfl
      · exact hok record hrecord

/-- Frames that stand one behind the other are read in this order. -/
theorem exec_reads {frames : List ControlFrame} {arrivals : List Arrival} {rest : Bytes}
    (hclean : s.poisoned = false) (hvalid : ∀ f ∈ frames, f.Valid s.limit)
    (hio : s.io.incoming = frames.flatMap prefixed ++ rest)
    (harrived : List.Forall₂ (fun f arrival => (prefixed f).length ≤ arrival.available) frames
      arrivals) :
    ∃ records, exec ControlFramed.step s (arrivals.map .read) =
        some ({ s with io := { s.io with incoming := rest } }, records) ∧
      records.map StreamRecord.frame = frames.map some := by
  induction harrived generalizing s with
  | nil =>
    refine ⟨[], ?_, rfl⟩
    have hrest : s.io.incoming = rest := by simpa using hio
    rw [← hrest]
    rfl
  | @cons f arrival frames arrivals hfirst harrived ih =>
    rw [List.flatMap_cons, List.append_assoc] at hio
    have hread := read_frame_front hclean (hvalid f List.mem_cons_self) hio hfirst
    obtain ⟨records, hrun, hframes⟩ := ih (s := { s with
      io := { s.io with incoming := frames.flatMap prefixed ++ rest } }) hclean
      (fun g hg => hvalid g (List.mem_cons_of_mem _ hg)) rfl
    refine ⟨.read [.read_exact 4, .read_exact f.bytes.length] (.ok f) :: records, ?_, ?_⟩
    · rw [List.map_cons, exec_cons_eq_some]
      refine ⟨_, [.read [.read_exact 4, .read_exact f.bytes.length] (.ok f)], records, ?_, hrun,
        rfl⟩
      rw [ControlFramed.step, hread]
    · rw [List.map_cons, hframes, List.map_cons, StreamRecord.frame]

/-- **Control stream framing.** Frames that are written are read back as the same list; in any run
on any stream what was consumed up to the first error is the frames that were read, each
behind its length, and no body beyond the limit is asked for; and after an error every
call is refused and leaves the stream alone. -/
theorem control_stream_framing :
    (∀ (limit : ℕ) (frames : List ControlFrame),
      (∀ f ∈ frames, ∃ encoded, f.encode limit = .ok encoded) →
      ∀ sink : ControlIo, ∃ bytes written records,
        exec ControlFramed.step (ControlFramed.new sink limit) (frames.map (.write · .all)) =
          some (written, records) ∧
        (∀ record ∈ records, record.error = none) ∧
        written.io.outgoing = sink.outgoing ++ bytes ∧
        ∀ (source : ControlIo) (rest : Bytes) (arrivals : List Arrival),
          source.incoming = bytes ++ rest →
          List.Forall₂ (fun f arrival => (prefixed f).length ≤ arrival.available) frames arrivals →
          ∃ reader records',
            exec ControlFramed.step (ControlFramed.new source limit) (arrivals.map .read) =
              some (reader, records') ∧
            records'.map StreamRecord.frame = frames.map some ∧ reader.io.incoming = rest) ∧
    (∀ (limit : ℕ) (io : ControlIo) (calls : List StreamCall) (t : ControlFramed)
        (records : List StreamRecord),
      exec ControlFramed.step (ControlFramed.new io limit) calls = some (t, records) →
      (∀ record ∈ records, record.BodyWithin limit) ∧
      ((∀ record ∈ records, record.error = none) →
        (∀ f ∈ records.filterMap StreamRecord.frame, f.encode limit = .ok f.bytes) ∧
        io.incoming = (records.filterMap StreamRecord.frame).flatMap prefixed ++ t.io.incoming)) ∧
    ∀ (s s' : ControlFramed) (c : StreamCall) (record : StreamRecord),
      s.step c = some (s', [record]) → record.error ≠ none →
      ∀ (calls : List StreamCall) (t : ControlFramed) (records : List StreamRecord),
        exec ControlFramed.step s' calls = some (t, records) →
        t = s' ∧ ∀ later ∈ records, later.calls = [] ∧ later.error = some .Poisoned := by
  refine ⟨?_, ?_, ?_⟩
  · intro limit frames hencode sink
    have hvalid : ∀ f ∈ frames, f.Valid limit := by
      intro f hf
      obtain ⟨encoded, hencoded⟩ := hencode f hf
      exact (ControlFrame.encode_eq_ok.mp hencoded).1
    obtain ⟨records, hwrites, hok⟩ := exec_writes (s := ControlFramed.new sink limit) rfl hvalid
    refine ⟨frames.flatMap prefixed, _, records, hwrites, hok, rfl, ?_⟩
    intro source rest arrivals hio harrived
    obtain ⟨records', hreads, hframes⟩ :=
      exec_reads (s := ControlFramed.new source limit) rfl hvalid hio harrived
    exact ⟨_, records', hreads, hframes, rfl⟩
  · intro limit io calls t records hrun
    refine ⟨(exec_bounded hrun).2, ?_⟩
    intro hok
    obtain ⟨hconsumed, hvalid⟩ := exec_consumed hrun hok
    exact ⟨fun f hf => ControlFrame.encode_eq_ok.mpr ⟨hvalid f hf, rfl⟩, hconsumed⟩
  · intro s s' c record hstep herror calls t records hrun
    obtain ⟨other, hsame, -, -, -, -, hpoisoned⟩ := step_spec hstep
    obtain rfl := List.singleton_inj.mp hsame
    exact exec_poisoned (hpoisoned herror) hrun

/-- A request that is rejected, as two frames. -/
def two_frames : List ControlFrame := [⟨1, .Ack⟩, ⟨2, .Reject .InvalidState "no"⟩]

theorem control_stream_framing_two :
    (∃ bytes reader records, exec ControlFramed.step (ControlFramed.new ⟨bytes, []⟩ 64)
        [.read ⟨64, .io⟩, .read ⟨64, .deadline⟩] = some (reader, records) ∧
      records.map StreamRecord.frame = two_frames.map some ∧ reader.io.incoming = []) ∧
    (∃ t records, exec ControlFramed.step (ControlFramed.new ⟨[0, 0, 0, 65, 1], []⟩ 64)
        [.read ⟨64, .io⟩] = some (t, records) ∧
      ∀ record ∈ records, record.BodyWithin 64) ∧
    ∃ t, exec ControlFramed.step ⟨⟨[1], []⟩, 64, true⟩ [.write ⟨1, .Ack⟩ .all, .read ⟨64, .io⟩] =
        some (t, [.write [] (.error .Poisoned), .read [] (.err .Poisoned)]) ∧
      t = ⟨⟨[1], []⟩, 64, true⟩ := by
  refine ⟨?_, ?_, ?_⟩
  · have hencode : ∀ f ∈ two_frames, ∃ encoded, f.encode 64 = .ok encoded := by
      simp only [two_frames, List.forall_mem_cons]
      exact ⟨⟨_, rfl⟩, ⟨_, rfl⟩, by simp⟩
    obtain ⟨bytes, written, records, -, -, -, hread⟩ :=
      control_stream_framing.1 64 two_frames hencode ⟨[], []⟩
    have harrived : List.Forall₂ (fun (f : ControlFrame) (arrival : Arrival) =>
        (prefixed f).length ≤ arrival.available) two_frames [⟨64, .io⟩, ⟨64, .deadline⟩] :=
      .cons (by decide) (.cons (by decide) .nil)
    obtain ⟨reader, records', hrun, hframes, hrest⟩ :=
      hread ⟨bytes, []⟩ [] _ (by simp) harrived
    exact ⟨bytes, reader, records', hrun, hframes, hrest⟩
  · have hrun : exec ControlFramed.step (ControlFramed.new ⟨[0, 0, 0, 65, 1], []⟩ 64)
        [.read ⟨64, .io⟩] = some (⟨⟨[1], []⟩, 64, true⟩,
          [.read [.read_exact 4] (.err (.FrameTooLarge 65 64))]) := by
      decide
    exact ⟨_, _, hrun, (control_stream_framing.2.1 64 _ _ _ _ hrun).1⟩
  · have hfailed : ControlFramed.step ⟨⟨[0, 1], []⟩, 64, false⟩ (.read ⟨1, .io⟩) =
        some (⟨⟨[1], []⟩, 64, true⟩, [.read [.read_exact 4] (.err .Io)]) := by
      decide
    have hrun : exec ControlFramed.step ⟨⟨[1], []⟩, 64, true⟩
        [.write ⟨1, .Ack⟩ .all, .read ⟨64, .io⟩] = some (⟨⟨[1], []⟩, 64, true⟩,
          [.write [] (.error .Poisoned), .read [] (.err .Poisoned)]) := by
      decide
    exact ⟨_, hrun, (control_stream_framing.2.2 _ _ _ _ hfailed (by decide) _ _ _ hrun).1⟩

end Runs

end StreamGuard.Transport
