/-
Checked sends: the packet-number counter and the send pipeline of
`sg-transport/src/mtu.rs`.

One counter numbers the datagrams of a send direction; every path of the
direction has a sender with its own gate and transport, and all of them share the
counter. A call previews the next number, lends it to the caller's envelope
builder, and advances the counter only after the transport took the datagram.

What a call can do is said once, in `send_checked_cases`; `Numbered` is the
invariant of a run.
-/
import StreamGuard.Transport.Mtu
import StreamGuard.Lib.Run

set_option autoImplicit false

namespace StreamGuard.Mtu

open StreamGuard StreamGuard.Lib

/-! ## The counter -/

inductive PacketIdError where
  | Exhausted

structure PacketIdSequencer where
  next : U64
  exhausted : Bool

/-- The number a send may put on its envelope. -/
structure PacketReservation where
  id : PacketId

namespace PacketIdSequencer

def new (start : U64) : PacketIdSequencer := ⟨start, false⟩

def is_exhausted (s : PacketIdSequencer) : Bool := s.exhausted

def preview (s : PacketIdSequencer) : Except PacketIdError PacketReservation :=
  if s.exhausted = true then .error .Exhausted else .ok ⟨⟨s.next⟩⟩

def commit (s : PacketIdSequencer) (reservation : PacketReservation) : PacketIdSequencer :=
  if s.exhausted = true ∨ reservation.id.get ≠ s.next then s
  else if s.next = U64.max then { s with exhausted := true }
  else { s with next := s.next + 1 }

/-- How many numbers lie before the one the counter would issue next. -/
def position (s : PacketIdSequencer) : ℕ := s.next.val + if s.exhausted = true then 1 else 0

@[simp] theorem position_new (start : U64) : (new start).position = start.val := by
  simp [new, position]

/-- Committing the number that was previewed moves the counter by one, and past the
last number it is exhausted. -/
theorem position_commit {s : PacketIdSequencer} (h : s.exhausted = false) :
    (s.commit ⟨⟨s.next⟩⟩).position = s.position + 1 := by
  by_cases hlast : s.next = U64.max
  · simp [commit, position, h, hlast]
  · have hval : s.next.val ≠ u64Max := fun hv => hlast (Fin.ext hv)
    have hlt := s.next.isLt
    have hsucc : (s.next + 1).val = s.next.val + 1 := by
      unfold u64Max at hval
      rw [Fin.val_add]
      exact Nat.mod_eq_of_lt (by simp; omega)
    simp [commit, position, h, hlast, hsucc]

end PacketIdSequencer

/-! ## The pipeline -/

inductive DatagramSendError where
  | NoDatagramLimit
  | TooLarge (datagram_len limit : ℕ)
  | Rejected (reason : String)

inductive CheckedSendError where
  | PacketIdExhausted (error : PacketIdError)
  | Rejected (reason : MtuRejectReason)
  | BuildMismatch (expected found : PacketId)
  | Encode (error : V2EnvelopeError)
  | Transport (error : DatagramSendError)

/-- What the transport behind a sender answers during one call. -/
structure DatagramSender where
  current_datagram_mtu : Option DatagramMtu
  send_datagram : Bytes → Except DatagramSendError Unit

/-- A call the pipeline makes on the transport. -/
inductive TransportCall where
  | current_datagram_mtu
  | send_datagram (datagram : Bytes)

/-- What a send leaves behind: the gate, the counter, the calls on the transport in
order, and the answer to the caller. -/
structure CheckedSend where
  admission : MtuAdmission
  sequencer : PacketIdSequencer
  calls : List TransportCall
  result : Except CheckedSendError PacketId

/-- Steps 3 to 8 of `send_checked`: preview, build, encode, hand over, commit. -/
def send_admitted (admission : MtuAdmission) (effective : EffectivePayloadMtu)
    (sequencer : PacketIdSequencer) (build_envelope : PacketReservation → V2Envelope)
    (inner : DatagramSender) : CheckedSend :=
  match sequencer.preview with
  | .error error =>
    ⟨admission, sequencer, [.current_datagram_mtu], .error (.PacketIdExhausted error)⟩
  | .ok reservation =>
    let packet_id := reservation.id
    let envelope := build_envelope reservation
    if envelope.header.packet_id ≠ packet_id then
      ⟨admission.record_encode_failure, sequencer, [.current_datagram_mtu],
        .error (.BuildMismatch packet_id envelope.header.packet_id)⟩
    else match envelope.encode effective.get with
      | .error error =>
        ⟨admission.record_encode_failure, sequencer, [.current_datagram_mtu],
          .error (.Encode error)⟩
      | .ok datagram =>
        let calls := [.current_datagram_mtu, .send_datagram datagram]
        match inner.send_datagram datagram with
        | .error error =>
          ⟨admission.record_transport_failure, sequencer, calls, .error (.Transport error)⟩
        | .ok _ =>
          ⟨admission.record_enqueue_success, sequencer.commit reservation, calls, .ok packet_id⟩

/-- `CheckedDatagramSender::send_checked`. -/
def send_checked (admission : MtuAdmission) (payload_len : ℕ) (sequencer : PacketIdSequencer)
    (build_envelope : PacketReservation → V2Envelope) (inner : DatagramSender) : CheckedSend :=
  if sequencer.is_exhausted = true then
    ⟨admission, sequencer, [], .error (.PacketIdExhausted .Exhausted)⟩
  else match inner.current_datagram_mtu with
    | none =>
      let rejected := admission.reject_absent_transport_limit
      ⟨rejected.1, sequencer, [.current_datagram_mtu], .error (.Rejected rejected.2)⟩
    | some transport_mtu =>
      let datagram_len := saturatingAdd FIXED_HEADER_LEN payload_len
      match (admission.sync_from_transport transport_mtu).admit_envelope payload_len
          datagram_len with
      | (admission', .error reason) =>
        ⟨admission', sequencer, [.current_datagram_mtu], .error (.Rejected reason)⟩
      | (admission', .ok effective) =>
        send_admitted admission' effective sequencer build_envelope inner

section Pipeline

variable (admission : MtuAdmission) (payload_len : ℕ) (sequencer : PacketIdSequencer)
  (build_envelope : PacketReservation → V2Envelope) (inner : DatagramSender)

/-- A send that went through: the envelope carries the number, passes its checks and
is the one datagram handed over, and the counter moves on. -/
structure Sent (sequencer : PacketIdSequencer) (o : CheckedSend) (id : PacketId)
    (envelope : V2Envelope) (payload_limit : ℕ) : Prop where
  open_counter : sequencer.exhausted = false
  number : id = ⟨sequencer.next⟩
  stamped : envelope.header.packet_id = id
  valid : envelope.Valid payload_limit
  limit : payload_limit + FIXED_HEADER_LEN ≤ MAX_DATAGRAM_MTU
  calls : o.calls = [.current_datagram_mtu, .send_datagram envelope.datagram]
  committed : o.sequencer = sequencer.commit ⟨⟨sequencer.next⟩⟩

/-- Either the call fails and the counter stays, or it succeeds as `Sent` says. -/
theorem send_checked_cases :
    let o := send_checked admission payload_len sequencer build_envelope inner
    (∃ error, o.result = .error error ∧ o.sequencer = sequencer) ∨
    ∃ id envelope payload_limit, o.result = .ok id ∧
      Sent sequencer o id envelope payload_limit := by
  intro o
  unfold o send_checked
  by_cases hexhausted : sequencer.is_exhausted = true
  · rw [if_pos hexhausted]
    exact .inl ⟨_, rfl, rfl⟩
  rw [if_neg hexhausted]
  split
  · exact .inl ⟨_, rfl, rfl⟩
  next transport_mtu hmtu =>
  dsimp only
  split
  · exact .inl ⟨_, rfl, rfl⟩
  next admission' effective hadmitted =>
  have hopen : sequencer.exhausted = false := Bool.eq_false_iff.mpr hexhausted
  simp only [send_admitted, PacketIdSequencer.preview, hopen, Bool.false_eq_true, ↓reduceIte]
  by_cases hstamped : (build_envelope ⟨⟨sequencer.next⟩⟩).header.packet_id = ⟨sequencer.next⟩
  · rw [if_neg (not_not.mpr hstamped)]
    split
    · exact .inl ⟨_, rfl, rfl⟩
    next datagram hencoded =>
    split
    · exact .inl ⟨_, rfl, rfl⟩
    · -- the transport took the datagram
      obtain ⟨hvalid, rfl⟩ := V2Envelope.encode_eq_ok.mp hencoded
      exact .inr ⟨_, _, effective.get, rfl, hopen, rfl, hstamped, hvalid,
        MtuAdmission.admit_envelope_ok hadmitted, rfl, rfl⟩
  · rw [if_pos hstamped]
    exact .inl ⟨_, rfl, rfl⟩

/-- An exhausted counter fails every send before the gate or the transport is touched. -/
theorem send_checked_exhausted {sequencer : PacketIdSequencer} (h : sequencer.exhausted = true) :
    send_checked admission payload_len sequencer build_envelope inner =
      ⟨admission, sequencer, [], .error (.PacketIdExhausted .Exhausted)⟩ :=
  if_pos h

end Pipeline

/-! ## The senders of one direction -/

section Senders

variable {α : Type}

/-- The counter of a send direction and the gates of its senders. -/
structure SendDirection (α : Type) where
  sequencer : PacketIdSequencer
  gates : α → MtuAdmission

/-- What the owner of the senders does: a checked send, or a change of a gate between
sends through `admission_mut`. -/
inductive SenderInput (α : Type) where
  | send_checked (sender : α) (payload_len : ℕ) (build_envelope : PacketReservation → V2Envelope)
      (inner : DatagramSender)
  | admission_mut (sender : α) (gate : MtuAdmission)

/-- The answer of one send, with the calls it made on its transport. -/
structure SendRecord (α : Type) where
  sender : α
  calls : List TransportCall
  result : Except CheckedSendError PacketId

namespace SendDirection

def open_at (start : U64) (gates : α → MtuAdmission) : SendDirection α :=
  ⟨PacketIdSequencer.new start, gates⟩

def step [DecidableEq α] (s : SendDirection α) : SenderInput α →
    Option (SendDirection α × List (SendRecord α))
  | .send_checked sender payload_len build_envelope inner =>
    let o := Mtu.send_checked (s.gates sender) payload_len s.sequencer build_envelope inner
    some (⟨o.sequencer, Function.update s.gates sender o.admission⟩,
      [⟨sender, o.calls, o.result⟩])
  | .admission_mut sender gate => some ({ s with gates := Function.update s.gates sender gate }, [])

end SendDirection

/-- The numbers of the sends that went through, in call order. -/
def issued (records : List (SendRecord α)) : List PacketId :=
  records.filterMap (fun r => r.result.toOption)

/-- The datagrams a send handed to its transport. -/
def SendRecord.datagrams (r : SendRecord α) : List Bytes :=
  r.calls.filterMap fun
    | .current_datagram_mtu => none
    | .send_datagram datagram => some datagram

@[simp] theorem issued_append (records records' : List (SendRecord α)) :
    issued (records ++ records') = issued records ++ issued records' := by
  simp [issued]

theorem issued_failed {r : SendRecord α} {error : CheckedSendError} (h : r.result = .error error) :
    issued [r] = [] := by
  simp [issued, h, Except.toOption]

theorem issued_sent {r : SendRecord α} {id : PacketId} (h : r.result = .ok id) :
    issued [r] = [id] := by
  simp [issued, h, Except.toOption]

/-- A send that went through handed over one datagram, which decodes to an envelope
with the number under every limit that its payload keeps. -/
def Carries (r : SendRecord α) (id : PacketId) : Prop :=
  ∃ datagram envelope, r.datagrams = [datagram] ∧ envelope.header.packet_id = id ∧
    envelope.payload.length + FIXED_HEADER_LEN ≤ MAX_DATAGRAM_MTU ∧
    ∀ payload_limit, envelope.payload.length ≤ payload_limit →
      V2Envelope.decode datagram payload_limit = .ok envelope

theorem Sent.carries {sequencer : PacketIdSequencer} {o : CheckedSend} {id : PacketId}
    {envelope : V2Envelope} {payload_limit : ℕ} (h : Sent sequencer o id envelope payload_limit)
    (sender : α) : Carries (⟨sender, o.calls, o.result⟩ : SendRecord α) id := by
  have hvalid := h.valid
  refine ⟨envelope.datagram, envelope, ?_, h.stamped, ?_, ?_⟩
  · simp [SendRecord.datagrams, h.calls]
  · have hlimit := h.limit
    have hwithin := hvalid.within_limit
    omega
  · intro limit hfits
    exact V2Envelope.decode_datagram ⟨hvalid.data_class, hvalid.path_epoch, hvalid.key_epoch,
      hvalid.nonempty, hfits, hvalid.fits⟩

/-! ## Numbering -/

/-- The numbers issued so far are those between the start and the counter, and each
is on its datagram. -/
structure Numbered (start : U64) (s : SendDirection α) (records : List (SendRecord α)) : Prop where
  ids : (issued records).map (fun id => id.get.val) =
    List.range' start.val (issued records).length
  position : s.sequencer.position = start.val + (issued records).length
  carries : ∀ r ∈ records, ∀ id, r.result = .ok id → Carries r id

variable {start : U64} {s s' : SendDirection α} {records new : List (SendRecord α)}

theorem open_numbered (start : U64) (gates : α → MtuAdmission) :
    Numbered start (SendDirection.open_at start gates) [] := by
  refine ⟨by simp [issued], ?_, by simp⟩
  simp [SendDirection.open_at, issued]

theorem Numbered.failed (h : Numbered start s records) {r : SendRecord α}
    {error : CheckedSendError} (hresult : r.result = .error error)
    (hsame : s'.sequencer = s.sequencer) : Numbered start s' (records ++ [r]) := by
  have hissued : issued (records ++ [r]) = issued records := by
    rw [issued_append, issued_failed hresult, List.append_nil]
  refine ⟨?_, ?_, ?_⟩
  · rw [hissued]
    exact h.ids
  · rw [hissued, hsame]
    exact h.position
  · intro r' hr' id hid
    rcases List.mem_append.mp hr' with hold | hnew
    · exact h.carries r' hold id hid
    · rw [List.mem_singleton.mp hnew, hresult] at hid
      contradiction

theorem Numbered.sent (h : Numbered start s records) {r : SendRecord α} {id : PacketId}
    (hresult : r.result = .ok id) (hopen : s.sequencer.exhausted = false)
    (hid : id = ⟨s.sequencer.next⟩) (hcarries : Carries r id)
    (hcommit : s'.sequencer = s.sequencer.commit ⟨⟨s.sequencer.next⟩⟩) :
    Numbered start s' (records ++ [r]) := by
  have hissued : issued (records ++ [r]) = issued records ++ [id] := by
    rw [issued_append, issued_sent hresult]
  have hnext : id.get.val = start.val + (issued records).length := by
    rw [← h.position, hid]
    simp [PacketIdSequencer.position, hopen]
  refine ⟨?_, ?_, ?_⟩
  · rw [hissued, List.map_append, h.ids, List.length_append, List.length_singleton,
      List.range'_1_concat]
    simp [hnext]
  · rw [hissued, hcommit, PacketIdSequencer.position_commit hopen, h.position, List.length_append,
      List.length_singleton, Nat.add_assoc]
  · intro r' hr' id' hid'
    rcases List.mem_append.mp hr' with hold | hnew
    · exact h.carries r' hold id' hid'
    · rw [List.mem_singleton.mp hnew] at hid' ⊢
      rw [hresult, Except.ok.injEq] at hid'
      rwa [← hid']

/-- One call keeps the numbering: a send that fails issues nothing and leaves the
counter, one that succeeds issues the number at the counter. -/
theorem Numbered.step [DecidableEq α] {input : SenderInput α} (h : Numbered start s records)
    (hs : s.step input = some (s', new)) : Numbered start s' (records ++ new) := by
  cases input with
  | admission_mut sender gate =>
    obtain ⟨rfl, rfl⟩ := step_inj hs
    rw [List.append_nil]
    exact ⟨h.ids, h.position, h.carries⟩
  | send_checked sender payload_len build_envelope inner =>
    obtain ⟨rfl, rfl⟩ := step_inj hs
    rcases send_checked_cases (s.gates sender) payload_len s.sequencer build_envelope inner with
      ⟨error, hresult, hsame⟩ | ⟨id, envelope, payload_limit, hresult, hsent⟩
    · exact h.failed hresult hsame
    · exact h.sent hresult hsent.open_counter hsent.number (hsent.carries sender) hsent.committed

/-- Once the last number is out the counter is exhausted. -/
theorem Numbered.exhausted (h : Numbered start s records)
    (hlast : ⟨U64.max⟩ ∈ issued records) : s.sequencer.exhausted = true := by
  have hmem : u64Max ∈ List.range' start.val (issued records).length := by
    rw [← h.ids]
    exact List.mem_map.mpr ⟨_, hlast, U64.val_max⟩
  obtain ⟨-, hbelow⟩ := List.mem_range'_1.mp hmem
  have hposition := h.position
  have hnext := s.sequencer.next.isLt
  by_contra hopen
  simp only [PacketIdSequencer.position, hopen, ↓reduceIte, u64Max] at *
  omega

/-- **Checked sends number packets consecutively.** In every run of sends on senders
that share a counter, whatever the gates, builders and transports do: the numbers
issued are `start`, `start + 1`, …, each on the one datagram its send handed over;
a send that fails leaves the counter; and once the last number is out every send is
refused before its gate or transport is touched. -/
theorem checked_sends_number_packets [DecidableEq α] {gates : α → MtuAdmission}
    {inputs : List (SenderInput α)}
    (hrun : exec SendDirection.step (SendDirection.open_at start gates) inputs =
      some (s, records)) :
    (∀ k id, (issued records)[k]? = some id → id.get.val = start.val + k) ∧
    (∀ r ∈ records, ∀ id, r.result = .ok id → Carries r id) ∧
    ∀ sender payload_len build_envelope inner,
      let o := send_checked (s.gates sender) payload_len s.sequencer build_envelope inner
      (∀ error, o.result = .error error → o.sequencer = s.sequencer) ∧
      (⟨U64.max⟩ ∈ issued records → o =
        ⟨s.gates sender, s.sequencer, [], .error (.PacketIdExhausted .Exhausted)⟩) := by
  have h : Numbered start s records := by
    have hall := exec_along_induct (C := fun _ _ => True) (P := Numbered start) (a := [])
      (fun s input s' new records h _ hs => h.step hs) (open_numbered start gates)
      (along_true _ _) hrun
    rwa [List.nil_append] at hall
  refine ⟨?_, h.carries, ?_⟩
  · intro k id hid
    have hmap : ((issued records).map (fun id => id.get.val))[k]? = some id.get.val := by
      simp [hid]
    obtain ⟨hk, -⟩ := List.getElem?_eq_some_iff.mp hid
    rw [h.ids, List.getElem?_range' hk] at hmap
    simpa using hmap.symm
  · intro sender payload_len build_envelope inner o
    refine ⟨?_, fun hlast => send_checked_exhausted _ _ _ _ (h.exhausted hlast)⟩
    intro error herror
    rcases send_checked_cases (s.gates sender) payload_len s.sequencer build_envelope inner with
      ⟨error', -, hsame⟩ | ⟨id, envelope, payload_limit, hresult, -⟩
    · exact hsame
    · rw [hresult] at herror
      contradiction

/-- Two senders of a direction that has two numbers left. -/
def last_sends : List (SenderInput Bool) :=
  let limit : DatagramMtu := ⟨1352, by decide, by decide⟩
  let build := fun reservation : PacketReservation =>
    (⟨⟨.Bulk, .ClientToGateway, ⟨1⟩, ⟨1⟩, 1, 1, ⟨1⟩, reservation.id⟩, [7]⟩ : V2Envelope)
  [.send_checked true 1 build ⟨some limit, fun _ => .ok ()⟩,
    .send_checked false 1 build ⟨some limit, fun _ => .error .NoDatagramLimit⟩,
    .send_checked false 1 build ⟨some limit, fun _ => .ok ()⟩]

/-- Their gates before the first send. -/
def last_gates (_ : Bool) : MtuAdmission := ⟨.Unknown, ⟨0, 0, 0, 0, 0, 0, 0⟩, ⟨1300⟩⟩

theorem last_sends_run : ∃ s records,
    exec SendDirection.step (SendDirection.open_at (U64.max - 1) last_gates) last_sends =
      some (s, records) ∧ issued records = [⟨U64.max - 1⟩, ⟨U64.max⟩] :=
  ⟨_, _, rfl, by decide⟩

/-- The two numbers go out, and then every send is refused. -/
theorem checked_sends_number_packets_last : ∃ s records,
    exec SendDirection.step (SendDirection.open_at (U64.max - 1) last_gates) last_sends =
      some (s, records) ∧
    ∀ sender payload_len build_envelope inner,
      (send_checked (s.gates sender) payload_len s.sequencer build_envelope inner).result =
        .error (.PacketIdExhausted .Exhausted) := by
  obtain ⟨s, records, hrun, hissued⟩ := last_sends_run
  refine ⟨s, records, hrun, ?_⟩
  intro sender payload_len build_envelope inner
  have hlast : ⟨U64.max⟩ ∈ issued records := by simp [hissued]
  have hrefused := ((checked_sends_number_packets hrun).2.2 sender payload_len build_envelope
    inner).2 hlast
  exact congrArg CheckedSend.result hrefused

end Senders

end StreamGuard.Mtu
