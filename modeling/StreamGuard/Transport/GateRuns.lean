/-
Runs of one send gate: checked sends between the transitions of its path.

The owner of a `CheckedDatagramSender` moves the gate through `admission_mut`, and
every send syncs it with the limit that the transport advertises in that call. The
length the gate admits is the one the caller names; the length that goes out is that
of the envelope built later. What ties the two is the limit handed to `encode`: it is
the effective payload of the gate, so the datagram fits the gate whatever the caller
has named.

`send_checked_gate` says what a call does to the gate; `Accounted` is the invariant of
the counters, which are exact up to the saturation of each.
-/
import StreamGuard.Transport.CheckedSend

set_option autoImplicit false

namespace StreamGuard.Mtu

open StreamGuard StreamGuard.Lib

/-! ## The other transitions -/

namespace PathMtuState

def datagram_mtu : PathMtuState → Option DatagramMtu
  | .Available datagram_mtu _ => some datagram_mtu
  | .Reduced datagram_mtu _ _ => some datagram_mtu
  | .Unknown => none
  | .BlackHole => none

/-- Unknown or black hole. -/
def send_denied (state : PathMtuState) : Bool := state = .Unknown ∨ state = .BlackHole

def blackhole (state : PathMtuState) : PathMtuState × MtuEvent :=
  if state.send_denied = true then (state, .NoOp) else (.BlackHole, .MtuBlackHole)

def recover (state : PathMtuState) (mtu : DatagramMtu) : PathMtuState × MtuEvent :=
  if state ≠ .BlackHole then (state, .NoOp) else discover mtu

/-- The stored payload limit is the one of the stored datagram limit. -/
def Consistent : PathMtuState → Prop
  | .Available datagram_mtu effective => effective.get = datagram_mtu.get - FIXED_HEADER_LEN
  | .Reduced datagram_mtu effective _ => effective.get = datagram_mtu.get - FIXED_HEADER_LEN
  | .Unknown => True
  | .BlackHole => True

end PathMtuState

namespace MtuAdmission

/-- A gate as the constructors make it. -/
def new (tun_payload_mtu : EffectivePayloadMtu) : MtuAdmission :=
  ⟨.Unknown, ⟨0, 0, 0, 0, 0, 0, 0⟩, tun_payload_mtu⟩

def blackhole (g : MtuAdmission) : MtuAdmission := g.enter g.state.blackhole

def recover (g : MtuAdmission) (mtu : DatagramMtu) : MtuAdmission := g.enter (g.state.recover mtu)

end MtuAdmission

section States

variable {state : PathMtuState} {g : MtuAdmission} {mtu dm : DatagramMtu}

theorem PathMtuState.Consistent.reduce (h : state.Consistent) (mtu : DatagramMtu) :
    (state.reduce mtu).1.Consistent := by
  unfold PathMtuState.reduce PathMtuState.reduce_from
  split <;> try split
  all_goals first | exact h | rfl

theorem PathMtuState.Consistent.blackhole (h : state.Consistent) :
    state.blackhole.1.Consistent := by
  unfold PathMtuState.blackhole
  split
  · exact h
  · trivial

theorem PathMtuState.Consistent.recover (h : state.Consistent) (mtu : DatagramMtu) :
    (state.recover mtu).1.Consistent := by
  unfold PathMtuState.recover
  split
  · exact h
  · rfl

theorem PathMtuState.Consistent.sync (h : g.state.Consistent) (mtu : DatagramMtu) :
    (g.sync_from_transport mtu).state.Consistent := by
  unfold MtuAdmission.sync_from_transport
  cases hstate : g.state with
  | Unknown => rfl
  | BlackHole =>
    rw [hstate] at h
    simp only [hstate]
    trivial
  | Available datagram_mtu effective =>
    dsimp only
    split
    · exact h.reduce mtu
    · exact h
  | Reduced datagram_mtu effective previous =>
    dsimp only
    split
    · exact h.reduce mtu
    · exact h

/-- A smaller limit becomes that of the gate. -/
theorem MtuAdmission.datagram_mtu_reduce {old : DatagramMtu}
    (hold : g.state.datagram_mtu = some old) (hlt : mtu.get < old.get) :
    (g.reduce mtu).state.datagram_mtu = some mtu := by
  have hreduce : g.state.reduce mtu = g.state.reduce_from old mtu := by
    cases hstate : g.state with
    | Unknown => simp [hstate, PathMtuState.datagram_mtu] at hold
    | BlackHole => simp [hstate, PathMtuState.datagram_mtu] at hold
    | Available datagram_mtu effective =>
      rw [hstate] at hold
      rw [← Option.some.inj hold, PathMtuState.reduce]
    | Reduced datagram_mtu effective previous =>
      rw [hstate] at hold
      rw [← Option.some.inj hold, PathMtuState.reduce]
  rw [reduce, enter, hreduce, PathMtuState.reduce_from, if_neg (Nat.not_le.mpr hlt)]
  rfl

/-- After a sync the gate's limit is at most that of the transport. -/
theorem MtuAdmission.sync_le (h : (g.sync_from_transport mtu).state.datagram_mtu = some dm) :
    dm.get ≤ mtu.get := by
  have hlower : ∀ old, g.state.datagram_mtu = some old →
      (if mtu.get < old.get then g.reduce mtu else g).state.datagram_mtu = some dm →
      dm.get ≤ mtu.get := by
    intro old hold h
    by_cases hlt : mtu.get < old.get
    · rw [if_pos hlt, datagram_mtu_reduce hold hlt, Option.some.injEq] at h
      rw [h]
    · rw [if_neg hlt, hold, Option.some.injEq] at h
      rw [← h]
      exact Nat.not_lt.mp hlt
  unfold sync_from_transport at h
  cases hstate : g.state with
  | Unknown =>
    simp only [hstate, discover, enter, PathMtuState.discover, PathMtuState.datagram_mtu,
      Option.some.injEq] at h
    rw [h]
  | BlackHole => simp [hstate, PathMtuState.datagram_mtu] at h
  | Available datagram_mtu effective =>
    simp only [hstate] at h
    exact hlower datagram_mtu (by rw [hstate, PathMtuState.datagram_mtu]) h
  | Reduced datagram_mtu effective previous =>
    simp only [hstate] at h
    exact hlower datagram_mtu (by rw [hstate, PathMtuState.datagram_mtu]) h

/-- A sync does not leave the black hole. -/
theorem MtuAdmission.sync_blackhole (h : g.state = .BlackHole) :
    g.sync_from_transport mtu = g := by
  unfold sync_from_transport
  rw [h]

end States

/-! ## What a call does to its gate -/

/-- How a send ends, as the counters see it. -/
inductive SendOutcome where
  | Enqueued
  | EncodeFailed
  | TransportFailed
  | Rejected
  | Exhausted
  deriving DecidableEq

def SendOutcome.of : Except CheckedSendError PacketId → SendOutcome
  | .ok _ => .Enqueued
  | .error (.PacketIdExhausted _) => .Exhausted
  | .error (.Rejected _) => .Rejected
  | .error (.BuildMismatch _ _) => .EncodeFailed
  | .error (.Encode _) => .EncodeFailed
  | .error (.Transport _) => .TransportFailed

/-- The counters a send that ends so has bumped. -/
def MtuMetrics.count (m : MtuMetrics) : SendOutcome → MtuMetrics
  | .Enqueued =>
    { m with
      sends_admitted := saturatingAdd m.sends_admitted 1
      sends_enqueued := saturatingAdd m.sends_enqueued 1 }
  | .EncodeFailed =>
    { m with
      sends_admitted := saturatingAdd m.sends_admitted 1
      encode_failures := saturatingAdd m.encode_failures 1 }
  | .TransportFailed =>
    { m with
      sends_admitted := saturatingAdd m.sends_admitted 1
      transport_failures := saturatingAdd m.transport_failures 1 }
  | .Rejected => { m with sends_rejected := saturatingAdd m.sends_rejected 1 }
  | .Exhausted => m

/-- One call on the gate `g`, which is the gate before it or that gate synced with the
transport: the state is left, the counters of its end are bumped, and a datagram goes out
only from a synced gate whose limit it keeps. -/
structure OnGate (admission : MtuAdmission) (advertised : Option DatagramMtu) (o : CheckedSend)
    (g : MtuAdmission) : Prop where
  gate : g = admission ∨ ∃ mtu, advertised = some mtu ∧ g = admission.sync_from_transport mtu
  moved : o.admission = { g with metrics := g.metrics.count (.of o.result) }
  within : ∀ datagram, .send_datagram datagram ∈ o.calls → ∃ mtu dm, advertised = some mtu ∧
    g = admission.sync_from_transport mtu ∧ g.state.datagram_mtu = some dm ∧
      FIXED_HEADER_LEN < datagram.length ∧ datagram.length ≤ dm.get

section Call

variable (admission : MtuAdmission) (payload_len : ℕ) (sequencer : PacketIdSequencer)
  (build_envelope : PacketReservation → V2Envelope) (inner : DatagramSender)

/-- What `encode` writes has a payload, and fits the limit the payload was checked against. -/
theorem encoded_length {envelope : V2Envelope} {payload_limit : ℕ} {datagram : Bytes}
    (h : envelope.encode payload_limit = .ok datagram) :
    FIXED_HEADER_LEN < datagram.length ∧ datagram.length ≤ FIXED_HEADER_LEN + payload_limit := by
  obtain ⟨hvalid, rfl⟩ := V2Envelope.encode_eq_ok.mp h
  have hsize := V2Envelope.length_datagram envelope
  have hnonempty := hvalid.nonempty
  have hfits := hvalid.within_limit
  rw [hsize]
  omega

theorem fits_datagram_eq_ok {datagram_len : ℕ} {limit dm : DatagramMtu}
    (h : fits_datagram datagram_len limit = .ok dm) : limit = dm := by
  unfold fits_datagram at h
  split at h
  · contradiction
  · exact Except.ok.inj h

/-- The limit that a datagram is checked against is that of the state. -/
theorem check_datagram_eq_ok {datagram_len : ℕ} {state : PathMtuState} {dm : DatagramMtu}
    (h : check_datagram datagram_len state = .ok dm) : state.datagram_mtu = some dm := by
  unfold check_datagram at h
  split at h
  · contradiction
  · cases state with
    | Unknown => contradiction
    | BlackHole => contradiction
    | Available limit _ => exact congrArg some (fits_datagram_eq_ok h)
    | Reduced limit _ _ => exact congrArg some (fits_datagram_eq_ok h)

/-- The gate admits only in a state with a limit, and its answer is the payload of it. -/
theorem admit_envelope_eq_ok {g g' : MtuAdmission} {datagram_len : ℕ}
    {effective : EffectivePayloadMtu}
    (h : g.admit_envelope payload_len datagram_len = (g', .ok effective)) :
    (∃ dm, g.state.datagram_mtu = some dm ∧ effective = dm.effective_payload) ∧
      g' = { g with metrics := { g.metrics with
        sends_admitted := saturatingAdd g.metrics.sends_admitted 1 } } := by
  unfold MtuAdmission.admit_envelope at h
  by_cases hempty : payload_len = 0
  · simp [hempty] at h
  · simp only [hempty, ↓reduceIte, Prod.mk.injEq] at h
    obtain ⟨rfl, h⟩ := h
    unfold admit_datagram at h ⊢
    cases hcheck : check_datagram datagram_len g.state with
    | error reason => simp [hcheck, Except.map] at h
    | ok dm =>
      simp only [hcheck, Except.map, Except.ok.injEq] at h
      exact ⟨⟨dm, check_datagram_eq_ok hcheck, h.symm⟩, rfl⟩

theorem admit_envelope_eq_error {g g' : MtuAdmission} {datagram_len : ℕ} {reason : MtuRejectReason}
    (h : g.admit_envelope payload_len datagram_len = (g', .error reason)) :
    g' = { g with metrics := { g.metrics with
        sends_rejected := saturatingAdd g.metrics.sends_rejected 1 } } := by
  unfold MtuAdmission.admit_envelope at h
  by_cases hempty : payload_len = 0
  · simp only [hempty, ↓reduceIte, Prod.mk.injEq] at h
    exact h.1.symm
  · simp only [hempty, ↓reduceIte, Prod.mk.injEq] at h
    obtain ⟨rfl, h⟩ := h
    unfold admit_datagram at h ⊢
    cases hcheck : check_datagram datagram_len g.state with
    | error reason => rfl
    | ok dm => simp [hcheck, Except.map] at h

/-- **What a call does to its gate.** The cases are the exits of the pipeline. -/
theorem send_checked_gate :
    let o := send_checked admission payload_len sequencer build_envelope inner
    ∃ g, OnGate admission inner.current_datagram_mtu o g := by
  intro o
  unfold o send_checked
  by_cases hexhausted : sequencer.is_exhausted = true
  · rw [if_pos hexhausted]
    exact ⟨admission, .inl rfl, rfl, by simp⟩
  rw [if_neg hexhausted]
  split
  · exact ⟨admission, .inl rfl, rfl, by simp⟩
  next mtu hmtu =>
  dsimp only
  have hsynced : ∃ mtu', inner.current_datagram_mtu = some mtu' ∧
      admission.sync_from_transport mtu = admission.sync_from_transport mtu' := ⟨mtu, hmtu, rfl⟩
  split
  next admission' reason hrejected =>
    refine ⟨admission.sync_from_transport mtu, .inr hsynced, ?_, by simp⟩
    exact admit_envelope_eq_error _ hrejected
  next admission' effective hadmitted =>
  obtain ⟨⟨dm, hdm, rfl⟩, rfl⟩ := admit_envelope_eq_ok _ hadmitted
  have hopen : sequencer.exhausted = false := Bool.eq_false_iff.mpr hexhausted
  simp only [send_admitted, PacketIdSequencer.preview, hopen, Bool.false_eq_true, ↓reduceIte]
  split
  · exact ⟨_, .inr hsynced, rfl, by simp⟩
  split
  · exact ⟨_, .inr hsynced, rfl, by simp⟩
  next datagram hencoded =>
  -- from here on the one datagram of the call is handed over
  have hwithin : ∀ datagram', TransportCall.send_datagram datagram' ∈
      [TransportCall.current_datagram_mtu, .send_datagram datagram] → ∃ mtu' dm',
        inner.current_datagram_mtu = some mtu' ∧
        admission.sync_from_transport mtu = admission.sync_from_transport mtu' ∧
        (admission.sync_from_transport mtu).state.datagram_mtu = some dm' ∧
        FIXED_HEADER_LEN < datagram'.length ∧ datagram'.length ≤ dm'.get := by
    intro datagram' hmem
    obtain rfl : datagram' = datagram := by simpa using hmem
    obtain ⟨hlower, hupper⟩ := encoded_length hencoded
    have hheader := dm.holds_header
    refine ⟨mtu, dm, hmtu, rfl, hdm, hlower, ?_⟩
    simp only [DatagramMtu.effective_payload] at hupper
    omega
  split
  · exact ⟨_, .inr hsynced, rfl, hwithin⟩
  · exact ⟨_, .inr hsynced, rfl, hwithin⟩

end Call

/-! ## Runs -/

/-- What the owner of a sender does: a checked send, with any counter, builder and transport
answers, or a transition of the gate through `admission_mut`. -/
inductive GateInput where
  | send_checked (payload_len : ℕ) (sequencer : PacketIdSequencer)
      (build_envelope : PacketReservation → V2Envelope) (inner : DatagramSender)
  | discover (mtu : DatagramMtu)
  | reduce (new_mtu : DatagramMtu)
  | blackhole
  | recover (mtu : DatagramMtu)

/-- One send: the state of the gate before and after it, what the transport advertised, the
calls on the transport and the answer. -/
structure GateRecord where
  before : PathMtuState
  after : PathMtuState
  advertised : Option DatagramMtu
  calls : List TransportCall
  result : Except CheckedSendError PacketId

def MtuAdmission.step (g : MtuAdmission) : GateInput → Option (MtuAdmission × List GateRecord)
  | .send_checked payload_len sequencer build_envelope inner =>
    let o := Mtu.send_checked g payload_len sequencer build_envelope inner
    some (o.admission,
      [⟨g.state, o.admission.state, inner.current_datagram_mtu, o.calls, o.result⟩])
  | .discover mtu => some (g.discover mtu, [])
  | .reduce new_mtu => some (g.reduce new_mtu, [])
  | .blackhole => some (g.blackhole, [])
  | .recover mtu => some (g.recover mtu, [])

/-- Every datagram handed over in the send keeps the limit advertised in it and the limit of
the gate, which is not in the black hole. -/
def GateRecord.WithinLimits (r : GateRecord) : Prop :=
  ∀ datagram, .send_datagram datagram ∈ r.calls → ∃ transport_mtu dm,
    r.advertised = some transport_mtu ∧ r.before ≠ .BlackHole ∧ r.after ≠ .BlackHole ∧
    r.after.datagram_mtu = some dm ∧ FIXED_HEADER_LEN < datagram.length ∧
    datagram.length ≤ transport_mtu.get ∧ datagram.length ≤ dm.get

/-- How many of the sends have ended so. -/
def tally (records : List GateRecord) (ending : SendOutcome) : ℕ :=
  records.countP (fun r => SendOutcome.of r.result = ending)

/-- The sends that passed the gate. -/
def tally_admitted (records : List GateRecord) : ℕ :=
  tally records .Enqueued + tally records .EncodeFailed + tally records .TransportFailed

/-- Each counter tells its number of sends, up to its saturation. -/
structure Accounted (m : MtuMetrics) (records : List GateRecord) : Prop where
  admitted : m.sends_admitted = min (tally_admitted records) u64Max
  enqueued : m.sends_enqueued = min (tally records .Enqueued) u64Max
  encode_failures : m.encode_failures = min (tally records .EncodeFailed) u64Max
  transport_failures : m.transport_failures = min (tally records .TransportFailed) u64Max
  rejected : m.sends_rejected = min (tally records .Rejected) u64Max

section Runs

variable {g g' : MtuAdmission} {records new : List GateRecord} {r : GateRecord}

theorem tally_snoc (ending : SendOutcome) : tally (records ++ [r]) ending =
    tally records ending + if SendOutcome.of r.result = ending then 1 else 0 := by
  simp [tally, List.countP_append, List.countP_singleton]

/-- Every send ends in one of the five ways. -/
theorem length_eq_tally (records : List GateRecord) : records.length =
    tally_admitted records + tally records .Rejected + tally records .Exhausted := by
  induction records using List.reverseRecOn with
  | nil => rfl
  | append_singleton records r ih =>
    rw [List.length_append, List.length_singleton, ih]
    cases hending : SendOutcome.of r.result <;> simp [tally_admitted, tally_snoc, hending] <;> omega

theorem Accounted.count {m : MtuMetrics} (h : Accounted m records) (r : GateRecord) :
    Accounted (m.count (.of r.result)) (records ++ [r]) := by
  obtain ⟨hadmitted, henqueued, hencode, htransport, hrejected⟩ := h
  cases hending : SendOutcome.of r.result <;>
    constructor <;>
    simp only [MtuMetrics.count, tally_admitted, tally_snoc, hending, hadmitted, henqueued,
      hencode, htransport, hrejected, saturatingAdd_min, reduceCtorEq, ↓reduceIte, add_zero,
      Nat.add_right_comm _ 1, Nat.add_assoc]

/-- The transitions leave the counters of the sends. -/
theorem Accounted.congr {m m' : MtuMetrics} (h : Accounted m records)
    (hadmitted : m'.sends_admitted = m.sends_admitted)
    (henqueued : m'.sends_enqueued = m.sends_enqueued)
    (hencode : m'.encode_failures = m.encode_failures)
    (htransport : m'.transport_failures = m.transport_failures)
    (hrejected : m'.sends_rejected = m.sends_rejected) : Accounted m' records :=
  ⟨hadmitted.trans h.admitted, henqueued.trans h.enqueued, hencode.trans h.encode_failures,
    htransport.trans h.transport_failures, hrejected.trans h.rejected⟩

theorem Accounted.enter (h : Accounted g.metrics records) (t : PathMtuState × MtuEvent) :
    Accounted (g.enter t).metrics records := by
  unfold MtuAdmission.enter MtuMetrics.record_event
  dsimp only
  split
  all_goals exact h.congr rfl rfl rfl rfl rfl

theorem Accounted.sync (h : Accounted g.metrics records) (mtu : DatagramMtu) :
    Accounted (g.sync_from_transport mtu).metrics records := by
  unfold MtuAdmission.sync_from_transport
  split
  · exact h.enter _
  · split
    · exact h.enter _
    · exact h
  · split
    · exact h.enter _
    · exact h
  · exact h

/-- The invariant of a run: the counters, the stored limits, and the datagrams so far. -/
structure Gated (g : MtuAdmission) (records : List GateRecord) : Prop where
  accounted : Accounted g.metrics records
  consistent : g.state.Consistent
  within : ∀ r ∈ records, r.WithinLimits

theorem new_gated (tun_payload_mtu : EffectivePayloadMtu) :
    Gated (MtuAdmission.new tun_payload_mtu) [] :=
  ⟨⟨rfl, rfl, rfl, rfl, rfl⟩, trivial, by simp⟩

theorem Gated.enter (h : Gated g records) {t : PathMtuState × MtuEvent} (ht : t.1.Consistent) :
    Gated (g.enter t) records :=
  ⟨h.accounted.enter t, ht, h.within⟩

/-- A send, by what it does to its gate. -/
theorem Gated.send (h : Gated g records) {advertised : Option DatagramMtu} {o : CheckedSend}
    {synced : MtuAdmission} (ho : OnGate g advertised o synced) :
    Gated o.admission (records ++ [⟨g.state, o.admission.state, advertised, o.calls, o.result⟩]) := by
  have hstate : o.admission.state = synced.state := by rw [ho.moved]
  have hsynced : Accounted synced.metrics records ∧ synced.state.Consistent := by
    rcases ho.gate with rfl | ⟨mtu, -, rfl⟩
    · exact ⟨h.accounted, h.consistent⟩
    · exact ⟨h.accounted.sync mtu, h.consistent.sync mtu⟩
  refine ⟨?_, hstate ▸ hsynced.2, ?_⟩
  · rw [ho.moved]
    exact hsynced.1.count ⟨g.state, _, advertised, o.calls, o.result⟩
  · intro r hr
    rcases List.mem_append.mp hr with hold | hnew
    · exact h.within r hold
    rw [List.mem_singleton.mp hnew]
    intro datagram hmem
    obtain ⟨mtu, dm, hadvertised, rfl, hdm, hlower, hupper⟩ := ho.within datagram hmem
    have hopen : (g.sync_from_transport mtu).state ≠ .BlackHole := by
      intro hblackhole
      simp [hblackhole, PathMtuState.datagram_mtu] at hdm
    refine ⟨mtu, dm, hadvertised, ?_, hstate ▸ hopen, hstate ▸ hdm, hlower, ?_, hupper⟩
    · intro hbefore
      rw [MtuAdmission.sync_blackhole hbefore] at hopen
      exact hopen hbefore
    · exact hupper.trans (MtuAdmission.sync_le hdm)

theorem Gated.step {input : GateInput} (h : Gated g records)
    (hs : g.step input = some (g', new)) : Gated g' (records ++ new) := by
  cases input with
  | send_checked payload_len sequencer build_envelope inner =>
    obtain ⟨rfl, rfl⟩ := step_inj hs
    obtain ⟨synced, ho⟩ := send_checked_gate g payload_len sequencer build_envelope inner
    exact h.send ho
  | discover mtu =>
    obtain ⟨rfl, rfl⟩ := step_inj hs
    rw [List.append_nil]
    exact h.enter rfl
  | reduce new_mtu =>
    obtain ⟨rfl, rfl⟩ := step_inj hs
    rw [List.append_nil]
    exact h.enter (h.consistent.reduce new_mtu)
  | blackhole =>
    obtain ⟨rfl, rfl⟩ := step_inj hs
    rw [List.append_nil]
    exact h.enter h.consistent.blackhole
  | recover mtu =>
    obtain ⟨rfl, rfl⟩ := step_inj hs
    rw [List.append_nil]
    exact h.enter (h.consistent.recover mtu)

/-- **The gate.** In every run of sends and transitions on a new gate: a datagram handed to
the transport is longer than the header and keeps both the limit advertised in its send and
that of the gate; none is handed over in the black hole or without an advertised limit; the
stored payload limit is the stored datagram limit less the header; and unless a counter
saturates, the admitted sends are those enqueued and those failed after the gate, and all
sends are those admitted, those rejected and those answered with an exhausted counter. -/
theorem gate_limits_and_conserves {tun_payload_mtu : EffectivePayloadMtu}
    {inputs : List GateInput}
    (hrun : exec MtuAdmission.step (MtuAdmission.new tun_payload_mtu) inputs = some (g, records)) :
    (∀ r ∈ records, r.WithinLimits) ∧ g.state.Consistent ∧
    (tally_admitted records ≤ u64Max → tally records .Rejected ≤ u64Max →
      g.metrics.sends_admitted = g.metrics.sends_enqueued + g.metrics.encode_failures +
          g.metrics.transport_failures ∧
        records.length = g.metrics.sends_admitted + g.metrics.sends_rejected +
          tally records .Exhausted) := by
  have h : Gated g records := by
    have hall := exec_along_induct (C := fun _ _ => True) (P := Gated) (a := [])
      (fun _ _ _ _ _ hP _ hs => hP.step hs) (new_gated tun_payload_mtu) (along_true _ _) hrun
    rwa [List.nil_append] at hall
  refine ⟨h.within, h.consistent, ?_⟩
  intro hadmitted hrejected
  obtain ⟨h₁, h₂, h₃, h₄, h₅⟩ := h.accounted
  have hlength := length_eq_tally records
  rw [h₁, h₂, h₃, h₄, h₅, hlength]
  unfold tally_admitted at *
  omega

theorem header_fits_limit : FIXED_HEADER_LEN ≤ 1352 := by decide

theorem limit_fits_datagram : 1352 ≤ MAX_DATAGRAM_MTU := by decide

/-- A send before and after a reduction, one with an oversized payload, and one in the
black hole. -/
def gate_run : List GateInput :=
  let limit : DatagramMtu := ⟨1352, header_fits_limit, limit_fits_datagram⟩
  let smaller : DatagramMtu := ⟨60, by decide, by decide⟩
  let build := fun reservation : PacketReservation =>
    (⟨⟨.Bulk, .ClientToGateway, ⟨1⟩, ⟨1⟩, 1, 1, ⟨1⟩, reservation.id⟩, [7]⟩ : V2Envelope)
  let inner : DatagramSender := ⟨some limit, fun _ => .ok ()⟩
  [.send_checked 1 (.new 0) build inner, .reduce smaller, .send_checked 1 (.new 1) build inner,
    .send_checked 9 (.new 2) build inner, .blackhole, .send_checked 1 (.new 2) build inner]

theorem gate_limits_and_conserves_reduced : ∃ g records,
    exec MtuAdmission.step (MtuAdmission.new ⟨1300⟩) gate_run = some (g, records) ∧
    g.metrics.sends_admitted = 2 ∧ g.metrics.sends_rejected = 2 ∧ records.length = 4 ∧
    g.metrics.sends_admitted = g.metrics.sends_enqueued + g.metrics.encode_failures +
      g.metrics.transport_failures := by
  refine ⟨_, _, rfl, by decide, by decide, by decide, ?_⟩
  have h := gate_limits_and_conserves
    (rfl : exec MtuAdmission.step (MtuAdmission.new ⟨1300⟩) gate_run = some (_, _))
  exact (h.2.2 (by decide) (by decide)).1

end Runs

end StreamGuard.Mtu
