/-
The send gate of `sg-transport/src/mtu.rs`.

A path advertises a limit for whole datagrams, header included. The gate keeps the
smallest limit it has seen since the path was discovered and admits a send only
if its datagram fits. Sizes are natural numbers; the sums of the source that
could leave a machine word saturate there.
-/
import StreamGuard.Protocol.Envelope

set_option autoImplicit false

namespace StreamGuard.Mtu

open StreamGuard

/-! ## Sizes -/

def MAX_DATAGRAM_MTU : ℕ := 65535

/-- The size of a whole datagram, as `DatagramMtu::new` accepts it. -/
structure DatagramMtu where
  get : ℕ
  holds_header : FIXED_HEADER_LEN ≤ get
  at_most : get ≤ MAX_DATAGRAM_MTU
  deriving DecidableEq

/-- The largest payload of one datagram. -/
structure EffectivePayloadMtu where
  get : ℕ
  deriving DecidableEq

def DatagramMtu.effective_payload (mtu : DatagramMtu) : EffectivePayloadMtu :=
  ⟨mtu.get - FIXED_HEADER_LEN⟩

/-! ## The state of a path -/

inductive PathMtuState where
  | Unknown
  | Available (datagram_mtu : DatagramMtu) (effective : EffectivePayloadMtu)
  | Reduced (datagram_mtu : DatagramMtu) (effective : EffectivePayloadMtu) (previous : DatagramMtu)
  | BlackHole
  deriving DecidableEq

/-- The transitions the policy log records. -/
inductive MtuEvent where
  | MtuDiscovered (datagram_mtu : ℕ)
  | MtuReduced (previous current : ℕ)
  | ReduceIgnored (requested current : ℕ)
  | MtuBlackHole
  | NoOp

namespace PathMtuState

def discover (mtu : DatagramMtu) : PathMtuState × MtuEvent :=
  (.Available mtu mtu.effective_payload, .MtuDiscovered mtu.get)

/-- Only a strictly smaller limit replaces the current one. -/
def reduce_from (state : PathMtuState) (previous new_mtu : DatagramMtu) : PathMtuState × MtuEvent :=
  if previous.get ≤ new_mtu.get then (state, .ReduceIgnored new_mtu.get previous.get)
  else (.Reduced new_mtu new_mtu.effective_payload previous,
    .MtuReduced previous.get new_mtu.get)

def reduce (state : PathMtuState) (new_mtu : DatagramMtu) : PathMtuState × MtuEvent :=
  match state with
  | .Available datagram_mtu _ => state.reduce_from datagram_mtu new_mtu
  | .Reduced datagram_mtu _ _ => state.reduce_from datagram_mtu new_mtu
  | .Unknown => (state, .NoOp)
  | .BlackHole => (state, .NoOp)

end PathMtuState

/-! ## Admission -/

/-- Why the gate rejects a send, `MtuRejectReason`. -/
inductive MtuRejectReason where
  | EmptyPayload
  | PayloadExceedsMtu (payload_len effective_mtu : ℕ)
  | DatagramExceedsMtu (datagram_len datagram_mtu : ℕ)
  | DatagramBelowHeader (datagram_len minimum : ℕ)
  | PathMtuUnknown
  | PathMtuBlackHole

/-- The counters of a gate, each of them saturating. -/
structure MtuMetrics where
  sends_admitted : ℕ
  sends_enqueued : ℕ
  sends_rejected : ℕ
  encode_failures : ℕ
  transport_failures : ℕ
  mtu_reductions : ℕ
  blackholes_detected : ℕ

def MtuMetrics.record_event (metrics : MtuMetrics) : MtuEvent → MtuMetrics
  | .MtuReduced _ _ =>
    { metrics with mtu_reductions := saturatingAdd metrics.mtu_reductions 1 }
  | .MtuBlackHole =>
    { metrics with blackholes_detected := saturatingAdd metrics.blackholes_detected 1 }
  | .MtuDiscovered _ => metrics
  | .ReduceIgnored _ _ => metrics
  | .NoOp => metrics

def fits_datagram (datagram_len : ℕ) (datagram_mtu : DatagramMtu) :
    Except MtuRejectReason DatagramMtu :=
  if datagram_mtu.get < datagram_len then
    .error (.DatagramExceedsMtu datagram_len datagram_mtu.get)
  else .ok datagram_mtu

def check_datagram (datagram_len : ℕ) (state : PathMtuState) : Except MtuRejectReason DatagramMtu :=
  if datagram_len < FIXED_HEADER_LEN then
    .error (.DatagramBelowHeader datagram_len FIXED_HEADER_LEN)
  else match state with
    | .Unknown => .error .PathMtuUnknown
    | .BlackHole => .error .PathMtuBlackHole
    | .Available datagram_mtu _ => fits_datagram datagram_len datagram_mtu
    | .Reduced datagram_mtu _ _ => fits_datagram datagram_len datagram_mtu

def admit_datagram (datagram_len : ℕ) (state : PathMtuState) (metrics : MtuMetrics) :
    MtuMetrics × Except MtuRejectReason DatagramMtu :=
  match check_datagram datagram_len state with
  | .ok datagram_mtu =>
    ({ metrics with sends_admitted := saturatingAdd metrics.sends_admitted 1 }, .ok datagram_mtu)
  | .error reason =>
    ({ metrics with sends_rejected := saturatingAdd metrics.sends_rejected 1 }, .error reason)

/-- The gate of one path. `tun_payload_mtu` is the payload the path must be able to
carry; no send reads it. -/
structure MtuAdmission where
  state : PathMtuState
  metrics : MtuMetrics
  tun_payload_mtu : EffectivePayloadMtu

namespace MtuAdmission

def enter (g : MtuAdmission) (transition : PathMtuState × MtuEvent) : MtuAdmission :=
  { g with state := transition.1, metrics := g.metrics.record_event transition.2 }

def discover (g : MtuAdmission) (mtu : DatagramMtu) : MtuAdmission :=
  g.enter (PathMtuState.discover mtu)

def reduce (g : MtuAdmission) (new_mtu : DatagramMtu) : MtuAdmission :=
  g.enter (g.state.reduce new_mtu)

/-- `sync_from_transport`: a limit of the transport lowers that of the gate, and never
raises it. -/
def sync_from_transport (g : MtuAdmission) (transport_mtu : DatagramMtu) : MtuAdmission :=
  match g.state with
  | .Unknown => g.discover transport_mtu
  | .Available datagram_mtu _ =>
    if transport_mtu.get < datagram_mtu.get then g.reduce transport_mtu else g
  | .Reduced datagram_mtu _ _ =>
    if transport_mtu.get < datagram_mtu.get then g.reduce transport_mtu else g
  | .BlackHole => g

def reject_absent_transport_limit (g : MtuAdmission) : MtuAdmission × MtuRejectReason :=
  ({ g with metrics := { g.metrics with
      sends_rejected := saturatingAdd g.metrics.sends_rejected 1 } }, .PathMtuUnknown)

/-- `admit_envelope`. -/
def admit_envelope (g : MtuAdmission) (payload_len datagram_len : ℕ) :
    MtuAdmission × Except MtuRejectReason EffectivePayloadMtu :=
  if payload_len = 0 then
    ({ g with metrics := { g.metrics with
        sends_rejected := saturatingAdd g.metrics.sends_rejected 1 } }, .error .EmptyPayload)
  else
    let admitted := admit_datagram datagram_len g.state g.metrics
    ({ g with metrics := admitted.1 }, admitted.2.map DatagramMtu.effective_payload)

def record_enqueue_success (g : MtuAdmission) : MtuAdmission :=
  { g with metrics := { g.metrics with
      sends_enqueued := saturatingAdd g.metrics.sends_enqueued 1 } }

def record_encode_failure (g : MtuAdmission) : MtuAdmission :=
  { g with metrics := { g.metrics with
      encode_failures := saturatingAdd g.metrics.encode_failures 1 } }

def record_transport_failure (g : MtuAdmission) : MtuAdmission :=
  { g with metrics := { g.metrics with
      transport_failures := saturatingAdd g.metrics.transport_failures 1 } }

/-- What the gate admits fits a datagram. -/
theorem admit_envelope_ok {g g' : MtuAdmission} {payload_len datagram_len : ℕ}
    {effective : EffectivePayloadMtu}
    (h : g.admit_envelope payload_len datagram_len = (g', .ok effective)) :
    effective.get + FIXED_HEADER_LEN ≤ MAX_DATAGRAM_MTU := by
  unfold admit_envelope at h
  by_cases hempty : payload_len = 0
  · simp [hempty] at h
  · simp only [hempty, ↓reduceIte, Prod.mk.injEq] at h
    obtain ⟨-, h⟩ := h
    cases hadmitted : (admit_datagram datagram_len g.state g.metrics).2 with
    | error reason => simp [hadmitted, Except.map] at h
    | ok datagram_mtu =>
      have heffective : datagram_mtu.effective_payload = effective := by
        simpa [hadmitted, Except.map] using h
      have hheader := datagram_mtu.holds_header
      have hcap := datagram_mtu.at_most
      rw [← heffective]
      show datagram_mtu.get - FIXED_HEADER_LEN + FIXED_HEADER_LEN ≤ MAX_DATAGRAM_MTU
      omega

end MtuAdmission

end StreamGuard.Mtu
