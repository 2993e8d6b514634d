/-
`reader_loop` of `streamguard-gateway/src/tunnel.rs`: what one connection does to the gateway.

The first frame decides. An Init is verified, and accredits the connection for the session
of its ticket; any other Control ends the connection; and a frame that is no Control is served
like those of an accredited connection, whatever session it names. From then on the
session of a frame is compared with the accredited one, where there is one.

`Untouched` and `Confined` say what a connection may do before and after it is
accredited; the main result says which connections keep to that.
-/
import StreamGuard.V1.ControlMsg
import StreamGuard.V1.FlowTable
import StreamGuard.V1.Session
import StreamGuard.Lib.Run

set_option autoImplicit false

namespace StreamGuard.V1

open StreamGuard StreamGuard.Lib

/-! ## The model -/

/-- The counters that readers advance. -/
structure Counters where
  sessions : ℕ
  paths : ℕ
  auth_rejections : ℕ
  frames_to_host : ℕ
  duplicates_dropped : ℕ
  keepalives : ℕ
  path_selects : ℕ
  weight_sets : ℕ
  paths_evicted : ℕ
  probes_replied : ℕ

/-- What the tasks of the gateway share. -/
structure Tunnel (F : Type) where
  sessions : SessionManager F
  flows : Map FlowKey SessionId
  counters : Counters

/-- What a reader sends out: payloads to the TUN, envelopes back to the peer. -/
inductive Effect where
  | Host (u : Uplink)
  | Peer (e : Envelope)
  deriving DecidableEq

inductive ReaderPoint where
  | Bootstrap
  | Serving (first_session : Option SessionId) (binds : List (SessionId × PathId))
  | Ended

structure ReaderLoop (F : Type) where
  tunnel : Tunnel F
  point : ReaderPoint

inductive ReaderEvent (F : Type) where
  /-- `recv` yields a datagram, or the connection is lost. The times are those of the system
  clock and of the monotonic one, `sent` is what the transport answers to a reply. -/
  | Receive (datagram : Option Bytes) (unix_now now : ℕ) (sent : Except Error Unit)
  /-- Other tasks of the gateway run. -/
  | Others (tunnel : Tunnel F)

/-- `recv` of the QUIC transport. -/
def recv : Option Bytes → Outcome Error Envelope
  | none => .err (.Transport "recv datagram")
  | some datagram => (Envelope.decode datagram).bind (fun r => .ok r.1)

def session_prefix (id : SessionId) : U32 := U32.from_be_bytes id.wire

/-- `sg_auth::verify`, over what its last line gets: the number in the claim `sid` of a ticket
that passed all checks. -/
def verify (authenticate : ℕ → String → Except String U32) (unix_now : ℕ) (token : String) :
    Except String SessionId :=
  (authenticate unix_now token).map (fun number => SessionId.of_wire (U32.to_be_bytes number))

def verify_init (authenticate : ℕ → String → Except String U32) (unix_now : ℕ) (sid : U32)
    (token : String) : Except String SessionId :=
  match verify authenticate unix_now token with
  | .error reason => .error reason
  | .ok id =>
    if session_prefix id ≠ sid then .error "ticket session id does not match Init sid" else .ok id

/-- A reply that mirrors the envelope of an Init. The payload is expected to encode. -/
def control_reply (init : Envelope) (msg : ControlMsg U32) : Outcome Error Envelope :=
  match msg.encode with
  | .error _ => .panic
  | .ok payload => .ok { init with packet_type := .Control, flags := 0, payload }

/-- The reply to a probe. -/
def path_status (probe : Envelope) : Envelope :=
  { probe with version := VERSION, packet_type := .PathStatus, flags := 0 }

/-- What the connection takes of a reply. -/
def replied (sent : Except Error Unit) (e : Envelope) : List Effect :=
  match sent with
  | .ok _ => [.Peer e]
  | .error _ => []

namespace Tunnel

variable {F : Type} [F32 F]

/-- Writes a session back. -/
def put (t : Tunnel F) (id : SessionId) (session : Session F) : Tunnel F :=
  { t with sessions := t.sessions.insert id session }

/-- Binds the connection to a path that the session does not have yet; what was bound. -/
def bind (t : Tunnel F) (connection : Connection) (id : SessionId) (path : PathId) :
    Tunnel F × List (SessionId × PathId) :=
  let session := SessionManager.get_or_create t.sessions id
  let t := if session.path_count = 0 then
      { t with counters := { t.counters with sessions := t.counters.sessions + 1 } }
    else t
  if session.has_path path = true then (t.put id session, [])
  else
    let added := session.add_path connection path
    match added.2 with
    | .ok _ => (t.put id added.1, [(id, path)])
    | .error _ => (t.put id added.1, [])

omit [F32 F] in
@[simp] theorem lookup_put (t : Tunnel F) (id : SessionId) (session : Session F) :
    (t.put id session).sessions.lookup id = some session := AList.lookup_insert _

omit [F32 F] in
/-- The session behind a `bind`. -/
theorem lookup_bind (t : Tunnel F) (connection : Connection) (id : SessionId) (path : PathId) :
    (t.bind connection id path).1.sessions.lookup id =
      some (if (SessionManager.get_or_create t.sessions id).has_path path = true then
        SessionManager.get_or_create t.sessions id
      else ((SessionManager.get_or_create t.sessions id).add_path connection path).1) := by
  simp only [bind]
  split
  · exact lookup_put _ _ _
  · split
    · exact lookup_put _ _ _
    · exact lookup_put _ _ _

/-- A Data or Duplicate frame: what its session releases goes to the host. -/
def carry (t : Tunnel F) (e : Envelope) : Tunnel F × List Effect :=
  let session := SessionManager.get_or_create t.sessions e.session_id
  let arrived := session.enqueue_incoming e.sequence e.payload
  let released := arrived.2.delivered.map (fun d => (⟨e.session_id, d.2⟩ : Uplink))
  ({ (t.put e.session_id arrived.1) with
      flows := released.foldl learn t.flows
      counters := { t.counters with
        frames_to_host := t.counters.frames_to_host + released.length
        duplicates_dropped := t.counters.duplicates_dropped + arrived.2.dropped.toNat } },
    released.map .Host)

def select_path (t : Tunnel F) (id : SessionId) (path : PathId) : Tunnel F :=
  match t.sessions.lookup id with
  | none => t
  | some session =>
    let selected := session.set_active_path path
    match selected.2 with
    | .ok _ => { t.put id selected.1 with
        counters := { t.counters with path_selects := t.counters.path_selects + 1 } }
    | .error _ => t.put id selected.1

def adopt_weights (t : Tunnel F) (id : SessionId) (weights : List (PathId × F)) (now : ℕ) :
    Tunnel F :=
  match t.sessions.lookup id with
  | none => t
  | some session =>
    let adopted := session.adopt_downlink_weights weights now DOWNLINK_WEIGHT_TTL
    if 0 < adopted.2 then { t.put id adopted.1 with
      counters := { t.counters with weight_sets := t.counters.weight_sets + 1 } }
    else t.put id adopted.1

/-- A Control frame behind the first one. -/
def control (t : Tunnel F) (e : Envelope) (now : ℕ) : Tunnel F :=
  match ControlMsg.decode e.payload with
  | .ok (.PathSelect path) => t.select_path e.session_id ⟨path⟩
  | .ok (.WeightSet weights) =>
    t.adopt_weights e.session_id (weights.map (fun w => (w.1, F32.of_bits w.2))) now
  | _ => t

omit [F32 F] in
/-- The session behind a path selection. -/
theorem lookup_select_path {t : Tunnel F} {id : SessionId} {session : Session F} (path : PathId)
    (h : t.sessions.lookup id = some session) :
    (t.select_path id path).sessions.lookup id = some (session.set_active_path path).1 := by
  simp only [select_path, h]
  split
  · exact lookup_put _ _ _
  · exact lookup_put _ _ _

theorem lookup_adopt_weights {t : Tunnel F} {id : SessionId} {session : Session F}
    (weights : List (PathId × F)) (now : ℕ) (h : t.sessions.lookup id = some session) :
    (t.adopt_weights id weights now).sessions.lookup id =
      some (session.adopt_downlink_weights weights now DOWNLINK_WEIGHT_TTL).1 := by
  simp only [adopt_weights, h]
  split
  · exact lookup_put _ _ _
  · exact lookup_put _ _ _

/-- One round of the loop behind the bootstrap, up to the check of the session. -/
def serve (t : Tunnel F) (connection : Connection) (e : Envelope) (now : ℕ)
    (sent : Except Error Unit) : Tunnel F × List (SessionId × PathId) × List Effect :=
  let bound := t.bind connection e.session_id e.path_id
  let t := bound.1
  match e.packet_type with
  | .Data => let r := t.carry e; (r.1, bound.2, r.2)
  | .Duplicate => let r := t.carry e; (r.1, bound.2, r.2)
  | .Control => (t.control e now, bound.2, [])
  | .Keepalive =>
    ({ t with counters := { t.counters with keepalives := t.counters.keepalives + 1 } },
      bound.2, [])
  | .Probe =>
    let status := replied sent (path_status e)
    ({ t with counters := { t.counters with
        probes_replied := t.counters.probes_replied + status.length } }, bound.2, status)
  | .PathStatus => (t, bound.2, [])

/-- One path that the connection had bound. -/
def evict_path (t : Tunnel F) (bound : SessionId × PathId) : Tunnel F :=
  match t.sessions.lookup bound.1 with
  | none => t
  | some session =>
    let removed := session.remove_path bound.2
    { t.put bound.1 removed.1 with
      counters := { t.counters with paths_evicted := t.counters.paths_evicted + removed.2.toNat } }

/-- The end of the loop. -/
def evict (t : Tunnel F) (binds : List (SessionId × PathId)) : Tunnel F :=
  binds.foldl evict_path t

/-- An Init whose ticket was accepted. -/
def accredit (t : Tunnel F) (connection : Connection) (id : SessionId) (path : PathId) :
    Tunnel F × List (SessionId × PathId) :=
  let t := { t with counters := { t.counters with paths := t.counters.paths + 1 } }
  t.bind connection id path

end Tunnel

namespace ReaderLoop

variable {F : Type} [F32 F] (authenticate : ℕ → String → Except String U32)
  (connection : Connection)

/-- A frame behind the bootstrap. -/
def serve (t : Tunnel F) (first_session : Option SessionId) (binds : List (SessionId × PathId))
    (e : Envelope) (now : ℕ) (sent : Except Error Unit) : ReaderLoop F × List Effect :=
  if first_session.any (fun id => session_prefix e.session_id ≠ session_prefix id) = true then
    (⟨t.evict binds, .Ended⟩, [])
  else
    let served := t.serve connection e now sent
    (⟨served.1, .Serving first_session (binds ++ served.2.1)⟩, served.2.2)

/-- The first frame is a Control with this message. -/
def bootstrap (t : Tunnel F) (e : Envelope) (unix_now : ℕ) (sent : Except Error Unit) :
    Outcome Error (ControlMsg U32) → ReaderLoop F × List Effect
  | .ok (.Init sid token) =>
    match verify_init authenticate unix_now sid token with
    | .ok id =>
      match control_reply e (.Ack sid) with
      | .ok ack =>
        let bound := t.accredit connection id e.path_id
        (⟨bound.1, .Serving (some id) bound.2⟩, replied sent ack)
      | _ => (⟨t, .Ended⟩, [])
    | .error reason =>
      match control_reply e (.Nack sid reason) with
      | .ok nack =>
        (⟨{ t with counters := { t.counters with
            auth_rejections := t.counters.auth_rejections + 1 } }, .Ended⟩, replied sent nack)
      | _ => (⟨t, .Ended⟩, [])
  | _ => (⟨t, .Ended⟩, [])

/-- The frames of a connection, one by one. -/
def step (r : ReaderLoop F) : ReaderEvent F → Option (ReaderLoop F × List Effect)
  | .Receive datagram unix_now now sent =>
    match r.point, recv datagram with
    | .Bootstrap, .ok e =>
      if e.packet_type = .Control then
        some (bootstrap authenticate connection r.tunnel e unix_now sent
          (ControlMsg.decode e.payload))
      else
        -- the fallback of phase 1: accepted without an Init
        let t := { r.tunnel with
          counters := { r.tunnel.counters with paths := r.tunnel.counters.paths + 1 } }
        some (serve connection t none [] e now sent)
    | .Serving first_session binds, .ok e =>
      some (serve connection r.tunnel first_session binds e now sent)
    | .Serving _ binds, .err _ => some (⟨r.tunnel.evict binds, .Ended⟩, [])
    | .Ended, _ => none
    | _, _ => some ({ r with point := .Ended }, [])
  | .Others tunnel => some ({ r with tunnel }, [])

/-! ## What a connection may do -/

/-- Nothing of the connection has reached the gateway. -/
structure Untouched (before after : Tunnel F) (effects : List Effect) : Prop where
  sessions : after.sessions = before.sessions
  flows : after.flows = before.flows
  paths : after.counters.paths = before.counters.paths
  host : ∀ u, .Host u ∉ effects

/-- Only one session is changed, flows are learned for it alone, and the host gets only
what it releases. -/
structure Confined (id : SessionId) (before after : Tunnel F) (effects : List Effect) :
    Prop where
  sessions : ∀ other, other ≠ id → after.sessions.lookup other = before.sessions.lookup other
  flows : ∀ key, after.flows.lookup key = before.flows.lookup key ∨
    after.flows.lookup key = some id
  host : ∀ u, .Host u ∈ effects → u.session = id

/-- The session that the connection is accredited for after this event. -/
def presented (r : ReaderLoop F) (accredited : Option SessionId) :
    ReaderEvent F → Option SessionId
  | .Receive datagram unix_now _ _ =>
    match r.point, recv datagram with
    | .Bootstrap, .ok e =>
      match e.packet_type, ControlMsg.decode e.payload with
      | .Control, .ok (.Init sid token) => (verify_init authenticate unix_now sid token).toOption
      | _, _ => accredited
    | _, _ => accredited
  | .Others _ => accredited

/-- A frame does nothing before the connection is accredited, and nothing beyond its session
after that. -/
def Authenticated (s : ReaderLoop F × Option SessionId) (i : ReaderEvent F) : Prop :=
  match i with
  | .Receive .. => ∀ r' effects, step authenticate connection s.1 i = some (r', effects) →
    match presented authenticate s.1 s.2 i with
    | none => Untouched s.1.tunnel r'.tunnel effects
    | some id => Confined id s.1.tunnel r'.tunnel effects
  | .Others _ => True

/-- The first frame of the connection, if it gets as far as that. -/
def first_frame : List (ReaderEvent F) → Option Envelope
  | [] => none
  | .Receive datagram _ _ _ :: _ =>
    match recv datagram with
    | .ok e => some e
    | _ => none
  | .Others _ :: events => first_frame events

/-! ### Single calls -/

section Calls

variable {t t' t'' : Tunnel F} {id : SessionId} {effects effects' : List Effect} {e : Envelope}
  {session : Session F} {path : PathId} {now : ℕ} {sent : Except Error Unit}

omit [F32 F] in
theorem Confined.refl : Confined id t t [] := ⟨fun _ _ => rfl, fun _ => .inl rfl, by simp⟩

omit [F32 F] in
/-- Counting is not a change. -/
theorem Confined.of_eq (hsessions : t'.sessions = t.sessions) (hflows : t'.flows = t.flows)
    (hhost : ∀ u, .Host u ∉ effects) : Confined id t t' effects := by
  refine ⟨fun _ _ => by rw [hsessions], fun _ => .inl (by rw [hflows]), ?_⟩
  intro u hu
  exact absurd hu (hhost u)

omit [F32 F] in
theorem Confined.trans (h : Confined id t t' effects) (h' : Confined id t' t'' effects') :
    Confined id t t'' (effects ++ effects') := by
  refine ⟨?_, ?_, ?_⟩
  · intro other hother
    rw [h'.sessions other hother, h.sessions other hother]
  · intro key
    rcases h'.flows key with hsame | hmine
    · rw [hsame]
      exact h.flows key
    · exact .inr hmine
  · intro u hu
    rcases List.mem_append.mp hu with hu | hu
    · exact h.host u hu
    · exact h'.host u hu

omit [F32 F] in
theorem confined_put : Confined id t (t.put id session) [] := by
  refine ⟨?_, fun _ => .inl rfl, by simp⟩
  intro other hother
  exact AList.lookup_insert_ne hother

omit [F32 F] in
theorem confined_bind :
    Confined id t (t.bind connection id path).1 [] ∧
      ∀ b ∈ (t.bind connection id path).2, b.1 = id := by
  have hcounted : Confined id t (if (SessionManager.get_or_create t.sessions id).path_count = 0 then
      { t with counters := { t.counters with sessions := t.counters.sessions + 1 } } else t) [] := by
    split
    · exact .of_eq rfl rfl (by simp)
    · exact .refl
  simp only [Tunnel.bind]
  split
  · exact ⟨hcounted.trans confined_put, by simp⟩
  · split
    · exact ⟨hcounted.trans confined_put, by simp⟩
    · exact ⟨hcounted.trans confined_put, by simp⟩

/-- Learning leaves the flows it does not learn. -/
theorem lookup_foldl_learn (released : List Uplink) (flows : Map FlowKey SessionId) (key : FlowKey)
    (h : ∀ u ∈ released, u.session = id) :
    (released.foldl learn flows).lookup key = flows.lookup key ∨
      (released.foldl learn flows).lookup key = some id := by
  induction released generalizing flows with
  | nil => exact .inl rfl
  | cons u released ih =>
    obtain ⟨hu, hrest⟩ := List.forall_mem_cons.mp h
    rcases ih (learn flows u) hrest with hsame | hmine
    · rw [List.foldl_cons, hsame, learn]
      split
      · rw [AList.lookup_insert_of]
        split
        · exact .inr (by rw [hu])
        · exact .inl rfl
      · exact .inl rfl
    · exact .inr hmine

omit [F32 F] in
theorem confined_carry : Confined e.session_id t (t.carry e).1 (t.carry e).2 := by
  refine ⟨?_, ?_, ?_⟩
  · intro other hother
    exact AList.lookup_insert_ne hother
  · intro key
    refine lookup_foldl_learn _ t.flows key ?_
    intro u hu
    obtain ⟨d, -, rfl⟩ := List.mem_map.mp hu
    rfl
  · intro u hu
    simp only [Tunnel.carry, List.map_map, List.mem_map, Function.comp_apply] at hu
    obtain ⟨d, -, hd⟩ := hu
    rw [← Effect.Host.inj hd]

theorem confined_control : Confined e.session_id t (t.control e now) [] := by
  rw [Tunnel.control]
  split
  · rw [Tunnel.select_path]
    split
    · exact .refl
    · dsimp only
      split
      · exact confined_put.trans (.of_eq rfl rfl (by simp))
      · exact confined_put
  · rw [Tunnel.adopt_weights]
    split
    · exact .refl
    · dsimp only
      split
      · exact confined_put.trans (.of_eq rfl rfl (by simp))
      · exact confined_put
  · exact .refl

theorem not_host_replied (u : Uplink) : .Host u ∉ replied sent e := by
  cases sent with
  | ok _ => simp [replied]
  | error _ => simp [replied]

/-- A frame that is served stays within the session it names. -/
theorem confined_serve (t : Tunnel F) (e : Envelope) (now : ℕ) (sent : Except Error Unit) :
    Confined e.session_id t (t.serve connection e now sent).1
      (t.serve connection e now sent).2.2 ∧
    ∀ b ∈ (t.serve connection e now sent).2.1, b.1 = e.session_id := by
  have hbound : Confined e.session_id t (t.bind connection e.session_id e.path_id).1 [] :=
    (confined_bind connection).1
  have hbinds : ∀ b ∈ (t.bind connection e.session_id e.path_id).2, b.1 = e.session_id :=
    (confined_bind connection).2
  have hcarry := hbound.trans (confined_carry (t := (t.bind connection e.session_id e.path_id).1))
  simp only [Tunnel.serve]
  split
  · exact ⟨hcarry, hbinds⟩
  · exact ⟨hcarry, hbinds⟩
  · exact ⟨hbound.trans confined_control, hbinds⟩
  · exact ⟨hbound.trans (.of_eq rfl rfl (by simp)), hbinds⟩
  · exact ⟨hbound.trans (.of_eq rfl rfl not_host_replied), hbinds⟩
  · exact ⟨hbound, hbinds⟩

omit [F32 F] in
/-- An accepted Init binds a path of its session. -/
theorem confined_accredit (t : Tunnel F) (id : SessionId) (path : PathId) :
    Confined id t (t.accredit connection id path).1 [] ∧
      ∀ b ∈ (t.accredit connection id path).2, b.1 = id := by
  have hcounted : Confined id t { t with
      counters := { t.counters with paths := t.counters.paths + 1 } } [] :=
    .of_eq rfl rfl (by simp)
  exact ⟨hcounted.trans (confined_bind connection).1, (confined_bind connection).2⟩

omit [F32 F] in
theorem bind_paths :
    (t.bind connection id path).1.counters.paths = t.counters.paths := by
  simp only [Tunnel.bind]
  split
  · split <;> rfl
  · split
    · split <;> rfl
    · split <;> rfl

/-- Serving a frame does not count a path. -/
theorem serve_paths :
    (t.serve connection e now sent).1.counters.paths = t.counters.paths := by
  have hcontrol (t : Tunnel F) : (t.control e now).counters.paths = t.counters.paths := by
    rw [Tunnel.control]
    split
    · rw [Tunnel.select_path]
      split
      · rfl
      · dsimp only
        split <;> rfl
    · rw [Tunnel.adopt_weights]
      split
      · rfl
      · dsimp only
        split <;> rfl
    · rfl
  have hbind : (t.bind connection e.session_id e.path_id).1.counters.paths = t.counters.paths :=
    bind_paths connection
  simp only [Tunnel.serve]
  split
  · exact hbind
  · exact hbind
  · exact (hcontrol _).trans hbind
  · exact hbind
  · exact hbind
  · exact hbind

theorem confined_evict {binds : List (SessionId × PathId)} (h : ∀ b ∈ binds, b.1 = id) :
    Confined id t (t.evict binds) [] := by
  rw [Tunnel.evict]
  induction binds generalizing t with
  | nil => exact .refl
  | cons b binds ih =>
    obtain ⟨hb, hrest⟩ := List.forall_mem_cons.mp h
    have hone : Confined id t (t.evict_path b) [] := by
      rw [Tunnel.evict_path, hb]
      split
      · exact .refl
      · exact confined_put.trans (.of_eq rfl rfl (by simp))
    exact hone.trans (ih hrest)

end Calls

/-! ### Sessions and tickets -/

section Tickets

variable {id id' : SessionId} {e : Envelope} {datagram : Option Bytes} {unix_now : ℕ} {sid : U32}
  {token : String}

theorem wireSafe_of_recv (h : recv datagram = .ok e) : e.session_id.WireSafe := by
  cases datagram with
  | none => simp [recv] at h
  | some bytes =>
    cases hdecode : Envelope.decode bytes with
    | ok r =>
      simp only [recv, hdecode, Outcome.bind, Outcome.ok.injEq] at h
      rw [← h]
      exact (Envelope.decode_eq_ok.mp hdecode).1.session
    | err _ | panic => simp [recv, hdecode, Outcome.bind] at h

theorem wireSafe_of_verify_init (h : verify_init authenticate unix_now sid token = .ok id) :
    id.WireSafe := by
  simp only [verify_init, verify] at h
  cases hticket : authenticate unix_now token with
  | error reason => simp [hticket, Except.map] at h
  | ok number =>
    simp only [hticket, Except.map] at h
    by_cases hother : session_prefix (SessionId.of_wire (U32.to_be_bytes number)) ≠ sid
    · simp [hother] at h
    · simp only [hother, ↓reduceIte, Except.ok.injEq] at h
      rw [← h]
      exact SessionId.wireSafe_of_wire (U32.length_to_be_bytes number)

/-- Of wire-safe sessions the prefix is all there is. -/
theorem eq_of_session_prefix (hid : id.WireSafe) (hid' : id'.WireSafe)
    (h : session_prefix id = session_prefix id') : id = id' := by
  have hwire : id.wire = id'.wire := by
    have hbytes : ∀ id : SessionId, id.wire = (U32.to_be_bytes <| session_prefix id) := by
      intro id
      exact (U32.from_be_bytes_eq_iff (SessionId.length_wire id)).mp rfl
    rw [hbytes id, hbytes id', h]
  rw [← SessionId.of_wire_wire hid, hwire, SessionId.of_wire_wire hid']

end Tickets

/-! ### Whole runs -/

section Runs

variable {t : Tunnel F} {r r' : ReaderLoop F} {accredited : Option SessionId} {id : SessionId}
  {binds : List (SessionId × PathId)} {i : ReaderEvent F} {effects : List Effect} {e : Envelope}
  {datagram : Option Bytes} {unix_now now : ℕ} {sent : Except Error Unit}

/-- A connection that is served has been accredited, and has bound paths of its session only. -/
def Accredited (s : ReaderLoop F × Option SessionId) : Prop :=
  match s.1.point with
  | .Bootstrap => False
  | .Serving first_session binds => ∃ id : SessionId, first_session = some id ∧ s.2 = some id ∧
      id.WireSafe ∧ ∀ b ∈ binds, b.1 = id
  | .Ended => True

/-- One frame of an accredited connection. -/
theorem serve_accredited (t : Tunnel F) (now : ℕ) (sent : Except Error Unit)
    (hid : id.WireSafe) (hbinds : ∀ b ∈ binds, b.1 = id) (he : e.session_id.WireSafe) :
    Confined id t (serve connection t (some id) binds e now sent).1.tunnel
      (serve connection t (some id) binds e now sent).2 ∧
    Accredited ((serve connection t (some id) binds e now sent).1, some id) := by
  rw [serve]
  split
  · exact ⟨confined_evict hbinds, trivial⟩
  next hsame =>
    -- the check compares prefixes only, which is enough for what the wire carries
    have hsession : e.session_id = id := by
      apply eq_of_session_prefix he hid
      simpa using hsame
    obtain ⟨hconfined, hnew⟩ := confined_serve connection t e now sent
    rw [hsession] at hconfined hnew
    refine ⟨hconfined, id, rfl, rfl, hid, ?_⟩
    intro b hb
    rcases List.mem_append.mp hb with hb | hb
    · exact hbinds b hb
    · exact hnew b hb

/-- One event of a connection behind the bootstrap. -/
theorem accredited_step (h : Accredited (r, accredited))
    (hs : step authenticate connection r i = some (r', effects)) :
    Accredited (r', presented authenticate r accredited i) ∧
    (∀ datagram unix_now now sent, i = .Receive datagram unix_now now sent →
      ∃ id, presented authenticate r accredited i = some id ∧
        Confined id r.tunnel r'.tunnel effects) := by
  obtain ⟨t, point⟩ := r
  cases i with
  | Others tunnel =>
    obtain ⟨rfl, rfl⟩ := step_inj hs
    exact ⟨h, by simp⟩
  | Receive datagram unix_now now sent =>
    cases point with
    | Bootstrap => exact absurd h id
    | Ended => simp [step] at hs
    | Serving first_session binds =>
      obtain ⟨id, rfl, rfl, hid, hbinds⟩ := h
      have hpresented : presented authenticate ⟨t, .Serving (some id) binds⟩ (some id)
          (.Receive datagram unix_now now sent) = some id := by
        simp only [presented]
      rw [hpresented]
      simp only [step] at hs
      cases hrecv : recv datagram with
      | ok e =>
        simp only [hrecv, Option.some.injEq] at hs
        have hserved := serve_accredited connection t now sent hid hbinds (wireSafe_of_recv hrecv)
        rw [hs] at hserved
        exact ⟨hserved.2, fun _ _ _ _ _ => ⟨id, rfl, hserved.1⟩⟩
      | err error =>
        simp only [hrecv] at hs
        obtain ⟨rfl, rfl⟩ := step_inj hs
        exact ⟨trivial, fun _ _ _ _ _ => ⟨id, rfl, confined_evict hbinds⟩⟩
      | panic =>
        simp only [hrecv] at hs
        obtain ⟨rfl, rfl⟩ := step_inj hs
        exact ⟨trivial, fun _ _ _ _ _ => ⟨id, rfl, .refl⟩⟩

/-- The first frame, when it is a Control. -/
theorem bootstrap_step (hcontrol : e.packet_type = .Control) (hrecv : recv datagram = .ok e)
    (hs : step authenticate connection ⟨t, .Bootstrap⟩ (.Receive datagram unix_now now sent) =
      some (r', effects)) :
    (presented authenticate ⟨t, .Bootstrap⟩ none (.Receive datagram unix_now now sent) = none ∧
        r'.point = .Ended ∧ Untouched t r'.tunnel effects) ∨
      ∃ id, presented authenticate ⟨t, .Bootstrap⟩ none (.Receive datagram unix_now now sent) =
        some id ∧ Accredited (r', some id) ∧ Confined id t r'.tunnel effects := by
  simp only [step, presented, hrecv, hcontrol, ↓reduceIte, Option.some.injEq] at hs ⊢
  cases hdecode : ControlMsg.decode e.payload with
  | err _ | panic =>
    simp only [hdecode, bootstrap, Prod.mk.injEq] at hs
    obtain ⟨rfl, rfl⟩ := hs
    exact .inl ⟨rfl, rfl, rfl, rfl, rfl, by simp⟩
  | ok msg =>
    cases msg with
    | Init sid token =>
      cases hverify : verify_init authenticate unix_now sid token with
      | ok id =>
        simp only [hdecode, bootstrap, hverify, control_reply, ControlMsg.encode,
          Prod.mk.injEq] at hs
        obtain ⟨rfl, rfl⟩ := hs
        obtain ⟨hconfined, hbinds⟩ := confined_accredit connection t id e.path_id
        have hid := wireSafe_of_verify_init authenticate hverify
        refine .inr ⟨id, by simp [hverify, Except.toOption], ⟨id, rfl, rfl, hid, hbinds⟩, ?_⟩
        exact hconfined.trans (.of_eq rfl rfl not_host_replied)
      | error reason =>
        left
        refine ⟨by simp [hverify, Except.toOption], ?_⟩
        simp only [hdecode, bootstrap, hverify] at hs
        split at hs
        · simp only [Prod.mk.injEq] at hs
          obtain ⟨rfl, rfl⟩ := hs
          exact ⟨rfl, rfl, rfl, rfl, not_host_replied⟩
        · simp only [Prod.mk.injEq] at hs
          obtain ⟨rfl, rfl⟩ := hs
          exact ⟨rfl, rfl, rfl, rfl, by simp⟩
    | Ack _ | Nack _ _ | PathSelect _ | WeightSet _ =>
      simp only [hdecode, bootstrap, Prod.mk.injEq] at hs
      obtain ⟨rfl, rfl⟩ := hs
      exact .inl ⟨rfl, rfl, rfl, rfl, rfl, by simp⟩

/-- The first frame, when it is no Control: the connection is counted, and not accredited. -/
theorem fallback_step (hother : e.packet_type ≠ .Control) (hrecv : recv datagram = .ok e) :
    ¬ Authenticated authenticate connection (⟨t, .Bootstrap⟩, none)
      (.Receive datagram unix_now now sent) := by
  intro h
  have hs : step authenticate connection ⟨t, .Bootstrap⟩ (.Receive datagram unix_now now sent) =
      some (serve connection { t with
        counters := { t.counters with paths := t.counters.paths + 1 } } none [] e now sent) := by
    simp only [step, hrecv, hother, ↓reduceIte]
  have hpresented : presented authenticate ⟨t, .Bootstrap⟩ none
      (.Receive datagram unix_now now sent) = none := by
    simp only [presented, hrecv]
    split
    next htype _ => exact absurd htype hother
    · rfl
  -- whatever else the frame does, the connection is counted
  have huntouched := h _ _ hs
  rw [hpresented] at huntouched
  have hpaths := huntouched.paths
  simp only [serve_paths] at hpaths
  omega

/-- A connection behind the bootstrap, accredited or at its end, keeps to its ticket. -/
theorem along_accredited (h : Accredited (r, accredited)) (events : List (ReaderEvent F)) :
    Along (withGhost (presented authenticate) (step authenticate connection))
      (Authenticated authenticate connection) (r, accredited) events := by
  refine along_of_invariant (I := Accredited) ?_ ?_ h (along_true _ events)
  · intro s i s' effects hs _ hstep
    obtain ⟨hreader, hghost⟩ := withGhost_eq_some.mp hstep
    have hkept := (accredited_step authenticate connection hs hreader).1
    rw [← hghost] at hkept
    exact hkept
  · intro s i hs _
    cases i with
    | Others tunnel => trivial
    | Receive datagram unix_now now sent =>
      intro r' effects hstep
      obtain ⟨id, hpresented, hconfined⟩ :=
        (accredited_step authenticate connection hs hstep).2 _ _ _ _ rfl
      rw [hpresented]
      exact hconfined

theorem along_ended (h : r.point = .Ended) (events : List (ReaderEvent F)) :
    Along (withGhost (presented authenticate) (step authenticate connection))
      (Authenticated authenticate connection) (r, accredited) events := by
  apply along_accredited
  simp only [Accredited, h]

/-- The run of a connection, cut behind its next frame. -/
theorem along_receive {events : List (ReaderEvent F)}
    (hs : step authenticate connection r (.Receive datagram unix_now now sent) =
      some (r', effects)) :
    Along (withGhost (presented authenticate) (step authenticate connection))
        (Authenticated authenticate connection) (r, accredited)
        (.Receive datagram unix_now now sent :: events) ↔
      (match presented authenticate r accredited (.Receive datagram unix_now now sent) with
        | none => Untouched r.tunnel r'.tunnel effects
        | some id => Confined id r.tunnel r'.tunnel effects) ∧
      Along (withGhost (presented authenticate) (step authenticate connection))
        (Authenticated authenticate connection)
        (r', presented authenticate r accredited (.Receive datagram unix_now now sent)) events := by
  have hghost : withGhost (presented authenticate) (step authenticate connection) (r, accredited)
      (.Receive datagram unix_now now sent) = some ((r', presented authenticate r accredited
        (.Receive datagram unix_now now sent)), effects) :=
    withGhost_eq_some.mpr ⟨hs, rfl⟩
  rw [along_cons hghost]
  refine and_congr_left' ?_
  constructor
  · intro h
    exact h r' effects hs
  · intro h r'' effects' hs'
    obtain ⟨rfl, rfl⟩ := step_inj (hs.symm.trans hs')
    exact h

/-- **Which connections keep to their ticket.** Whatever a connection sends and whatever
the other tasks do meanwhile: no frame does anything to the gateway before the connection
is accredited nor anything beyond its session after that, if and only if the first frame,
where there is one, is a Control. -/
theorem only_authenticated_iff (t : Tunnel F) (events : List (ReaderEvent F)) :
    Along (withGhost (presented authenticate) (step authenticate connection))
        (Authenticated authenticate connection) (⟨t, .Bootstrap⟩, none) events ↔
      ∀ e, first_frame events = some e → e.packet_type = .Control := by
  -- the other tasks may run for a while before the first frame decides
  induction events generalizing t with
  | nil => simp [Along, first_frame]
  | cons i events ih =>
    cases i with
    | Others tunnel =>
      have hghost : withGhost (presented authenticate) (step authenticate connection)
          ((⟨t, .Bootstrap⟩ : ReaderLoop F), none) (.Others tunnel) =
            some ((⟨tunnel, .Bootstrap⟩, none), []) := rfl
      rw [along_cons hghost, ih, first_frame]
      exact and_iff_right trivial
    | Receive datagram unix_now now sent =>
      cases hrecv : recv datagram with
      | ok e =>
        simp only [first_frame, hrecv, Option.some.injEq, forall_eq']
        by_cases hcontrol : e.packet_type = .Control
        · refine iff_of_true ?_ hcontrol
          have hs : step authenticate connection ⟨t, .Bootstrap⟩
              (.Receive datagram unix_now now sent) = some (bootstrap authenticate connection t e
                unix_now sent (ControlMsg.decode e.payload)) := by
            simp only [step, hrecv, hcontrol, ↓reduceIte]
          rw [along_receive authenticate connection hs]
          rcases bootstrap_step authenticate connection hcontrol hrecv hs with
            ⟨hnone, hended, huntouched⟩ | ⟨id, hsome, haccredited, hconfined⟩
          · rw [hnone]
            exact ⟨huntouched, along_ended authenticate connection hended events⟩
          · rw [hsome]
            exact ⟨hconfined, along_accredited authenticate connection haccredited events⟩
        · refine iff_of_false ?_ hcontrol
          intro h
          exact fallback_step authenticate connection hcontrol hrecv h.1
      | err _ | panic =>
        -- the task ends before it looks at a frame
        have hs : step authenticate connection ⟨t, .Bootstrap⟩
            (.Receive datagram unix_now now sent) = some (⟨t, .Ended⟩, []) := by
          simp only [step, hrecv]
        simp only [first_frame, hrecv, reduceCtorEq, false_imp_iff, implies_true, iff_true]
        rw [along_receive authenticate connection hs]
        simp only [presented, hrecv]
        exact ⟨⟨rfl, rfl, rfl, by simp⟩, along_ended authenticate connection rfl events⟩

end Runs

end ReaderLoop

/-- A packet for the host, as the first frame of a connection. -/
def stranger : Envelope where
  version := VERSION
  packet_type := .Data
  flags := 0
  path_id := ⟨1⟩
  session_id := .of_wire [0, 0, 0, 7]
  sequence := ⟨0⟩
  timestamp_ms := 0
  payload := ipv4_packet 1 [10, 0, 85, 2] [8, 8, 8, 8] [8, 0, 0, 0, 18, 52]

/-- No ticket is ever accepted, and still the first frame makes a session with a path and a
flow, reaches the host and is counted. -/
theorem first_frame_reaches_host :
    let authenticate : ℕ → String → Except String U32 := fun _ _ => .error "bad signature"
    let start : ReaderLoop Exact := ⟨⟨∅, ∅, ⟨0, 0, 0, 0, 0, 0, 0, 0, 0, 0⟩⟩, .Bootstrap⟩
    let events : List (ReaderEvent Exact) := [.Receive (some stranger.image) 0 0 (.ok ())]
    (exec (ReaderLoop.step authenticate ⟨9⟩) start events).map (fun r =>
        (r.2, r.1.tunnel.sessions.len, r.1.tunnel.flows.len, r.1.tunnel.counters.paths)) =
      some ([.Host ⟨stranger.session_id, stranger.payload⟩], 1, 1, 1) ∧
    ¬ Along (withGhost (ReaderLoop.presented authenticate) (ReaderLoop.step authenticate ⟨9⟩))
      (ReaderLoop.Authenticated authenticate ⟨9⟩) (start, none) events := by
  have hrecv : recv (some stranger.image) = .ok stranger := by decide
  refine ⟨by decide, ?_⟩
  intro h
  exact ReaderLoop.fallback_step _ _ (by decide) hrecv h.1

end StreamGuard.V1
