/-
`downlink_loop` of `streamguard-gateway/src/tunnel.rs`, and the packet numbers of both
loops.

A round takes a packet from the TUN, finds the session it belongs to, draws a number there
and chooses the path. Between that and the send the readers run; they change one session at a
time, and only this loop draws numbers. Sessions count separately, so the numbers are
those of one session.

The main result is about both loops, which draw before they know whether they send.
-/
import StreamGuard.V1.FlowTable
import StreamGuard.V1.UplinkLoop

set_option autoImplicit false

namespace StreamGuard.V1

open StreamGuard StreamGuard.Lib

/-! ## The model -/

inductive DownPoint where
  | Reading
  | Chosen (d : Draft) (path : PathId)
  | Ended

structure DownlinkLoop (F : Type) where
  sessions : SessionManager F
  flows : Map FlowKey SessionId
  point : DownPoint

inductive DownlinkEvent (F : Type) where
  | Read (packet : Bytes) (now : ℕ)
  /-- The TUN read fails other than with `WouldBlock`. -/
  | TunFails
  | Send (sent : Except Error Unit)
  /-- A reader changes a session, which it may create, and the flow table. -/
  | Reader (id : SessionId) (session : Session F) (flows : Map FlowKey SessionId)

namespace DownlinkLoop

variable {F : Type} [F32 F]

def start : DownlinkLoop F := ⟨∅, ∅, .Reading⟩

/-- The session of a packet from the TUN. -/
def session_of (g : DownlinkLoop F) (packet : Bytes) : Option (SessionId × Session F) := do
  let id ← route g.flows packet
  let session ← g.sessions.lookup id
  return (id, session)

def read (g : DownlinkLoop F) (packet : Bytes) (now : ℕ) : DownlinkLoop F :=
  match g.session_of packet with
  | none => g
  | some (id, session) =>
    let drawn := session.next_sequence
    let chosen := drawn.1.egress now
    { g with
      sessions := g.sessions.insert id chosen.1
      point := match chosen.2 with
        | some path => .Chosen ⟨packet, drawn.2, id⟩ path
        | none => .Reading }

/-- What the transport takes; nothing without a session. -/
def send (g : DownlinkLoop F) (d : Draft) (path : PathId) (sent : Except Error Unit) :
    List Envelope :=
  match g.sessions.lookup d.session_id with
  | some session => accepted session sent (d.envelope .Data path)
  | none => []

/-- The number that the next packet of a session gets. -/
def counter (id : SessionId) (g : DownlinkLoop F) : U64 :=
  (SessionManager.get_or_create g.sessions id).out_seq.next.get

/-- One step, with the envelopes that a transport took. -/
def step (g : DownlinkLoop F) : DownlinkEvent F → Option (DownlinkLoop F × List Envelope)
  | .Read packet now =>
    match g.point with
    | .Reading => if packet.length ≤ 1300 then some (g.read packet now, []) else none
    | _ => none
  | .TunFails =>
    match g.point with
    | .Reading => some ({ g with point := .Ended }, [])
    | _ => none
  | .Send sent =>
    match g.point with
    | .Chosen d path => some ({ g with point := .Reading }, g.send d path sent)
    | _ => none
  | .Reader id session flows =>
    if session.out_seq = (SessionManager.get_or_create g.sessions id).out_seq then
      some ({ g with sessions := g.sessions.insert id session, flows }, [])
    else none

/-! ## Its numbers -/

variable (id : SessionId)

/-- The number that a packet of the session holds. -/
def held (g : DownlinkLoop F) : Option U64 :=
  match g.point with
  | .Chosen d _ => if d.session_id = id then some d.sequence.get else none
  | _ => none

/-- The packet number of a Data envelope of the session. -/
def number (e : Envelope) : Option U64 := if e.session_id = id then e.data_number else none

/-- What a step does with the numbers of the session. -/
def use (g : DownlinkLoop F) : DownlinkEvent F → NumberUse
  | .Read packet now =>
    match g.session_of packet with
    | some (id', session) =>
      if id' ≠ id then .Keep
      else if (session.egress now).2 = none then .Waste
      else .Draw
    | none => .Keep
  | .Send sent =>
    match g.point with
    | .Chosen d path =>
      if d.session_id ≠ id then .Keep
      else if (g.sessions.lookup id).any (fun session => taken session path sent) = true then
        .Accept
      else .Abandon
    | _ => .Keep
  | _ => .Keep

/-! ### Each step against it -/

variable {id} {g g' : DownlinkLoop F} {o : List Envelope} {packet : Bytes} {now : ℕ}
  {session : Session F} {id' : SessionId}

omit [F32 F] in
theorem lookup_of_session_of (h : g.session_of packet = some (id', session)) :
    g.sessions.lookup id' = some session := by
  simp only [session_of, Option.bind_eq_bind, Option.bind_eq_some_iff, Option.pure_def,
    Option.some.injEq, Prod.mk.injEq] at h
  obtain ⟨_, _, _, hlookup, rfl, rfl⟩ := h
  exact hlookup

omit [F32 F] in
/-- Writing back a session changes the counter of that session. -/
theorem counter_insert :
    counter id { g with sessions := g.sessions.insert id' session } =
      if id = id' then session.out_seq.next.get else counter id g := by
  simp only [counter, SessionManager.get_or_create, AList.lookup_insert_of]
  split
  · rfl
  · rfl

omit [F32 F] in
theorem counter_of_lookup (h : g.sessions.lookup id = some session) :
    counter id g = session.out_seq.next.get := by
  simp [counter, SessionManager.get_or_create, h]

/-- Taking a packet from the TUN, between two rounds. -/
theorem read_numbers (g : DownlinkLoop F) (packet : Bytes) (now : ℕ) (hidle : held id g = none) :
    (use id g (.Read packet now)).Does (counter id g) (held id g) (counter id (g.read packet now))
      (held id (g.read packet now)) [] := by
  cases hsession : g.session_of packet with
  | none =>
    simp only [use, read, hsession]
    exact ⟨rfl, rfl, rfl⟩
  | some found =>
    obtain ⟨id', session⟩ := found
    have hlookup := lookup_of_session_of hsession
    have hcounter : counter id (g.read packet now) =
        if id = id' then session.out_seq.next.get + 1 else counter id g := by
      simp only [read, hsession]
      refine (counter_insert (g := g)).trans ?_
      simp [Session.next_sequence, Sequencer.next_sequence]
    have hheld : held id (g.read packet now) =
        if id' = id ∧ (session.egress now).2 ≠ none then some session.out_seq.next.get else none := by
      simp only [read, hsession, held]
      -- the number is drawn before the egress is chosen
      rw [Session.egress_next_sequence]
      cases (session.egress now).2 with
      | none => simp
      | some path => simp [Session.next_sequence, Sequencer.next_sequence]
    simp only [use, hsession]
    -- a packet of another session does not touch the counter of this one
    by_cases hid : id' = id
    · subst hid
      rw [counter_of_lookup hlookup]
      by_cases hnone : (session.egress now).2 = none
      · rw [if_neg (by simp), if_pos hnone]
        exact ⟨hidle, by simpa using hcounter, by simpa [hnone] using hheld, rfl⟩
      · rw [if_neg (by simp), if_neg hnone]
        exact ⟨hidle, by simpa using hcounter, by simpa [hnone] using hheld, rfl⟩
    · rw [if_pos hid]
      exact ⟨by simpa [Ne.symm hid] using hcounter, by simpa [hid, hidle] using hheld, rfl⟩

omit [F32 F] in
/-- The send at the end of a round. -/
theorem send_number (id : SessionId) (g : DownlinkLoop F) (d : Draft) (path : PathId)
    (sent : Except Error Unit) :
    (g.send d path sent).filterMap (number id) =
      if d.session_id = id ∧
          (g.sessions.lookup id).any (fun session => taken session path sent) = true then
        [d.sequence.get]
      else [] := by
  have hdata (session : Session F) :
      (accepted session sent (d.envelope .Data path)).filterMap (number id) =
        if d.session_id = id ∧ taken session path sent = true then [d.sequence.get] else [] := by
    by_cases hid : d.session_id = id
    · have hsame : ∀ e ∈ accepted session sent (d.envelope .Data path),
          number id e = e.data_number := by
        intro e he
        simp [number, eq_of_mem_accepted he, Draft.envelope, hid]
      rw [List.filterMap_congr hsame, accepted_data]
      simp [hid]
    · have hother : ∀ e ∈ accepted session sent (d.envelope .Data path), number id e = none := by
        intro e he
        simp [number, eq_of_mem_accepted he, Draft.envelope, hid]
      simp [List.filterMap_eq_nil_iff.mpr hother, hid]
  rw [send]
  by_cases hid : d.session_id = id
  · subst hid
    cases g.sessions.lookup d.session_id with
    | none => simp
    | some session => simp [hdata]
  · cases g.sessions.lookup d.session_id with
    | none => simp [hid]
    | some session => simp [hdata, hid]

/-- For each session the loop is a numbering machine. -/
theorem numbers (id : SessionId) :
    Numbers (step (F := F)) (counter id) (held id) (use id) (number id) := by
  intro g i g' o h
  obtain ⟨sessions, flows, point⟩ := g
  cases i with
  | Read packet now =>
    cases point <;> simp only [step, reduceCtorEq] at h
    split at h
    · obtain ⟨rfl, rfl⟩ := step_inj h
      exact read_numbers _ packet now rfl
    · contradiction
  | TunFails =>
    cases point <;> simp only [step, reduceCtorEq] at h
    obtain ⟨rfl, rfl⟩ := step_inj h
    exact ⟨rfl, rfl, rfl⟩
  | Send sent =>
    cases point <;> simp only [step, reduceCtorEq] at h
    next d path =>
    obtain ⟨rfl, rfl⟩ := step_inj h
    have hdata := send_number id ⟨sessions, flows, .Chosen d path⟩ d path sent
    simp only [use]
    by_cases hid : d.session_id = id
    · rw [if_neg (by simp [hid])]
      split
      next htaken =>
        rw [if_pos ⟨hid, htaken⟩] at hdata
        exact ⟨rfl, rfl, d.sequence.get, by simp [held, hid], hdata⟩
      next hlost => exact ⟨by simp [held, hid], rfl, rfl, by simp [hdata, hlost]⟩
    · rw [if_pos hid]
      exact ⟨rfl, by simp [held, hid], by simp [hdata, hid]⟩
  | Reader id' session flows' =>
    simp only [step] at h
    split at h
    next hsame =>
      obtain ⟨rfl, rfl⟩ := step_inj h
      refine ⟨?_, rfl, rfl⟩
      refine (counter_insert (g := ⟨sessions, flows', point⟩)).trans ?_
      split
      next hid => simp only [counter, hid, hsame]
      · rfl
    · contradiction

end DownlinkLoop

/-! ## Both loops -/

section Both

variable {F : Type} [F32 F] {shared : Shared F} {u : UplinkLoop F} {g : DownlinkLoop F}
  {session_id : SessionId} {paths : List (PathId × Connection)} {threshold : F}
  {events : List (UplinkEvent F)} {events' : List (DownlinkEvent F)} {os os' : List Envelope}

/-- **When packet numbers have no gaps.** In every run of the client's loop, and for each
session in every run of the gateway's, the Data envelopes that a transport took are numbered
`0`, `1`, `2`, … if and only if none was taken after a number had been lost, and none after
`2 ^ 64` others. -/
theorem numbers_consecutive_iff (id : SessionId)
    (hstart : Shared.start session_id paths threshold = .ok shared)
    (hup : exec UplinkLoop.step ⟨shared, .Reading⟩ events = some (u, os))
    (hdown : exec DownlinkLoop.step .start events' = some (g, os')) :
    ((os.filterMap Envelope.data_number).map Fin.val =
        List.range (os.filterMap Envelope.data_number).length ↔
      Along (withGhost (spend UplinkLoop.use) UplinkLoop.step)
        (Unbroken (2 ^ 64) UplinkLoop.use) (⟨shared, .Reading⟩, ⟨0, 0⟩) events) ∧
    ((os'.filterMap (DownlinkLoop.number id)).map Fin.val =
        List.range (os'.filterMap (DownlinkLoop.number id)).length ↔
      Along (withGhost (spend (DownlinkLoop.use id)) DownlinkLoop.step)
        (Unbroken (2 ^ 64) (DownlinkLoop.use id)) (.start, ⟨0, 0⟩) events') := by
  constructor
  · have hnew : UplinkLoop.counter ⟨shared, .Reading⟩ = 0 := by
      simp only [UplinkLoop.counter, Shared.start_out_seq hstart]
      rfl
    exact consecutive_iff UplinkLoop.numbers hnew rfl hup
  · exact consecutive_iff (DownlinkLoop.numbers id) rfl rfl hdown

end Both

/-! ### Runs -/

/-- The orders in which the maps are stored. -/
def stored_orders : Orders Exact := ⟨.stored, .stored⟩

/-- A client with one path, which has drawn `n` numbers. -/
def lone_client (n : U64) (metrics : Map PathId (PathMetrics Exact)) : Shared Exact where
  session := { Session.new ⟨1⟩ with
    out_seq := ⟨⟨n⟩⟩, paths := (∅ : Map PathId Connection).insert ⟨0⟩ ⟨7⟩, active_path := some ⟨0⟩ }
  metrics
  notified := some ⟨0⟩
  redundancy_loss_threshold := some 0
  scheduler := .new
  notified_weights := none

/-- The health of a path that answers no probe. -/
def silent : PathMetrics Exact := .default

/-- A round of the client that ends in a send. -/
def round (packet : Bytes) : List (UplinkEvent Exact) :=
  [.Read packet, .Decide stored_orders, .Announce (.ok ()), .Advertise stored_orders (.ok ()),
    .Send (.ok ()), .Mirror (.ok ())]

/-- The request that opens the flow, and the reply that comes back on it. -/
def echo_request : Bytes := ipv4_packet 1 [10, 0, 85, 2] [8, 8, 8, 8] [8, 0, 0, 0, 18, 52]
def echo_reply : Bytes := ipv4_packet 1 [8, 8, 8, 8] [10, 0, 85, 2] [0, 0, 0, 0, 18, 52]

/-- A reader binds the path of a session that has drawn `n` numbers, and learns its flow. -/
def reader (n : U64) : DownlinkEvent Exact :=
  .Reader ⟨1⟩ (lone_client n ∅).session (learn ∅ ⟨⟨1⟩, echo_request⟩)

/-- The numbers of the Data envelopes in a run of the client. -/
def client_numbers (events : List (UplinkEvent Exact)) : Option (List U64) :=
  (exec UplinkLoop.step ⟨lone_client 0 ∅, .Reading⟩ events).map
    (fun r => r.2.filterMap Envelope.data_number)

/-- The numbers of the Data envelopes of session 1 in a run of the gateway. -/
def gateway_numbers (events : List (DownlinkEvent Exact)) : Option (List U64) :=
  (exec DownlinkLoop.step .start events).map (fun r => r.2.filterMap (DownlinkLoop.number ⟨1⟩))

/-- Two packets each way over a path that works. -/
theorem numbers_consecutive_steady : ∃ u os g os',
    exec UplinkLoop.step ⟨lone_client 0 ∅, .Reading⟩ (round [1] ++ round [2]) = some (u, os) ∧
    exec DownlinkLoop.step .start
      [reader 0, .Read echo_reply 0, .Send (.ok ()), .Read echo_reply 5, .Send (.ok ())] =
        some (g, os') ∧
    (os.filterMap Envelope.data_number).map Fin.val =
      List.range (os.filterMap Envelope.data_number).length ∧
    (os'.filterMap (DownlinkLoop.number ⟨1⟩)).map Fin.val =
      List.range (os'.filterMap (DownlinkLoop.number ⟨1⟩)).length := by
  obtain ⟨⟨u, os⟩, hup, -⟩ := Option.map_eq_some_iff.mp
    (show client_numbers (round [1] ++ round [2]) = some [0, 1] by decide +kernel)
  obtain ⟨⟨g, os'⟩, hdown, -⟩ := Option.map_eq_some_iff.mp
    (show gateway_numbers [reader 0, .Read echo_reply 0, .Send (.ok ()), .Read echo_reply 5,
      .Send (.ok ())] = some [0, 1] by decide)
  have hstart : Shared.start ⟨1⟩ [(⟨0⟩, ⟨7⟩)] (some 0 : Exact) = .ok (lone_client 0 ∅) := rfl
  obtain ⟨hclient, hgateway⟩ := numbers_consecutive_iff ⟨1⟩ hstart hup hdown
  exact ⟨u, os, g, os', hup, hdown, hclient.mpr (by decide +kernel),
    hgateway.mpr (by decide)⟩

/-- The client's only path does not answer when its first packet comes, and does when the second
comes; the gateway's first send fails, its second does not. In both directions the first
packet that goes out has the number 1, and the peer holds it back. -/
theorem lost_number_leaves_hole :
    Shared.start ⟨1⟩ [(⟨0⟩, ⟨7⟩)] (some 0 : Exact) = .ok (lone_client 0 ∅) ∧
    client_numbers ([.Others (lone_client 0 ((∅ : Map _ _).insert ⟨0⟩ silent)), .Read [1],
      .Decide stored_orders, .Others (lone_client 1 ∅)] ++ round [2]) = some [1] ∧
    gateway_numbers [reader 0, .Read echo_reply 0, .Send (.error (.Transport "congested")),
      .Read echo_reply 5, .Send (.ok ())] = some [1] ∧
    ((ReorderBuffer.new 128).deliver ⟨1⟩ [2]).2.delivered = [] := by
  refine ⟨rfl, by decide +kernel, by decide +kernel, by decide +kernel⟩

end StreamGuard.V1
