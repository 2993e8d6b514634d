/-
Client and gateway together, lock by lock: `streamguard-service/src/client.rs` and
`streamguard-gateway/src/tunnel.rs`.

On the client `uplink_loop` and any number of calls of `fail_path` run side by side, with the
tasks that measure, bind and remove paths. What they share is behind locks, none of which is held
from one look at the state to the next; so a step is what a task does under its locks, and between
two of them every other task may run. The same goes for the gateway: `reader_loop` binds the
path of an envelope under one lock and follows its message under the next.

The messages go over one channel that keeps the order and loses nothing.
-/
import StreamGuard.V1.Announcements
import StreamGuard.V1.DownlinkLoop
import StreamGuard.V1.Tunnel

set_option autoImplicit false

namespace StreamGuard.V1

open StreamGuard StreamGuard.Lib

/-! ## The tasks of the client -/

/-- Where a task is in `announce_path` and the `advertise_weights` behind it. -/
inductive Telling (F : Type) where
  | Announcing (next : PathId)
  /-- Past the gate of `announce_path`. -/
  | Selecting (next : PathId)
  | Drafting
  | Gating (preferred : PathId) (weights : List (UInt8 × F))
  /-- Past the gate of `advertise_weights`. -/
  | Publishing (preferred : PathId) (weights : List (UInt8 × F))
  | Told

/-- Where `uplink_loop` is. -/
inductive Round (F : Type) where
  | Reading
  /-- The paths and the active path were read with the packet's number. -/
  | Drawn (paths : List PathId) (active : Option PathId)
  | Chosen (preferred : PathId)
  | Tells (t : Telling F)
  | Ended

/-- Where a call of `fail_path` is. -/
inductive Failing (F : Type) where
  | Marking
  | Choosing
  | Tells (t : Telling F)
  | Ended

/-- The task is through. -/
def Telling.over {F : Type} : Telling F → Bool
  | .Told => true
  | _ => false

/-- Behind the announcements a round sends its packet and reads the next one. -/
def Round.of_telling {F : Type} (t : Telling F) : Round F :=
  if t.over = true then .Reading else .Tells t

/-- A control envelope on its way, with the connection it rides on. -/
structure Rider where
  connection : Connection
  envelope : Envelope

/-- The calls of `fail_path` are numbered in the order in which they were made, and the channel's
first message may have arrived without having been followed. -/
structure Joint (F : Type) where
  client : Shared F
  uplink : Round F
  failing : List (PathId × Failing F)
  gateway : Session F
  channel : List Rider
  arrived : Bool
  now : ℕ

inductive JointEvent (F : Type) where
  /-- `uplink_loop` has a packet, decides, and moves the active path. -/
  | Read
  | Decide (orders : Orders F)
  | Move
  /-- `fail_path` is called, marks the path and chooses another one. -/
  | Fail (dead : PathId)
  | Mark (i : ℕ)
  | Choose (i : ℕ)
  /-- The next section of the announcements of a call of `fail_path`, or of `uplink_loop`. -/
  | Tell (who : Option ℕ) (orders : Orders F)
  /-- A measurement of a path is written or dropped. -/
  | Measure (path : PathId) (metrics : Option (PathMetrics F))
  /-- A rescan of the client binds or removes a path. -/
  | Join (path : PathId) (transport : Connection)
  | Leave (path : PathId)
  /-- The gateway gets the next control envelope, and follows it. -/
  | Arrive
  | Follow
  /-- The gateway binds a path, by an Init or another frame on it, or evicts one. -/
  | Bind (path : PathId) (transport : Connection)
  | Evict (path : PathId)
  /-- The gateway has a packet for the client. -/
  | Packet
  | Wait (ms : ℕ)

/-- An envelope that the client sent, with the state it sent it from, and the path whose failure
it was sent for. -/
structure Sent (F : Type) where
  client : Shared F
  envelope : Envelope
  dead : Option PathId

variable {F : Type} [F32 F]

namespace Shared

/-- The client once the path is marked as dead. -/
def without (s : Shared F) (dead : PathId) : Shared F :=
  { s with metrics := s.metrics.insert dead { PathMetrics.default with reachable := false } }

/-- The path is known to be dead. -/
def knows (s : Shared F) (dead : PathId) : Bool :=
  (s.metrics.lookup dead).any (fun m => !m.reachable)

/-- The choice of a successor: the path to steer the gateway to, if the active path moved. -/
def failover (s : Shared F) : Shared F × Option PathId :=
  let prev := s.session.active_path
  match choose_path s.metrics s.session.path_ids prev with
  | none => (s, none)
  | some best =>
    ({ s with session := (s.session.set_active_path best).1 },
      if prev ≠ none ∧ prev ≠ some best then some best else none)

/-- The three sections with nothing between them. -/
theorem fail_eq (s : Shared F) (dead : PathId) :
    s.fail dead = if s.knows dead = true then (s, none) else (s.without dead).failover := rfl

end Shared

/-- One section of the announcements: what becomes of the task, and its message. -/
def Telling.step (s : Shared F) (orders : Orders F) :
    Telling F → Shared F × Telling F × Option (PathId × ControlMsg F)
  | .Announcing next =>
    let announced := s.announce_path next
    (announced.1, if announced.2.isSome = true then .Selecting next else .Drafting, none)
  | .Selecting next => (s, .Drafting, some (next, .PathSelect next.get))
  | .Drafting =>
    let drafted := s.draft_weights orders
    (drafted.1, drafted.2.elim .Told (fun d => .Gating d.1 d.2), none)
  | .Gating preferred weights =>
    let gated := s.gate_weights weights
    (gated.1, if gated.2 = true then .Publishing preferred weights else .Told, none)
  | .Publishing preferred weights =>
    (s, .Told, some (preferred, .WeightSet (weights.map (fun w => (⟨w.1⟩, w.2)))))
  | .Told => (s, .Told, none)

/-- What goes out of a message: an envelope on the connection of its path, if that is bound. -/
def riders (s : Shared F) : Option (PathId × ControlMsg F) → Outcome Error (List Rider)
  | none => .ok []
  | some (path, msg) => do
    let envelope ← control_envelope path s.session.session_id msg
    return (s.session.paths.lookup path).toList.map (fun connection => ⟨connection, envelope⟩)

/-- The control message that the gateway reads off an envelope. -/
def heard (F : Type) [F32 F] (e : Envelope) : Option (ControlMsg F) :=
  match ControlMsg.decode e.payload with
  | .ok msg => some (msg.map F32.of_bits)
  | _ => none

/-- The gateway follows a control envelope whose path it has seen to. -/
def Session.follow (g : Session F) (now : ℕ) (m : Rider) : Session F :=
  match heard F m.envelope with
  | some (.PathSelect path) => (g.set_active_path ⟨path⟩).1
  | some (.WeightSet weights) => (g.adopt_downlink_weights weights now DOWNLINK_WEIGHT_TTL).1
  | _ => g

namespace Joint

/-- The announcements that a task is at. -/
def telling (j : Joint F) : Option ℕ → Option (Telling F)
  | none =>
    match j.uplink with
    | .Tells t => some t
    | _ => none
  | some i =>
    match j.failing[i]? with
    | some (_, .Tells t) => some t
    | _ => none

/-- A task goes on to `round` or `stage`, according to which it is. -/
def goes (j : Joint F) (who : Option ℕ) (round : Round F) (stage : Failing F) : Joint F :=
  match who with
  | none => { j with uplink := round }
  | some i => { j with failing := j.failing.modify i (fun call => (call.1, stage)) }

/-- The path whose failure a task handles. -/
def dead_of (j : Joint F) (who : Option ℕ) : Option PathId :=
  who.bind (fun i => j.failing[i]?.map Prod.fst)

/-- A section of a task's announcements. The payload of a message is expected to encode: if it does
not, the task ends. -/
def tell (j : Joint F) (who : Option ℕ) (orders : Orders F) (t : Telling F) :
    Joint F × List (Sent F) :=
  let told := t.step j.client orders
  match riders told.1 told.2.2 with
  | .ok sent =>
    ({ j.goes who (.of_telling told.2.1) (.Tells told.2.1) with
        client := told.1, channel := j.channel ++ sent },
      sent.map (fun m => ⟨told.1, m.envelope, j.dead_of who⟩))
  | _ => (j.goes who .Ended .Ended, [])

def step (j : Joint F) : JointEvent F → Option (Joint F × List (Sent F))
  | .Read =>
    match j.uplink with
    | .Reading =>
      let session := j.client.session.next_sequence.1
      some ({ j with
        client := { j.client with session }
        uplink := .Drawn session.path_ids session.active_path }, [])
    | _ => none
  | .Decide orders =>
    match j.uplink with
    | .Drawn paths active =>
      let decided := (j.client.scheduler.update_from orders paths j.client.metrics).decide
      some ({ j with
        client := { j.client with scheduler := decided.1 }
        uplink := match decided.2, decided.1.preferred_path active with
          | .Send _, some preferred => .Chosen preferred
          | .Duplicate _ _, _ => .Ended
          | _, _ => .Reading }, [])
    | _ => none
  | .Move =>
    match j.uplink with
    | .Chosen preferred =>
      some ({ j with
        client := { j.client with session := (j.client.session.set_active_path preferred).1 }
        uplink := .Tells (.Announcing preferred) }, [])
    | _ => none
  | .Fail dead =>
    if j.client.knows dead = true then some (j, [])
    else some ({ j with failing := j.failing ++ [(dead, .Marking)] }, [])
  | .Mark i =>
    match j.failing[i]? with
    | some (dead, .Marking) =>
      some ({ j with
        client := j.client.without dead
        failing := j.failing.set i (dead, .Choosing) }, [])
    | _ => none
  | .Choose i =>
    match j.failing[i]? with
    | some (dead, .Choosing) =>
      let chosen := j.client.failover
      some ({ j with
        client := chosen.1
        failing := j.failing.set i (dead, .Tells (chosen.2.elim .Told .Announcing)) }, [])
    | _ => none
  | .Tell who orders =>
    match j.telling who with
    | some t => if t.over = true then none else some (j.tell who orders t)
    | none => none
  | .Measure path metrics =>
    some ({ j with client := { j.client with
      metrics := metrics.elim (j.client.metrics.erase path) (j.client.metrics.insert path) } }, [])
  | .Join path transport =>
    some ({ j with client := { j.client with
      session := (j.client.session.add_path transport path).1 } }, [])
  | .Leave path =>
    some ({ j with client := { j.client with
      session := (j.client.session.remove_path path).1 } }, [])
  | .Arrive =>
    match j.arrived, j.channel with
    | false, m :: _ =>
      -- a path that is bound stays as it is
      some ({ j with
        gateway := (j.gateway.add_path m.connection m.envelope.path_id).1, arrived := true }, [])
    | _, _ => none
  | .Follow =>
    match j.arrived, j.channel with
    | true, m :: channel =>
      some ({ j with gateway := j.gateway.follow j.now m, channel, arrived := false }, [])
    | _, _ => none
  | .Bind path transport =>
    some ({ j with gateway := (j.gateway.add_path transport path).1 }, [])
  | .Evict path => some ({ j with gateway := (j.gateway.remove_path path).1 }, [])
  | .Packet => some ({ j with gateway := (j.gateway.egress j.now).1 }, [])
  | .Wait ms => some ({ j with now := j.now + ms }, [])

/-- A client, and a gateway that does not know it yet. -/
def start (client : Shared F) (now : ℕ) : Joint F :=
  ⟨client, .Reading, [], .new client.session.session_id, [], false, now⟩

end Joint

/-- The session of the joint model is the one that the reader loop changes. -/
theorem serve_control {t : Tunnel F} {connection : Connection} {e : Envelope} {now : ℕ}
    {sent : Except Error Unit} (h : e.packet_type = .Control) :
    (t.serve connection e now sent).1.sessions.lookup e.session_id =
      some (((SessionManager.get_or_create t.sessions e.session_id).add_path connection
        e.path_id).1.follow now ⟨connection, e⟩) := by
  have hbound := t.lookup_bind connection e.session_id e.path_id
  rw [show (if (SessionManager.get_or_create t.sessions e.session_id).has_path e.path_id = true
      then SessionManager.get_or_create t.sessions e.session_id
      else ((SessionManager.get_or_create t.sessions e.session_id).add_path connection
        e.path_id).1) = ((SessionManager.get_or_create t.sessions e.session_id).add_path connection
        e.path_id).1 by
    split
    · next hold => exact (Session.add_path_of_bound hold).symm
    · rfl] at hbound
  simp only [Tunnel.serve, h, Tunnel.control, Session.follow, heard]
  cases ControlMsg.decode e.payload with
  | ok msg =>
    cases msg with
    | PathSelect path => exact Tunnel.lookup_select_path ⟨path⟩ hbound
    | WeightSet weights => exact Tunnel.lookup_adopt_weights _ now hbound
    | Init _ _ | Ack _ | Nack _ _ => exact hbound
  | err _ => exact hbound
  | panic => exact hbound

end StreamGuard.V1
