/-
The tasks of the V1 gateway engine, `run_loop` and `accept_loop` of
`streamguard-gateway/src/tunnel.rs` over `GatewayQuic::accept` of
`sg-transport/src/quic.rs`.

`accept` has one error for two things: the endpoint is closed, or the handshake of one
peer has failed. The accept loop ends on either. Its readers live in its own task set,
so they end with it, and the select of `run_loop` then aborts the downlink: one
peer's handshake takes the tunnel from all the others. `Gateway.serve` is the
engine as it is meant, in which an attempt concerns its own connection only; the main
result says in which runs the two are the same.
-/
import StreamGuard.Core.V1
import StreamGuard.Lib.Run

set_option autoImplicit false

namespace StreamGuard.V1

open StreamGuard StreamGuard.Lib

/-! ## The model -/

/-- `GatewayQuic::accept`, from what the endpoint yields and what its handshake comes to. -/
def GatewayQuic.accept : Option (Except String Connection) → Except Error Connection
  | none => .error (.Transport "gateway endpoint closed")
  | some (.error e) => .error (.Transport ("handshake failed: " ++ e))
  | some (.ok conn) => .ok conn

inductive Task where
  | Running
  | Finished
  | Aborted
  deriving DecidableEq

/-- `abort`: a task that has finished stays finished. -/
def Task.abort : Task → Task
  | .Running => .Aborted
  | ended => ended

structure Engine where
  run_loop : Task
  accept_loop : Task
  downlink_loop : Task
  /-- The reader tasks of the accept loop's task set, by connection. -/
  readers : List Connection
  /-- `stop` has sent the shutdown signal. -/
  shutdown : Bool

def Engine.start : Engine := ⟨.Running, .Running, .Running, [], false⟩

inductive Event where
  /-- An attempt comes to its end, or the endpoint is closed (`none`). -/
  | Attempt (incoming : Option (Except String Connection))
  /-- A frame arrives on a connection. -/
  | Frame (connection : Connection)
  /-- The reader of a connection returns: it was closed, or its frames are refused. -/
  | ReaderEnds (connection : Connection)
  /-- The TUN has a packet for a client. -/
  | Packet
  /-- The TUN read fails other than with `WouldBlock`. -/
  | TunFails
  | Stop
  /-- The select of `run_loop` is polled. -/
  | Poll

/-- Traffic that is served. -/
inductive Served where
  | Uplink (connection : Connection)
  | Downlink

namespace Engine

/-- One round of `accept_loop`. When the loop ends its task set is dropped, and the
readers with it. -/
def accept (e : Engine) (incoming : Option (Except String Connection)) : Engine :=
  match GatewayQuic.accept incoming with
  | .ok transport => { e with readers := e.readers ++ [transport] }
  | .error _ => { e with accept_loop := .Finished, readers := [] }

/-- The select of `run_loop` and the two aborts behind it. -/
def poll (e : Engine) : Engine :=
  if e.shutdown = true ∨ e.accept_loop ≠ .Running ∨ e.downlink_loop ≠ .Running then
    { e with
      run_loop := .Finished
      accept_loop := e.accept_loop.abort
      downlink_loop := e.downlink_loop.abort
      readers := [] }
  else e

def step (e : Engine) : Event → Option (Engine × List Served)
  | .Attempt incoming =>
    if e.accept_loop = .Running then some (e.accept incoming, []) else some (e, [])
  | .Frame connection => some (e, if connection ∈ e.readers then [.Uplink connection] else [])
  | .ReaderEnds connection => some ({ e with readers := e.readers.erase connection }, [])
  | .Packet => some (e, if e.downlink_loop = .Running then [.Downlink] else [])
  | .TunFails =>
    if e.downlink_loop = .Running then some ({ e with downlink_loop := .Finished }, [])
    else some (e, [])
  | .Stop => some ({ e with shutdown := true }, [])
  | .Poll => if e.run_loop = .Running then some (e.poll, []) else some (e, [])

end Engine

/-! ## The engine as it is meant -/

/-- Serves every connection whose handshake has completed until it ends, and every packet. -/
def Gateway.serve (live : List Connection) : Event → Option (List Connection × List Served)
  | .Attempt (some (.ok connection)) => some (live ++ [connection], [])
  | .Frame connection => some (live, if connection ∈ live then [.Uplink connection] else [])
  | .ReaderEnds connection => some (live.erase connection, [])
  | .Packet => some (live, [.Downlink])
  | _ => some (live, [])

/-- All tasks run, and the readers are those of the live connections. -/
structure Engine.Serves (e : Engine) (live : List Connection) : Prop where
  run_loop : e.run_loop = .Running
  accept_loop : e.accept_loop = .Running
  downlink_loop : e.downlink_loop = .Running
  shutdown : e.shutdown = false
  readers : e.readers = live

/-- `stop` is called, or the endpoint is closed. -/
def Event.Closes (i : Event) : Prop := i = .Stop ∨ i = .Attempt none

/-- A handshake fails, or the TUN read does. -/
def Event.Fails (i : Event) : Prop := i = .TunFails ∨ ∃ e, i = .Attempt (some (.error e))

section Steps

variable {e e' : Engine} {live live' : List Connection} {i : Event} {o o' : List Served}

theorem start_serves : Engine.start.Serves [] := ⟨rfl, rfl, rfl, rfl, rfl⟩

/-- As long as nothing fails the engine does what is meant. -/
theorem Engine.Serves.step (h : e.Serves live) (hopen : ¬ i.Closes) (hok : ¬ i.Fails)
    (hs : e.step i = some (e', o)) (hs' : Gateway.serve live i = some (live', o')) :
    e'.Serves live' ∧ o = o' := by
  obtain ⟨hrun, haccept, hdownlink, hshutdown, rfl⟩ := h
  cases i with
  | Attempt incoming =>
    match incoming with
    | none => exact absurd (.inr rfl) hopen
    | some (.error failure) => exact absurd (.inr ⟨failure, rfl⟩) hok
    | some (.ok connection) =>
      simp only [Engine.step, haccept, ↓reduceIte, Engine.accept, GatewayQuic.accept] at hs
      obtain ⟨rfl, rfl⟩ := step_inj hs
      obtain ⟨rfl, rfl⟩ := step_inj hs'
      exact ⟨⟨hrun, rfl, hdownlink, hshutdown, rfl⟩, rfl⟩
  | Frame connection | ReaderEnds connection =>
    obtain ⟨rfl, rfl⟩ := step_inj hs
    obtain ⟨rfl, rfl⟩ := step_inj hs'
    exact ⟨⟨hrun, haccept, hdownlink, hshutdown, rfl⟩, rfl⟩
  | Packet =>
    simp only [Engine.step, hdownlink, ↓reduceIte] at hs
    obtain ⟨rfl, rfl⟩ := step_inj hs
    obtain ⟨rfl, rfl⟩ := step_inj hs'
    exact ⟨⟨hrun, haccept, hdownlink, hshutdown, rfl⟩, rfl⟩
  | TunFails => exact absurd (.inl rfl) hok
  | Stop => exact absurd (.inl rfl) hopen
  | Poll =>
    -- no branch of the select is ready
    simp only [Engine.step, hrun, ↓reduceIte, Engine.poll, hshutdown, haccept, hdownlink,
      Bool.false_eq_true, ne_eq, not_true_eq_false, or_self] at hs
    obtain ⟨rfl, rfl⟩ := step_inj hs
    obtain ⟨rfl, rfl⟩ := step_inj hs'
    exact ⟨⟨hrun, haccept, hdownlink, hshutdown, rfl⟩, rfl⟩

/-- One of the two loops has ended. -/
def Engine.Broken (e : Engine) : Prop := e.accept_loop ≠ .Running ∨ e.downlink_loop ≠ .Running

theorem Engine.Broken.not_serves (h : e.Broken) : ¬ e.Serves live := by
  intro hserves
  rcases h with h | h
  · exact h hserves.accept_loop
  · exact h hserves.downlink_loop

/-- A failed handshake ends the accept loop, whoever the peer is. -/
theorem Engine.Serves.broken (h : e.Serves live) (hfails : i.Fails) (hs : e.step i = some (e', o)) :
    e'.Broken := by
  rcases hfails with rfl | ⟨failure, rfl⟩
  · simp only [Engine.step, h.downlink_loop, ↓reduceIte, Option.some.injEq, Prod.mk.injEq] at hs
    obtain ⟨rfl, -⟩ := hs
    exact .inr (by simp)
  · simp only [Engine.step, h.accept_loop, ↓reduceIte, Engine.accept, GatewayQuic.accept,
      Option.some.injEq, Prod.mk.injEq] at hs
    obtain ⟨rfl, -⟩ := hs
    exact .inl (by simp)

theorem Task.abort_ne_running {t : Task} : t.abort ≠ .Running := by
  cases t <;> simp [Task.abort]

/-- No loop starts again. -/
theorem Engine.Broken.step (h : e.Broken) (hs : e.step i = some (e', o)) : e'.Broken := by
  have hdone : e'.accept_loop = e.accept_loop ∧ e'.downlink_loop = e.downlink_loop ∨
      e'.accept_loop ≠ .Running ∨ e'.downlink_loop ≠ .Running := by
    cases i with
    | Attempt incoming =>
      simp only [Engine.step] at hs
      split at hs
      · unfold Engine.accept at hs
        split at hs <;> simp only [Option.some.injEq, Prod.mk.injEq] at hs <;> obtain ⟨rfl, -⟩ := hs
        · exact .inl ⟨rfl, rfl⟩
        · exact .inr (.inl (by simp))
      · simp only [Option.some.injEq, Prod.mk.injEq] at hs
        exact .inl ⟨congrArg _ hs.1.symm, congrArg _ hs.1.symm⟩
    | TunFails =>
      simp only [Engine.step] at hs
      split at hs <;> simp only [Option.some.injEq, Prod.mk.injEq] at hs <;> obtain ⟨rfl, -⟩ := hs
      · exact .inr (.inr (by simp))
      · exact .inl ⟨rfl, rfl⟩
    | Poll =>
      simp only [Engine.step] at hs
      split at hs
      · unfold Engine.poll at hs
        split at hs <;> simp only [Option.some.injEq, Prod.mk.injEq] at hs <;> obtain ⟨rfl, -⟩ := hs
        · exact .inr (.inl Task.abort_ne_running)
        · exact .inl ⟨rfl, rfl⟩
      · simp only [Option.some.injEq, Prod.mk.injEq] at hs
        exact .inl ⟨congrArg _ hs.1.symm, congrArg _ hs.1.symm⟩
    | Frame _ | ReaderEnds _ | Packet | Stop =>
      obtain ⟨rfl, -⟩ := step_inj hs
      exact .inl ⟨rfl, rfl⟩
  rcases hdone with ⟨haccept, hdownlink⟩ | hended
  · rw [Engine.Broken, haccept, hdownlink]
    exact h
  · exact hended

end Steps

/-! ## Whole runs -/

/-- From an engine that serves on, by induction on the events. -/
theorem serves_iff {e e' : Engine} {live live' : List Connection} {events : List Event}
    {os os' : List Served} (h : e.Serves live) (hopen : ∀ i ∈ events, ¬ i.Closes)
    (hrun : exec Engine.step e events = some (e', os))
    (hrun' : exec Gateway.serve live events = some (live', os')) :
    e'.Serves live' ∧ os = os' ↔ ∀ i ∈ events, ¬ i.Fails := by
  induction events generalizing e live os os' with
  | nil =>
    simp only [exec_nil, Option.some.injEq, Prod.mk.injEq] at hrun hrun'
    obtain ⟨rfl, rfl⟩ := hrun
    obtain ⟨rfl, rfl⟩ := hrun'
    simp [h]
  | cons i events ih =>
    obtain ⟨hfirst, hrest⟩ := List.forall_mem_cons.mp hopen
    obtain ⟨e₁, o, o₁, hs, hlater, rfl⟩ := exec_cons_eq_some.mp hrun
    obtain ⟨live₁, o', o₁', hs', hlater', rfl⟩ := exec_cons_eq_some.mp hrun'
    rw [List.forall_mem_cons]
    by_cases hfails : i.Fails
    · -- the loop that has ended stays so, whatever comes
      have hbroken : e'.Broken :=
        exec_invariant (I := Engine.Broken) (fun _ _ _ _ hi hs => hi.step hs)
          (h.broken hfails hs) hlater
      exact ⟨fun hserves => absurd hserves.1 hbroken.not_serves, fun hok => absurd hfails hok.1⟩
    · obtain ⟨hserves, rfl⟩ := h.step hfirst hfails hs hs'
      rw [and_iff_right hfails, ← ih hserves hrest hlater hlater', List.append_cancel_left_eq]

/-- **When the gateway survives its peers.** In every run in which `stop` is not called
and the endpoint not closed: all tasks run on, each live connection has its reader, and
all traffic was served, if and only if no handshake has failed and the TUN read has not. -/
theorem survives_iff {e : Engine} {live : List Connection} {events : List Event}
    {os os' : List Served} (hopen : ∀ i ∈ events, ¬ i.Closes)
    (hrun : exec Engine.step Engine.start events = some (e, os))
    (hrun' : exec Gateway.serve [] events = some (live, os')) :
    e.Serves live ∧ os = os' ↔ ∀ i ∈ events, ¬ i.Fails :=
  serves_iff start_serves hopen hrun hrun'

/-- Two connections with traffic both ways, of which the first ends. -/
def peaceful : List Event :=
  [.Attempt (some (.ok ⟨1⟩)), .Attempt (some (.ok ⟨2⟩)), .Frame ⟨1⟩, .Poll, .ReaderEnds ⟨1⟩,
    .Frame ⟨2⟩, .Packet]

theorem survives_peaceful : ∃ e os, exec Engine.step Engine.start peaceful = some (e, os) ∧
    e.Serves [⟨2⟩] ∧ os = [.Uplink ⟨1⟩, .Uplink ⟨2⟩, .Downlink] := by
  have hopen : ∀ i ∈ peaceful, ¬ i.Closes := by simp [peaceful, Event.Closes]
  have hok : ∀ i ∈ peaceful, ¬ i.Fails := by simp [peaceful, Event.Fails]
  exact ⟨_, _, rfl, (survives_iff hopen rfl rfl).mpr hok⟩

/-- Connection 1 is served until a second peer's handshake times out. -/
theorem failed_handshake_ends_tunnel : ∃ e os,
    exec Engine.step Engine.start [.Attempt (some (.ok ⟨1⟩)), .Frame ⟨1⟩,
      .Attempt (some (.error "timed out")), .Poll, .Frame ⟨1⟩, .Packet] = some (e, os) ∧
    e.run_loop = .Finished ∧ e.readers = [] ∧ os = [.Uplink ⟨1⟩] :=
  ⟨_, _, rfl, rfl, rfl, rfl⟩

end StreamGuard.V1
