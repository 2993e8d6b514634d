/-
The engine supervisor: `V2ClientEngine`, `streamguard-service/src/v2/engine.rs`, and
`V2GatewayEngine`, `streamguard-gateway/src/v2/engine.rs`, whose supervisor differs from it in
names only.

An engine owns one driver and mirrors its first failure. The worker publishes that there is one, a
task waits for that and looks what it is, and every read looks for itself. The end is a shutdown,
which joins the worker, or a drop, which does not.

A step is one access to what is shared, as for the driver. The engine never receives. A worker
that panics is left out, as it is there.
-/
import StreamGuard.Tun.Driver

set_option autoImplicit false

namespace StreamGuard.Tun

open StreamGuard StreamGuard.Lib

/-- `V2ClientEngineState`, `V2GatewayEngineState`. -/
inductive V2EngineState where
  | Running
  | Terminal (failure : DriverFailure)
  | Closed
  deriving DecidableEq

namespace V2EngineState

/-- What `failure` returns of it. -/
def failure : V2EngineState → Option DriverFailure
  | .Terminal failure => some failure
  | .Running | .Closed => none

/-- Whoever sets the state looks first whether it is still `Running`. -/
def set (state next : V2EngineState) : V2EngineState :=
  if state = .Running then next else state

end V2EngineState

/-! ## Where the parties are -/

/-- The supervised task. It holds a sender, so the channel it waits on stays open. -/
inductive WatcherPoint where
  /-- There is no runtime, and it was not started. -/
  | None
  | Wait
  | ReadFailure
  | Store (failure : DriverFailure)
  | Ended

inductive ReadPoint where
  | SyncState
  | ReadFailure
  | Store (failure : DriverFailure)
  | LockState
  | Wait
  deriving DecidableEq

/-- A call of `state`, `is_terminal` or `failure`, or of `await_terminal` if it `waits`; it has been
`signalled` once it is past the wait. `started` is the failure that was recorded when it began. -/
structure EngineRead where
  waits : Bool
  started : Option DriverFailure
  signalled : Bool
  point : ReadPoint
  deriving DecidableEq

/-- What has become of the engine. -/
inductive EnginePoint where
  /-- There is a driver, and no engine yet. -/
  | Spawned
  | Live
  /-- In `shutdown`: the task is aborted, and its end is awaited. -/
  | AwaitWatcher
  | SignalShutdown
  | Join
  | ReadFailure
  | Store (found : Option DriverFailure)
  /-- `shutdown` has returned. -/
  | Closed
  /-- It was given up while it joined. -/
  | Abandoned
  /-- In the drop of a driver whose worker was not joined. -/
  | SetFailure
  | Publish
  | SignalDropped
  | Dropped

structure V2Engine where
  driver : Driver
  /-- The watched value. -/
  terminal : Bool
  /-- The worker has recorded the first failure, and has still to set `terminal`. -/
  publishing : Bool
  state : V2EngineState
  watcher : WatcherPoint
  aborted : Bool
  reads : Multiset EngineRead
  owner : EnginePoint

inductive EngineLabel where
  /-- The senders, the worker, and `request_shutdown`. -/
  | Driver (event : DriverEvent)
  | Publish
  /-- The worker finds that its receiver is gone. -/
  | Closed
  | New (runtime : Bool)
  | Watcher
  | CancelWatcher
  /-- A call begins, goes on, or is given up while it waits. -/
  | Read (waits : Bool)
  | Reader (call : EngineRead)
  | CancelRead (call : EngineRead)
  | Shutdown
  | Drop
  /-- The next step of `shutdown` or of the drop. -/
  | Owner
  /-- The caller of `shutdown` gives it up. -/
  | Abandon

inductive EngineTrace where
  | Driver (seen : Trace)
  | Read (started : Option DriverFailure) (state : V2EngineState)
  | Awaited (started found : Option DriverFailure)
  | Shut (state : V2EngineState)
  deriving DecidableEq

/-! ## Reading -/

/-- The next step of a read: the state, and where the call is then, or nowhere if it has returned;
none if it has to wait. -/
def EngineRead.step (s : V2Engine) (call : EngineRead) :
    Option (V2EngineState × Option EngineRead × List EngineTrace) :=
  match call.point with
  | .SyncState =>
    let point := if s.state = .Running then .ReadFailure else .LockState
    some (s.state, some { call with point }, [])
  | .ReadFailure =>
    match s.driver.failure with
    | some failure => some (s.state, some { call with point := .Store failure }, [])
    | none => some (s.state, some { call with point := .LockState }, [])
  | .Store failure =>
    some (s.state.set (.Terminal failure), some { call with point := .LockState }, [])
  | .LockState =>
    if call.waits = false then some (s.state, none, [.Read call.started s.state])
    else if call.signalled = true ∨ s.state.failure.isSome = true then
      some (s.state, none, [.Awaited call.started s.state.failure])
    else some (s.state, some { call with point := .Wait }, [])
  | .Wait =>
    if s.terminal = true then
      some (s.state, some { call with signalled := true, point := .SyncState }, [])
    else none

/-! ## The machine -/

/-- What does not happen to the driver of an engine. -/
def DriverEvent.receives : DriverEvent → Bool
  | .Receive _ | .Owner | .Cancel => true
  | _ => false

/-- What the worker does. -/
def DriverEvent.works : DriverEvent → Bool
  | .Work | .Written _ | .Read _ => true
  | _ => false

/-- What `DriverTun` records when it is dropped. -/
def join_required : String := "driver owner dropped without close; worker detached, join required"

namespace V2Engine

/-- A driver that was spawned before. -/
def spawn (config : DriverConfig) : V2Engine :=
  ⟨.spawn config, false, false, .Running, .None, false, 0, .Spawned⟩

variable (s : V2Engine)

/-- The receiver has gone with its owner. -/
def unreceived : Bool :=
  match s.owner with
  | .Abandoned | .Dropped => true
  | _ => false

def drive (event : DriverEvent) : Option (V2Engine × List EngineTrace) :=
  (s.driver.step event).map fun r =>
    ({ s with
        driver := r.1
        publishing := s.publishing || (s.driver.failure.isNone && r.1.failure.isSome) },
      r.2.map .Driver)

/-- The next step of the supervised task. -/
def watch : Option V2Engine :=
  match s.watcher with
  | .Wait => if s.terminal = true then some { s with watcher := .ReadFailure } else none
  | .ReadFailure =>
    some { s with watcher := s.driver.failure.elim .Ended .Store }
  | .Store failure => some { s with state := s.state.set (.Terminal failure), watcher := .Ended }
  | .None | .Ended => none

/-- The next step of `shutdown` or of the drop. -/
def own : Option (V2Engine × List EngineTrace) :=
  match s.owner with
  | .AwaitWatcher =>
    match s.watcher with
    | .None | .Ended => some ({ s with owner := .SignalShutdown }, [])
    | _ => none
  | .SignalShutdown =>
    some ({ s with driver := { s.driver with shutdown := true }, owner := .Join }, [])
  | .Join =>
    match s.driver.worker with
    | .Exited => if s.publishing = true then none else some ({ s with owner := .ReadFailure }, [])
    | _ => none
  | .ReadFailure => some ({ s with owner := .Store s.driver.failure }, [])
  | .Store found =>
    let state := s.state.set (found.elim .Closed .Terminal)
    some ({ s with state, owner := .Closed }, [.Shut state])
  | .SetFailure =>
    some ({ s with
        driver := set_failure s.driver .JoinRequired join_required
        owner := if s.driver.failure.isNone then .Publish else .SignalDropped }, [])
  | .Publish => some ({ s with terminal := true, owner := .SignalDropped }, [])
  | .SignalDropped =>
    some ({ s with driver := { s.driver with shutdown := true }, owner := .Dropped }, [])
  | .Spawned | .Live | .Closed | .Abandoned | .Dropped => none

def step : EngineLabel → Option (V2Engine × List EngineTrace)
  | .Driver event =>
    if event.receives = true ∨ (s.publishing = true ∧ event.works = true) then none
    else
      match s.unreceived, s.driver.worker, event with
      | true, .TrySend _, .Work => none
      | _, _, _ => s.drive event
  | .Publish =>
    if s.publishing = true then some ({ s with terminal := true, publishing := false }, [])
    else none
  | .Closed =>
    match s.unreceived, s.driver.worker with
    | true, .TrySend packet =>
      let ops := [.sub .ingress_queued_bytes packet.length, .sub .ingress_queued_packets 1]
      some ({ s with driver := { s.driver with worker := .Settle ops .Leave } }, [])
    | _, _ => none
  | .New runtime =>
    match s.owner with
    | .Spawned =>
      some ({ s with
          state := s.driver.failure.elim .Running .Terminal
          watcher := if runtime = true then .Wait else .None
          owner := .Live }, [])
    | _ => none
  | .Watcher => s.watch.map fun s' => (s', [])
  | .CancelWatcher =>
    match s.aborted, s.watcher with
    | true, .Wait => some ({ s with watcher := .Ended }, [])
    | _, _ => none
  | .Read waits =>
    match s.owner with
    | .Live =>
      some ({ s with reads := ⟨waits, s.driver.failure, false, .SyncState⟩ ::ₘ s.reads }, [])
    | _ => none
  | .Reader call =>
    if call ∈ s.reads then
      (call.step s).map fun r =>
        ({ s with
            state := r.1
            reads := r.2.1.elim 0 (fun call => {call}) + s.reads.erase call }, r.2.2)
    else none
  | .CancelRead call =>
    if call ∈ s.reads ∧ call.point = .Wait then
      some ({ s with reads := s.reads.erase call }, [])
    else none
  | .Shutdown =>
    match s.owner with
    | .Live =>
      -- it takes the engine, which the reads borrow
      if s.reads = 0 then some ({ s with aborted := true, owner := .AwaitWatcher }, []) else none
    | _ => none
  | .Drop =>
    match s.owner with
    | .Live =>
      if s.reads = 0 then some ({ s with aborted := true, owner := .SetFailure }, []) else none
    | .Spawned => some ({ s with owner := .SetFailure }, [])
    | _ => none
  | .Owner => s.own
  | .Abandon =>
    match s.owner with
    | .AwaitWatcher => some ({ s with owner := .SetFailure }, [])
    | .Join => some ({ s with owner := .Abandoned }, [])
    | _ => none

end V2Engine

end StreamGuard.Tun
