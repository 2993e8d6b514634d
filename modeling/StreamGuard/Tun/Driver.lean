/-
The blocking TUN driver: `sg-tun/src/driver.rs`.

Any number of senders put packets into three bounded queues, one a class. One worker thread, the
only one that touches the backend, takes from each in turn, writes, and reads into a fourth
queue, from which the owner receives. What they share are the queues, two flags and a table of
counters and gauges. A sender adds to the gauges before it enqueues, and takes off again what was
not let in; the worker takes off what it has dequeued.

A step of the machine is one access to what is shared, so its runs are all interleavings of the
calls and the loop. What the backend answers is part of the step. The owner holds its receiver
all the time, and the worker, once it has left the loop, lets go of its ends of the queues at once.
-/
import StreamGuard.Core.V2
import StreamGuard.Lib.Gauges
import StreamGuard.Lib.Run

set_option autoImplicit false

namespace StreamGuard.Tun

open StreamGuard StreamGuard.Lib

/-! ## Classes, bounds and errors -/

/-- The classes with an egress queue. -/
inductive DataClass where
  | Realtime
  | Interactive
  | Bulk
  deriving DecidableEq

def class_index : TrafficClass → Option DataClass
  | .Realtime => some .Realtime
  | .Interactive => some .Interactive
  | .Bulk => some .Bulk
  | .Control => none

/-- `DriverConfig`, without the time slice of a read. -/
structure DriverConfig where
  max_packet_bytes : ℕ
  ingress_max_packets : ℕ
  ingress_max_bytes : ℕ
  egress_max_packets : DataClass → ℕ
  egress_max_bytes : DataClass → ℕ

inductive FailureKind where
  | Read
  | Write
  | JoinRequired
  deriving DecidableEq

structure DriverFailure where
  kind : FailureKind
  message : String
  deriving DecidableEq

/-- The errors of sending and receiving. -/
inductive DriverError where
  | EmptyPacket
  | Oversize (length limit : ℕ)
  | ControlRejected
  | EgressPacketLimit (traffic_class : TrafficClass)
  | EgressByteLimit (traffic_class : TrafficClass)
  | Terminal (kind : FailureKind) (message : String)
  | Closed
  deriving DecidableEq

def terminal_error (failure : DriverFailure) : DriverError :=
  .Terminal failure.kind failure.message

/-! ## The table -/

/-- The counters of `SharedMetrics`. -/
inductive Counter where
  | ingress_received
  | ingress_delivered
  | ingress_dropped_packet_limit
  | ingress_dropped_byte_limit
  | ingress_dropped_oversize
  | egress_enqueued (c : DataClass)
  | egress_written (c : DataClass)
  | egress_dropped_packet (c : DataClass)
  | egress_dropped_byte (c : DataClass)
  | egress_dropped_oversize
  | egress_empty_rejected
  | egress_control_rejected
  | read_errors
  | write_errors
  | zero_reads
  | zero_writes
  | partial_writes
  | bytes_read
  | bytes_written
  deriving DecidableEq

/-- Its gauges. -/
inductive Gauge where
  | ingress_queued_packets
  | ingress_queued_bytes
  | egress_queued_packets (c : DataClass)
  | egress_queued_bytes (c : DataClass)
  deriving DecidableEq

/-- The table. None of its entries gets near the top of its word. -/
abbrev SharedMetrics := Cells Counter Gauge

abbrev Op := Fetch Counter Gauge

/-! ## Where the parties are -/

/-- A call of `send`. From `Finish` on it does what it has decided on and returns. -/
inductive SendPoint where
  | ReadFailure
  | LoadShutdown
  | Reserve (c : DataClass)
  | CountPacket (c : DataClass)
  | TrySend (c : DataClass)
  | Finish (ops : List Op) (result : Except DriverError Unit)
  deriving DecidableEq

/-- `started` is the failure that was recorded when the call began. The call does not read it. -/
structure SendCall where
  traffic_class : TrafficClass
  packet : Bytes
  started : Option DriverFailure
  point : SendPoint
  deriving DecidableEq

/-- The owner, in a call of `recv` if it `waits` and of `try_recv` if not. -/
inductive OwnerPoint where
  | Idle
  | ReadFailure (waits : Bool) (started : Option DriverFailure)
  | Receive (waits : Bool) (started : Option DriverFailure)
  | Disconnected (waits : Bool) (started : Option DriverFailure)
  | Finish (ops : List Op) (started : Option DriverFailure)
      (result : Except DriverError (Option Bytes))

/-- Where `worker_loop` looks at the flags: at the top of the loop, before the turn of a class with
those that are to follow, and after the pass. -/
inductive Phase where
  | Top
  | Turn (c : DataClass) (rest : List DataClass)
  | AfterPass

/-- What the worker does once its counters are up to date. A read fault leaves the loop, a write
fault the pass. -/
inductive Next where
  | Continue (phase : Phase)
  | ReadFault (message : String)
  | WriteFault (c : DataClass) (message : String)
  /-- The receiver has gone. -/
  | Leave

inductive WorkerPoint where
  | LoadShutdown (phase : Phase)
  | ReadFailure (phase : Phase)
  | TryRecv (c : DataClass) (rest : List DataClass)
  /-- The packet is written as soon as the operations are done. -/
  | Write (c : DataClass) (rest : List DataClass) (packet : Bytes) (ops : List Op)
  | Settle (ops : List Op) (next : Next)
  | Read
  | Reserve (packet : Bytes)
  | CountPacket (packet : Bytes)
  | TrySend (packet : Bytes)
  /-- Out of the loop, with its ends of the queues still in hand. -/
  | Leaving
  | Exited

structure Driver where
  config : DriverConfig
  metrics : SharedMetrics
  shutdown : Bool
  failure : Option DriverFailure
  /-- The queues, with nothing in them once the worker has gone and dropped their receivers. -/
  egress : DataClass → List Bytes
  ingress : List Bytes
  sends : Multiset SendCall
  owner : OwnerPoint
  worker : WorkerPoint

/-- What is seen of a step. -/
inductive Trace where
  | Accepted (c : DataClass) (packet : Bytes)
  | Wrote (c : DataClass) (packet : Bytes)
  | WriteFailed (c : DataClass) (packet : Bytes)
  | Sent (started : Option DriverFailure) (result : Except DriverError Unit)
  | Received (started : Option DriverFailure) (result : Except DriverError (Option Bytes))
  deriving DecidableEq

/-! ## Sending -/

namespace SendCall

/-- The checks of a packet. -/
def checked (config : DriverConfig) (call : SendCall) : SendPoint :=
  match class_index call.traffic_class with
  | none => .Finish [.add .egress_control_rejected 1] (.error .ControlRejected)
  | some c =>
    if call.packet.isEmpty then
      .Finish [.add .egress_empty_rejected 1] (.error .EmptyPacket)
    else if config.max_packet_bytes < call.packet.length then
      .Finish [.add .egress_dropped_oversize 1]
        (.error (.Oversize call.packet.length config.max_packet_bytes))
    else .Reserve c

/-- The next step of `send`: the state, and where the call is then, or nowhere if it has
returned. -/
def step (s : Driver) (call : SendCall) : Driver × Option SendPoint × List Trace :=
  let length := call.packet.length
  match call.point with
  | .ReadFailure =>
    match s.failure with
    | some failure => (s, some (.Finish [] (.error (terminal_error failure))), [])
    | none => (s, some .LoadShutdown, [])
  | .LoadShutdown =>
    if s.shutdown = true then (s, some (.Finish [] (.error .Closed)), [])
    else (s, some (call.checked s.config), [])
  | .Reserve c =>
    let previous_bytes := s.metrics.gauge (.egress_queued_bytes c)
    ({ s with metrics := s.metrics.reserve (.egress_queued_bytes c) length },
      some (if s.config.egress_max_bytes c < previous_bytes + length then
          .Finish [.sub (.egress_queued_bytes c) length, .add (.egress_dropped_byte c) 1]
            (.error (.EgressByteLimit call.traffic_class))
        else .CountPacket c), [])
  | .CountPacket c =>
    ({ s with metrics := s.metrics.reserve (.egress_queued_packets c) 1 }, some (.TrySend c), [])
  | .TrySend c =>
    match s.worker with
    | .Exited =>
      (s, some (.Finish [.sub (.egress_queued_bytes c) length, .sub (.egress_queued_packets c) 1]
        (.error .Closed)), [])
    | _ =>
      if (s.egress c).length < s.config.egress_max_packets c then
        ({ s with egress := Function.update s.egress c (s.egress c ++ [call.packet]) },
          some (.Finish [.add (.egress_enqueued c) 1] (.ok ())), [.Accepted c call.packet])
      else
        (s, some (.Finish [.sub (.egress_queued_bytes c) length,
          .sub (.egress_queued_packets c) 1, .add (.egress_dropped_packet c) 1]
            (.error (.EgressPacketLimit call.traffic_class))), [])
  | .Finish (op :: ops) result =>
    ({ s with metrics := s.metrics.apply op }, some (.Finish ops result), [])
  | .Finish [] result => (s, none, [.Sent call.started result])

end SendCall

/-! ## Receiving -/

/-- The next step of `try_recv` or `recv`; none if `recv` has nothing to receive yet. -/
def owner_step (s : Driver) : Option (Driver × List Trace) :=
  match s.owner with
  | .Idle => none
  | .ReadFailure waits started =>
    match s.failure with
    | some failure =>
      some ({ s with owner := .Finish [] started (.error (terminal_error failure)) }, [])
    | none => some ({ s with owner := .Receive waits started }, [])
  | .Receive waits started =>
    match s.ingress, s.worker with
    | packet :: rest, _ =>
      some ({ s with
        ingress := rest
        owner := .Finish [.sub .ingress_queued_packets 1, .sub .ingress_queued_bytes packet.length]
          started (.ok (some packet)) }, [])
    | [], .Exited => some ({ s with owner := .Disconnected waits started }, [])
    | [], _ =>
      if waits = true then none
      else some ({ s with owner := .Finish [] started (.ok none) }, [])
  | .Disconnected waits started =>
    match s.failure with
    | some failure =>
      some ({ s with owner := .Finish [] started (.error (terminal_error failure)) }, [])
    | none =>
      let result := if waits = true then .ok none else .error .Closed
      some ({ s with owner := .Finish [] started result }, [])
  | .Finish (op :: ops) started result =>
    some ({ s with metrics := s.metrics.apply op, owner := .Finish ops started result }, [])
  | .Finish [] started result => some ({ s with owner := .Idle }, [.Received started result])

/-! ## The worker -/

/-- The pass goes on with the next class. -/
def turn : List DataClass → Phase
  | [] => .AfterPass
  | c :: rest => .Turn c rest

/-- The worker has gone, and the queues lose their receivers. -/
def exit_loop (s : Driver) : Driver := { s with worker := .Exited, egress := fun _ => [] }

/-- A flag is up: the worker leaves the pass, or the loop. -/
def break_at : Phase → WorkerPoint
  | .Turn _ _ => .LoadShutdown .AfterPass
  | .Top | .AfterPass => .Leaving

/-- No flag is up. -/
def proceed : Phase → WorkerPoint
  | .Top => .LoadShutdown (.Turn .Realtime [.Interactive, .Bulk])
  | .Turn c rest => .TryRecv c rest
  | .AfterPass => .Read

/-- `set_failure`. -/
def set_failure (s : Driver) (kind : FailureKind) (message : String) : Driver :=
  match s.failure with
  | none => { s with failure := some ⟨kind, message⟩ }
  | some _ => s

/-- A step of `worker_loop` that does not need the backend. -/
def work (s : Driver) : Option Driver :=
  match s.worker with
  | .LoadShutdown phase =>
    some { s with worker := if s.shutdown = true then break_at phase else .ReadFailure phase }
  | .ReadFailure phase =>
    some { s with worker := if s.failure.isSome = true then break_at phase else proceed phase }
  | .TryRecv c rest =>
    match s.egress c with
    | [] => some { s with worker := .LoadShutdown (turn rest) }
    | packet :: queue =>
      some { s with
        egress := Function.update s.egress c queue
        worker := .Write c rest packet
          [.sub (.egress_queued_packets c) 1, .sub (.egress_queued_bytes c) packet.length] }
  | .Write c rest packet (op :: ops) =>
    some { s with metrics := s.metrics.apply op, worker := .Write c rest packet ops }
  | .Write _ _ _ [] => none
  | .Settle (op :: ops) next =>
    some { s with metrics := s.metrics.apply op, worker := .Settle ops next }
  | .Settle [] (.Continue phase) => some { s with worker := .LoadShutdown phase }
  | .Settle [] (.ReadFault message) =>
    some { set_failure s .Read message with worker := .Leaving }
  | .Settle [] (.WriteFault _ message) =>
    some { set_failure s .Write message with worker := .LoadShutdown .AfterPass }
  | .Read => none
  | .Reserve packet =>
    let previous_bytes := s.metrics.gauge .ingress_queued_bytes
    some { s with
      metrics := s.metrics.reserve .ingress_queued_bytes packet.length
      worker := if s.config.ingress_max_bytes < previous_bytes + packet.length then
          .Settle [.sub .ingress_queued_bytes packet.length, .add .ingress_dropped_byte_limit 1]
            (.Continue .Top)
        else .CountPacket packet }
  | .CountPacket packet =>
    some { s with
      metrics := s.metrics.reserve .ingress_queued_packets 1
      worker := .TrySend packet }
  | .TrySend packet =>
    if s.ingress.length < s.config.ingress_max_packets then
      some { s with
        ingress := s.ingress ++ [packet]
        worker := .Settle [.add .ingress_delivered 1, .add .bytes_read packet.length]
          (.Continue .Top) }
    else
      some { s with
        worker := .Settle [.sub .ingress_queued_bytes packet.length,
          .sub .ingress_queued_packets 1, .add .ingress_dropped_packet_limit 1] (.Continue .Top) }
  | .Settle [] .Leave => some { s with worker := .Leaving }
  | .Leaving => some (exit_loop s)
  | .Exited => none

/-- What the worker does about the answer of `backend.write`. -/
def written (expected : ℕ) (c : DataClass) (rest : List DataClass) : Except String ℕ → WorkerPoint
  | .ok n =>
    if n = expected then
      .Settle [.add (.egress_written c) 1, .add .bytes_written n] (.Continue (turn rest))
    else if n = 0 then
      .Settle [.add .zero_writes 1, .add .write_errors 1] (.WriteFault c "backend wrote zero bytes")
    else
      .Settle [.add .partial_writes 1, .add .write_errors 1] (.WriteFault c
        ("backend partial write " ++ toString n ++ "/" ++ toString expected))
  | .error error => .Settle [.add .write_errors 1] (.WriteFault c error)

/-- The kinds of an I/O error that the worker tells apart. -/
inductive ReadError where
  /-- `WouldBlock` or `TimedOut`. -/
  | TimedOut
  | Interrupted
  | Other (error : String)

/-- What it does about the answer of `backend.read_interruptible`. A packet that is too long is
not looked at. -/
def read (s : Driver) : Except ReadError Bytes → Driver
  | .ok [] =>
    { s with
      worker := .Settle [.add .zero_reads 1, .add .read_errors 1]
        (.ReadFault "backend returned zero bytes") }
  | .ok (byte :: bytes) =>
    { s with
      metrics := s.metrics.count .ingress_received 1
      worker := if s.config.max_packet_bytes < (byte :: bytes).length then
          .Settle [.add .ingress_dropped_oversize 1] (.Continue .Top)
        else .Reserve (byte :: bytes) }
  | .error .TimedOut | .error .Interrupted => { s with worker := .LoadShutdown .Top }
  | .error (.Other error) => { s with worker := .Settle [.add .read_errors 1] (.ReadFault error) }

/-! ## The machine -/

inductive DriverEvent where
  /-- A sender begins a call, or goes on with one. -/
  | Send (traffic_class : TrafficClass) (packet : Bytes)
  | Sender (call : SendCall)
  /-- The owner begins a call, goes on with it, or gives up one that waits. -/
  | Receive (waits : Bool)
  | Owner
  | Cancel
  /-- The worker goes on, with the answer of the backend if it has called it. -/
  | Work
  | Written (answer : Except String ℕ)
  | Read (answer : Except ReadError Bytes)
  | Shutdown

namespace Driver

/-- `spawn`, with a configuration that it accepts. -/
def spawn (config : DriverConfig) : Driver where
  config
  metrics := ⟨fun _ => 0, fun _ => 0⟩
  shutdown := false
  failure := none
  egress := fun _ => []
  ingress := []
  sends := 0
  owner := .Idle
  worker := .LoadShutdown .Top

def step (s : Driver) : DriverEvent → Option (Driver × List Trace)
  | .Send traffic_class packet =>
    some ({ s with sends := ⟨traffic_class, packet, s.failure, .ReadFailure⟩ ::ₘ s.sends }, [])
  | .Sender call =>
    if call ∈ s.sends then
      let next := call.step s
      some ({ next.1 with
        sends := match next.2.1 with
          | some point => { call with point } ::ₘ s.sends.erase call
          | none => s.sends.erase call }, next.2.2)
    else none
  | .Receive waits =>
    match s.owner with
    | .Idle => some ({ s with owner := .ReadFailure waits s.failure }, [])
    | _ => none
  | .Owner => owner_step s
  | .Cancel =>
    match s.owner with
    | .Receive true _ => some ({ s with owner := .Idle }, [])
    | _ => none
  | .Work => (work s).map (fun s' => (s', []))
  | .Written answer =>
    match s.worker with
    | .Write c rest packet [] =>
      some ({ s with worker := written packet.length c rest answer },
        [if answer = .ok packet.length then .Wrote c packet else .WriteFailed c packet])
    | _ => none
  | .Read answer =>
    match s.worker with
    | .Read => some (read s answer, [])
    | _ => none
  | .Shutdown => some ({ s with shutdown := true }, [])

end Driver

end StreamGuard.Tun
