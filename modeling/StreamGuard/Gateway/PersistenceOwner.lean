/-
The persistence owner: `PersistenceOwner` of `streamguard-gateway/src/v2/persistence.rs`.

Async callers put blocking works into a bounded queue and wait for a reply; one worker
thread runs them. Callers, worker and the `stop` calls run side by side: a step is one
operation on the channel, a lock or a counter. A caller may be refused, may give up or may
be dropped while it waits, a work may panic and take the worker and the queue with it, and
a stop may find callers that cloned the sender before.

Times are not modelled: a timeout may come at any moment while a call or a join waits.
-/
import StreamGuard.Gateway.OwnerCalls
import StreamGuard.Lib.Serial

set_option autoImplicit false

namespace StreamGuard.Gateway

open StreamGuard StreamGuard.Lib

def PERSISTENCE_QUEUE_HARD_CAP : ℕ := 64
def PERSISTENCE_QUEUE_CAPACITY : ℕ := 32
/-- Durations are in nanoseconds. -/
def PERSISTENCE_IO_TIMEOUT : ℕ := 500 * 1000000
def PERSISTENCE_SHUTDOWN_TIMEOUT : ℕ := 1000 * 1000000

/-- `Duration::as_millis`. -/
def as_millis (duration : ℕ) : ℕ := duration / 1000000

structure PersistenceConfig where
  queue_capacity : ℕ
  io_timeout : ℕ
  shutdown_timeout : ℕ
  capacity_ok : ¬ (queue_capacity = 0 ∨ PERSISTENCE_QUEUE_HARD_CAP < queue_capacity)
  timeouts_ok : ¬ (as_millis io_timeout = 0 ∨ 30000 < as_millis io_timeout ∨
    as_millis shutdown_timeout = 0 ∨ 30000 < as_millis shutdown_timeout)

namespace PersistenceConfig

def default_config : PersistenceConfig where
  queue_capacity := PERSISTENCE_QUEUE_CAPACITY
  io_timeout := PERSISTENCE_IO_TIMEOUT
  shutdown_timeout := PERSISTENCE_SHUTDOWN_TIMEOUT
  capacity_ok := by decide
  timeouts_ok := by decide

end PersistenceConfig

/-! ## The parties -/

variable {σ α : Type*}

/-- The oneshot channel of a call: the reply is still to come, was sent, or the sender is
gone without one. -/
inductive PersistenceReply (α : Type*) where
  | pending
  | sent (result : α)
  | dropped

/-- An `execute` in progress. It holds its clone of the sender until it returns. -/
inductive Execute (σ α : Type*) where
  /-- The sender is cloned, nothing is sent. -/
  | cloned (work : Work σ α)
  /-- The work is in the channel, `submitted` is not counted yet. -/
  | queued (reply : PersistenceReply α)
  | waiting (reply : PersistenceReply α)

/-- The first reply is the only one. -/
def PersistenceReply.answer (reply : PersistenceReply α) : PersistenceReply α → PersistenceReply α
  | .pending => reply
  | r => r

def Execute.answer (reply : PersistenceReply α) : Execute σ α → Execute σ α
  | .cloned work => .cloned work
  | .queued r => .queued (reply.answer r)
  | .waiting r => .waiting (reply.answer r)

inductive Worker (σ α : Type*) where
  | idle
  | busy (id : ℕ) (work : Work σ α)
  /-- A work panicked; the receiver is not dropped yet. -/
  | unwinding
  | exited
  | panicked

/-- The receiver is dropped. -/
def Worker.gone : Worker σ α → Bool
  | .exited | .panicked => true
  | _ => false

/-- The work that runs. -/
def Worker.current : Worker σ α → List (ℕ × Work σ α)
  | .busy id work => [(id, work)]
  | _ => []

/-- The `JoinHandle`: in the owner, with the `stop` call that joins, or given up. -/
inductive Handle where
  | held
  | joining
  | taken
  deriving DecidableEq

structure PersistenceMetrics where
  submitted : ℕ
  completed : ℕ
  full_dropped : ℕ
  timed_out : ℕ
  closed : ℕ
  shutdown_timed_out : ℕ

/-- The owner with everybody who uses it. `tx`: the sender is still in its mutex; `closing`:
the `stop` calls between their two locks; `alive`: not dropped. The calls go by numbers;
`store` is what the works read and write. -/
structure PersistenceOwner (σ α : Type*) where
  config : PersistenceConfig
  tx : Bool
  handle : Handle
  metrics : PersistenceMetrics
  queue : List (ℕ × Work σ α)
  worker : Worker σ α
  calls : Map ℕ (Execute σ α)
  next_call : ℕ
  closing : ℕ
  alive : Bool
  store : σ

inductive OwnerLabel (σ α : Type*) where
  /-- `execute` begins: the sender is cloned. -/
  | execute (work : Work σ α)
  | try_send (id : ℕ)
  /-- `submitted` is counted and the wait begins. -/
  | submit (id : ℕ)
  | recv
  /-- The work of the worker ends or panics. -/
  | finish
  /-- The receiver of a worker that panicked is dropped, with what is in the channel. -/
  | unwind
  /-- `recv` finds no sender. -/
  | exit
  | answer (id : ℕ)
  | timeout (id : ℕ)
  /-- The future of the call is dropped while it waits. -/
  | cancel (id : ℕ)
  /-- `stop` takes the sender. -/
  | stop
  /-- `stop` takes the handle. -/
  | take_handle
  | join
  /-- The join takes too long or fails. -/
  | join_timeout
  /-- The future of the `stop` that joins is dropped. -/
  | join_cancel
  | drop

inductive OwnerEvent (σ α : Type*) where
  | accepted (id : ℕ) (work : Work σ α)
  | ran (id : ℕ) (result : Option α)
  | lost (id : ℕ) (work : Work σ α)
  | returned (id : ℕ) (result : Except PersistenceError α)
  | cancelled (id : ℕ)
  /-- A `stop` returns; `joined` where its join saw the worker leave its loop. -/
  | stopped (joined : Bool)

namespace PersistenceOwner

variable {s s' : PersistenceOwner σ α} {id : ℕ}

/-! ## The steps -/

/-- `PersistenceOwner::start`. -/
def start (config : PersistenceConfig) (store : σ) : PersistenceOwner σ α where
  config := config
  tx := true
  handle := .held
  metrics := ⟨0, 0, 0, 0, 0, 0⟩
  queue := []
  worker := .idle
  calls := ∅
  next_call := 0
  closing := 0
  alive := true
  store := store

/-- An answer on the reply channel of a call, if that is still there. -/
def deliver (reply : PersistenceReply α) (calls : Map ℕ (Execute σ α)) (id : ℕ) :
    Map ℕ (Execute σ α) :=
  match calls.lookup id with
  | none => calls
  | some call => calls.insert id (call.answer reply)

/-- A call returns, and its clone of the sender with it. -/
def leave (s : PersistenceOwner σ α) (id : ℕ) (metrics : PersistenceMetrics) :
    PersistenceOwner σ α :=
  { s with calls := s.calls.erase id, metrics := metrics }

/-- The beginning of `execute`. -/
def execute (s : PersistenceOwner σ α) (work : Work σ α) :
    PersistenceOwner σ α × List (OwnerEvent σ α) :=
  if s.tx then
    ({ s with
        calls := s.calls.insert s.next_call (.cloned work)
        next_call := s.next_call + 1 }, [])
  else
    ({ s with next_call := s.next_call + 1
              metrics := { s.metrics with closed := s.metrics.closed + 1 } },
      [.returned s.next_call (.error .Closed)])

/-- `try_send`. -/
def try_send (s : PersistenceOwner σ α) (id : ℕ) (work : Work σ α) :
    PersistenceOwner σ α × List (OwnerEvent σ α) :=
  if s.worker.gone then
    (s.leave id { s.metrics with closed := s.metrics.closed + 1 },
      [.returned id (.error .Closed)])
  else if s.config.queue_capacity ≤ s.queue.length then
    (s.leave id { s.metrics with full_dropped := s.metrics.full_dropped + 1 },
      [.returned id (.error .Full)])
  else
    ({ s with queue := s.queue ++ [(id, work)], calls := s.calls.insert id (.queued .pending) },
      [.accepted id work])

/-- The end of a work. -/
def finish (s : PersistenceOwner σ α) (id : ℕ) (work : Work σ α) :
    PersistenceOwner σ α × List (OwnerEvent σ α) :=
  let (store, result) := work s.store
  match result with
  | some r =>
    ({ s with store, worker := .idle, calls := deliver (.sent r) s.calls id }, [.ran id (some r)])
  | none =>
    ({ s with store, worker := .unwinding, calls := deliver .dropped s.calls id }, [.ran id none])

/-- The channel goes with the receiver. -/
def unwind (s : PersistenceOwner σ α) : PersistenceOwner σ α × List (OwnerEvent σ α) :=
  ({ s with worker := .panicked, queue := []
            calls := (s.queue.map Prod.fst).foldl (deliver .dropped) s.calls },
    s.queue.map fun w => .lost w.1 w.2)

def step (s : PersistenceOwner σ α) :
    OwnerLabel σ α → Option (PersistenceOwner σ α × List (OwnerEvent σ α))
  | .execute work => if s.alive then some (s.execute work) else none
  | .try_send id =>
    match s.calls.lookup id with
    | some (.cloned work) => some (s.try_send id work)
    | _ => none
  | .submit id =>
    match s.calls.lookup id with
    | some (.queued reply) =>
      some ({ s with calls := s.calls.insert id (.waiting reply)
                     metrics := { s.metrics with submitted := s.metrics.submitted + 1 } }, [])
    | _ => none
  | .recv =>
    match s.worker, s.queue with
    | .idle, (id, work) :: queue => some ({ s with worker := .busy id work, queue }, [])
    | _, _ => none
  | .finish =>
    match s.worker with
    | .busy id work => some (s.finish id work)
    | _ => none
  | .unwind =>
    match s.worker with
    | .unwinding => some s.unwind
    | _ => none
  | .exit =>
    match s.worker with
    | .idle =>
      -- no sender is left: not the owner's, nor that of a call
      if s.queue.isEmpty ∧ s.tx = false ∧ s.calls.entries.isEmpty then
        some ({ s with worker := .exited }, [])
      else none
    | _ => none
  | .answer id =>
    match s.calls.lookup id with
    | some (.waiting (.sent result)) =>
      some (s.leave id { s.metrics with completed := s.metrics.completed + 1 },
        [.returned id (.ok result)])
    | some (.waiting .dropped) =>
      some (s.leave id { s.metrics with closed := s.metrics.closed + 1 },
        [.returned id (.error .Closed)])
    | _ => none
  | .timeout id =>
    -- the reply may come after the future was polled and before the deadline is
    match s.calls.lookup id with
    | some (.waiting _) =>
      some (s.leave id { s.metrics with timed_out := s.metrics.timed_out + 1 },
        [.returned id (.error .Timeout)])
    | _ => none
  | .cancel id =>
    match s.calls.lookup id with
    | some (.waiting _) => some (s.leave id s.metrics, [.cancelled id])
    | _ => none
  | .stop =>
    if s.alive then some ({ s with tx := false, closing := s.closing + 1 }, []) else none
  | .take_handle =>
    match s.closing with
    | 0 => none
    | closing + 1 =>
      if s.handle = .held then some ({ s with closing, handle := .joining }, [])
      else some ({ s with closing }, [.stopped false])
  | .join =>
    match s.handle, s.worker with
    | .joining, .exited => some ({ s with handle := .taken }, [.stopped true])
    | .joining, .panicked =>
      some ({ s with
          handle := .taken
          metrics := { s.metrics with shutdown_timed_out := s.metrics.shutdown_timed_out + 1 } },
        [.stopped false])
    | _, _ => none
  | .join_timeout =>
    if s.handle = .joining then
      some ({ s with
          handle := .taken
          metrics := { s.metrics with shutdown_timed_out := s.metrics.shutdown_timed_out + 1 } },
        [.stopped false])
    else none
  | .join_cancel =>
    if s.handle = .joining then some ({ s with handle := .taken }, []) else none
  | .drop =>
    -- nobody else holds the owner
    if s.alive ∧ s.calls.entries.isEmpty ∧ s.closing = 0 ∧ s.handle ≠ .joining then
      some ({ s with tx := false, handle := .taken, alive := false }, [])
    else none

/-! ## What a step does -/

/-- How a call comes to its end, with what it counts. -/
inductive Leaves (s : PersistenceOwner σ α) :
    Execute σ α → PersistenceMetrics → Except PersistenceError α → Prop where
  | disconnected (work : Work σ α) (hgone : s.worker.gone = true) :
      Leaves s (.cloned work) { s.metrics with closed := s.metrics.closed + 1 } (.error .Closed)
  | full (work : Work σ α) (hfull : s.config.queue_capacity ≤ s.queue.length) :
      Leaves s (.cloned work) { s.metrics with full_dropped := s.metrics.full_dropped + 1 }
        (.error .Full)
  | answered (result : α) :
      Leaves s (.waiting (.sent result)) { s.metrics with completed := s.metrics.completed + 1 }
        (.ok result)
  | dropped :
      Leaves s (.waiting .dropped) { s.metrics with closed := s.metrics.closed + 1 }
        (.error .Closed)
  | timed_out (reply : PersistenceReply α) :
      Leaves s (.waiting reply) { s.metrics with timed_out := s.metrics.timed_out + 1 }
        (.error .Timeout)

/-- What `stop` and `Drop` do; the calls, the channel and the worker are not touched. -/
inductive Control (s : PersistenceOwner σ α) :
    PersistenceOwner σ α → List (OwnerEvent σ α) → Prop where
  | stop : Control s { s with tx := false, closing := s.closing + 1 } []
  | take_handle {closing : ℕ} (hclosing : s.closing = closing + 1) (hheld : s.handle = .held) :
      Control s { s with closing, handle := .joining } []
  | nothing_to_join {closing : ℕ} (hclosing : s.closing = closing + 1) (hheld : s.handle ≠ .held) :
      Control s { s with closing } [.stopped false]
  | joined (hjoining : s.handle = .joining) (hexited : s.worker = .exited) :
      Control s { s with handle := .taken } [.stopped true]
  | unjoined (hjoining : s.handle = .joining) :
      Control s
        { s with
          handle := .taken
          metrics := { s.metrics with shutdown_timed_out := s.metrics.shutdown_timed_out + 1 } }
        [.stopped false]
  | abandoned (hjoining : s.handle = .joining) : Control s { s with handle := .taken } []
  | drop (hidle : s.handle ≠ .joining) :
      Control s { s with tx := false, handle := .taken, alive := false } []

/-- All that a step can do. -/
inductive Steps (s : PersistenceOwner σ α) :
    OwnerLabel σ α → PersistenceOwner σ α → List (OwnerEvent σ α) → Prop where
  | opens (work : Work σ α) (hopen : s.tx = true) :
      Steps s (.execute work)
        { s with
          calls := s.calls.insert s.next_call (.cloned work)
          next_call := s.next_call + 1 } []
  | refused (work : Work σ α) (hclosed : s.tx = false) :
      Steps s (.execute work)
        { s with
          next_call := s.next_call + 1
          metrics := { s.metrics with closed := s.metrics.closed + 1 } }
        [.returned s.next_call (.error .Closed)]
  | leaves {label : OwnerLabel σ α} {id : ℕ} {call : Execute σ α} {metrics : PersistenceMetrics}
      {result : Except PersistenceError α} (hcall : s.calls.lookup id = some call)
      (hleaves : s.Leaves call metrics result) :
      Steps s label (s.leave id metrics) [.returned id result]
  | accepts {id : ℕ} {work : Work σ α} (hcall : s.calls.lookup id = some (.cloned work))
      (halive : s.worker.gone = false) (hroom : s.queue.length < s.config.queue_capacity) :
      Steps s (.try_send id)
        { s with
          queue := s.queue ++ [(id, work)]
          calls := s.calls.insert id (.queued .pending) }
        [.accepted id work]
  | submits {id : ℕ} {reply : PersistenceReply α}
      (hcall : s.calls.lookup id = some (.queued reply)) :
      Steps s (.submit id)
        { s with
          calls := s.calls.insert id (.waiting reply)
          metrics := { s.metrics with submitted := s.metrics.submitted + 1 } } []
  | cancels {id : ℕ} {reply : PersistenceReply α}
      (hcall : s.calls.lookup id = some (.waiting reply)) :
      Steps s (.cancel id) (s.leave id s.metrics) [.cancelled id]
  | recv {id : ℕ} {work : Work σ α} {queue : List (ℕ × Work σ α)} (hidle : s.worker = .idle)
      (hqueue : s.queue = (id, work) :: queue) :
      Steps s .recv { s with worker := .busy id work, queue } []
  | runs {id : ℕ} {work : Work σ α} {result : α} (hbusy : s.worker = .busy id work)
      (hresult : (work s.store).2 = some result) :
      Steps s .finish
        { s with
          store := (work s.store).1
          worker := .idle
          calls := deliver (.sent result) s.calls id }
        [.ran id (some result)]
  | panics {id : ℕ} {work : Work σ α} (hbusy : s.worker = .busy id work)
      (hresult : (work s.store).2 = none) :
      Steps s .finish
        { s with
          store := (work s.store).1
          worker := .unwinding
          calls := deliver .dropped s.calls id }
        [.ran id none]
  | unwinds (hunwinding : s.worker = .unwinding) : Steps s .unwind s.unwind.1 s.unwind.2
  | exits (hidle : s.worker = .idle) (hqueue : s.queue = []) (hclosed : s.tx = false)
      (hcalls : s.calls = ∅) : Steps s .exit { s with worker := .exited } []
  | control {label : OwnerLabel σ α} {t : PersistenceOwner σ α} {events : List (OwnerEvent σ α)}
      (hcontrol : s.Control t events) : Steps s label t events

theorem calls_eq_empty (h : s.calls.entries.isEmpty = true) : s.calls = ∅ :=
  AList.ext (List.isEmpty_iff.mp h)

theorem execute_steps (work : Work σ α) :
    s.Steps (.execute work) (s.execute work).1 (s.execute work).2 := by
  rw [execute]
  split
  · next hopen => exact .opens work hopen
  · next hclosed => exact .refused work (Bool.not_eq_true _ ▸ hclosed)

theorem try_send_steps {work : Work σ α} (hcall : s.calls.lookup id = some (.cloned work)) :
    s.Steps (.try_send id) (s.try_send id work).1 (s.try_send id work).2 := by
  rw [try_send]
  split
  · next hgone => exact .leaves hcall (.disconnected work hgone)
  split
  · next hfull => exact .leaves hcall (.full work hfull)
  · next hgone hroom => exact .accepts hcall (Bool.not_eq_true _ ▸ hgone) (Nat.not_le.mp hroom)

theorem finish_steps {work : Work σ α} (hbusy : s.worker = .busy id work) :
    s.Steps .finish (s.finish id work).1 (s.finish id work).2 := by
  rw [finish]
  dsimp only
  split
  · next r hr => exact .runs hbusy hr
  · next hr => exact .panics hbusy hr

theorem step_steps {label : OwnerLabel σ α} {events : List (OwnerEvent σ α)}
    (hs : s.step label = some (s', events)) : s.Steps label s' events := by
  cases label with
  | execute work =>
    rw [step] at hs
    obtain ⟨-, hs⟩ := Option.ite_none_right_eq_some.mp hs
    obtain ⟨rfl, rfl⟩ := step_inj hs
    exact execute_steps work
  | try_send id =>
    rw [step] at hs
    split at hs
    · next work hcall =>
      obtain ⟨rfl, rfl⟩ := step_inj hs
      exact try_send_steps hcall
    · contradiction
  | submit id =>
    rw [step] at hs
    split at hs
    · next reply hcall =>
      obtain ⟨rfl, rfl⟩ := step_inj hs
      exact .submits hcall
    · contradiction
  | recv =>
    rw [step] at hs
    split at hs
    · next id work queue hidle hqueue =>
      obtain ⟨rfl, rfl⟩ := step_inj hs
      exact .recv hidle hqueue
    · contradiction
  | finish =>
    rw [step] at hs
    split at hs
    · next id work hbusy =>
      obtain ⟨rfl, rfl⟩ := step_inj hs
      exact finish_steps hbusy
    · contradiction
  | unwind =>
    rw [step] at hs
    split at hs
    · next hunwinding =>
      obtain ⟨rfl, rfl⟩ := step_inj hs
      exact .unwinds hunwinding
    · contradiction
  | exit =>
    rw [step] at hs
    split at hs
    · next hidle =>
      obtain ⟨⟨hqueue, hclosed, hcalls⟩, hs⟩ := Option.ite_none_right_eq_some.mp hs
      obtain ⟨rfl, rfl⟩ := step_inj hs
      exact .exits hidle (List.isEmpty_iff.mp hqueue) hclosed (calls_eq_empty hcalls)
    · contradiction
  | answer id =>
    rw [step] at hs
    split at hs
    · next result hcall =>
      obtain ⟨rfl, rfl⟩ := step_inj hs
      exact .leaves hcall (.answered result)
    · next hcall =>
      obtain ⟨rfl, rfl⟩ := step_inj hs
      exact .leaves hcall .dropped
    · contradiction
  | timeout id =>
    rw [step] at hs
    split at hs
    · next reply hcall =>
      obtain ⟨rfl, rfl⟩ := step_inj hs
      exact .leaves hcall (.timed_out reply)
    · contradiction
  | cancel id =>
    rw [step] at hs
    split at hs
    · next reply hcall =>
      obtain ⟨rfl, rfl⟩ := step_inj hs
      exact .cancels hcall
    · contradiction
  | stop =>
    rw [step] at hs
    obtain ⟨-, hs⟩ := Option.ite_none_right_eq_some.mp hs
    obtain ⟨rfl, rfl⟩ := step_inj hs
    exact .control .stop
  | take_handle =>
    rw [step] at hs
    split at hs
    · contradiction
    · next closing hclosing =>
      split at hs
      · next hheld =>
        obtain ⟨rfl, rfl⟩ := step_inj hs
        exact .control (.take_handle hclosing hheld)
      · next hheld =>
        obtain ⟨rfl, rfl⟩ := step_inj hs
        exact .control (.nothing_to_join hclosing hheld)
  | join =>
    rw [step] at hs
    split at hs
    · next hjoining hexited =>
      obtain ⟨rfl, rfl⟩ := step_inj hs
      exact .control (.joined hjoining hexited)
    · next hjoining hpanicked =>
      obtain ⟨rfl, rfl⟩ := step_inj hs
      exact .control (.unjoined hjoining)
    · contradiction
  | join_timeout =>
    rw [step] at hs
    obtain ⟨hjoining, hs⟩ := Option.ite_none_right_eq_some.mp hs
    obtain ⟨rfl, rfl⟩ := step_inj hs
    exact .control (.unjoined hjoining)
  | join_cancel =>
    rw [step] at hs
    obtain ⟨hjoining, hs⟩ := Option.ite_none_right_eq_some.mp hs
    obtain ⟨rfl, rfl⟩ := step_inj hs
    exact .control (.abandoned hjoining)
  | drop =>
    rw [step] at hs
    obtain ⟨⟨-, -, -, hidle⟩, hs⟩ := Option.ite_none_right_eq_some.mp hs
    obtain ⟨rfl, rfl⟩ := step_inj hs
    exact .control (.drop hidle)

end PersistenceOwner

end StreamGuard.Gateway
