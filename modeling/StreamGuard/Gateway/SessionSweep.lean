/-
The supervised session sweep: `SupervisedSessionSweep`,
`streamguard-gateway/src/v2/session_manager.rs`.

A ticker task offers ticks to a sweep task, which calls `V2SessionManager::sweep` with the
clock it reads after it has taken one. Beside them anybody calls the manager, and the owner
stops the two tasks or drops them. Each label is what one of them does between two points at
which the others can be seen; deadlines of `stop` may pass at any time. When the interval
fires is up to the run.
-/
import StreamGuard.Gateway.SessionLedger
import StreamGuard.Lib.Run
import StreamGuard.Lib.Wakeup

set_option autoImplicit false

namespace StreamGuard.Gateway

open StreamGuard StreamGuard.Lib StreamGuard.Session

structure SweepMetrics where
  sweeps_completed : ℕ
  sessions_reaped : ℕ
  sweeps_empty : ℕ
  ticks_queued : ℕ
  ticks_dropped : ℕ
  /-- A gauge: the ticker stores one after it has sent, the sweep task zero after it has
  received, so one may be left over an empty queue. -/
  queue_depth : ℕ

/-- Where the ticker task is. -/
inductive TickerPhase where
  | waiting
  /-- Its tick is in the queue and not counted yet. -/
  | sent
  | ended
  deriving DecidableEq

/-- How far a call of `stop` is. -/
inductive StopPhase where
  | none
  /-- The ticker is aborted, and its end is awaited for a second. -/
  | ticker
  | signal
  /-- `Shutdown` is queued, and the end of the task is awaited for two seconds. -/
  | join
  /-- The task is aborted, and its end is awaited. -/
  | cancel
  deriving DecidableEq

/-- `handle`, `ticker_handle`: the handle has not been taken; `owned`: not dropped. -/
structure SessionSweep where
  manager : V2SessionManager
  clock : ℕ
  wakeup : Wakeup
  ticker : TickerPhase
  handle : Bool
  ticker_handle : Bool
  /-- Aborts that were asked for. -/
  aborted : Bool
  ticker_aborted : Bool
  owned : Bool
  stopping : StopPhase
  metrics : SweepMetrics

inductive SweepLabel where
  | advance (millis : ℕ)
  /-- Somebody calls the manager. -/
  | call (call : ManagerCall)
  /-- The interval fires. -/
  | tick
  | record
  | recv
  /-- The sweep task acts on what it took: it reads the clock, or leaves its loop. -/
  | act
  | sweep (order : Traversal SessionId ManagedSession)
  /-- Every sender is gone. -/
  | hang_up
  /-- An aborted task goes at its next await. -/
  | cancel_ticker
  | cancel
  | stop
  | ticker_joined
  | ticker_unjoined
  | signal
  | joined
  | unjoined
  /-- The caller of `stop` drops it while it waits. -/
  | abandon
  | drop

inductive SweepEvent where
  | called (call : ManagerCall)
  /-- The interval fired at this time, and its tick was queued or dropped. -/
  | ticked (now : ℕ) (queued : Bool)
  | swept (now : ℕ) (removals : List SessionRemoval)
  /-- A `stop` returned; `joined`: it saw the end of the sweep task. -/
  | stopped (joined : Bool)

namespace SessionSweep

/-- `spawn`. -/
def spawn (manager : V2SessionManager) (clock : ℕ) : SessionSweep :=
  ⟨manager, clock, .start, .waiting, true, true, false, false, true, .none, ⟨0, 0, 0, 0, 0, 0⟩⟩

variable (s : SessionSweep)

/-- The ticker has a tick for the queue. -/
def tick : SessionSweep × List SweepEvent :=
  match s.wakeup.offer .run with
  | (wakeup, .sent) =>
    ({ s with wakeup := wakeup, ticker := .sent }, [.ticked s.clock true])
  | (wakeup, .full) =>
    ({ s with
        wakeup := wakeup
        metrics := { s.metrics with ticks_dropped := s.metrics.ticks_dropped + 1 } },
      [.ticked s.clock false])
  | (wakeup, .closed) => ({ s with wakeup := wakeup, ticker := .ended }, [])

/-- A sweep at the clock reading, and what it adds to the counters. -/
def sweep (order : Traversal SessionId ManagedSession) (reading : ℕ) :
    SessionSweep × List SweepEvent :=
  let r := s.manager.sweep order reading
  ({ s with
      manager := r.1
      wakeup := { s.wakeup with phase := .idle }
      metrics := { s.metrics with
        sweeps_completed := s.metrics.sweeps_completed + 1
        sessions_reaped := s.metrics.sessions_reaped + r.2.length
        sweeps_empty := s.metrics.sweeps_empty + if r.2.length = 0 then 1 else 0 } },
    [.swept reading r.2])

/-- `stop` from the signal on, which only a task that is still owned is joined after. -/
def send_shutdown : SessionSweep × List SweepEvent :=
  let r := s.wakeup.offer .stop
  if s.handle then
    if r.2 = .sent then
      ({ s with wakeup := r.1, handle := false, stopping := .join }, [])
    else
      ({ s with wakeup := r.1, handle := false, aborted := true, stopping := .cancel }, [])
  else ({ s with wakeup := r.1, stopping := .none }, [.stopped false])

def step : SweepLabel → Option (SessionSweep × List SweepEvent)
  | .advance millis => some ({ s with clock := s.clock + millis }, [])
  | .call call => some ({ s with manager := (call.apply s.manager).1 }, [.called call])
  | .tick => if s.ticker = .waiting then some s.tick else none
  | .record =>
    if s.ticker = .sent then
      some ({ s with
          ticker := .waiting
          metrics := { s.metrics with
            ticks_queued := s.metrics.ticks_queued + 1, queue_depth := 1 } }, [])
    else none
  | .recv => s.wakeup.recv.map fun wakeup => ({ s with wakeup := wakeup }, [])
  | .act =>
    match s.wakeup.phase with
    | .woken =>
      some ({ s with
          wakeup := { s.wakeup with phase := .running s.clock }
          metrics := { s.metrics with queue_depth := 0 } }, [])
    | .leaving =>
      some ({ s with
          wakeup := { s.wakeup with phase := .ended }
          metrics := { s.metrics with queue_depth := 0 } }, [])
    | _ => none
  | .sweep order =>
    match s.wakeup.phase with
    | .running reading => some (s.sweep order reading)
    | _ => none
  | .hang_up =>
    -- the owner's sender is gone, and the ticker's
    if s.wakeup = .start ∧ s.owned = false ∧ s.ticker = .ended then
      some ({ s with wakeup := { s.wakeup with phase := .ended } }, [])
    else none
  | .cancel_ticker =>
    if s.ticker_aborted ∧ s.ticker = .waiting then some ({ s with ticker := .ended }, [])
    else none
  | .cancel =>
    if s.aborted ∧ s.wakeup.phase = .idle then
      some ({ s with wakeup := { s.wakeup with phase := .ended } }, [])
    else none
  | .stop =>
    if s.owned ∧ s.stopping = .none then
      if s.ticker_handle then
        some ({ s with ticker_handle := false, ticker_aborted := true, stopping := .ticker }, [])
      else some ({ s with stopping := .signal }, [])
    else none
  | .ticker_joined =>
    if s.stopping = .ticker ∧ s.ticker = .ended then some ({ s with stopping := .signal }, [])
    else none
  | .ticker_unjoined =>
    if s.stopping = .ticker then some ({ s with stopping := .signal }, []) else none
  | .signal => if s.stopping = .signal then some s.send_shutdown else none
  | .joined =>
    if (s.stopping = .join ∨ s.stopping = .cancel) ∧ s.wakeup.phase = .ended then
      some ({ s with stopping := .none }, [.stopped true])
    else none
  | .unjoined =>
    if s.stopping = .join then some ({ s with stopping := .none }, [.stopped false]) else none
  | .abandon =>
    if s.stopping = .ticker ∨ s.stopping = .join ∨ s.stopping = .cancel then
      some ({ s with stopping := .none }, [])
    else none
  | .drop =>
    if s.owned ∧ s.stopping = .none then
      some ({ s with
          owned := false
          aborted := s.aborted || s.handle
          ticker_aborted := s.ticker_aborted || s.ticker_handle
          handle := false
          ticker_handle := false }, [])
    else none

end SessionSweep

end StreamGuard.Gateway
