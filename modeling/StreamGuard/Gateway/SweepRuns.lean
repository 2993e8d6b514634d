/-
Runs of the supervised session sweep.

Where the sweep task waits at an empty queue, no session is left that was due when the
interval last fired, whatever ticks were dropped. After a stop there is at most what was under
way.
-/
import StreamGuard.Gateway.SessionAge
import StreamGuard.Gateway.SessionSweep

set_option autoImplicit false

namespace StreamGuard.Gateway

open StreamGuard StreamGuard.Lib StreamGuard.Session

namespace SessionSweep

/-! ## Steps -/

/-- What the two tasks work on is as before. -/
structure SameWork (s s' : SessionSweep) : Prop where
  manager : s'.manager = s.manager
  clock : s'.clock = s.clock
  wakeup : s'.wakeup = s.wakeup
  ticker : s'.ticker = s.ticker
  metrics : s'.metrics = s.metrics

/-- What a step does to the work of the two tasks. -/
inductive Steps (s : SessionSweep) : SweepLabel → SessionSweep → List SweepEvent → Prop
  | advance (millis : ℕ) : Steps s (.advance millis) { s with clock := s.clock + millis } []
  | call (call : ManagerCall) :
      Steps s (.call call) { s with manager := (call.apply s.manager).1 } [.called call]
  | tick (h : s.ticker = .waiting) : Steps s .tick s.tick.1 s.tick.2
  | record (h : s.ticker = .sent) :
      Steps s .record { s with
        ticker := .waiting
        metrics := { s.metrics with
          ticks_queued := s.metrics.ticks_queued + 1, queue_depth := 1 } } []
  | recv {wakeup : Wakeup} (h : s.wakeup.recv = some wakeup) :
      Steps s .recv { s with wakeup := wakeup } []
  | begins (h : s.wakeup.phase = .woken) :
      Steps s .act { s with
        wakeup := { s.wakeup with phase := .running s.clock }
        metrics := { s.metrics with queue_depth := 0 } } []
  | leaves (h : s.wakeup.phase = .leaving) :
      Steps s .act { s with
        wakeup := { s.wakeup with phase := .ended }
        metrics := { s.metrics with queue_depth := 0 } } []
  | sweep (order : Traversal SessionId ManagedSession) {reading : ℕ}
      (h : s.wakeup.phase = .running reading) :
      Steps s (.sweep order) (s.sweep order reading).1 (s.sweep order reading).2
  | ends {label : SweepLabel} (h : s.wakeup.phase = .idle) :
      Steps s label { s with wakeup := { s.wakeup with phase := .ended } } []
  | cancel_ticker (h : s.ticker = .waiting) :
      Steps s .cancel_ticker { s with ticker := .ended } []
  /-- `stop` sends its message. -/
  | signal {s' : SessionSweep} {new : List SweepEvent}
      (h : SameWork { s with wakeup := (s.wakeup.offer .stop).1 } s')
      (hnew : new = [] ∨ new = [.stopped false]) : Steps s .signal s' new
  | quiet {label : SweepLabel} {s' : SessionSweep} {new : List SweepEvent} (h : s.SameWork s')
      (hnew : new = [] ∨ new = [.stopped false] ∨
        s.wakeup.phase = .ended ∧ new = [.stopped true]) : Steps s label s' new

variable {s s' t : SessionSweep} {label : SweepLabel} {labels more : List SweepLabel}
  {events new : List SweepEvent}

theorem step_steps (hs : s.step label = some (s', new)) : s.Steps label s' new := by
  cases label with
  | advance millis =>
    obtain ⟨rfl, rfl⟩ := step_inj hs
    exact .advance millis
  | call call =>
    obtain ⟨rfl, rfl⟩ := step_inj hs
    exact .call call
  | tick =>
    obtain ⟨hwaiting, hs⟩ := Option.ite_none_right_eq_some.mp hs
    obtain ⟨rfl, rfl⟩ := step_inj hs
    exact .tick hwaiting
  | record =>
    obtain ⟨hsent, hs⟩ := Option.ite_none_right_eq_some.mp hs
    obtain ⟨rfl, rfl⟩ := step_inj hs
    exact .record hsent
  | recv =>
    obtain ⟨wakeup, hrecv, hs⟩ := Option.map_eq_some_iff.mp hs
    obtain ⟨rfl, rfl⟩ := Prod.mk.inj hs
    exact .recv hrecv
  | act =>
    rw [step] at hs
    split at hs
    · next hphase =>
      obtain ⟨rfl, rfl⟩ := step_inj hs
      exact .begins hphase
    · next hphase =>
      obtain ⟨rfl, rfl⟩ := step_inj hs
      exact .leaves hphase
    · contradiction
  | sweep order =>
    rw [step] at hs
    split at hs
    · next reading hphase =>
      obtain ⟨rfl, rfl⟩ := step_inj hs
      exact .sweep order hphase
    · contradiction
  | hang_up =>
    obtain ⟨⟨hidle, -⟩, hs⟩ := Option.ite_none_right_eq_some.mp hs
    obtain ⟨rfl, rfl⟩ := step_inj hs
    exact .ends (by rw [hidle]; rfl)
  | cancel_ticker =>
    obtain ⟨⟨-, hwaiting⟩, hs⟩ := Option.ite_none_right_eq_some.mp hs
    obtain ⟨rfl, rfl⟩ := step_inj hs
    exact .cancel_ticker hwaiting
  | cancel =>
    obtain ⟨⟨-, hidle⟩, hs⟩ := Option.ite_none_right_eq_some.mp hs
    obtain ⟨rfl, rfl⟩ := step_inj hs
    exact .ends hidle
  | stop =>
    obtain ⟨-, hs⟩ := Option.ite_none_right_eq_some.mp hs
    split at hs
    · obtain ⟨rfl, rfl⟩ := step_inj hs
      exact .quiet ⟨rfl, rfl, rfl, rfl, rfl⟩ (.inl rfl)
    · obtain ⟨rfl, rfl⟩ := step_inj hs
      exact .quiet ⟨rfl, rfl, rfl, rfl, rfl⟩ (.inl rfl)
  | ticker_joined | ticker_unjoined | abandon | drop =>
    obtain ⟨-, hs⟩ := Option.ite_none_right_eq_some.mp hs
    obtain ⟨rfl, rfl⟩ := step_inj hs
    exact .quiet ⟨rfl, rfl, rfl, rfl, rfl⟩ (.inl rfl)
  | signal =>
    obtain ⟨-, hs⟩ := Option.ite_none_right_eq_some.mp hs
    rw [send_shutdown] at hs
    split at hs
    · split at hs
      · obtain ⟨rfl, rfl⟩ := step_inj hs
        exact .signal ⟨rfl, rfl, rfl, rfl, rfl⟩ (.inl rfl)
      · obtain ⟨rfl, rfl⟩ := step_inj hs
        exact .signal ⟨rfl, rfl, rfl, rfl, rfl⟩ (.inl rfl)
    · obtain ⟨rfl, rfl⟩ := step_inj hs
      exact .signal ⟨rfl, rfl, rfl, rfl, rfl⟩ (.inr rfl)
  | joined =>
    obtain ⟨⟨-, hended⟩, hs⟩ := Option.ite_none_right_eq_some.mp hs
    obtain ⟨rfl, rfl⟩ := step_inj hs
    exact .quiet ⟨rfl, rfl, rfl, rfl, rfl⟩ (.inr (.inr ⟨hended, rfl⟩))
  | unjoined =>
    obtain ⟨-, hs⟩ := Option.ite_none_right_eq_some.mp hs
    obtain ⟨rfl, rfl⟩ := step_inj hs
    exact .quiet ⟨rfl, rfl, rfl, rfl, rfl⟩ (.inr (.inl rfl))

/-! ## The tick that was dropped -/

/-- Clock readings of calls are behind by no more than the skew when the call takes the lock. -/
def Timely (skew : ℕ) (s : SessionSweep) : SweepLabel → Prop
  | .call call => ∀ now ∈ call.now_ms, s.clock ≤ now + skew
  | _ => True

instance (skew : ℕ) (s : SessionSweep) (label : SweepLabel) : Decidable (Timely skew s label) :=
  match label with
  | .call call => inferInstanceAs (Decidable (∀ now ∈ call.now_ms, s.clock ≤ now + skew))
  | .advance _ | .tick | .record | .recv | .act | .sweep _ | .hang_up | .cancel_ticker | .cancel
  | .stop | .ticker_joined | .ticker_unjoined | .signal | .joined | .unjoined | .abandon | .drop =>
    inferInstanceAs (Decidable True)

/-- The work of the sweep task for every time at which the interval fired. -/
structure Caught (skew : ℕ) (s : SessionSweep) (events : List SweepEvent) : Prop where
  ttl : 0 < s.manager.config.idle_ttl_ms
  past : ∀ {t queued}, .ticked t queued ∈ events → t ≤ s.clock
  caught : ∀ {t queued}, .ticked t queued ∈ events →
    s.wakeup.CaughtUp t fun t => s.manager.Fresh (t - skew)

variable {skew : ℕ}

/-- A step after which the manager and the wake-ups are as before. -/
theorem Caught.frame (h : Caught skew s events) (hmanager : s'.manager = s.manager)
    (hclock : s.clock ≤ s'.clock) (hwakeup : s'.wakeup = s.wakeup)
    (hnew : ∀ {t queued}, .ticked t queued ∉ new) : Caught skew s' (events ++ new) := by
  have hold : ∀ {t queued}, .ticked t queued ∈ events ++ new → .ticked t queued ∈ events :=
    fun hmem => (List.mem_append.mp hmem).resolve_right hnew
  refine ⟨by rw [hmanager]; exact h.ttl, fun hmem => (h.past (hold hmem)).trans hclock, ?_⟩
  intro t queued hmem
  rw [hwakeup, hmanager]
  exact h.caught (hold hmem)

/-- A step of the queue and the task that touches no session. -/
theorem Caught.wake (h : Caught skew s events) (hmanager : s'.manager = s.manager)
    (hclock : s'.clock = s.clock) (hnew : ∀ {t queued}, .ticked t queued ∈ new → t = s.clock)
    (hcaught : ∀ {t}, t ≤ s.clock → s'.wakeup.CaughtUp t fun t => s.manager.Fresh (t - skew)) :
    Caught skew s' (events ++ new) := by
  have hpast : ∀ {t queued}, .ticked t queued ∈ events ++ new → t ≤ s.clock := by
    intro t queued hmem
    rcases List.mem_append.mp hmem with hmem | hmem
    · exact h.past hmem
    · exact (hnew hmem).le
  refine ⟨by rw [hmanager]; exact h.ttl, fun hmem => hclock ▸ hpast hmem, ?_⟩
  intro t queued hmem
  rw [hmanager]
  exact hcaught (hpast hmem)

theorem tick_events (s : SessionSweep) : s.tick.1.manager = s.manager ∧
    s.tick.1.clock = s.clock ∧ s.tick.1.wakeup = (s.wakeup.offer .run).1 ∧
      ∀ {t queued}, .ticked t queued ∈ s.tick.2 → t = s.clock := by
  rw [tick]
  split
  · next hoffer =>
    rw [hoffer]
    exact ⟨rfl, rfl, rfl, fun hmem => (SweepEvent.ticked.inj (List.mem_singleton.mp hmem)).1⟩
  · next hoffer =>
    rw [hoffer]
    exact ⟨rfl, rfl, rfl, fun hmem => (SweepEvent.ticked.inj (List.mem_singleton.mp hmem)).1⟩
  · next hoffer =>
    rw [hoffer]
    exact ⟨rfl, rfl, rfl, fun hmem => absurd hmem List.not_mem_nil⟩

theorem Caught.step (h : Caught skew s events) (htimely : Timely skew s label)
    (hs : s.Steps label s' new) : Caught skew s' (events ++ new) := by
  cases hs with
  | advance millis => exact h.frame rfl (Nat.le_add_right _ _) rfl (by simp)
  | record | cancel_ticker => exact h.frame rfl (le_refl _) rfl (by simp)
  | call call =>
    -- what the call renews is fresh at its reading, which is behind by the skew at most
    have hrenewed := V2SessionManager.call_renewed s.manager call
    have hold : ∀ {t queued}, .ticked t queued ∈ events ++ [.called call] →
        .ticked t queued ∈ events := by simp
    refine ⟨by rw [hrenewed.config]; exact h.ttl, fun hmem => h.past (hold hmem), ?_⟩
    intro t queued hmem
    refine (h.caught (hold hmem)).mono fun hfresh =>
      hfresh.renewed hrenewed h.ttl fun now hnow => ?_
    have hread := htimely now hnow
    have hpast := h.past (hold hmem)
    omega
  | tick hwaiting =>
    obtain ⟨hmanager, hclock, hwakeup, hnew⟩ := s.tick_events
    refine h.wake hmanager hclock hnew fun _ => ?_
    rw [hwakeup]
    exact Wakeup.caughtUp_offer _ _ _ _
  | recv hrecv => exact h.wake rfl rfl (by simp) fun _ => Wakeup.caughtUp_recv hrecv
  | begins hphase => exact h.wake rfl rfl (by simp) Wakeup.caughtUp_begin
  | leaves hphase => exact h.wake rfl rfl (by simp) fun _ => Wakeup.caughtUp_ended
  | ends hphase => exact h.wake rfl rfl (by simp) fun _ => Wakeup.caughtUp_ended
  | @sweep order reading hphase =>
    have hold : ∀ {t queued}, .ticked t queued ∈ events ++ (s.sweep order reading).2 →
        .ticked t queued ∈ events := by simp [SessionSweep.sweep]
    have hrenewed := V2SessionManager.call_renewed s.manager (.sweep order reading)
    refine ⟨?_, fun hmem => h.past (hold hmem), ?_⟩
    · have hconfig : (s.manager.sweep order reading).1.config = s.manager.config := hrenewed.config
      change 0 < (s.manager.sweep order reading).1.config.idle_ttl_ms
      rw [hconfig]
      exact h.ttl
    · intro t queued hmem
      -- the reading was taken after the tick was offered
      refine (h.caught (hold hmem)).finish hphase fun t ht => ?_
      have hfresh := V2SessionManager.sweep_fresh s.manager order reading
      exact hfresh.mono (by omega)
  | signal hsame hnew =>
    refine h.wake hsame.manager hsame.clock ?_ fun _ => ?_
    · rcases hnew with rfl | rfl
      · simp
      · simp
    · rw [hsame.wakeup]
      exact Wakeup.caughtUp_offer _ _ _ _
  | quiet hsame hnew =>
    refine h.frame hsame.manager hsame.clock.ge hsame.wakeup ?_
    rcases hnew with rfl | rfl | ⟨-, rfl⟩
    · simp
    · simp
    · simp

/-- **No tick is lost.** Ticks that find the queue full are dropped, and callers bring clock
readings that are behind by up to the skew; still, where the sweep task waits at an empty
queue, no session is left that was due, but for the skew, when the interval last fired. -/
theorem sweeps_catch_up {config : V2SessionManagerConfig} {m : V2SessionManager} {clock : ℕ}
    (hnew : V2SessionManager.new config = .ok m)
    (htimely : Along step (Timely skew) (spawn m clock) labels)
    (hrun : exec step (spawn m clock) labels = some (s, events)) (hwaits : s.wakeup = .start)
    {t : ℕ} {queued : Bool} (htick : .ticked t queued ∈ events) : s.manager.Fresh (t - skew) := by
  have httl := V2SessionManager.new_ttl hnew
  have hstart : Caught skew (spawn m clock) [] :=
    ⟨httl, fun hmem => absurd hmem List.not_mem_nil, fun hmem => absurd hmem List.not_mem_nil⟩
  have hall := exec_along_induct (P := Caught skew)
    (fun _ _ _ _ _ h hc hs => h.step hc (step_steps hs)) hstart htimely hrun
  have hdone := hall.caught htick
  rw [hwaits] at hdone
  exact hdone rfl

/-- A manager for one session, before any call. -/
def empty_manager : V2SessionManager := ⟨⟨1, 100, 1, 1, 10, 1, 1, 5⟩, ∅, ∅, ∅, ∅, ∅, 1⟩

/-- A session that expires at 5. The interval fires twice at 7: the first tick is queued, and
the second is dropped. -/
def expiry : List SweepLabel :=
  [.call (.reserve_admission ⟨1⟩ ⟨1⟩ ⟨1⟩ 5 0),
    .call (.commit_admission ⟨⟨1⟩, ⟨1⟩, ⟨1⟩, 5, true⟩ 0), .advance 7, .tick, .record, .tick]

/-- The sweep for the one in the queue. -/
def catch_up : List SweepLabel := [.recv, .act, .sweep .stored]

theorem sweeps_catch_up_dropped : ∃ s events,
    exec step (spawn empty_manager 0) (expiry ++ catch_up) = some (s, events) ∧
      .ticked 7 false ∈ events ∧ s.metrics.sessions_reaped = 1 ∧ s.manager.Fresh 7 := by
  obtain ⟨s, events, hrun, htick, hreaped, hwaits⟩ : ∃ s events,
      exec step (spawn empty_manager 0) (expiry ++ catch_up) = some (s, events) ∧
        .ticked 7 false ∈ events ∧ s.metrics.sessions_reaped = 1 ∧ s.wakeup = .start :=
    ⟨_, _, rfl, .tail _ (.tail _ (.tail _ (.head _))), rfl, rfl⟩
  have htimely : Along step (Timely 0) (spawn empty_manager 0) (expiry ++ catch_up) := by decide
  have hnew : V2SessionManager.new ⟨1, 100, 1, 1, 10, 1, 1, 5⟩ = .ok empty_manager := rfl
  exact ⟨s, events, hrun, htick, hreaped, sweeps_catch_up hnew htimely hrun hwaits htick⟩

/-! ## After a stop -/

def swept? : SweepEvent → Option (List SessionRemoval)
  | .swept _ removals => some removals
  | _ => none

/-- What each sweep removed. -/
def sweeps (events : List SweepEvent) : List (List SessionRemoval) := events.filterMap swept?

theorem sweeps_append : sweeps (events ++ new) = sweeps events ++ sweeps new :=
  List.filterMap_append

/-- To the queue and the task, a step of the supervised sweep is one of a wake-up. Only a ticker
that waits has a tick for it. -/
theorem steps_moves (hs : s.Steps label s' new) :
    s.wakeup.Moves (s.ticker = .waiting) s'.wakeup (sweeps new).length := by
  cases hs with
  | advance | call | record | cancel_ticker => exact .stays
  | tick hwaiting =>
    have hsweeps : sweeps s.tick.2 = [] := by
      rw [tick]
      split <;> rfl
    rw [(s.tick_events).2.2.1, hsweeps]
    exact .offer .run fun _ => hwaiting
  | recv hrecv => exact .recv hrecv
  | begins hphase => exact .begins hphase
  | leaves hphase => exact .ends (.inr hphase)
  | ends hphase => exact .ends (.inl hphase)
  | sweep order hphase => exact .finish hphase
  | signal hsame hnew =>
    have hsweeps : sweeps new = [] := by
      rcases hnew with rfl | rfl <;> rfl
    rw [hsame.wakeup, hsweeps]
    exact .offer .stop (by simp)
  | quiet hsame hnew =>
    have hsweeps : sweeps new = [] := by
      rcases hnew with rfl | rfl | ⟨-, rfl⟩ <;> rfl
    rw [hsame.wakeup, hsweeps]
    exact .stays

theorem ticker_ended_step (h : s.ticker = .ended) (hs : s.Steps label s' new) :
    s'.ticker = .ended := by
  cases hs with
  | tick hwaiting | record hwaiting =>
    rw [h] at hwaiting
    contradiction
  | cancel_ticker => rfl
  | signal hsame hnew => exact hsame.ticker.trans h
  | quiet hsame hnew => exact hsame.ticker.trans h
  | _ => exact h

/-- A `stop` that saw the task end comes after that. -/
theorem joined_step (hs : s.Steps label s' new) (hjoined : .stopped true ∈ new) :
    s.wakeup.phase = .ended := by
  cases hs with
  | tick hwaiting =>
    rw [tick] at hjoined
    split at hjoined <;> simp at hjoined
  | sweep order hphase => simp [SessionSweep.sweep] at hjoined
  | signal hsame hnew => rcases hnew with rfl | rfl <;> simp at hjoined
  | quiet hsame hnew =>
    rcases hnew with rfl | rfl | ⟨hended, -⟩
    · simp at hjoined
    · simp at hjoined
    · exact hended
  | _ => simp at hjoined

theorem winding_run (h : s.wakeup.Winding) (hrun : exec step s more = some (t, new)) :
    (sweeps new).length + t.wakeup.busy ≤ s.wakeup.busy := by
  have hall := exec_along_induct (C := fun _ _ => True)
    (P := fun t new => t.wakeup.Winding ∧
      (sweeps new).length + t.wakeup.busy ≤ s.wakeup.busy) (a := [])
    (fun _ _ _ _ _ h _ hs => by
      obtain ⟨hwinding, hbusy⟩ := (steps_moves (step_steps hs)).winding h.1
      have hbefore := h.2
      refine ⟨hwinding, ?_⟩
      rw [sweeps_append, List.length_append]
      omega) ⟨h, (Nat.zero_add _).le⟩ (along_true _ _) hrun
  exact hall.2

theorem ticker_ended_run (h : s.ticker = .ended) (hrun : exec step s more = some (t, new)) :
    (sweeps new).length + (t.wakeup.busy + t.wakeup.queued) ≤
      s.wakeup.busy + s.wakeup.queued := by
  have hall := exec_along_induct (C := fun _ _ => True)
    (P := fun t new => t.ticker = .ended ∧
      (sweeps new).length + (t.wakeup.busy + t.wakeup.queued) ≤
        s.wakeup.busy + s.wakeup.queued) (a := [])
    (fun _ _ _ _ _ h _ hs => by
      have hmoves := steps_moves (step_steps hs)
      have hbusy := hmoves.balance (by simp [h.1])
      have hbefore := h.2
      refine ⟨ticker_ended_step h.1 (step_steps hs), ?_⟩
      rw [sweeps_append, List.length_append]
      omega) ⟨h, (Nat.zero_add _).le⟩ (along_true _ _) hrun
  exact hall.2

/-- **What is swept after a stop.** Where a `stop` saw the task end there is no sweep any more;
once `Shutdown` is in the queue only the one that is going on is finished; and once the ticker
is gone, with an abort in place of `Shutdown`, there is at most the tick in the queue beside
it. -/
theorem stop_ends_sweeping {m : V2SessionManager} {clock : ℕ}
    (hrun : exec step (spawn m clock) labels = some (s, events))
    (hmore : exec step s more = some (t, new)) :
    (.stopped true ∈ events → sweeps new = []) ∧
      (s.wakeup.Winding → (sweeps new).length ≤ s.wakeup.busy) ∧
      (s.ticker = .ended → (sweeps new).length ≤ s.wakeup.busy + s.wakeup.queued) := by
  refine ⟨fun hjoined => ?_, fun h => ?_, fun h => ?_⟩
  · have hended := exec_along_induct (C := fun _ _ => True) (a := [])
      (P := fun s events => .stopped true ∈ events → s.wakeup.phase = .ended)
      (fun _ _ _ _ _ h _ hs hmem => (steps_moves (step_steps hs)).ended
        ((List.mem_append.mp hmem).elim h (joined_step (step_steps hs))))
      (fun hmem => absurd hmem List.not_mem_nil) (along_true _ _) hrun hjoined
    have hnone := winding_run (.inr (.inr hended)) hmore
    have hbusy : s.wakeup.busy = 0 := by rw [Wakeup.busy, hended]
    exact List.length_eq_zero_iff.mp (by omega)
  · have hall := winding_run h hmore
    omega
  · have hall := ticker_ended_run h hmore
    omega

/-- The queue is full, so the task is aborted in place of a message; it may still take the
tick. -/
theorem stop_ends_sweeping_aborted : ∃ s events t new,
    exec step (spawn empty_manager 0)
        (expiry ++ [.stop, .cancel_ticker, .ticker_joined, .signal]) = some (s, events) ∧
      exec step s (catch_up ++ [.cancel, .joined]) = some (t, new) ∧
      (sweeps new).length = 1 ∧ (sweeps new).length ≤ s.wakeup.busy + s.wakeup.queued := by
  obtain ⟨s, events, t, new, hrun, hmore, hone, hended⟩ : ∃ s events t new,
      exec step (spawn empty_manager 0)
          (expiry ++ [.stop, .cancel_ticker, .ticker_joined, .signal]) = some (s, events) ∧
        exec step s (catch_up ++ [.cancel, .joined]) = some (t, new) ∧
        (sweeps new).length = 1 ∧ s.ticker = .ended := ⟨_, _, _, _, rfl, rfl, rfl, rfl⟩
  exact ⟨s, events, t, new, hrun, hmore, hone, (stop_ends_sweeping hrun hmore).2.2 hended⟩

end SessionSweep

end StreamGuard.Gateway
