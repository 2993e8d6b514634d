/-
Runs of the TUN driver.

Whatever the senders, the owner, the worker and the backend do, and in whatever order: where nobody
is in the middle of anything the table says what is queued and what has become of every packet, what
is written is what was accepted, in its order, and the first failure is the last word.
-/
import StreamGuard.Tun.DriverFlow

set_option autoImplicit false

namespace StreamGuard.Tun

open StreamGuard StreamGuard.Lib

/-- What every state of a run satisfies. -/
structure Sound (config : DriverConfig) (s : Driver) (trace : List Trace) : Prop where
  books : Books s trace
  fate : Fate s trace
  order : Order s trace
  limits : Limits config s
  returns : Returns s trace

section Runs

variable {config : DriverConfig} {events : List DriverEvent} {s s' : Driver}
  {trace out os : List Trace} {c : DataClass} {found : DriverFailure}

theorem spawn_sound (config : DriverConfig) : Sound config (Driver.spawn config) [] where
  books := by
    refine ⟨fun _ g => ?_, ?_, ?_, ?_⟩
    · cases g <;> simp [Driver.spawn, Driver.account, queued, WorkerPoint.account,
        OwnerPoint.account]
    all_goals simp [Driver.spawn, Driver.due, Driver.account, dealt_with, WorkerPoint.account,
      OwnerPoint.account]
  fate := ⟨fun h => absurd h (by simp [Driver.spawn]), rfl⟩
  order := order_of_ordered (fun _ => rfl)
  limits := ⟨rfl, fun _ => Nat.zero_le _, fun _ _ => by simp [Driver.spawn]⟩
  returns := ⟨fun _ h => absurd h (Multiset.notMem_zero _), trivial, by simp⟩

theorem step_sound (h : Sound config s trace) (hmoved : Moved s s' out) :
    Sound config s' (trace ++ out) where
  books := step_books h.books hmoved
  fate := step_fate h.fate hmoved
  order := step_order h.order h.fate hmoved
  limits := step_limits h.limits h.books hmoved
  returns := step_returns h.returns hmoved

theorem run_sound (h : exec Driver.step (Driver.spawn config) events = some (s, os)) :
    Sound config s os := by
  refine exec_along_induct (P := Sound config) (C := fun _ _ => True) (a := []) ?_
    (spawn_sound config) (along_true _ _) h
  intro s event s' out trace hsound _ hstep
  exact step_sound hsound (step_moved hstep)

theorem SendCall.step_wrote {call : SendCall} {point : Option SendPoint}
    (h : call.step s = (s', point, out)) : wrote c out = [] := by
  revert h
  fun_cases SendCall.step s call <;> rintro ⟨⟩ <;> rfl

/-- A worker on its way out writes nothing. -/
theorem wrote_of_halted (hmoved : Moved s s' out) (hworker : s.worker.halted = true) :
    wrote c out = [] := by
  cases hmoved with
  | Sender hmem hstep => exact SendCall.step_wrote hstep
  | Owner hstep => obtain rfl | ⟨started, result, rfl⟩ := owner_step_out hstep <;> rfl
  | Written answer hwrite =>
    rw [hwrite] at hworker
    cases hworker
  | _ => rfl

theorem run_after_failure (h : Fate s trace) (hfailure : s.failure = some found)
    (hrun : exec Driver.step s events = some (s', out)) :
    s'.failure = some found ∧ ∀ c, wrote c out = [] := by
  have hkept : Fate s' (trace ++ out) ∧ s'.failure = some found ∧ ∀ c, wrote c out = [] := by
    refine exec_along_induct (C := fun _ _ => True) (a := [])
      (P := fun s a => Fate s (trace ++ a) ∧ s.failure = some found ∧ ∀ c, wrote c a = []) ?_
      ⟨by simpa using h, hfailure, fun _ => rfl⟩ (along_true _ _) hrun
    rintro s event s' o a ⟨hfate, hfailure, hwrote⟩ - hstep
    have hmoved := step_moved hstep
    have hhalted := hfate.halted (by rw [hfailure, Option.isSome_some])
    refine ⟨?_, failure_stays hmoved hfailure, fun c => ?_⟩
    · rw [← List.append_assoc]
      exact step_fate hfate hmoved
    · rw [wrote_append, hwrote, wrote_of_halted hmoved hhalted, List.append_nil]
  exact hkept.2

end Runs

/-! ## At rest -/

/-- The call has not touched the table yet, or it is done with it. -/
def SendPoint.between : SendPoint → Bool
  | .ReadFailure | .LoadShutdown | .Reserve _ => true
  | .CountPacket _ | .TrySend _ => false
  | .Finish ops _ => ops.isEmpty

def OwnerPoint.between : OwnerPoint → Bool
  | .Finish ops _ _ => ops.isEmpty
  | .Idle | .ReadFailure _ _ | .Receive _ _ | .Disconnected _ _ => true

/-- The worker runs and has nothing at hand. -/
def WorkerPoint.between : WorkerPoint → Bool
  | .LoadShutdown _ | .ReadFailure _ | .TryRecv _ _ | .Read => true
  | _ => false

/-- Nobody is in the middle of anything. -/
structure AtRest (s : Driver) : Prop where
  sends : ∀ call ∈ s.sends, call.point.between = true
  owner : s.owner.between = true
  worker : s.worker.between = true

/-- What the table says of the queues and of what has become of the packets. -/
structure Accounted (config : DriverConfig) (s : Driver) (trace : List Trace) : Prop where
  gauges : ∀ g, s.metrics.gauge g = queued s.egress s.ingress g
  limits : ∀ c, s.metrics.gauge (.egress_queued_packets c) ≤ config.egress_max_packets c ∧
    s.metrics.gauge (.egress_queued_bytes c) ≤ config.egress_max_bytes c
  enqueued : ∀ c, s.metrics.counter (.egress_enqueued c) = s.metrics.counter (.egress_written c) +
    (s.egress c).length + (write_failed c trace).length
  failed : (write_failures trace).length = write_fault s.failure
  ingress : s.metrics.counter .ingress_received = dealt_with s.metrics.counter

section AtRest

variable {config : DriverConfig} {events : List DriverEvent} {s : Driver} {trace os : List Trace}
  {found : DriverFailure}

theorem AtRest.account_eq_zero (h : AtRest s) : s.account = 0 := by
  have hsends : (s.sends.map SendCall.account).sum = 0 := by
    apply Multiset.sum_eq_zero
    intro a ha
    obtain ⟨call, hmem, rfl⟩ := Multiset.mem_map.mp ha
    have hbetween := h.sends call hmem
    unfold SendCall.account
    cases hpoint : call.point <;> simp_all [SendPoint.between, SendPoint.account]
    rfl
  have howner : s.owner.account = 0 := by
    have hbetween := h.owner
    cases hpoint : s.owner <;> simp_all [OwnerPoint.between, OwnerPoint.account]
    rfl
  have hworker : s.worker.account = 0 := by
    have hbetween := h.worker
    cases hpoint : s.worker <;> simp_all [WorkerPoint.between, WorkerPoint.account]
  rw [Driver.account, hsends, hworker, howner]
  rfl

theorem AtRest.accounted (h : AtRest s) (hsound : Sound config s trace) :
    Accounted config s trace := by
  have haccount := h.account_eq_zero
  have hruns : s.worker ≠ .Exited := by
    intro hexited
    have hbetween := h.worker
    rw [hexited] at hbetween
    cases hbetween
  have hgauges : ∀ g, s.metrics.gauge g = queued s.egress s.ingress g := by
    intro g
    rw [hsound.books.gauge hruns g, haccount]
    rfl
  have hdue : s.due = s.metrics.counter := by
    funext k
    simp [Driver.due, haccount]
  have hpoint : s.worker.faults = 0 ∧ ∀ c, s.worker.hand c = [] := by
    have hbetween := h.worker
    cases hpoint : s.worker <;> simp_all [WorkerPoint.between, WorkerPoint.faults, WorkerPoint.hand]
  refine ⟨hgauges, fun c => ⟨?_, ?_⟩, fun c => ?_, ?_, ?_⟩
  · rw [hgauges]
    exact hsound.limits.packets c
  · rw [hgauges]
    exact le_trans (Nat.le_add_right _ _) (hsound.limits.bytes hruns c)
  · have henqueued := hsound.books.enqueued c
    have hwritten := hsound.books.written c
    rw [hdue] at henqueued hwritten
    rw [henqueued, hwritten, hsound.order.ordered hruns c, hpoint.2 c]
    simp only [List.append_nil, List.length_append]
    omega
  · rw [hsound.fate.faults, hpoint.1, Nat.zero_add]
  · have hingress := hsound.books.ingress
    rw [hdue, haccount] at hingress
    exact hingress

/-- A call that starts after the failure returns it at once, if it is left alone. -/
theorem send_after_failure (hfailure : s.failure = some found) (traffic_class : TrafficClass)
    (packet : Bytes) :
    exec Driver.step s [.Send traffic_class packet,
      .Sender ⟨traffic_class, packet, some found, .ReadFailure⟩,
      .Sender ⟨traffic_class, packet, some found, .Finish [] (.error (terminal_error found))⟩] =
        some (s, [.Sent (some found) (.error (terminal_error found))]) := by
  have hsame : { s with failure := some found } = s := by rw [← hfailure]
  simpa [exec, Driver.step, SendCall.step, hfailure] using hsame

theorem receive_after_failure (hfailure : s.failure = some found) (howner : s.owner = .Idle)
    (waits : Bool) : exec Driver.step s [.Receive waits, .Owner, .Owner] =
      some (s, [.Received (some found) (.error (terminal_error found))]) := by
  have hsame : { s with failure := some found, owner := .Idle } = s := by rw [← hfailure, ← howner]
  simpa [exec, Driver.step, owner_step, hfailure, howner] using hsame

/-- **What the driver keeps.** In every run: where it is at rest the table accounts for every
packet; what was written is what was accepted first, in its order; and once there is a failure it
stays, nothing more is written, and a call that starts after it returns it. -/
theorem driver_queues_accounted
    (h : exec Driver.step (Driver.spawn config) events = some (s, os)) :
    (AtRest s → Accounted config s os) ∧
    (∀ c, wrote c os <+: accepted c os) ∧
    (∀ before after, events = before ++ after → ∀ s₁ os₁,
      exec Driver.step (Driver.spawn config) before = some (s₁, os₁) →
        ∀ failure, s₁.failure = some failure →
          s.failure = some failure ∧ ∀ c, wrote c os = wrote c os₁) ∧
    (∀ seen ∈ os, seen.Told) ∧
    (∀ failure, s.failure = some failure →
      (∀ traffic_class packet, exec Driver.step s [.Send traffic_class packet,
        .Sender ⟨traffic_class, packet, some failure, .ReadFailure⟩,
        .Sender ⟨traffic_class, packet, some failure,
          .Finish [] (.error (terminal_error failure))⟩] =
            some (s, [.Sent (some failure) (.error (terminal_error failure))])) ∧
      (s.owner = .Idle → ∀ waits, exec Driver.step s [.Receive waits, .Owner, .Owner] =
        some (s, [.Received (some failure) (.error (terminal_error failure))]))) := by
  have hsound := run_sound h
  refine ⟨fun hrest => hrest.accounted hsound, hsound.order.written_first, ?_, hsound.returns.told,
    fun failure hfailure => ⟨send_after_failure hfailure, receive_after_failure hfailure⟩⟩
  rintro before after rfl s₁ os₁ hbefore failure hfailure
  obtain ⟨rest, hrest⟩ := exec_of_append h hbefore
  obtain ⟨hstays, hwrote⟩ := run_after_failure (run_sound hbefore).fate hfailure hrest
  refine ⟨hstays, fun c => ?_⟩
  have hwhole := exec_append hbefore hrest
  rw [h, Option.some.injEq, Prod.mk.injEq] at hwhole
  rw [hwhole.2, wrote_append, hwrote, List.append_nil]

/-- A call of `send` that nobody gets in the way of. -/
def undisturbed (packet : Bytes) : List DriverEvent :=
  .Send .Bulk packet ::
    [.ReadFailure, .LoadShutdown, .Reserve .Bulk, .CountPacket .Bulk, .TrySend .Bulk,
      .Finish [.add (.egress_enqueued .Bulk) 1] (.ok ()), SendPoint.Finish [] (.ok ())].map
        fun point => .Sender ⟨.Bulk, packet, none, point⟩

def tight : DriverConfig where
  max_packet_bytes := 4
  ingress_max_packets := 1
  ingress_max_bytes := 4
  egress_max_packets := fun _ => 3
  egress_max_bytes := fun _ => 4

/-- Three packets are sent. The first is written, and the write of the second fails. A fourth
comes too late. -/
def faulty_write : List DriverEvent :=
  let late := fun point => DriverEvent.Sender ⟨.Bulk, [4], some ⟨.Write, "fault"⟩, point⟩
  undisturbed [1] ++ undisturbed [2] ++ undisturbed [3] ++
    List.replicate 13 .Work ++ [.Written (.ok 1)] ++ List.replicate 5 .Work ++
    [.Read (.error .TimedOut)] ++ List.replicate 13 .Work ++ [.Written (.error "fault")] ++
    List.replicate 2 .Work ++ [.Send .Bulk [4], late .ReadFailure,
      late (.Finish [] (.error (.Terminal .Write "fault")))]

theorem driver_queues_accounted_faulty :
    ∃ s os, exec Driver.step (Driver.spawn tight) faulty_write = some (s, os) ∧ AtRest s ∧
      Accounted tight s os ∧ s.failure = some ⟨.Write, "fault"⟩ ∧
      s.egress .Bulk = [[3]] ∧ accepted .Bulk os = [[1], [2], [3]] ∧ wrote .Bulk os = [[1]] ∧
      write_failed .Bulk os = [[2]] ∧
      .Sent s.failure (.error (.Terminal .Write "fault")) ∈ os := by
  have hend : (exec Driver.step (Driver.spawn tight) faulty_write).any (fun r => decide
      ((r.1.sends = 0 ∧ r.1.owner.between = true ∧ r.1.worker.between = true) ∧
        r.1.failure = some ⟨.Write, "fault"⟩ ∧ r.1.egress .Bulk = [[3]] ∧
        accepted .Bulk r.2 = [[1], [2], [3]] ∧ wrote .Bulk r.2 = [[1]] ∧
        write_failed .Bulk r.2 = [[2]] ∧
        .Sent r.1.failure (.error (.Terminal .Write "fault")) ∈ r.2)) = true := by
    decide
  obtain ⟨⟨s, os⟩, hrun, hend⟩ := (Option.any_eq_true _ _).mp hend
  obtain ⟨⟨hsends, howner, hworker⟩, hseen⟩ := of_decide_eq_true hend
  have hrest : AtRest s := by
    refine ⟨fun call hcall => ?_, howner, hworker⟩
    rw [show s.sends = 0 from hsends] at hcall
    exact absurd hcall (Multiset.notMem_zero call)
  exact ⟨s, os, hrun, hrest, (driver_queues_accounted hrun).1 hrest, hseen⟩

end AtRest

end StreamGuard.Tun
