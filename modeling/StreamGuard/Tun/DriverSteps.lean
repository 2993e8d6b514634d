/-
The steps of the TUN driver.

What a step shows, what it leaves alone, and which party makes it.
-/
import StreamGuard.Tun.Driver

set_option autoImplicit false

namespace StreamGuard.Tun

open StreamGuard StreamGuard.Lib

/-! ## The trace -/

/-- The packets of a class that were let into its queue, in their order. -/
def accepted (c : DataClass) (trace : List Trace) : List Bytes :=
  trace.filterMap fun
    | .Accepted c' packet => if c' = c then some packet else none
    | _ => none

/-- Those that the backend has written. -/
def wrote (c : DataClass) (trace : List Trace) : List Bytes :=
  trace.filterMap fun
    | .Wrote c' packet => if c' = c then some packet else none
    | _ => none

/-- Those whose write has failed, with their classes. -/
def write_failures (trace : List Trace) : List (DataClass × Bytes) :=
  trace.filterMap fun
    | .WriteFailed c packet => some (c, packet)
    | _ => none

/-- Those of one class. -/
def write_failed (c : DataClass) (trace : List Trace) : List Bytes :=
  (write_failures trace).filterMap fun failed => if failed.1 = c then some failed.2 else none

section Trace

variable {c c' : DataClass} {packet : Bytes} {started : Option DriverFailure}

@[simp] theorem accepted_append (before after : List Trace) :
    accepted c (before ++ after) = accepted c before ++ accepted c after := List.filterMap_append

@[simp] theorem wrote_append (before after : List Trace) :
    wrote c (before ++ after) = wrote c before ++ wrote c after := List.filterMap_append

@[simp] theorem write_failures_append (before after : List Trace) :
    write_failures (before ++ after) = write_failures before ++ write_failures after :=
  List.filterMap_append

@[simp] theorem accepted_nil : accepted c [] = [] := rfl

@[simp] theorem wrote_nil : wrote c [] = [] := rfl

@[simp] theorem write_failures_nil : write_failures [] = [] := rfl

@[simp] theorem accepted_accepted :
    accepted c [.Accepted c' packet] = if c' = c then [packet] else [] := by
  by_cases h : c' = c <;> simp [accepted, h]

@[simp] theorem wrote_wrote : wrote c [.Wrote c' packet] = if c' = c then [packet] else [] := by
  by_cases h : c' = c <;> simp [wrote, h]

@[simp] theorem wrote_accepted : wrote c [.Accepted c' packet] = [] := rfl

@[simp] theorem accepted_wrote : accepted c [.Wrote c' packet] = [] := rfl

@[simp] theorem accepted_write_failed : accepted c [.WriteFailed c' packet] = [] := rfl

@[simp] theorem wrote_write_failed : wrote c [.WriteFailed c' packet] = [] := rfl

@[simp] theorem write_failures_accepted : write_failures [.Accepted c packet] = [] := rfl

@[simp] theorem write_failures_wrote : write_failures [.Wrote c packet] = [] := rfl

@[simp] theorem write_failures_write_failed :
    write_failures [.WriteFailed c packet] = [(c, packet)] := rfl

@[simp] theorem accepted_sent {result : Except DriverError Unit} :
    accepted c [.Sent started result] = [] := rfl

@[simp] theorem wrote_sent {result : Except DriverError Unit} :
    wrote c [.Sent started result] = [] := rfl

@[simp] theorem accepted_received {result : Except DriverError (Option Bytes)} :
    accepted c [.Received started result] = [] := rfl

@[simp] theorem wrote_received {result : Except DriverError (Option Bytes)} :
    wrote c [.Received started result] = [] := rfl

end Trace

/-! ## What a party does not touch -/

section Frame

variable {s s' : Driver} {out : List Trace}

/-- A sender touches the metrics and its queue. -/
theorem SendCall.step_frame {call : SendCall} {point : Option SendPoint}
    (h : call.step s = (s', point, out)) :
    ∃ metrics egress, s' = { s with metrics, egress } := by
  revert h
  fun_cases SendCall.step s call <;> rintro ⟨⟩ <;> exact ⟨_, _, rfl⟩

/-- The owner touches the metrics, the queue towards it, and its own place. -/
theorem owner_step_frame (h : owner_step s = some (s', out)) :
    ∃ metrics ingress owner, s' = { s with metrics, ingress, owner } := by
  revert h
  fun_cases owner_step s <;> simp only [reduceCtorEq, IsEmpty.forall_iff, Option.some.injEq,
    Prod.mk.injEq]
  all_goals
    rintro ⟨rfl, rfl⟩
    exact ⟨_, _, _, rfl⟩

/-- The owner shows only what it gets. -/
theorem owner_step_out (h : owner_step s = some (s', out)) :
    out = [] ∨ ∃ started result, out = [.Received started result] := by
  revert h
  fun_cases owner_step s <;>
    simp only [reduceCtorEq, IsEmpty.forall_iff, Option.some.injEq, Prod.mk.injEq]
  case case11 started result _ =>
    rintro ⟨-, rfl⟩
    exact .inr ⟨started, result, rfl⟩
  all_goals
    rintro ⟨-, rfl⟩
    exact .inl rfl

/-- The first failure stays. -/
theorem set_failure_eq (s : Driver) (kind : FailureKind) (message : String) :
    set_failure s kind message = { s with failure := some (s.failure.getD ⟨kind, message⟩) } := by
  unfold set_failure
  cases hfailure : s.failure with
  | none => rfl
  | some failure => rw [← hfailure]; cases s; cases hfailure; rfl

/-- The worker leaves the stop flag and the calls alone. -/
theorem work_frame (h : work s = some s') :
    ∃ metrics failure egress ingress worker,
      s' = { s with metrics, failure, egress, ingress, worker } := by
  revert h
  fun_cases work s <;>
    simp only [reduceCtorEq, IsEmpty.forall_iff, Option.some.injEq, set_failure_eq, exit_loop]
  all_goals
    rintro rfl
    exact ⟨_, _, _, _, _, rfl⟩

/-- A worker that has exited takes no step. -/
theorem work_runs (h : work s = some s') : s.worker ≠ .Exited := by
  intro hworker
  simp [work, hworker] at h

/-- A read touches the metrics, and what it has brought the worker keeps. -/
theorem read_frame (s : Driver) (answer : Except ReadError Bytes) :
    ∃ metrics worker, read s answer = { s with metrics, worker } := by
  fun_cases read s answer <;> exact ⟨_, _, rfl⟩

end Frame

/-! ## Who moves -/

/-- The steps, by the party that moves. -/
inductive Moved (s : Driver) : Driver → List Trace → Prop
  | Send (traffic_class : TrafficClass) (packet : Bytes) :
    Moved s { s with sends := ⟨traffic_class, packet, s.failure, .ReadFailure⟩ ::ₘ s.sends } []
  | Sender {call : SendCall} {s₁ : Driver} {point : Option SendPoint} {out : List Trace}
      (hmem : call ∈ s.sends) (hstep : call.step s = (s₁, point, out)) :
    Moved s { s₁ with
      sends := (point.elim 0 fun point => {{ call with point }}) + s.sends.erase call } out
  | Receive (waits : Bool) (howner : s.owner = .Idle) :
    Moved s { s with owner := .ReadFailure waits s.failure } []
  | Owner {s' : Driver} {out : List Trace} (hstep : owner_step s = some (s', out)) : Moved s s' out
  | Cancel {started : Option DriverFailure} (howner : s.owner = .Receive true started) :
    Moved s { s with owner := .Idle } []
  | Work {s' : Driver} (hstep : work s = some s') : Moved s s' []
  | Written {c : DataClass} {rest : List DataClass} {packet : Bytes} (answer : Except String ℕ)
      (hworker : s.worker = .Write c rest packet []) :
    Moved s { s with worker := written packet.length c rest answer }
      [if answer = .ok packet.length then .Wrote c packet else .WriteFailed c packet]
  | Read (answer : Except ReadError Bytes) (hworker : s.worker = .Read) : Moved s (read s answer) []
  | Shutdown : Moved s { s with shutdown := true } []

/-- **Every step is one of these.** -/
theorem step_moved {s s' : Driver} {event : DriverEvent} {out : List Trace}
    (h : s.step event = some (s', out)) : Moved s s' out := by
  revert h
  fun_cases Driver.step s event with
  | case1 traffic_class packet =>
    rintro ⟨⟩
    exact .Send traffic_class packet
  | case2 call hmem next =>
    rcases hstep : call.step s with ⟨s₁, point, out₁⟩
    have hmoved := Moved.Sender hmem hstep
    simp only [next, hstep]
    rintro ⟨⟩
    cases point <;> simpa using hmoved
  | case4 waits howner =>
    rintro ⟨⟩
    exact .Receive waits howner
  | case6 => exact .Owner
  | case7 started howner =>
    rintro ⟨⟩
    exact .Cancel howner
  | case9 =>
    intro h
    obtain ⟨s₁, hwork, hs₁⟩ := Option.map_eq_some_iff.mp h
    obtain ⟨rfl, rfl⟩ := Prod.mk.inj hs₁
    exact .Work hwork
  | case10 answer c rest packet hworker =>
    rintro ⟨⟩
    exact .Written answer hworker
  | case12 answer hworker =>
    rintro ⟨⟩
    exact .Read answer hworker
  | case14 =>
    rintro ⟨⟩
    exact .Shutdown
  | case3 | case5 | case8 | case11 | case13 => simp

end StreamGuard.Tun
