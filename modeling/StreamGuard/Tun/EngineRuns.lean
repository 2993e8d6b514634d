/-
Runs of the engine supervisor.

Whatever the senders, the worker, the backend, the task, the readers and the end of the engine do,
and in whatever order: everybody who is told of a failure is told of the same one, and who asks
after it was recorded is told; nothing is written after that; the task brings it to the state
unasked; a shutdown returns what became of the driver, and a drop leaves a failure behind.
-/
import StreamGuard.Tun.EngineFlow

set_option autoImplicit false

namespace StreamGuard.Tun

open StreamGuard StreamGuard.Lib

section Runs

variable {s s' t : V2Engine} {out trace new : List EngineTrace} {config : DriverConfig}
  {labels more : List EngineLabel} {failure : DriverFailure}

/-! ## One failure -/

/-- **The reports agree.** In every run everybody is told of the failure that the driver has
recorded. A read never sees the engine closed, and one that has begun after the failure was recorded
returns it; so does a send; and who waits for the end is given a failure. -/
theorem failure_reports_agree
    (hrun : exec V2Engine.step (V2Engine.spawn config) labels = some (s, trace)) :
    (∀ seen ∈ trace, ∀ failure, seen.report = some failure → s.driver.failure = some failure) ∧
    (∀ started state, .Read started state ∈ trace → state ≠ .Closed ∧
      ∀ failure, started = some failure → state = .Terminal failure) ∧
    (∀ started found, .Awaited started found ∈ trace →
      ∃ failure, found = some failure ∧ ∀ first, started = some first → first = failure) ∧
    ∀ seen ∈ driven trace, seen.Told := by
  have h := engine_sound hrun
  refine ⟨fun seen hmem => (h.agree seen hmem).1, fun started state hmem => ?_,
    fun started found hmem => ?_, h.returns.told⟩
  · obtain ⟨hopen, hflipped⟩ := h.told _ hmem
    obtain ⟨hreport, hstarted⟩ := h.agree _ hmem
    refine ⟨hopen, fun failure hfailure => ?_⟩
    have hrunning := hflipped (hfailure ▸ rfl)
    cases state with
    | Running => contradiction
    | Terminal found =>
      have hsame : Known (some failure) s.driver.failure := hfailure ▸ hstarted
      rw [hsame.agree hreport]
    | Closed => contradiction
  · obtain ⟨failure, hfound⟩ := Option.isSome_iff_exists.mp (h.told _ hmem)
    obtain ⟨hreport, hstarted⟩ := h.agree _ hmem
    refine ⟨failure, hfound, fun first hfirst => ?_⟩
    have hsame : Known (some first) s.driver.failure := hfirst ▸ hstarted
    exact hsame.agree (hfound ▸ hreport)

/-- An engine whose worker fails to read. -/
def faulty_read : List EngineLabel :=
  .New true :: List.map EngineLabel.Driver
    (List.replicate 13 .Work ++ [.Read (.error (.Other "fault")), .Work, .Work])

/-- The task sees it. -/
def noticed : List EngineLabel := [.Publish, .Watcher, .Watcher, .Watcher]

/-- A call of `state` that finds the state flipped. -/
def late_read : List EngineLabel :=
  .Read false :: [.SyncState, ReadPoint.LockState].map fun point =>
    .Reader ⟨false, some ⟨.Read, "fault"⟩, false, point⟩

theorem failure_reports_agree_fault : ∃ s trace,
    exec V2Engine.step (V2Engine.spawn tight) (faulty_read ++ noticed ++ late_read) =
      some (s, trace) ∧
    .Read (some ⟨.Read, "fault"⟩) (.Terminal ⟨.Read, "fault"⟩) ∈ trace ∧
    s.driver.failure = some ⟨.Read, "fault"⟩ := by
  have hrun : (exec V2Engine.step (V2Engine.spawn tight) (faulty_read ++ noticed ++ late_read)).any
      (fun r => decide
        (.Read (some ⟨.Read, "fault"⟩) (.Terminal ⟨.Read, "fault"⟩) ∈ r.2)) = true := by
    decide
  obtain ⟨⟨s, trace⟩, hrun, hseen⟩ := (Option.any_eq_true _ _).mp hrun
  have hmem := of_decide_eq_true hseen
  exact ⟨s, trace, hrun, hmem, (failure_reports_agree hrun).1 _ hmem _ rfl⟩

/-! ## The end of the traffic -/

theorem driven_moved (hmoved : EngineMoved s s' out) :
    driven out = [] ∨ Moved s.driver s'.driver (driven out) := by
  cases hmoved with
  | Driver hmoved =>
    rw [driven_map]
    exact .inr hmoved
  | Reader hmem hstep => exact .inl (EngineRead.step_driven hstep)
  | _ => exact .inl rfl

/-- **A failure is the end.** Once somebody has been told of a failure that the worker has recorded,
it stays, in every continuation, and nothing is written to the backend any more. -/
theorem told_failure_ends_traffic
    (hrun : exec V2Engine.step (V2Engine.spawn config) labels = some (s, trace))
    (hmore : exec V2Engine.step s more = some (t, new)) {seen : EngineTrace} (hseen : seen ∈ trace)
    (hreport : seen.report = some failure) (hkind : failure.kind ≠ .JoinRequired) :
    t.driver.failure = some failure ∧ ∀ c, wrote c (driven new) = [] := by
  have h := engine_sound hrun
  have hfailure := (h.agree seen hseen).1 failure hreport
  have hall : EngineSound t (trace ++ new) ∧ t.driver.failure = some failure ∧
      ∀ c, wrote c (driven new) = [] := by
    refine exec_along_induct (C := fun _ _ => True) (a := [])
      (P := fun t new => EngineSound t (trace ++ new) ∧ t.driver.failure = some failure ∧
        ∀ c, wrote c (driven new) = []) ?_ ⟨by simpa using h, hfailure, fun _ => rfl⟩
      (along_true _ _) hmore
    rintro s label s' out new ⟨hsound, hfailure, hwrote⟩ - hstep
    have hmoved := engine_moved hstep
    refine ⟨?_, engine_failure hmoved _ hfailure, fun c => ?_⟩
    · rw [← List.append_assoc]
      exact hsound.step hmoved
    · rw [driven_append, wrote_append, hwrote, List.nil_append]
      rcases driven_moved hmoved with hnone | hmoved
      · rw [hnone, wrote_nil]
      · rcases hsound.halting with ⟨hfate, -⟩ | ⟨hdropped, -⟩
        · exact wrote_of_halted hmoved (hfate.halted (by rw [hfailure, Option.isSome_some]))
        · rw [hfailure] at hdropped
          rw [Option.some.inj hdropped] at hkind
          contradiction
  exact hall.2

/-- A packet that is sent to an engine whose worker has failed, and a shutdown. -/
def late_send : List EngineLabel :=
  let call := fun point => EngineLabel.Driver (.Sender ⟨.Bulk, [1], some ⟨.Read, "fault"⟩, point⟩)
  [.Driver (.Send .Bulk [1]), call .ReadFailure,
    call (.Finish [] (.error (.Terminal .Read "fault")))]

def shut_down : List EngineLabel := .Driver .Work :: .Shutdown :: List.replicate 5 .Owner

theorem told_failure_ends_traffic_fault : ∃ s trace t new,
    exec V2Engine.step (V2Engine.spawn tight) (faulty_read ++ late_send) = some (s, trace) ∧
    exec V2Engine.step s (noticed ++ shut_down) = some (t, new) ∧
    .Shut (.Terminal ⟨.Read, "fault"⟩) ∈ new ∧ t.driver.failure = some ⟨.Read, "fault"⟩ := by
  have hrun : (exec V2Engine.step (V2Engine.spawn tight) (faulty_read ++ late_send)).any (fun r =>
      decide (.Driver (.Sent (some ⟨.Read, "fault"⟩) (.error (.Terminal .Read "fault"))) ∈ r.2) &&
      (exec V2Engine.step r.1 (noticed ++ shut_down)).any fun r =>
        decide (.Shut (.Terminal ⟨.Read, "fault"⟩) ∈ r.2)) = true := by
    decide
  obtain ⟨⟨s, trace⟩, hrun, hseen⟩ := (Option.any_eq_true _ _).mp hrun
  obtain ⟨htold, hmore⟩ := Bool.and_eq_true_iff.mp hseen
  obtain ⟨⟨t, new⟩, hmore, hshut⟩ := (Option.any_eq_true _ _).mp hmore
  exact ⟨s, trace, t, new, hrun, hmore, of_decide_eq_true hshut,
    (told_failure_ends_traffic hrun hmore (of_decide_eq_true htold) rfl (by decide)).1⟩

/-! ## Shutdown -/

/-- After `shutdown` has returned, the engine stays as it is. -/
theorem closed_moved (h : EngineSound s trace) (howner : s.owner = .Closed)
    (hmoved : EngineMoved s s' out) : s'.owner = .Closed ∧ s'.state = s.state ∧
      s'.driver.failure = s.driver.failure ∧ (∀ state, .Shut state ∉ out) ∧
      ∀ c, wrote c (driven out) = [] ∧ accepted c (driven out) = [] := by
  have hexited := h.joined.exited (by rw [howner]; rfl)
  have hnobody : ∀ call ∈ s.reads, False := fun call hmem => by
    have hlive := h.placed.idle call hmem
    rw [howner] at hlive
    contradiction
  have hflipped : s.state ≠ .Running := by
    rw [h.joined.outcome howner]
    cases s.driver.failure <;> simp
  cases hmoved with
  | Driver hmoved =>
    obtain ⟨-, hfailure, hnone⟩ := exited_moved hmoved hexited
    rw [driven_map]
    exact ⟨howner, rfl, hfailure, by simp, hnone⟩
  | Flip hwatcher =>
    refine ⟨howner, ?_, rfl, by simp, fun _ => ⟨rfl, rfl⟩⟩
    simp only [V2EngineState.set, hflipped, if_false]
  | Reader hmem hstep => exact absurd hmem fun hmem => hnobody _ hmem
  | Signal hsignal => rcases hsignal with ⟨hsignal, -⟩ | ⟨hsignal, -⟩ <;> simp [howner] at hsignal
  | DropDriver hdrop => rcases hdrop with hdrop | hdrop <;> simp [howner] at hdrop
  | New runtime hother | Read waits hother | Shutdown hother | Drop hother | WatcherGone hother
  | Join hother | ReadFailure hother | Store hother | SetFailure hother | PublishDropped hother
  | Abandon hother => simp [howner] at hother
  | _ => exact ⟨howner, rfl, rfl, by simp, fun _ => ⟨rfl, rfl⟩⟩

theorem shut_moved (h : EngineSound s trace) (hmoved : EngineMoved s s' out)
    (hshut : ∀ state, .Shut state ∈ trace → s.owner = .Closed ∧ s.state = state) :
    ∀ state, .Shut state ∈ trace ++ out → s'.owner = .Closed ∧ s'.state = state := by
  intro state hmem
  rcases List.mem_append.mp hmem with hold | hnew
  · obtain ⟨howner, hstate⟩ := hshut state hold
    obtain ⟨howner', hstate', -⟩ := closed_moved h howner hmoved
    exact ⟨howner', hstate'.trans hstate⟩
  · cases hmoved with
    | Driver => simp at hnew
    | Reader hmem hstep =>
      revert hstep
      rename_i call _ _
      fun_cases EngineRead.step s call <;> rintro ⟨⟩ <;> simp at hnew
    | Store howner =>
      simp only [List.mem_singleton, EngineTrace.Shut.injEq] at hnew
      exact ⟨rfl, hnew.symm⟩
    | _ => simp at hnew

/-- **What a shutdown returns.** If `shutdown` has returned, the worker had gone, and the state is
the failure that the driver has recorded, or `Closed` if there is none. In every continuation no
failure is recorded any more, nothing is accepted from a sender and nothing is written. -/
theorem shutdown_outcome
    (hrun : exec V2Engine.step (V2Engine.spawn config) labels = some (s, trace))
    {state : V2EngineState} (hshut : .Shut state ∈ trace)
    (hmore : exec V2Engine.step s more = some (t, new)) :
    state = s.driver.failure.elim .Closed .Terminal ∧ s.driver.worker = .Exited ∧
      t.driver.failure = s.driver.failure ∧
      ∀ c, wrote c (driven new) = [] ∧ accepted c (driven new) = [] := by
  have hshuts := exec_along_induct (C := fun _ _ => True) (a := [])
    (P := fun s trace => EngineSound s trace ∧
      ∀ state, .Shut state ∈ trace → s.owner = .Closed ∧ s.state = state)
    (fun _ _ _ _ _ h _ hstep => ⟨h.1.step (engine_moved hstep),
      shut_moved h.1 (engine_moved hstep) h.2⟩)
    ⟨engine_sound_spawn config, by simp⟩ (along_true _ _) hrun
  rw [List.nil_append] at hshuts
  obtain ⟨h, hclosed⟩ := hshuts
  obtain ⟨howner, hstate⟩ := hclosed state hshut
  -- from there on only senders and the task go on
  have hall : EngineSound t (trace ++ new) ∧ t.owner = .Closed ∧
      t.driver.failure = s.driver.failure ∧
      ∀ c, wrote c (driven new) = [] ∧ accepted c (driven new) = [] := by
    refine exec_along_induct (C := fun _ _ => True) (a := [])
      (P := fun t new => EngineSound t (trace ++ new) ∧ t.owner = .Closed ∧
        t.driver.failure = s.driver.failure ∧
        ∀ c, wrote c (driven new) = [] ∧ accepted c (driven new) = []) ?_
      ⟨by simpa using h, howner, rfl, fun _ => ⟨rfl, rfl⟩⟩ (along_true _ _) hmore
    rintro t label t' out new ⟨hsound, howner, hfailure, hnone⟩ - hstep
    have hmoved := engine_moved hstep
    obtain ⟨howner', -, hfailure', -, hnone'⟩ := closed_moved hsound howner hmoved
    refine ⟨?_, howner', hfailure'.trans hfailure, fun c => ?_⟩
    · rw [← List.append_assoc]
      exact hsound.step hmoved
    · rw [driven_append, wrote_append, accepted_append, (hnone c).1, (hnone c).2, (hnone' c).1,
        (hnone' c).2]
      exact ⟨rfl, rfl⟩
  refine ⟨?_, h.joined.exited (by rw [howner]; rfl), hall.2.2.1, hall.2.2.2⟩
  rw [← hstate, h.joined.outcome howner]

/-- An engine that is shut down while its worker reads. -/
def clean_shutdown : List EngineLabel :=
  .New true :: (List.map EngineLabel.Driver (List.replicate 13 .Work) ++
    [.Shutdown, .CancelWatcher, .Owner, .Owner, .Driver (.Read (.error .Interrupted)),
      .Driver .Work, .Driver .Work, .Owner, .Owner, .Owner])

theorem shutdown_outcome_clean : ∃ s trace t new,
    exec V2Engine.step (V2Engine.spawn tight) clean_shutdown = some (s, trace) ∧
    .Shut .Closed ∈ trace ∧ exec V2Engine.step s [.Driver (.Send .Bulk [1])] = some (t, new) ∧
    s.driver.worker = .Exited ∧ t.driver.failure = s.driver.failure := by
  have hrun : (exec V2Engine.step (V2Engine.spawn tight) clean_shutdown).any (fun r =>
      decide (.Shut .Closed ∈ r.2) &&
      (exec V2Engine.step r.1 [.Driver (.Send .Bulk [1])]).isSome) = true := by
    decide
  obtain ⟨⟨s, trace⟩, hrun, hseen⟩ := (Option.any_eq_true _ _).mp hrun
  obtain ⟨hshut, hmore⟩ := Bool.and_eq_true_iff.mp hseen
  obtain ⟨⟨t, new⟩, hmore⟩ := Option.isSome_iff_exists.mp hmore
  have hshut := of_decide_eq_true hshut
  obtain ⟨-, hexited, hfailure, -⟩ := shutdown_outcome hrun hshut hmore
  exact ⟨s, trace, t, new, hrun, hshut, hmore, hexited, hfailure⟩

/-! ## Noticing -/

/-- The signal is up, and the state is `Running` or has the failure. -/
structure Noticeable (s : V2Engine) (failure : DriverFailure) : Prop where
  signal : s.terminal = true
  recorded : s.driver.failure = some failure
  state : s.state = .Running ∨ s.state = .Terminal failure

theorem Noticeable.set (h : Noticeable s failure) :
    s.state.set (.Terminal failure) = .Terminal failure := by
  rcases h.state with hstate | hstate <;> rw [hstate] <;> rfl

/-- The worker publishes, if it has not yet. -/
theorem published (h : EngineSound s trace) (hlive : s.owner = .Live)
    (hfailure : s.driver.failure = some failure) :
    ∃ more t, (∀ label ∈ more, label = .Publish) ∧ exec V2Engine.step s more = some (t, []) ∧
      Noticeable t failure ∧ t.watcher = s.watcher ∧ t.reads = s.reads ∧ t.aborted = s.aborted := by
  have hstate : s.state = .Running ∨ s.state = .Terminal failure := by
    cases hstate : s.state with
    | Running => exact .inl rfl
    | Terminal found =>
      have hcopy := h.copies.state
      rw [hstate, hfailure] at hcopy
      rw [Option.some.inj (hcopy found rfl)]
      exact .inr rfl
    | Closed =>
      have howner := h.placed.closed hstate
      rw [hlive] at howner
      contradiction
  -- the signal is up, or the worker is about to raise it
  by_cases hterminal : s.terminal = true
  · exact ⟨[], s, by simp, rfl, ⟨hterminal, hfailure, hstate⟩, rfl, rfl, rfl⟩
  · have hpublishing : s.publishing = true := by
      have hsignal := h.signalled.signal.mp (by rw [hfailure, Option.isSome_some])
      simpa [hterminal, hlive] using hsignal
    refine ⟨[.Publish], { s with terminal := true, publishing := false }, by simp, ?_,
      ⟨rfl, hfailure, hstate⟩, rfl, rfl, rfl⟩
    exact exec_singleton (by simp [V2Engine.step, hpublishing])

/-- The task goes to its end. -/
theorem watched (h : Noticeable s failure) (hcopy : Known s.watcher.found (some failure))
    (hended : s.watcher = .Ended → s.state ≠ .Running) (hstarted : s.watcher ≠ .None) :
    ∃ more, (∀ label ∈ more, label = .Watcher) ∧
      exec V2Engine.step s more =
        some ({ s with state := .Terminal failure, watcher := .Ended }, []) := by
  have hset := h.set
  cases hwatcher : s.watcher with
  | None => contradiction
  | Wait =>
    refine ⟨[.Watcher, .Watcher, .Watcher], by simp, ?_⟩
    simp [exec, V2Engine.step, V2Engine.watch, hwatcher, h.signal, h.recorded, hset]
  | ReadFailure =>
    refine ⟨[.Watcher, .Watcher], by simp, ?_⟩
    simp [exec, V2Engine.step, V2Engine.watch, hwatcher, h.recorded, hset]
  | Store found =>
    rw [hwatcher] at hcopy
    obtain rfl : failure = found := Option.some.inj (hcopy found rfl)
    refine ⟨[.Watcher], by simp, ?_⟩
    simp [exec, V2Engine.step, V2Engine.watch, hwatcher, hset]
  | Ended =>
    refine ⟨[], by simp, ?_⟩
    rw [exec_nil, ← h.state.resolve_left (hended hwatcher), ← hwatcher]

/-- The call, which waits for the end, can go on by itself to its return, and is given the
failure. -/
def Answered (s : V2Engine) (call : EngineRead) (failure : DriverFailure) : Prop :=
  ∃ more t new, (∀ label ∈ more, ∃ call', label = .Reader call' ∧ call'.started = call.started) ∧
    exec V2Engine.step s more = some (t, new) ∧ .Awaited call.started (some failure) ∈ new

theorem Answered.of_step {call next : EngineRead} {state : V2EngineState} (hmem : call ∈ s.reads)
    (hstep : call.step s = some (state, some next, [])) (hsame : next.started = call.started)
    (h : Answered { s with state, reads := {next} + s.reads.erase call } next failure) :
    Answered s call failure := by
  obtain ⟨more, t, new, hlabels, hrun, htold⟩ := h
  refine ⟨.Reader call :: more, t, new, ?_, ?_, hsame ▸ htold⟩
  · simp only [List.mem_cons, forall_eq_or_imp]
    exact ⟨⟨call, rfl, rfl⟩, fun label hlabel => hsame ▸ hlabels label hlabel⟩
  · refine exec_cons_eq_some.mpr ⟨_, [], new, ?_, hrun, rfl⟩
    simp [V2Engine.step, hmem, hstep]

section Answered

variable {call : EngineRead}

theorem answered_terminal (hmem : call ∈ s.reads) (hwaits : call.waits = true)
    (hpoint : call.point = .LockState) (hstate : s.state = .Terminal failure) :
    Answered s call failure := by
  have hstep : call.step s = some (s.state, none, [.Awaited call.started (some failure)]) := by
    simp [EngineRead.step, hpoint, hwaits, hstate, V2EngineState.failure]
  refine ⟨[.Reader call], { s with reads := s.reads.erase call }, _, by simp,
    exec_singleton ?_, List.mem_singleton_self _⟩
  simp [V2Engine.step, hmem, hstep]

theorem answered_store (h : Noticeable s failure) (hmem : call ∈ s.reads)
    (hwaits : call.waits = true) (hpoint : call.point = .Store failure) :
    Answered s call failure := by
  have hstep : call.step s =
      some (.Terminal failure, some { call with point := .LockState }, []) := by
    simp [EngineRead.step, hpoint, h.set]
  refine .of_step hmem hstep rfl (answered_terminal ?_ hwaits rfl rfl)
  simp

theorem answered_read_failure (h : Noticeable s failure) (hmem : call ∈ s.reads)
    (hwaits : call.waits = true) (hpoint : call.point = .ReadFailure) :
    Answered s call failure := by
  have hstep : call.step s = some (s.state, some { call with point := .Store failure }, []) := by
    simp [EngineRead.step, hpoint, h.recorded]
  refine .of_step hmem hstep rfl (answered_store ⟨h.signal, h.recorded, h.state⟩ ?_ hwaits rfl)
  simp

theorem answered_sync (h : Noticeable s failure) (hmem : call ∈ s.reads)
    (hwaits : call.waits = true) (hpoint : call.point = .SyncState) :
    Answered s call failure := by
  rcases h.state with hstate | hstate
  · have hstep : call.step s = some (s.state, some { call with point := .ReadFailure }, []) := by
      simp [EngineRead.step, hpoint, hstate]
    refine .of_step hmem hstep rfl
      (answered_read_failure ⟨h.signal, h.recorded, h.state⟩ ?_ hwaits rfl)
    simp
  · have hstep : call.step s = some (s.state, some { call with point := .LockState }, []) := by
      simp [EngineRead.step, hpoint, hstate]
    refine .of_step hmem hstep rfl (answered_terminal ?_ hwaits rfl hstate)
    simp

theorem answered_wait (h : Noticeable s failure) (hmem : call ∈ s.reads)
    (hwaits : call.waits = true) (hpoint : call.point = .Wait) : Answered s call failure := by
  have hstep : call.step s =
      some (s.state, some { call with signalled := true, point := .SyncState }, []) := by
    simp [EngineRead.step, hpoint, h.signal]
  refine .of_step hmem hstep rfl (answered_sync ⟨h.signal, h.recorded, h.state⟩ ?_ hwaits rfl)
  simp

/-- Wherever the call is. -/
theorem answered (h : Noticeable s failure) (hmem : call ∈ s.reads) (hwaits : call.waits = true)
    (hcopy : Known call.point.found (some failure))
    (hdue : call.signalled = true → call.point = .LockState → s.state ≠ .Running) :
    Answered s call failure := by
  cases hpoint : call.point with
  | SyncState => exact answered_sync h hmem hwaits hpoint
  | ReadFailure => exact answered_read_failure h hmem hwaits hpoint
  | Store found =>
    rw [hpoint] at hcopy
    obtain rfl : failure = found := Option.some.inj (hcopy found rfl)
    exact answered_store h hmem hwaits hpoint
  | Wait => exact answered_wait h hmem hwaits hpoint
  | LockState =>
    rcases h.state with hstate | hstate
    · have hsignalled : ¬call.signalled = true := fun hsignalled => hdue hsignalled hpoint hstate
      have hstep : call.step s = some (s.state, some { call with point := .Wait }, []) := by
        simp [EngineRead.step, hpoint, hwaits, hsignalled, hstate, V2EngineState.failure]
      refine .of_step hmem hstep rfl (answered_wait ⟨h.signal, h.recorded, h.state⟩ ?_ hwaits rfl)
      simp
    · exact answered_terminal hmem hwaits hpoint hstate

end Answered

/-- **A failure gets noticed.** From every state of a run in which the driver of a live engine has a
failure, the worker and the task alone bring it to the state, though nobody reads; and the worker
and any call that waits for the end alone bring that call to its return, which is the failure. -/
theorem failure_noticed
    (hrun : exec V2Engine.step (V2Engine.spawn config) labels = some (s, trace))
    (hlive : s.owner = .Live) (hfailure : s.driver.failure = some failure) :
    (s.watcher ≠ .None → ∃ more t, (∀ label ∈ more, label = .Publish ∨ label = .Watcher) ∧
      exec V2Engine.step s more = some (t, []) ∧ t.state = .Terminal failure) ∧
    ∀ call ∈ s.reads, call.waits = true → ∃ more t new,
      (∀ label ∈ more, label = .Publish ∨
        ∃ call', label = .Reader call' ∧ call'.started = call.started) ∧
      exec V2Engine.step s more = some (t, new) ∧ .Awaited call.started (some failure) ∈ new := by
  have h := engine_sound hrun
  obtain ⟨before, t, hbefore, hpublish, hready, hwatcher, hreads, haborted⟩ :=
    published h hlive hfailure
  have ht := h.run hpublish
  rw [List.append_nil] at ht
  refine ⟨fun hstarted => ?_, fun call hmem hwaits => ?_⟩
  · have hcopy := ht.copies.watcher
    rw [hready.recorded] at hcopy
    -- by itself the task ends only after the flip, and nobody has aborted it
    have hended : t.watcher = .Ended → t.state ≠ .Running := fun hended => by
      refine (ht.placed.ended hended).resolve_left fun haborts => ?_
      exact (h.placed.aborted (haborted ▸ haborts)).2 hlive
    obtain ⟨after, hafter, hwatch⟩ := watched hready hcopy hended (hwatcher ▸ hstarted)
    refine ⟨before ++ after, _, ?_, exec_append hpublish hwatch, rfl⟩
    exact List.forall_mem_append.mpr ⟨fun label hlabel => .inl (hbefore label hlabel),
      fun label hlabel => .inr (hafter label hlabel)⟩
  · rw [← hreads] at hmem
    have hcopy := (ht.copies.reads call hmem).2
    rw [hready.recorded] at hcopy
    obtain ⟨after, t', new, hafter, hanswer, htold⟩ := answered hready hmem hwaits hcopy
      fun hsignalled => (ht.prompt call hmem (.inr hsignalled)).2
    refine ⟨before ++ after, t', new, ?_, exec_append hpublish hanswer, htold⟩
    exact List.forall_mem_append.mpr ⟨fun label hlabel => .inl (hbefore label hlabel),
      fun label hlabel => .inr (hafter label hlabel)⟩

/-- A call of `await_terminal` that waits when the worker fails. -/
def waiting_read : List EngineLabel :=
  .New true :: .Read true :: [.SyncState, .ReadFailure, ReadPoint.LockState].map
    (fun point => .Reader ⟨true, none, false, point⟩) ++ faulty_read.tail

theorem failure_noticed_waiting : ∃ s trace,
    exec V2Engine.step (V2Engine.spawn tight) waiting_read = some (s, trace) ∧
    s.state = .Running ∧
    (∃ more t, (∀ label ∈ more, label = .Publish ∨ label = .Watcher) ∧
      exec V2Engine.step s more = some (t, []) ∧ t.state = .Terminal ⟨.Read, "fault"⟩) ∧
    ∃ more t new, exec V2Engine.step s more = some (t, new) ∧
      .Awaited none (some ⟨.Read, "fault"⟩) ∈ new := by
  obtain ⟨s, trace, hrun, ⟨hstate, hlive, hwatcher⟩, hfailure, hreads⟩ : ∃ s trace,
      exec V2Engine.step (V2Engine.spawn tight) waiting_read = some (s, trace) ∧
      (s.state = .Running ∧ s.owner = .Live ∧ s.watcher = .Wait) ∧
      s.driver.failure = some ⟨.Read, "fault"⟩ ∧ s.reads = {⟨true, none, false, .Wait⟩} :=
    ⟨_, _, rfl, ⟨rfl, rfl, rfl⟩, rfl, rfl⟩
  obtain ⟨hnoticed, hanswered⟩ := failure_noticed hrun hlive hfailure
  obtain ⟨more, t, new, -, hmore, htold⟩ :=
    hanswered ⟨true, none, false, .Wait⟩ (by rw [hreads]; exact Multiset.mem_singleton_self _) rfl
  exact ⟨s, trace, hrun, hstate, hnoticed (by rw [hwatcher]; simp), more, t, new, hmore, htold⟩

end Runs

end StreamGuard.Tun
