/-
How an engine ends.

Once the flag of the driver is up, whoever has put it there, the worker writes one more packet at
most and comes to its end, so a shutdown that has begun returns. A drop does not wait for that, and
leaves a failure to everybody who has a sender.
-/
import StreamGuard.Tun.EngineRuns

set_option autoImplicit false

namespace StreamGuard.Tun

open StreamGuard StreamGuard.Lib

/-! ## The last packet -/

/-- How many packets the worker may still write before it looks at the flag. -/
def WorkerPoint.may_write : WorkerPoint → ℕ
  | .ReadFailure (.Turn _ _) | .TryRecv _ _ | .Write _ _ _ _ => 1
  | _ => 0

/-- The packets that were written. -/
def writes (seen : List Trace) : ℕ :=
  seen.countP fun
    | .Wrote _ _ => true
    | _ => false

section Writes

variable {d d' : Driver} {seen before after : List Trace}

@[simp] theorem writes_append : writes (before ++ after) = writes before + writes after :=
  List.countP_append

@[simp] theorem writes_nil : writes [] = 0 := rfl

theorem WorkerPoint.may_write_le (worker : WorkerPoint) : worker.may_write ≤ 1 := by
  unfold WorkerPoint.may_write
  split <;> simp

theorem break_may_write (phase : Phase) : (break_at phase).may_write = 0 := by
  cases phase <;> rfl

theorem work_may_write (h : work d = some d') (hflag : d.shutdown = true) :
    d'.shutdown = true ∧ d'.worker.may_write ≤ d.worker.may_write := by
  refine ⟨?_, ?_⟩
  · obtain ⟨metrics, failure, egress, ingress, worker, rfl⟩ := work_frame h
    exact hflag
  revert h
  fun_cases work d with
  | case1 phase hworker =>
    simp only [Option.some.injEq, hflag, if_true]
    rintro rfl
    rw [break_may_write]
    exact Nat.zero_le _
  | case2 phase hworker =>
    rintro ⟨⟩
    rw [hworker]
    split
    · rw [break_may_write]
      exact Nat.zero_le _
    · cases phase <;> simp [proceed, WorkerPoint.may_write]
  | case6 | case11 | case18 => simp
  | case12 packet hworker =>
    rintro ⟨⟩
    rw [hworker]
    dsimp only
    split <;> exact le_rfl
  | _ =>
    rintro ⟨⟩
    simp [WorkerPoint.may_write, exit_loop, *]

/-- A step of a driver whose flag is up. -/
theorem moved_may_write (hmoved : Moved d d' seen) (hflag : d.shutdown = true) :
    d'.shutdown = true ∧ writes seen + d'.worker.may_write ≤ d.worker.may_write := by
  cases hmoved with
  | Sender hmem hstep =>
    have hnone : writes seen = 0 := by
      revert hstep
      rename_i call _ _
      fun_cases SendCall.step d call <;> rintro ⟨⟩ <;> rfl
    obtain ⟨metrics, egress, rfl⟩ := SendCall.step_frame hstep
    exact ⟨hflag, by rw [hnone, Nat.zero_add]⟩
  | Owner hstep =>
    have hnone : writes seen = 0 := by
      obtain rfl | ⟨started, result, rfl⟩ := owner_step_out hstep <;> rfl
    obtain ⟨metrics, ingress, owner, rfl⟩ := owner_step_frame hstep
    exact ⟨hflag, by rw [hnone, Nat.zero_add]⟩
  | Work hstep =>
    rw [writes_nil, Nat.zero_add]
    exact work_may_write hstep hflag
  | Written answer hworker =>
    refine ⟨hflag, ?_⟩
    rw [hworker]
    -- whatever came of the write, the worker settles it next
    have hnone : ∀ expected c rest, (written expected c rest answer).may_write = 0 := by
      intro expected c rest
      fun_cases Tun.written expected c rest answer <;> rfl
    rw [hnone, Nat.add_zero]
    exact List.countP_le_length
  | Read answer hworker =>
    refine ⟨?_, ?_⟩
    · obtain ⟨metrics, worker, hread⟩ := read_frame d answer
      rw [hread]
      exact hflag
    · rw [hworker]
      fun_cases Tun.read d answer with
      | case2 =>
        dsimp only
        split <;> exact le_rfl
      | _ => exact le_rfl
  | Shutdown => exact ⟨rfl, by simp⟩
  | _ => exact ⟨hflag, by simp⟩

end Writes

section Engine

variable {s s' t : V2Engine} {out trace new : List EngineTrace} {more labels : List EngineLabel}
  {config : DriverConfig}

theorem flag_moved (hmoved : EngineMoved s s' out) (hflag : s.driver.shutdown = true) :
    s'.driver.shutdown = true ∧
      writes (driven out) + s'.driver.worker.may_write ≤ s.driver.worker.may_write := by
  cases hmoved with
  | Driver hmoved =>
    rw [driven_map]
    exact moved_may_write hmoved hflag
  | Reader hmem hstep =>
    rw [EngineRead.step_driven hstep]
    exact ⟨hflag, by simp⟩
  | SetFailure =>
    rw [set_failure_eq]
    exact ⟨hflag, by simp⟩
  | Closed hworker => exact ⟨hflag, Nat.zero_le _⟩
  | Signal => exact ⟨rfl, by simp⟩
  | Store =>
    rw [driven_shut]
    exact ⟨hflag, by simp⟩
  | _ => exact ⟨hflag, by simp⟩

theorem flag_run (hflag : s.driver.shutdown = true)
    (hmore : exec V2Engine.step s more = some (t, new)) :
    t.driver.shutdown = true ∧
      writes (driven new) + t.driver.worker.may_write ≤ s.driver.worker.may_write := by
  refine exec_along_induct (C := fun _ _ => True) (a := [])
    (P := fun t new => t.driver.shutdown = true ∧
      writes (driven new) + t.driver.worker.may_write ≤ s.driver.worker.may_write) ?_
    ⟨hflag, by simp⟩ (along_true _ _) hmore
  rintro t label t' out new ⟨hflag, hwrites⟩ - hstep
  obtain ⟨hflag', hwrites'⟩ := flag_moved (engine_moved hstep) hflag
  refine ⟨hflag', ?_⟩
  rw [driven_append, writes_append]
  omega

end Engine

/-! ## The end of the worker -/

/-- How many steps of the worker are left at most, once its flag is up. -/
def Next.rank : Next → ℕ
  | .Continue _ => 4
  | .ReadFault _ | .Leave => 2
  | .WriteFault _ _ => 3

def WorkerPoint.rank : WorkerPoint → ℕ
  | .LoadShutdown (.Turn _ _) => 3
  | .LoadShutdown _ => 2
  | .ReadFailure _ => 14
  | .TryRecv _ _ => 13
  | .Write _ _ _ ops => 10 + ops.length
  | .Settle ops next => next.rank + ops.length
  | .Read => 11
  | .Reserve _ => 10
  | .CountPacket _ => 9
  | .TrySend _ => 8
  | .Leaving => 1
  | .Exited => 0

/-- What the backend answers when it is asked. -/
structure Answers where
  write : Bytes → Except String ℕ
  read : Except ReadError Bytes

/-- What the worker does next. -/
def WorkerPoint.event (answers : Answers) : WorkerPoint → DriverEvent
  | .Write _ _ packet [] => .Written (answers.write packet)
  | .Read => .Read answers.read
  | _ => .Work

section Rank

variable {d d' : Driver} {seen : List Trace}

theorem break_rank (phase : Phase) :
    (break_at phase).rank < (WorkerPoint.LoadShutdown phase).rank := by
  cases phase <;> simp [break_at, WorkerPoint.rank]

theorem loadShutdown_rank (phase : Phase) : (WorkerPoint.LoadShutdown phase).rank ≤ 3 := by
  cases phase <;> simp [WorkerPoint.rank]

theorem work_rank (h : work d = some d') (hflag : d.shutdown = true) :
    d'.worker.rank < d.worker.rank := by
  revert h
  fun_cases work d with
  | case1 phase hworker =>
    simp only [Option.some.injEq, hflag, if_true]
    rintro rfl
    rw [hworker]
    exact break_rank phase
  | case2 phase hworker =>
    rintro ⟨⟩
    rw [hworker]
    split
    · have hbreak := break_rank phase
      have hload := loadShutdown_rank phase
      simp only [WorkerPoint.rank] at hload hbreak ⊢
      omega
    · cases phase <;> simp [proceed, WorkerPoint.rank]
  | case6 | case11 | case18 => simp
  | case12 packet hworker =>
    rintro ⟨⟩
    rw [hworker]
    dsimp only
    split <;> simp [WorkerPoint.rank, Next.rank]
  | case3 c rest hworker =>
    rintro ⟨⟩
    rw [hworker]
    exact (loadShutdown_rank _).trans_lt (by simp [WorkerPoint.rank])
  | case8 phase hworker =>
    rintro ⟨⟩
    rw [hworker]
    exact Nat.lt_succ_of_le (loadShutdown_rank phase)
  | _ =>
    rintro ⟨⟩
    simp [WorkerPoint.rank, Next.rank, exit_loop, *]

theorem written_rank (expected : ℕ) (c : DataClass) (rest : List DataClass)
    (answer : Except String ℕ) : (written expected c rest answer).rank < 10 := by
  fun_cases written expected c rest answer <;> simp [WorkerPoint.rank, Next.rank]

theorem read_rank (answer : Except ReadError Bytes) : (read d answer).worker.rank < 11 := by
  fun_cases read d answer with
  | case2 =>
    dsimp only
    split <;> simp [WorkerPoint.rank, Next.rank]
  | _ => simp [WorkerPoint.rank, Next.rank]

theorem work_isSome (hruns : d.worker ≠ .Exited) (hread : d.worker ≠ .Read)
    (hwrite : ∀ c rest packet, d.worker ≠ .Write c rest packet []) : (work d).isSome := by
  fun_cases work d with
  | case6 c rest packet hworker => exact absurd hworker (hwrite c rest packet)
  | case11 hworker => exact absurd hworker hread
  | case18 hworker => exact absurd hworker hruns
  | _ => rfl

/-- The worker goes on, whatever the backend answers, and comes nearer to its end. -/
theorem worker_goes_on (answers : Answers) (hflag : d.shutdown = true)
    (hruns : d.worker ≠ .Exited) : ∃ d' seen,
      d.step (d.worker.event answers) = some (d', seen) ∧ d'.shutdown = true ∧
      d'.worker.rank < d.worker.rank := by
  -- it needs the backend in a read or a write, and nobody elsewhere
  by_cases hread : d.worker = .Read
  · refine ⟨read d answers.read, [], by simp [Driver.step, hread, WorkerPoint.event], ?_, ?_⟩
    · obtain ⟨metrics, worker, hframe⟩ := read_frame d answers.read
      rw [hframe]
      exact hflag
    · rw [hread]
      exact read_rank answers.read
  by_cases hwrite : ∃ c rest packet, d.worker = .Write c rest packet []
  · obtain ⟨c, rest, packet, hworker⟩ := hwrite
    have hstep : d.step (d.worker.event answers) =
        some ({ d with worker := written packet.length c rest (answers.write packet) },
          [if answers.write packet = .ok packet.length then .Wrote c packet
            else .WriteFailed c packet]) := by
      simp only [Driver.step, hworker, WorkerPoint.event]
    refine ⟨_, _, hstep, hflag, ?_⟩
    rw [hworker]
    exact written_rank _ _ _ _
  · have hwrites : ∀ c rest packet, d.worker ≠ .Write c rest packet [] :=
      fun c rest packet hworker => hwrite ⟨c, rest, packet, hworker⟩
    obtain ⟨d', hwork⟩ := Option.isSome_iff_exists.mp (work_isSome hruns hread hwrites)
    have hevent : d.worker.event answers = .Work := by
      unfold WorkerPoint.event
      split
      · next hworker => exact absurd hworker (hwrites _ _ _)
      · contradiction
      · rfl
    exact ⟨d', [], by simp [Driver.step, hevent, hwork], (work_may_write hwork hflag).1,
      work_rank hwork hflag⟩

end Rank

/-! ## The end of the engine -/

/-- What is so at the end of an engine. -/
structure Ending (s : V2Engine) : Prop where
  awaiting : s.owner = .AwaitWatcher → s.aborted = true
  flagged : s.owner = .Join ∨ s.owner = .Dropped → s.driver.shutdown = true
  failed : s.owner.dropped = true → s.driver.failure.isSome = true

/-- `shutdown` has begun, and has not returned. -/
def EnginePoint.shutting : EnginePoint → Bool
  | .AwaitWatcher | .SignalShutdown | .Join | .ReadFailure | .Store _ => true
  | _ => false

/-- The steps of the worker, the task and the shutdown. -/
def EngineLabel.Ends (answers : Answers) : EngineLabel → Prop
  | .Driver event => event = .Work ∨ event = .Read answers.read ∨
      ∃ packet, event = .Written (answers.write packet)
  | .Publish | .Watcher | .CancelWatcher | .Owner => True
  | _ => False

section Ending

variable {s s' t : V2Engine} {out trace new : List EngineTrace} {more labels : List EngineLabel}
  {config : DriverConfig} {answers : Answers}

theorem ending_step (h : Ending s) (hmoved : EngineMoved s s' out) : Ending s' := by
  have hkept := (engine_failure hmoved).isSome
  have hflag := fun hflag => (flag_moved hmoved hflag).1
  have hsame : s'.owner = s.owner → s'.aborted = s.aborted → Ending s' := fun howner haborted => by
    refine ⟨?_, ?_, ?_⟩
    · rw [howner, haborted]
      exact h.awaiting
    · rw [howner]
      exact fun hend => hflag (h.flagged hend)
    · rw [howner]
      exact fun hdropped => hkept (h.failed hdropped)
  cases hmoved with
  | Driver | Publish | Closed | Wake | Look | Flip | CancelWatcher | Read | Reader | CancelRead =>
    exact hsame rfl rfl
  | Shutdown => exact ⟨fun _ => rfl, by simp, by simp [EnginePoint.dropped]⟩
  | Signal howner =>
    rcases howner with ⟨howner, rfl⟩ | ⟨howner, rfl⟩
    · exact ⟨by simp, fun _ => rfl, by simp [EnginePoint.dropped]⟩
    · exact ⟨by simp, fun _ => rfl, fun _ => hkept (h.failed (by rw [howner]; rfl))⟩
  | SetFailure howner =>
    refine ⟨?_, ?_, fun _ => ?_⟩
    · dsimp only
      split <;> simp
    · dsimp only
      split <;> simp
    · rw [set_failure_eq]
      rfl
  | PublishDropped howner =>
    exact ⟨by simp, by simp, fun _ => hkept (h.failed (by rw [howner]; rfl))⟩
  | _ => exact ⟨by simp, by simp, by simp [EnginePoint.dropped]⟩

theorem ending_run (hrun : exec V2Engine.step (V2Engine.spawn config) labels = some (s, trace)) :
    Ending s := by
  refine exec_along_induct (C := fun _ _ => True) (a := []) (P := fun s _ => Ending s)
    (fun _ _ _ _ _ h _ hstep => ending_step h (engine_moved hstep)) ?_ (along_true _ _) hrun
  exact ⟨by simp [V2Engine.spawn], by simp [V2Engine.spawn], by
    simp [V2Engine.spawn, EnginePoint.dropped]⟩

/-- The worker that `shutdown` waits for does a step, or publishes. -/
theorem joined_goes_on (answers : Answers) (howner : s.owner = .Join)
    (hflag : s.driver.shutdown = true)
    (hruns : s.driver.worker ≠ .Exited ∨ s.publishing = true) : ∃ label s' out,
      label.Ends answers ∧ s.step label = some (s', out) ∧ s'.owner = .Join ∧
      s'.driver.shutdown = true ∧
      2 * s'.driver.worker.rank + s'.publishing.toNat <
        2 * s.driver.worker.rank + s.publishing.toNat := by
  -- a failure is published before the worker goes on
  by_cases hpublishing : s.publishing = true
  · refine ⟨.Publish, { s with terminal := true, publishing := false }, [], trivial, ?_, howner,
      hflag, ?_⟩
    · simp [V2Engine.step, hpublishing]
    · simp [hpublishing]
  · have hruns := hruns.resolve_right hpublishing
    obtain ⟨driver, seen, hstep, hflag', hrank⟩ := worker_goes_on answers hflag hruns
    have hreceives : (s.driver.worker.event answers).receives = false := by
      unfold WorkerPoint.event
      split <;> rfl
    have hends : (EngineLabel.Driver (s.driver.worker.event answers)).Ends answers := by
      unfold WorkerPoint.event
      split
      · exact .inr (.inr ⟨_, rfl⟩)
      · exact .inr (.inl rfl)
      · exact .inl rfl
    have hdrive : s.drive (s.driver.worker.event answers) = some ({ s with
        driver
        publishing := s.publishing || (s.driver.failure.isNone && driver.failure.isSome) },
        seen.map .Driver) := by
      rw [V2Engine.drive, hstep]
      rfl
    have hmoves : s.step (.Driver (s.driver.worker.event answers)) =
        s.drive (s.driver.worker.event answers) := by
      simp [V2Engine.step, hreceives, hpublishing, V2Engine.unreceived, howner]
    refine ⟨_, _, _, hends, hmoves.trans hdrive, howner, hflag', ?_⟩
    have hone := Bool.toNat_le (s.publishing || (s.driver.failure.isNone && driver.failure.isSome))
    dsimp only
    omega

/-- The worker that `shutdown` waits for ends. -/
theorem joined_ends (answers : Answers) (howner : s.owner = .Join)
    (hflag : s.driver.shutdown = true) : ∃ more t new, (∀ label ∈ more, label.Ends answers) ∧
      exec V2Engine.step s more = some (t, new) ∧ t.owner = .Join ∧
      t.driver.worker = .Exited ∧ t.publishing = false := by
  -- by what the worker has still to do
  induction hrank : 2 * s.driver.worker.rank + s.publishing.toNat using Nat.strong_induction_on
    generalizing s with
  | _ rank ih =>
    by_cases hruns : s.driver.worker ≠ .Exited ∨ s.publishing = true
    · obtain ⟨label, s', out, hends, hstep, howner', hflag', hless⟩ :=
        joined_goes_on answers howner hflag hruns
      obtain ⟨more, t, new, hmore, hrun, hjoin⟩ := ih _ (hrank ▸ hless) howner' hflag' rfl
      refine ⟨label :: more, t, out ++ new, ?_, ?_, hjoin⟩
      · exact List.forall_mem_cons.mpr ⟨hends, hmore⟩
      · exact exec_cons_eq_some.mpr ⟨s', out, new, hstep, hrun, rfl⟩
    · rw [not_or, not_not, Bool.not_eq_true] at hruns
      exact ⟨[], s, [], by simp, rfl, howner, hruns.1, hruns.2⟩

/-- The shutdown can go on to its return. -/
def Shuts (answers : Answers) (s : V2Engine) : Prop :=
  ∃ more t new, (∀ label ∈ more, label.Ends answers) ∧
    exec V2Engine.step s more = some (t, new) ∧ ∃ state, .Shut state ∈ new

theorem Shuts.of_run (hends : ∀ label ∈ more, label.Ends answers)
    (hrun : exec V2Engine.step s more = some (t, new)) (h : Shuts answers t) :
    Shuts answers s := by
  obtain ⟨more', t', new', hends', hrun', state, hshut⟩ := h
  exact ⟨more ++ more', t', new ++ new', List.forall_mem_append.mpr ⟨hends, hends'⟩,
    exec_append hrun hrun', state, List.mem_append_right _ hshut⟩

theorem Shuts.of_step {label : EngineLabel} (hstep : s.step label = some (s', out))
    (hends : label.Ends answers) (h : Shuts answers s') : Shuts answers s :=
  .of_run (by simpa using hends) (exec_singleton hstep) h

theorem shuts_store {found : Option DriverFailure} (howner : s.owner = .Store found) :
    Shuts answers s := by
  have hstep : s.step .Owner = some ({ s with
      state := s.state.set (found.elim .Closed .Terminal), owner := .Closed },
      [.Shut (s.state.set (found.elim .Closed .Terminal))]) := by
    simp only [V2Engine.step, V2Engine.own, howner]
  exact ⟨[.Owner], _, _, by simp [EngineLabel.Ends], exec_singleton hstep, _,
    List.mem_singleton_self _⟩

theorem shuts_read_failure (howner : s.owner = .ReadFailure) : Shuts answers s := by
  have hstep : s.step .Owner = some ({ s with owner := .Store s.driver.failure }, []) := by
    simp only [V2Engine.step, V2Engine.own, howner]
  exact .of_step hstep trivial (shuts_store rfl)

theorem shuts_join (howner : s.owner = .Join) (hflag : s.driver.shutdown = true) :
    Shuts answers s := by
  obtain ⟨more, t, new, hends, hrun, hjoin, hexited, hpublishing⟩ :=
    joined_ends answers howner hflag
  have hstep : t.step .Owner = some ({ t with owner := .ReadFailure }, []) := by
    simp [V2Engine.step, V2Engine.own, hjoin, hexited, hpublishing]
  exact .of_run hends hrun (.of_step hstep trivial (shuts_read_failure rfl))

theorem shuts_signal (howner : s.owner = .SignalShutdown) : Shuts answers s := by
  have hstep : s.step .Owner =
      some ({ s with driver := { s.driver with shutdown := true }, owner := .Join }, []) := by
    simp only [V2Engine.step, V2Engine.own, howner]
  exact .of_step hstep trivial (shuts_join rfl rfl)

/-- The task ends: it is cancelled while it waits, and goes on to its end where it does not. -/
theorem shuts_await (howner : s.owner = .AwaitWatcher) (haborted : s.aborted = true) :
    Shuts answers s := by
  have hgone : ∀ s : V2Engine, s.owner = .AwaitWatcher →
      s.watcher = .None ∨ s.watcher = .Ended → Shuts answers s := by
    intro s howner hwatcher
    have hstep : s.step .Owner = some ({ s with owner := .SignalShutdown }, []) := by
      rcases hwatcher with hwatcher | hwatcher <;>
        simp only [V2Engine.step, V2Engine.own, howner, hwatcher]
    exact .of_step hstep trivial (shuts_signal rfl)
  have hstore : ∀ s : V2Engine, s.owner = .AwaitWatcher → ∀ failure,
      s.watcher = .Store failure → Shuts answers s := by
    intro s howner failure hwatcher
    have hstep : s.step .Watcher = some ({ s with
        state := s.state.set (.Terminal failure), watcher := .Ended }, []) := by
      simp only [V2Engine.step, V2Engine.watch, hwatcher, Option.map_some]
    exact .of_step hstep trivial (hgone _ howner (.inr rfl))
  cases hwatcher : s.watcher with
  | None => exact hgone s howner (.inl hwatcher)
  | Ended => exact hgone s howner (.inr hwatcher)
  | Store failure => exact hstore s howner failure hwatcher
  | Wait =>
    have hstep : s.step .CancelWatcher = some ({ s with watcher := .Ended }, []) := by
      simp only [V2Engine.step, haborted, hwatcher]
    exact .of_step hstep trivial (hgone _ howner (.inr rfl))
  | ReadFailure =>
    have hstep : s.step .Watcher =
        some ({ s with watcher := s.driver.failure.elim .Ended .Store }, []) := by
      simp only [V2Engine.step, V2Engine.watch, hwatcher, Option.map_some]
    refine .of_step hstep trivial ?_
    cases s.driver.failure with
    | none => exact hgone _ howner (.inr rfl)
    | some failure => exact hstore _ howner failure rfl

/-- **One more packet at most.** Once the flag of the driver is up, be it through
`request_shutdown`, `shutdown`, a sender or a drop, it stays up in every continuation, and at most
one packet is still written: the one that the worker has gone for. -/
theorem flag_ends_traffic (hflag : s.driver.shutdown = true)
    (hmore : exec V2Engine.step s more = some (t, new)) :
    t.driver.shutdown = true ∧ writes (driven new) ≤ s.driver.worker.may_write ∧
      writes (driven new) ≤ 1 := by
  obtain ⟨hflag', hwrites⟩ := flag_run hflag hmore
  have hone := s.driver.worker.may_write_le
  exact ⟨hflag', by omega, by omega⟩

/-- Two packets are sent, and the flag goes up when the first is about to be written. -/
def two_sends : List EngineLabel :=
  .New true :: List.map EngineLabel.Driver (undisturbed [1] ++ undisturbed [2] ++
    List.replicate 13 .Work ++ [.Shutdown])

/-- It is written, and the worker leaves. -/
def last_write : List EngineLabel :=
  List.map EngineLabel.Driver (.Written (.ok 1) :: List.replicate 4 .Work)

theorem flag_ends_traffic_two : ∃ s trace t new,
    exec V2Engine.step (V2Engine.spawn tight) two_sends = some (s, trace) ∧
    exec V2Engine.step s last_write = some (t, new) ∧
    writes (driven new) = 1 ∧ s.driver.worker.may_write = 1 ∧ t.driver.shutdown = true := by
  obtain ⟨s, trace, t, new, hrun, hmore, hone, hmay, hflag⟩ : ∃ s trace t new,
      exec V2Engine.step (V2Engine.spawn tight) two_sends = some (s, trace) ∧
      exec V2Engine.step s last_write = some (t, new) ∧
      writes (driven new) = 1 ∧ s.driver.worker.may_write = 1 ∧ s.driver.shutdown = true :=
    ⟨_, _, _, _, rfl, rfl, rfl, rfl, rfl⟩
  exact ⟨s, trace, t, new, hrun, hmore, hone, hmay, (flag_ends_traffic hflag hmore).1⟩

/-- **A shutdown returns.** From every state of a run in which `shutdown` has begun, the worker, the
task and the shutdown alone come to its return, whatever the backend answers. -/
theorem shutdown_returns
    (hrun : exec V2Engine.step (V2Engine.spawn config) labels = some (s, trace))
    (hshutting : s.owner.shutting = true) (answers : Answers) :
    ∃ more t new, (∀ label ∈ more, label.Ends answers) ∧
      exec V2Engine.step s more = some (t, new) ∧ ∃ state, .Shut state ∈ new := by
  have h := ending_run hrun
  cases howner : s.owner with
  | AwaitWatcher => exact shuts_await howner (h.awaiting howner)
  | SignalShutdown => exact shuts_signal howner
  | Join => exact shuts_join howner (h.flagged (.inl howner))
  | ReadFailure => exact shuts_read_failure howner
  | Store found => exact shuts_store howner
  | _ =>
    rw [howner] at hshutting
    contradiction

theorem shutdown_returns_two : ∃ s trace,
    exec V2Engine.step (V2Engine.spawn tight) (two_sends ++ [.Shutdown]) = some (s, trace) ∧
    ∃ more t new, (∀ label ∈ more, label.Ends ⟨fun _ => .error "fault", .error .TimedOut⟩) ∧
      exec V2Engine.step s more = some (t, new) ∧ ∃ state, .Shut state ∈ new := by
  obtain ⟨s, trace, hrun, hshutting⟩ : ∃ s trace,
      exec V2Engine.step (V2Engine.spawn tight) (two_sends ++ [.Shutdown]) = some (s, trace) ∧
      s.owner.shutting = true := ⟨_, _, rfl, rfl⟩
  exact ⟨s, trace, hrun, shutdown_returns hrun hshutting _⟩

/-- **What a drop leaves behind.** In every run `JoinRequired` is recorded by a drop only, with its
text. Where an engine, or a driver, was dropped whose worker was not joined, the flag is up and
there is a failure: that one, unless the worker has recorded one before and was on its way out. It
stays in every continuation, and every send that begins after it is told of it. -/
theorem drop_leaves_failure
    (hrun : exec V2Engine.step (V2Engine.spawn config) labels = some (s, trace)) :
    (∀ failure, s.driver.failure = some failure → failure.kind = .JoinRequired →
      s.owner.dropped = true ∧ failure = ⟨.JoinRequired, join_required⟩) ∧
    (s.owner = .Dropped → s.driver.shutdown = true ∧ ∃ failure,
      s.driver.failure = some failure ∧
      (failure = ⟨.JoinRequired, join_required⟩ ∨ s.driver.worker.halted = true) ∧
      ∀ more t new, exec V2Engine.step s more = some (t, new) →
        t.driver.failure = some failure ∧
        ∀ result, .Driver (.Sent (some failure) result) ∈ new →
          result = .error (terminal_error failure)) := by
  have h := engine_sound hrun
  have hend := ending_run hrun
  refine ⟨fun failure hfailure hkind => ?_, fun howner => ?_⟩
  · rcases h.halting with ⟨-, hother⟩ | ⟨hdropped, howner⟩
    · exact absurd hkind (hother failure hfailure)
    · rw [hfailure] at hdropped
      exact ⟨howner, Option.some.inj hdropped⟩
  · obtain ⟨failure, hfailure⟩ := Option.isSome_iff_exists.mp (hend.failed (by rw [howner]; rfl))
    refine ⟨hend.flagged (.inr howner), failure, hfailure, ?_, fun more t new hmore => ⟨?_, ?_⟩⟩
    · rcases h.halting with ⟨hfate, -⟩ | ⟨hdropped, -⟩
      · exact .inr (hfate.halted (by rw [hfailure, Option.isSome_some]))
      · rw [hfailure] at hdropped
        exact .inl (Option.some.inj hdropped)
    · refine exec_along_induct (C := fun _ _ => True) (a := [])
        (P := fun t _ => t.driver.failure = some failure) ?_ hfailure (along_true _ _) hmore
      exact fun _ _ _ _ _ hstays _ hstep => engine_failure (engine_moved hstep) failure hstays
    · intro result hmem
      exact (h.run hmore).told _ (List.mem_append_right _ hmem)

/-- An engine that is dropped, and somebody who sends. -/
def dropped_send : List EngineLabel :=
  let call := fun point => EngineLabel.Driver
    (.Sender ⟨.Bulk, [1], some ⟨.JoinRequired, join_required⟩, point⟩)
  [.New true, .Drop, .Owner, .Owner, .Owner, .Driver (.Send .Bulk [1]), call .ReadFailure,
    call (.Finish [] (.error (.Terminal .JoinRequired join_required)))]

theorem drop_leaves_failure_send : ∃ s trace,
    exec V2Engine.step (V2Engine.spawn tight) dropped_send = some (s, trace) ∧
    s.owner = .Dropped ∧
    .Driver (.Sent (some ⟨.JoinRequired, join_required⟩)
      (.error (.Terminal .JoinRequired join_required))) ∈ trace ∧
    s.driver.shutdown = true := by
  have hrun : (exec V2Engine.step (V2Engine.spawn tight) dropped_send).any (fun r =>
      (match r.1.owner with
        | .Dropped => true
        | _ => false) &&
      decide (.Driver (.Sent (some ⟨.JoinRequired, join_required⟩)
        (.error (.Terminal .JoinRequired join_required))) ∈ r.2)) = true := by
    decide
  obtain ⟨⟨s, trace⟩, hrun, hseen⟩ := (Option.any_eq_true _ _).mp hrun
  obtain ⟨howner, hsent⟩ := Bool.and_eq_true_iff.mp hseen
  have howner : s.owner = .Dropped := by
    revert howner
    dsimp only
    split
    · intro _
      assumption
    · simp
  exact ⟨s, trace, hrun, howner, of_decide_eq_true hsent, ((drop_leaves_failure hrun).2 howner).1⟩

end Ending

end StreamGuard.Tun
