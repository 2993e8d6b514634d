/-
The steps of the engine supervisor, and what every one of them keeps.

The first failure of the driver is a write-once slot, and what the state, the task, the reads, the
senders and the shutdown have of it are copies.
-/
import StreamGuard.Lib.Latch
import StreamGuard.Tun.DriverRuns
import StreamGuard.Tun.Engine

set_option autoImplicit false

namespace StreamGuard.Tun

open StreamGuard StreamGuard.Lib

/-! ## Who moves -/

/-- The steps, by the party that moves. -/
inductive EngineMoved (s : V2Engine) : V2Engine → List EngineTrace → Prop
  | Driver {driver : Driver} {seen : List Trace} (hmoved : Moved s.driver driver seen) :
    EngineMoved s { s with
      driver
      publishing := s.publishing || (s.driver.failure.isNone && driver.failure.isSome) }
      (seen.map .Driver)
  | Publish (hpublishing : s.publishing = true) :
    EngineMoved s { s with terminal := true, publishing := false } []
  | Closed {ops : List Op} {packet : Bytes} (hworker : s.driver.worker = .TrySend packet) :
    EngineMoved s { s with driver := { s.driver with worker := .Settle ops .Leave } } []
  | New (runtime : Bool) (howner : s.owner = .Spawned) :
    EngineMoved s { s with
      state := s.driver.failure.elim .Running .Terminal
      watcher := if runtime = true then .Wait else .None
      owner := .Live } []
  | Wake (hwatcher : s.watcher = .Wait) (hterminal : s.terminal = true) :
    EngineMoved s { s with watcher := .ReadFailure } []
  | Look (hwatcher : s.watcher = .ReadFailure) :
    EngineMoved s { s with watcher := s.driver.failure.elim .Ended .Store } []
  | Flip {failure : DriverFailure} (hwatcher : s.watcher = .Store failure) :
    EngineMoved s { s with state := s.state.set (.Terminal failure), watcher := .Ended } []
  | CancelWatcher (haborted : s.aborted = true) : EngineMoved s { s with watcher := .Ended } []
  | Read (waits : Bool) (howner : s.owner = .Live) :
    EngineMoved s { s with reads := ⟨waits, s.driver.failure, false, .SyncState⟩ ::ₘ s.reads } []
  | Reader {call : EngineRead} {state : V2EngineState} {next : Option EngineRead}
      {out : List EngineTrace} (hmem : call ∈ s.reads)
      (hstep : call.step s = some (state, next, out)) :
    EngineMoved s { s with
      state, reads := next.elim 0 (fun call => {call}) + s.reads.erase call } out
  | CancelRead {call : EngineRead} (hmem : call ∈ s.reads) :
    EngineMoved s { s with reads := s.reads.erase call } []
  | Shutdown (howner : s.owner = .Live) (hreads : s.reads = 0) :
    EngineMoved s { s with aborted := true, owner := .AwaitWatcher } []
  | Drop (howner : s.owner = .Live) (hreads : s.reads = 0) :
    EngineMoved s { s with aborted := true, owner := .SetFailure } []
  | DropDriver (howner : s.owner = .Spawned ∨ s.owner = .AwaitWatcher) :
    EngineMoved s { s with owner := .SetFailure } []
  | WatcherGone (howner : s.owner = .AwaitWatcher) :
    EngineMoved s { s with owner := .SignalShutdown } []
  | Signal {next : EnginePoint} (howner : s.owner = .SignalShutdown ∧ next = .Join ∨
      s.owner = .SignalDropped ∧ next = .Dropped) :
    EngineMoved s { s with driver := { s.driver with shutdown := true }, owner := next } []
  | Join (howner : s.owner = .Join) (hworker : s.driver.worker = .Exited)
      (hpublishing : s.publishing = false) : EngineMoved s { s with owner := .ReadFailure } []
  | ReadFailure (howner : s.owner = .ReadFailure) :
    EngineMoved s { s with owner := .Store s.driver.failure } []
  | Store {found : Option DriverFailure} (howner : s.owner = .Store found) :
    EngineMoved s { s with state := s.state.set (found.elim .Closed .Terminal), owner := .Closed }
      [.Shut (s.state.set (found.elim .Closed .Terminal))]
  | SetFailure (howner : s.owner = .SetFailure) :
    EngineMoved s { s with
      driver := set_failure s.driver .JoinRequired join_required
      owner := if s.driver.failure.isNone then .Publish else .SignalDropped } []
  | PublishDropped (howner : s.owner = .Publish) :
    EngineMoved s { s with terminal := true, owner := .SignalDropped } []
  | Abandon (howner : s.owner = .Join) : EngineMoved s { s with owner := .Abandoned } []

section Steps

variable {s s' : V2Engine} {label : EngineLabel} {out : List EngineTrace}

theorem drive_moved {event : DriverEvent} (h : s.drive event = some (s', out)) :
    EngineMoved s s' out := by
  obtain ⟨⟨driver, seen⟩, hstep, heq⟩ := Option.map_eq_some_iff.mp h
  obtain ⟨rfl, rfl⟩ := Prod.mk.inj heq
  exact .Driver (step_moved hstep)

theorem watch_moved (h : s.watch = some s') : EngineMoved s s' [] := by
  revert h
  fun_cases V2Engine.watch s with
  | case1 hwatcher hterminal =>
    rintro ⟨⟩
    exact .Wake hwatcher hterminal
  | case3 hwatcher =>
    rintro ⟨⟩
    exact .Look hwatcher
  | case4 failure hwatcher =>
    rintro ⟨⟩
    exact .Flip hwatcher
  | _ => simp

theorem own_moved (h : s.own = some (s', out)) : EngineMoved s s' out := by
  revert h
  fun_cases V2Engine.own s with
  | case1 howner | case2 howner =>
    rintro ⟨⟩
    exact .WatcherGone howner
  | case4 howner =>
    rintro ⟨⟩
    exact .Signal (.inl ⟨howner, rfl⟩)
  | case6 howner hworker hpublishing =>
    rintro ⟨⟩
    exact .Join howner hworker (Bool.not_eq_true _ ▸ hpublishing)
  | case8 howner =>
    rintro ⟨⟩
    exact .ReadFailure howner
  | case9 found howner =>
    rintro ⟨⟩
    exact .Store howner
  | case10 howner =>
    rintro ⟨⟩
    exact .SetFailure howner
  | case11 howner =>
    rintro ⟨⟩
    exact .PublishDropped howner
  | case12 howner =>
    rintro ⟨⟩
    exact .Signal (.inr ⟨howner, rfl⟩)
  | _ => simp

theorem engine_moved (h : s.step label = some (s', out)) : EngineMoved s s' out := by
  revert h
  fun_cases V2Engine.step s label with
  | case3 => exact drive_moved
  | case4 hpublishing =>
    rintro ⟨⟩
    exact .Publish hpublishing
  | case6 packet hworker =>
    rintro ⟨⟩
    exact .Closed hworker
  | case8 runtime howner =>
    rintro ⟨⟩
    exact .New runtime howner
  | case10 =>
    intro h
    obtain ⟨s₁, hwatch, heq⟩ := Option.map_eq_some_iff.mp h
    obtain ⟨rfl, rfl⟩ := Prod.mk.inj heq
    exact watch_moved hwatch
  | case11 _ haborted =>
    rintro ⟨⟩
    exact .CancelWatcher haborted
  | case13 waits howner =>
    rintro ⟨⟩
    exact .Read waits howner
  | case15 call hmem =>
    intro h
    obtain ⟨⟨state, next, out⟩, hstep, heq⟩ := Option.map_eq_some_iff.mp h
    obtain ⟨rfl, rfl⟩ := Prod.mk.inj heq
    exact .Reader hmem hstep
  | case17 call hcall =>
    rintro ⟨⟩
    exact .CancelRead hcall.1
  | case19 howner hreads =>
    rintro ⟨⟩
    exact .Shutdown howner hreads
  | case22 howner hreads =>
    rintro ⟨⟩
    exact .Drop howner hreads
  | case24 howner =>
    rintro ⟨⟩
    exact .DropDriver (.inl howner)
  | case26 => exact own_moved
  | case27 howner =>
    rintro ⟨⟩
    exact .DropDriver (.inr howner)
  | case28 howner =>
    rintro ⟨⟩
    exact .Abandon howner
  | _ => simp

/-- The first failure stays. -/
theorem engine_failure (hmoved : EngineMoved s s' out) :
    Known s.driver.failure s'.driver.failure := by
  cases hmoved with
  | Driver hmoved => exact fun failure => failure_stays hmoved
  | SetFailure =>
    rw [set_failure_eq]
    exact known_getD _ _
  | _ => exact .refl _

end Steps

/-! ## What everybody has of it -/

def WatcherPoint.found : WatcherPoint → Option DriverFailure
  | .Store failure => some failure
  | .None | .Wait | .ReadFailure | .Ended => none

def ReadPoint.found : ReadPoint → Option DriverFailure
  | .Store failure => some failure
  | .SyncState | .ReadFailure | .LockState | .Wait => none

def EnginePoint.found : EnginePoint → Option DriverFailure
  | .Store found => found
  | _ => none

/-- The failure that a sender is told of. -/
def sent_failure : Except DriverError Unit → Option DriverFailure
  | .error (.Terminal kind message) => some ⟨kind, message⟩
  | _ => none

def SendPoint.found : SendPoint → Option DriverFailure
  | .Finish _ result => sent_failure result
  | _ => none

/-- The failure that a step tells somebody. -/
def Trace.report : Trace → Option DriverFailure
  | .Sent _ result => sent_failure result
  | _ => none

def EngineTrace.report : EngineTrace → Option DriverFailure
  | .Driver seen => seen.report
  | .Read _ state | .Shut state => state.failure
  | .Awaited _ found => found

/-- What was recorded when the call began that a step ends. -/
def EngineTrace.started : EngineTrace → Option DriverFailure
  | .Read started _ | .Awaited started _ => started
  | .Driver _ | .Shut _ => none

structure Copies (s : V2Engine) : Prop where
  state : Known s.state.failure s.driver.failure
  watcher : Known s.watcher.found s.driver.failure
  owner : Known s.owner.found s.driver.failure
  reads : ∀ call ∈ s.reads,
    Known call.started s.driver.failure ∧ Known call.point.found s.driver.failure
  sends : ∀ call ∈ s.driver.sends, Known call.point.found s.driver.failure

section Copies

variable {slot : Option DriverFailure} {state next : V2EngineState}

theorem V2EngineState.known_set (h : Known state.failure slot) (hnext : Known next.failure slot) :
    Known (state.set next).failure slot := by
  rw [V2EngineState.set]
  split
  · exact hnext
  · exact h

theorem checked_found (config : DriverConfig) (call : SendCall) :
    (call.checked config).found = none := by
  fun_cases SendCall.checked config call <;> rfl

theorem SendCall.step_found {s s' : Driver} {call : SendCall} {point : Option SendPoint}
    {out : List Trace} (h : call.step s = (s', point, out))
    (hfound : Known call.point.found s.failure) :
    (∀ point' ∈ point, Known point'.found s.failure) ∧
      ∀ seen ∈ out, Known seen.report s.failure := by
  revert h
  fun_cases SendCall.step s call with
  | case1 _ failure hfailure =>
    rintro ⟨⟩
    simp [SendPoint.found, terminal_error, sent_failure, hfailure]
  | case4 =>
    rintro ⟨⟩
    simp [checked_found]
  | case5 =>
    rintro ⟨⟩
    refine ⟨?_, by simp⟩
    rintro point ⟨⟩
    split <;> exact known_none
  | case10 op ops result hpoint =>
    rintro ⟨⟩
    simpa [hpoint, SendPoint.found] using hfound
  | case11 result hpoint =>
    rintro ⟨⟩
    simpa [hpoint, SendPoint.found, Trace.report] using hfound
  | _ =>
    rintro ⟨⟩
    simp [SendPoint.found, sent_failure, Trace.report]

/-- What the senders have of it, over a step of the driver. -/
theorem moved_found {s s' : Driver} {out : List Trace} (hmoved : Moved s s' out)
    (h : ∀ call ∈ s.sends, Known call.point.found s.failure) :
    (∀ call ∈ s'.sends, Known call.point.found s'.failure) ∧
      ∀ seen ∈ out, Known seen.report s'.failure := by
  have hkept : Known s.failure s'.failure := fun found => failure_stays hmoved
  have hsame : s'.sends = s.sends → ∀ call ∈ s'.sends, Known call.point.found s'.failure :=
    fun hsends call hmem => (h call (hsends ▸ hmem)).trans hkept
  cases hmoved with
  | Send traffic_class packet =>
    refine ⟨?_, by simp⟩
    simp only [Multiset.mem_cons, forall_eq_or_imp]
    exact ⟨known_none, h⟩
  | Sender hmem hstep =>
    rename_i call s₁ point
    obtain ⟨hpoint, hout⟩ := SendCall.step_found hstep (h call hmem)
    obtain ⟨metrics, egress, rfl⟩ := SendCall.step_frame hstep
    refine ⟨fun call' hmem' => ?_, hout⟩
    -- the call is replaced by what is left of it
    rcases Multiset.mem_add.mp hmem' with hnew | hold
    · cases point with
      | none => simp at hnew
      | some point =>
        rw [Option.elim_some, Multiset.mem_singleton] at hnew
        rw [hnew]
        exact hpoint point rfl
    · exact h call' (Multiset.mem_of_mem_erase hold)
  | Receive | Cancel | Shutdown => exact ⟨h, by simp⟩
  | Owner hstep =>
    refine ⟨hsame ?_, ?_⟩
    · obtain ⟨metrics, ingress, owner, rfl⟩ := owner_step_frame hstep
      rfl
    · obtain rfl | ⟨started, result, rfl⟩ := owner_step_out hstep
      · simp
      · simp [Trace.report]
  | Work hstep =>
    refine ⟨hsame ?_, by simp⟩
    obtain ⟨metrics, failure, egress, ingress, worker, rfl⟩ := work_frame hstep
    rfl
  | Written answer hworker =>
    refine ⟨h, ?_⟩
    split <;> simp [Trace.report]
  | Read answer hworker =>
    refine ⟨hsame ?_, by simp⟩
    obtain ⟨metrics, worker, hread⟩ := read_frame s answer
    rw [hread]

variable {s s' : V2Engine} {out : List EngineTrace}

/-- A read copies what it has found to the state, and tells what it sees there. -/
theorem EngineRead.step_found {call : EngineRead} {state : V2EngineState}
    {next : Option EngineRead} (h : call.step s = some (state, next, out))
    (hstate : Known s.state.failure s.driver.failure)
    (hfound : Known call.point.found s.driver.failure) :
    Known state.failure s.driver.failure ∧
      (∀ call' ∈ next, call'.started = call.started ∧ Known call'.point.found s.driver.failure) ∧
      ∀ seen ∈ out, Known seen.report s.driver.failure ∧ seen.started = call.started := by
  revert h
  fun_cases EngineRead.step s call with
  | case1 _ point =>
    rintro ⟨⟩
    refine ⟨hstate, ?_, by simp⟩
    rintro call' ⟨⟩
    have hnone : point.found = none := by
      unfold point
      split <;> rfl
    exact ⟨rfl, hnone ▸ known_none⟩
  | case2 _ failure hfailure =>
    rintro ⟨⟩
    refine ⟨hstate, ?_, by simp⟩
    rintro call' ⟨⟩
    exact ⟨rfl, known_some.mpr hfailure⟩
  | case4 failure hpoint =>
    rintro ⟨⟩
    rw [hpoint] at hfound
    refine ⟨V2EngineState.known_set hstate hfound, ?_, by simp⟩
    rintro call' ⟨⟩
    exact ⟨rfl, known_none⟩
  | case3 | case7 | case8 =>
    rintro ⟨⟩
    refine ⟨hstate, ?_, by simp⟩
    rintro call' ⟨⟩
    exact ⟨rfl, known_none⟩
  | case5 | case6 =>
    rintro ⟨⟩
    refine ⟨hstate, by simp, ?_⟩
    simpa [EngineTrace.report, EngineTrace.started] using hstate
  | case9 => simp

/-- The reads after one of them has done a step. -/
theorem EngineRead.mem_reads {call call' : EngineRead} {next : Option EngineRead}
    {reads : Multiset EngineRead}
    (h : call' ∈ next.elim 0 (fun call => {call}) + reads.erase call) :
    call' ∈ next ∨ call' ∈ reads := by
  rcases Multiset.mem_add.mp h with hnew | hold
  · cases next with
    | none => simp at hnew
    | some next => exact .inl (congrArg some (Multiset.mem_singleton.mp hnew).symm)
  · exact .inr (Multiset.mem_of_mem_erase hold)

theorem copies_step (h : Copies s) (hmoved : EngineMoved s s' out) :
    Copies s' ∧ ∀ seen ∈ out, Known seen.report s'.driver.failure ∧
      Known seen.started s'.driver.failure := by
  have hkept := engine_failure hmoved
  have hreads : ∀ call ∈ s.reads,
      Known call.started s'.driver.failure ∧ Known call.point.found s'.driver.failure :=
    fun call hmem => ⟨(h.reads call hmem).1.trans hkept, (h.reads call hmem).2.trans hkept⟩
  cases hmoved with
  | Driver hmoved =>
    obtain ⟨hsends, hseen⟩ := moved_found hmoved h.sends
    refine ⟨⟨h.state.trans hkept, h.watcher.trans hkept, h.owner.trans hkept, hreads, hsends⟩, ?_⟩
    rintro _ hmem
    obtain ⟨seen, hseen', rfl⟩ := List.mem_map.mp hmem
    exact ⟨hseen seen hseen', known_none⟩
  | Publish | Closed => exact ⟨⟨h.state, h.watcher, h.owner, hreads, h.sends⟩, by simp⟩
  | CancelWatcher | Wake => exact ⟨⟨h.state, known_none, h.owner, hreads, h.sends⟩, by simp⟩
  | New runtime howner =>
    refine ⟨⟨?_, ?_, known_none, hreads, h.sends⟩, by simp⟩
    · dsimp only
      cases s.driver.failure with
      | none => exact known_none
      | some failure => exact .refl _
    · dsimp only
      split <;> exact known_none
  | Look hwatcher =>
    refine ⟨⟨h.state, ?_, h.owner, hreads, h.sends⟩, by simp⟩
    dsimp only
    cases s.driver.failure with
    | none => exact known_none
    | some failure => exact .refl _
  | Flip hwatcher =>
    have hfound := h.watcher
    rw [hwatcher] at hfound
    exact ⟨⟨V2EngineState.known_set h.state hfound, known_none, h.owner, hreads, h.sends⟩, by simp⟩
  | Read waits howner =>
    refine ⟨⟨h.state, h.watcher, h.owner, ?_, h.sends⟩, by simp⟩
    simp only [Multiset.mem_cons, forall_eq_or_imp]
    exact ⟨⟨.refl _, known_none⟩, hreads⟩
  | Reader hmem hstep =>
    rename_i call state next
    obtain ⟨hstarted, hfound⟩ := h.reads call hmem
    obtain ⟨hstate, hnext, hout⟩ := EngineRead.step_found hstep h.state hfound
    refine ⟨⟨hstate, h.watcher, h.owner, fun call' hmem' => ?_, h.sends⟩, fun seen hseen => ?_⟩
    · rcases EngineRead.mem_reads hmem' with hnew | hold
      · obtain ⟨hsame, hpoint⟩ := hnext call' hnew
        rw [hsame]
        exact ⟨hstarted, hpoint⟩
      · exact hreads call' hold
    · obtain ⟨hreport, hsame⟩ := hout seen hseen
      exact ⟨hreport, hsame ▸ hstarted⟩
  | CancelRead hmem =>
    exact ⟨⟨h.state, h.watcher, h.owner, fun call hmem =>
      hreads call (Multiset.mem_of_mem_erase hmem), h.sends⟩, by simp⟩
  | Shutdown | Drop | DropDriver | WatcherGone | Join | Abandon | PublishDropped =>
    exact ⟨⟨h.state, h.watcher, known_none, hreads, h.sends⟩, by simp⟩
  | Signal howner =>
    refine ⟨⟨h.state, h.watcher, ?_, hreads, h.sends⟩, by simp⟩
    rcases howner with ⟨-, rfl⟩ | ⟨-, rfl⟩ <;> exact known_none
  | ReadFailure howner => exact ⟨⟨h.state, h.watcher, .refl _, hreads, h.sends⟩, by simp⟩
  | Store howner =>
    rename_i found
    have hfound := h.owner
    rw [howner] at hfound
    -- a state that is closed for want of a failure copies none
    have hstate : Known (s.state.set (found.elim .Closed .Terminal)).failure s.driver.failure := by
      refine V2EngineState.known_set h.state ?_
      cases found with
      | none => exact known_none
      | some failure => exact hfound
    exact ⟨⟨hstate, h.watcher, known_none, hreads, h.sends⟩,
      by simpa [EngineTrace.report, EngineTrace.started] using hstate⟩
  | SetFailure howner =>
    refine ⟨⟨h.state.trans hkept, h.watcher.trans hkept, ?_, hreads, ?_⟩, by simp⟩
    · dsimp only
      split <;> exact known_none
    · intro call hmem
      refine (h.sends call ?_).trans hkept
      rwa [set_failure_eq] at hmem

end Copies

end StreamGuard.Tun
