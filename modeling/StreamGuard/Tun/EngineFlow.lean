/-
What every step of the engine supervisor keeps, besides the copies.

When the signal is up, where the parties can be, what a read that begins after the failure may
see, what becomes of the worker, and what a shutdown finds.
-/
import StreamGuard.Tun.EngineSteps

set_option autoImplicit false

namespace StreamGuard.Tun

open StreamGuard StreamGuard.Lib

/-! ## The driver of an engine -/

/-- What is seen of the driver. -/
def driven (trace : List EngineTrace) : List Trace :=
  trace.filterMap fun
    | .Driver seen => some seen
    | _ => none

section Driven

variable {s s' : V2Engine} {trace : List Trace} {out : List EngineTrace}

@[simp] theorem driven_append (before after : List EngineTrace) :
    driven (before ++ after) = driven before ++ driven after := List.filterMap_append

@[simp] theorem driven_nil : driven [] = [] := rfl

@[simp] theorem driven_map (seen : List Trace) : driven (seen.map .Driver) = seen := by
  rw [driven, List.filterMap_map]
  exact List.filterMap_some

@[simp] theorem driven_shut (state : V2EngineState) : driven [.Shut state] = [] := rfl

theorem EngineRead.step_driven {call : EngineRead} {state : V2EngineState}
    {next : Option EngineRead} (h : call.step s = some (state, next, out)) : driven out = [] := by
  revert h
  fun_cases EngineRead.step s call with
  | case9 => simp
  | _ =>
    rintro ⟨⟩
    rfl

/-- What the senders rely on is kept by whatever keeps the first failure. -/
theorem Returns.frame {d d' : Driver} (h : Returns d trace) (hsends : d'.sends = d.sends)
    (howner : d'.owner = d.owner) (hkept : Known d.failure d'.failure) : Returns d' trace where
  sends call hmem found hfound := by
    rw [hsends] at hmem
    exact (h.sends call hmem found hfound).imp_left (hkept found)
  owner := by
    rw [howner]
    exact h.owner.mono hkept
  told := h.told

theorem returns_moved (h : Returns s.driver trace) (hmoved : EngineMoved s s' out) :
    Returns s'.driver (trace ++ driven out) := by
  have hkept := engine_failure hmoved
  cases hmoved with
  | Driver hmoved =>
    rw [driven_map]
    exact step_returns h hmoved
  | Reader hmem hstep =>
    rw [EngineRead.step_driven hstep, List.append_nil]
    exact h
  | SetFailure =>
    rw [driven_nil, List.append_nil]
    refine h.frame ?_ ?_ hkept <;> rw [set_failure_eq]
  | Closed | Signal =>
    rw [driven_nil, List.append_nil]
    exact h.frame rfl rfl hkept
  | _ => simpa using h

end Driven

/-! ## The signal -/

structure Signalled (s : V2Engine) : Prop where
  signal : s.driver.failure.isSome = true ↔
    s.terminal = true ∨ s.publishing = true ∨ s.owner = .Publish
  woken : s.watcher = .ReadFailure → s.driver.failure.isSome = true
  reads : ∀ call ∈ s.reads, call.signalled = true → s.driver.failure.isSome = true

section Signalled

variable {s s' : V2Engine} {out : List EngineTrace}

theorem EngineRead.step_signalled {call : EngineRead} {state : V2EngineState}
    {next : Option EngineRead} (h : call.step s = some (state, next, out)) :
    ∀ call' ∈ next, call'.signalled = call.signalled ∨ s.terminal = true := by
  revert h
  fun_cases EngineRead.step s call with
  | case8 hpoint hterminal =>
    rintro ⟨⟩ call' -
    exact .inr hterminal
  | case9 => simp
  | _ =>
    rintro ⟨⟩
    simp

theorem signalled_step (h : Signalled s) (hmoved : EngineMoved s s' out) : Signalled s' := by
  have hkept := (engine_failure hmoved).isSome
  have hreads : ∀ call ∈ s.reads, call.signalled = true → s'.driver.failure.isSome = true :=
    fun call hmem hsignalled => hkept (h.reads call hmem hsignalled)
  have hsignal := h.signal
  cases hmoved with
  | Driver hmoved =>
    refine ⟨?_, fun hwatcher => hkept (h.woken hwatcher), hreads⟩
    simp only [Bool.or_eq_true, Bool.and_eq_true, Option.isNone_iff_eq_none] at hkept ⊢
    -- the failure was there and its signal on the way, or this step records it
    constructor
    · intro hsome
      by_cases hbefore : s.driver.failure = none
      · exact .inr (.inl (.inr ⟨hbefore, hsome⟩))
      · have hold := hsignal.mp (Option.isSome_iff_ne_none.mpr hbefore)
        tauto
    · rintro (h | (h | ⟨-, h⟩) | h)
      · exact hkept (hsignal.mpr (.inl h))
      · exact hkept (hsignal.mpr (.inr (.inl h)))
      · exact h
      · exact hkept (hsignal.mpr (.inr (.inr h)))
  | Publish hpublishing =>
    refine ⟨?_, h.woken, hreads⟩
    simp [hsignal, hpublishing]
  | Closed hworker => exact ⟨hsignal, h.woken, hreads⟩
  | New runtime howner =>
    refine ⟨?_, ?_, hreads⟩
    · simpa [howner] using hsignal
    · dsimp only
      split <;> simp
  | Wake hwatcher hterminal => exact ⟨hsignal, fun _ => hsignal.mpr (.inl hterminal), hreads⟩
  | Look hwatcher =>
    refine ⟨hsignal, ?_, hreads⟩
    dsimp only
    cases s.driver.failure <;> simp
  | Flip | CancelWatcher => exact ⟨hsignal, by simp, hreads⟩
  | Read waits howner =>
    refine ⟨hsignal, h.woken, ?_⟩
    simp only [Multiset.mem_cons, forall_eq_or_imp]
    exact ⟨by simp, hreads⟩
  | Reader hmem hstep =>
    refine ⟨hsignal, h.woken, fun call' hmem' hsignalled => ?_⟩
    rcases EngineRead.mem_reads hmem' with hnew | hold
    · rcases EngineRead.step_signalled hstep call' hnew with hsame | hterminal
      · exact h.reads _ hmem (by rw [← hsame, hsignalled])
      · exact hsignal.mpr (.inl hterminal)
    · exact h.reads call' hold hsignalled
  | CancelRead hmem =>
    exact ⟨hsignal, h.woken, fun call hmem => h.reads call (Multiset.mem_of_mem_erase hmem)⟩
  | Shutdown howner | Drop howner | WatcherGone howner | Join howner | ReadFailure howner
  | Store howner | Abandon howner =>
    refine ⟨?_, h.woken, hreads⟩
    simpa [howner] using hsignal
  | DropDriver howner =>
    refine ⟨?_, h.woken, hreads⟩
    rcases howner with howner | howner <;> simpa [howner] using hsignal
  | Signal howner =>
    refine ⟨?_, h.woken, hreads⟩
    rcases howner with ⟨howner, rfl⟩ | ⟨howner, rfl⟩ <;> simpa [howner] using hsignal
  | SetFailure howner =>
    refine ⟨?_, fun hwatcher => hkept (h.woken hwatcher), hreads⟩
    rw [set_failure_eq]
    -- the drop records a failure only where there is none
    cases hfailure : s.driver.failure with
    | none => simp
    | some failure => simpa [hfailure, howner] using hsignal
  | PublishDropped howner =>
    refine ⟨?_, h.woken, hreads⟩
    simp [hsignal, howner]

end Signalled

/-! ## Where the parties can be -/

structure Placed (s : V2Engine) : Prop where
  idle : ∀ call ∈ s.reads, s.owner = .Live
  closed : s.state = .Closed → s.owner = .Closed
  aborted : s.aborted = true → s.owner ≠ .Spawned ∧ s.owner ≠ .Live
  /-- The task does not end by itself before it has found the failure. -/
  ended : s.watcher = .Ended → s.aborted = true ∨ s.state ≠ .Running

section Placed

variable {s s' : V2Engine} {out : List EngineTrace}

theorem V2EngineState.set_eq_closed {state : V2EngineState} {failure : DriverFailure}
    (h : state.set (.Terminal failure) = .Closed) : state = .Closed := by
  rw [V2EngineState.set] at h
  split at h
  · contradiction
  · exact h

theorem V2EngineState.set_ne_running {state next : V2EngineState} (hnext : next ≠ .Running) :
    state.set next ≠ .Running := by
  rw [V2EngineState.set]
  split
  · exact hnext
  · assumption

/-- A read leaves the state alone or flips it. -/
theorem EngineRead.step_state {call : EngineRead} {state : V2EngineState}
    {next : Option EngineRead} (h : call.step s = some (state, next, out)) :
    state = s.state ∨ ∃ failure, call.point = .Store failure ∧
      state = s.state.set (.Terminal failure) := by
  revert h
  fun_cases EngineRead.step s call with
  | case4 failure hpoint =>
    rintro ⟨⟩
    exact .inr ⟨failure, hpoint, rfl⟩
  | case9 => simp
  | _ =>
    rintro ⟨⟩
    exact .inl rfl

/-- A step towards the end of the engine. -/
theorem Placed.owned (h : Placed s) {driver : Driver} {terminal : Bool} {owner : EnginePoint}
    (hbefore : s.owner ≠ .Live ∧ s.owner ≠ .Closed) (hafter : owner ≠ .Spawned ∧ owner ≠ .Live) :
    Placed { s with driver, terminal, owner } where
  idle call hmem := absurd (h.idle call hmem) hbefore.1
  closed hstate := absurd (h.closed hstate) hbefore.2
  aborted _ := hafter
  ended := h.ended

theorem placed_step (h : Placed s) (hsignalled : Signalled s) (hmoved : EngineMoved s s' out) :
    Placed s' := by
  cases hmoved with
  | Driver | Publish | Closed => exact ⟨h.idle, h.closed, h.aborted, h.ended⟩
  | New runtime howner =>
    refine ⟨fun _ _ => rfl, ?_, fun haborted => absurd howner (h.aborted haborted).1, ?_⟩
    · cases s.driver.failure <;> simp
    · dsimp only
      split <;> simp
  | Wake hwatcher hterminal => exact ⟨h.idle, h.closed, h.aborted, by simp⟩
  | Look hwatcher =>
    refine ⟨h.idle, h.closed, h.aborted, ?_⟩
    -- the task was woken, so there is a failure to find
    obtain ⟨failure, hfailure⟩ := Option.isSome_iff_exists.mp (hsignalled.woken hwatcher)
    simp [hfailure]
  | Flip hwatcher =>
    exact ⟨h.idle, fun hstate => h.closed (V2EngineState.set_eq_closed hstate), h.aborted,
      fun _ => .inr (V2EngineState.set_ne_running (by simp))⟩
  | CancelWatcher haborted => exact ⟨h.idle, h.closed, h.aborted, fun _ => .inl haborted⟩
  | Read waits howner => exact ⟨fun _ _ => howner, h.closed, h.aborted, h.ended⟩
  | Reader hmem hstep =>
    have howner := h.idle _ hmem
    refine ⟨fun _ _ => howner, fun hstate => h.closed ?_, h.aborted, fun hended => ?_⟩
    · rcases EngineRead.step_state hstep with rfl | ⟨failure, -, rfl⟩
      · exact hstate
      · exact V2EngineState.set_eq_closed hstate
    · rcases EngineRead.step_state hstep with rfl | ⟨failure, -, rfl⟩
      · exact h.ended hended
      · exact .inr (V2EngineState.set_ne_running (by simp))
  | CancelRead hmem =>
    exact ⟨fun _ _ => h.idle _ hmem, h.closed, h.aborted, h.ended⟩
  | Shutdown howner hreads | Drop howner hreads =>
    have hopen : s.state ≠ .Closed := fun hstate => by simp [h.closed hstate] at howner
    exact ⟨by simp [hreads], fun hstate => absurd hstate hopen, fun _ => by simp,
      fun _ => .inl rfl⟩
  | DropDriver howner =>
    refine h.owned ?_ (by simp)
    rcases howner with howner | howner <;> simp [howner]
  | Signal howner =>
    rcases howner with ⟨howner, rfl⟩ | ⟨howner, rfl⟩ <;> exact h.owned (by simp [howner]) (by simp)
  | WatcherGone howner | Join howner | ReadFailure howner | Abandon howner
  | PublishDropped howner => exact h.owned (by simp [howner]) (by simp)
  | SetFailure howner =>
    refine h.owned (by simp [howner]) ?_
    split <;> simp
  | Store howner =>
    rename_i found
    refine ⟨fun call hmem => ?_, fun _ => rfl, by simp, fun _ => ?_⟩
    · rw [h.idle call hmem] at howner
      contradiction
    · refine .inr (V2EngineState.set_ne_running ?_)
      cases found <;> simp

end Placed

/-! ## Being told -/

/-- The failure was recorded before it began, or it has been signalled. -/
def EngineRead.Due (call : EngineRead) : Prop :=
  call.started.isSome = true ∨ call.signalled = true

/-- Such a call does not look at a state that has not flipped. -/
def Prompt (s : V2Engine) : Prop :=
  ∀ call ∈ s.reads, call.Due → call.point ≠ .Wait ∧ (call.point = .LockState → s.state ≠ .Running)

/-- What callers may rely on. -/
def EngineTrace.Told : EngineTrace → Prop
  | .Driver seen => seen.Told
  | .Read started state => state ≠ .Closed ∧ (started.isSome = true → state ≠ .Running)
  | .Awaited _ found => found.isSome = true
  | .Shut state => state ≠ .Running

section Prompt

variable {s s' : V2Engine} {out : List EngineTrace}

theorem V2EngineState.failure_isSome {state : V2EngineState} (hrunning : state ≠ .Running)
    (hclosed : state ≠ .Closed) : state.failure.isSome = true := by
  cases state with
  | Running => contradiction
  | Terminal failure => rfl
  | Closed => contradiction

theorem EngineRead.step_prompt {call : EngineRead} {state : V2EngineState}
    {next : Option EngineRead} (h : call.step s = some (state, next, out))
    (hopen : s.state ≠ .Closed) (hfailure : call.Due → s.driver.failure.isSome = true)
    (hprompt : call.Due →
      call.point ≠ .Wait ∧ (call.point = .LockState → s.state ≠ .Running)) :
    (∀ call' ∈ next, call'.Due →
      call'.point ≠ .Wait ∧ (call'.point = .LockState → state ≠ .Running)) ∧
      ∀ seen ∈ out, seen.Told := by
  revert h
  fun_cases EngineRead.step s call with
  | case1 _ point =>
    rintro ⟨⟩
    refine ⟨?_, by simp⟩
    rintro call' ⟨⟩ -
    by_cases hrunning : s.state = .Running
    · simp [point, hrunning]
    · simp [point, hrunning]
  | case2 =>
    rintro ⟨⟩
    refine ⟨?_, by simp⟩
    rintro call' ⟨⟩ -
    simp
  | case3 _ hnone =>
    rintro ⟨⟩
    refine ⟨?_, by simp⟩
    rintro call' ⟨⟩ hdue
    -- a call that is due does find the failure
    have hsome := hfailure hdue
    rw [hnone] at hsome
    contradiction
  | case4 =>
    rintro ⟨⟩
    refine ⟨?_, by simp⟩
    rintro call' ⟨⟩ -
    exact ⟨by simp, fun _ => V2EngineState.set_ne_running (by simp)⟩
  | case5 hpoint =>
    rintro ⟨⟩
    refine ⟨by simp, ?_⟩
    simp only [List.mem_singleton, forall_eq]
    exact ⟨hopen, fun hstarted => (hprompt (.inl hstarted)).2 hpoint⟩
  | case6 hpoint _ hfound =>
    rintro ⟨⟩
    refine ⟨by simp, ?_⟩
    simp only [List.mem_singleton, forall_eq]
    rcases hfound with hsignalled | hfound
    · exact V2EngineState.failure_isSome ((hprompt (.inr hsignalled)).2 hpoint) hopen
    · exact hfound
  | case7 hpoint _ hfound =>
    rintro ⟨⟩
    refine ⟨?_, by simp⟩
    rintro call' ⟨⟩ hdue
    -- a state that has flipped is not waited for
    have hrunning := (hprompt hdue).2 hpoint
    exact absurd (.inr (V2EngineState.failure_isSome hrunning hopen)) hfound
  | case8 =>
    rintro ⟨⟩
    refine ⟨?_, by simp⟩
    rintro call' ⟨⟩ -
    simp
  | case9 => simp

/-- What the reads rely on is kept where the state does not go back to `Running`. -/
theorem Prompt.mono (h : Prompt s) (hreads : ∀ call ∈ s'.reads, call ∈ s.reads)
    (hstate : s.state ≠ .Running → s'.state ≠ .Running) : Prompt s' :=
  fun call hmem hdue => (h call (hreads call hmem) hdue).imp_right fun hlock hpoint =>
    hstate (hlock hpoint)

theorem prompt_step (h : Prompt s) (hcopies : Copies s) (hsignalled : Signalled s)
    (hplaced : Placed s) (hmoved : EngineMoved s s' out)
    (hdriver : ∀ seen ∈ driven out, seen.Told) :
    Prompt s' ∧ ∀ seen ∈ out, seen.Told := by
  cases hmoved with
  | Driver hmoved =>
    refine ⟨h, ?_⟩
    rintro _ hmem
    obtain ⟨seen, hseen, rfl⟩ := List.mem_map.mp hmem
    rw [driven_map] at hdriver
    exact hdriver seen hseen
  | New runtime howner =>
    refine ⟨fun call hmem => ?_, by simp⟩
    -- nobody reads an engine that is not there yet
    have hlive := hplaced.idle call hmem
    rw [howner] at hlive
    contradiction
  | Flip hwatcher =>
    exact ⟨h.mono (fun _ => id) fun _ => V2EngineState.set_ne_running (by simp), by simp⟩
  | Read waits howner =>
    refine ⟨?_, by simp⟩
    simp only [Prompt, Multiset.mem_cons, forall_eq_or_imp]
    exact ⟨by simp, h⟩
  | Reader hmem hstep =>
    rename_i call state next
    have hopen : s.state ≠ .Closed := fun hclosed => by
      have howner := hplaced.closed hclosed
      rw [hplaced.idle call hmem] at howner
      contradiction
    -- it knew of the failure when it began, or it was signalled
    have hdue : call.Due → s.driver.failure.isSome = true := fun hdue => by
      rcases hdue with hstarted | hsignal
      · exact (hcopies.reads call hmem).1.isSome hstarted
      · exact hsignalled.reads call hmem hsignal
    obtain ⟨hnext, hout⟩ := EngineRead.step_prompt hstep hopen hdue (h call hmem)
    refine ⟨fun call' hmem' => ?_, hout⟩
    rcases EngineRead.mem_reads hmem' with hnew | hold
    · exact hnext call' hnew
    · refine fun hdue => (h call' hold hdue).imp_right fun hlock hpoint => ?_
      rcases EngineRead.step_state hstep with rfl | ⟨failure, -, rfl⟩
      · exact hlock hpoint
      · exact V2EngineState.set_ne_running (by simp)
  | CancelRead hmem =>
    exact ⟨h.mono (fun _ => Multiset.mem_of_mem_erase) id, by simp⟩
  | Store howner =>
    rename_i found
    have hnext : s.state.set (found.elim .Closed .Terminal) ≠ .Running := by
      refine V2EngineState.set_ne_running ?_
      cases found <;> simp
    refine ⟨h.mono (fun _ => id) fun _ => hnext, ?_⟩
    intro seen hmem
    rw [List.mem_singleton.mp hmem]
    exact hnext
  | _ => exact ⟨h.mono (fun _ => id) id, by simp⟩

end Prompt

/-! ## After a failure, and after the worker -/

/-- The engine is dropped, or was, and its driver has a failure. -/
def EnginePoint.dropped : EnginePoint → Bool
  | .Publish | .SignalDropped | .Dropped => true
  | _ => false

/-- The worker is on its way out once it has recorded a failure. The other failure is the one that
the drop of the engine records, and only that does. -/
def Halting (s : V2Engine) (trace : List Trace) : Prop :=
  (Fate s.driver trace ∧
    ∀ failure, s.driver.failure = some failure → failure.kind ≠ .JoinRequired) ∨
    (s.driver.failure = some ⟨.JoinRequired, join_required⟩ ∧ s.owner.dropped = true)

/-- `shutdown` has joined the worker. -/
def EnginePoint.joined : EnginePoint → Bool
  | .ReadFailure | .Store _ | .Closed => true
  | _ => false

structure Joined (s : V2Engine) : Prop where
  exited : s.owner.joined = true → s.driver.worker = .Exited
  found : ∀ {found}, s.owner = .Store found → found = s.driver.failure
  outcome : s.owner = .Closed → s.state = s.driver.failure.elim .Closed .Terminal

section Halting

variable {s s' : V2Engine} {out : List EngineTrace} {trace : List Trace}

/-- The worker records what the backend did. -/
theorem work_kind {d d' : Driver} (h : work d = some d') :
    d'.failure = d.failure ∨
      ∃ failure, d'.failure = some failure ∧ failure.kind ≠ .JoinRequired := by
  revert h
  fun_cases work d with
  | case9 | case10 =>
    rintro ⟨⟩
    rw [set_failure_eq]
    cases d.failure with
    | none => exact .inr ⟨_, rfl, by simp⟩
    | some failure => exact .inl rfl
  | case6 | case11 | case18 => simp
  | _ =>
    rintro ⟨⟩
    exact .inl rfl

theorem moved_kind {d d' : Driver} {seen : List Trace} (hmoved : Moved d d' seen) :
    d'.failure = d.failure ∨
      ∃ failure, d'.failure = some failure ∧ failure.kind ≠ .JoinRequired := by
  cases hmoved with
  | Sender hmem hstep =>
    obtain ⟨metrics, egress, rfl⟩ := SendCall.step_frame hstep
    exact .inl rfl
  | Owner hstep =>
    obtain ⟨metrics, ingress, owner, rfl⟩ := owner_step_frame hstep
    exact .inl rfl
  | Work hstep => exact work_kind hstep
  | Read answer hworker =>
    obtain ⟨metrics, worker, hread⟩ := read_frame d answer
    rw [hread]
    exact .inl rfl
  | _ => exact .inl rfl

/-- A step that leaves the driver's failure and its worker alone. -/
theorem Halting.frame (h : Halting s trace) (hfailure : s'.driver.failure = s.driver.failure)
    (hworker : s'.driver.worker = s.driver.worker)
    (howner : s.owner.dropped = true → s'.owner.dropped = true) : Halting s' trace := by
  rcases h with ⟨hfate, hkind⟩ | ⟨hdropped, hpoint⟩
  · have hframe := hfate.frame hfailure hworker write_failures_nil
    rw [List.append_nil] at hframe
    exact .inl ⟨hframe, hfailure ▸ hkind⟩
  · exact .inr ⟨hfailure.trans hdropped, howner hpoint⟩

theorem halting_step (h : Halting s trace) (hmoved : EngineMoved s s' out) :
    Halting s' (trace ++ driven out) := by
  have hkept := engine_failure hmoved
  cases hmoved with
  | Driver hmoved =>
    rw [driven_map]
    rcases h with ⟨hfate, hkind⟩ | ⟨hdropped, hpoint⟩
    · refine .inl ⟨step_fate hfate hmoved, ?_⟩
      rcases moved_kind hmoved with hsame | ⟨failure, hfailure, hnot⟩
      · exact hsame ▸ hkind
      · rintro _ hfound
        rw [hfailure] at hfound
        obtain rfl := Option.some.inj hfound
        exact hnot
    · exact .inr ⟨hkept _ hdropped, hpoint⟩
  | Closed hworker =>
    rw [driven_nil, List.append_nil]
    rcases h with ⟨hfate, hkind⟩ | hdropped
    · have hruns : s.driver.worker.halted = false := by rw [hworker]; rfl
      -- the worker leaves, and no failure is recorded for that
      refine .inl ⟨hfate.running hruns rfl ?_, hkind⟩
      rw [hworker]
      rfl
    · exact .inr hdropped
  | Reader hmem hstep =>
    rw [EngineRead.step_driven hstep, List.append_nil]
    exact h.frame rfl rfl id
  | SetFailure howner =>
    rw [driven_nil, List.append_nil]
    -- the failure of the drop, or that of the worker from before
    cases hfailure : s.driver.failure with
    | none =>
      refine .inr ⟨?_, rfl⟩
      rw [set_failure_eq, hfailure]
      rfl
    | some failure =>
      refine h.frame ?_ ?_ fun _ => rfl
      · rw [set_failure_eq, hfailure]
        rfl
      · rw [set_failure_eq]
  | New runtime howner | Shutdown howner | Drop howner | WatcherGone howner | Join howner
  | ReadFailure howner | Abandon howner | PublishDropped howner =>
    rw [driven_nil, List.append_nil]
    refine h.frame rfl rfl fun hdropped => ?_
    rw [howner] at hdropped
    first | contradiction | rfl
  | Store howner =>
    rw [driven_shut, List.append_nil]
    refine h.frame rfl rfl fun hdropped => ?_
    rw [howner] at hdropped
    contradiction
  | DropDriver howner =>
    rw [driven_nil, List.append_nil]
    refine h.frame rfl rfl fun hdropped => ?_
    rcases howner with howner | howner <;> rw [howner] at hdropped <;> contradiction
  | Signal howner =>
    rw [driven_nil, List.append_nil]
    refine h.frame rfl rfl fun hdropped => ?_
    rcases howner with ⟨howner, rfl⟩ | ⟨howner, rfl⟩
    · rw [howner] at hdropped
      contradiction
    · rfl
  | _ =>
    rw [driven_nil, List.append_nil]
    exact h.frame rfl rfl id

/-- A driver whose worker has gone: it takes nothing and writes nothing, and no failure is
recorded any more. -/
theorem exited_moved {d d' : Driver} {seen : List Trace} (hmoved : Moved d d' seen)
    (hexited : d.worker = .Exited) : d'.worker = .Exited ∧ d'.failure = d.failure ∧
      ∀ c, wrote c seen = [] ∧ accepted c seen = [] := by
  cases hmoved with
  | Sender hmem hstep =>
    have hwrote : ∀ c, wrote c seen = [] := fun c => SendCall.step_wrote hstep
    have haccepted : ∀ c, accepted c seen = [] := by
      intro c
      revert hstep
      rename_i call s₁ point
      -- a send is accepted only while there is a worker
      fun_cases SendCall.step d call with
      | case8 _ _ _ hworker => exact absurd hexited hworker
      | _ =>
        rintro ⟨⟩
        rfl
    obtain ⟨metrics, egress, rfl⟩ := SendCall.step_frame hstep
    exact ⟨hexited, rfl, fun c => ⟨hwrote c, haccepted c⟩⟩
  | Owner hstep =>
    have hout := owner_step_out hstep
    obtain ⟨metrics, ingress, owner, rfl⟩ := owner_step_frame hstep
    refine ⟨hexited, rfl, fun c => ?_⟩
    obtain rfl | ⟨started, result, rfl⟩ := hout <;> exact ⟨rfl, rfl⟩
  | Work hstep => exact absurd hexited (work_runs hstep)
  | Written answer hworker | Read answer hworker =>
    rw [hexited] at hworker
    contradiction
  | _ => exact ⟨hexited, rfl, fun c => ⟨rfl, rfl⟩⟩

/-- A step before the worker is joined. -/
theorem joined_of_running (howner : s'.owner.joined = false) : Joined s' := by
  refine ⟨fun hjoined => ?_, fun hfound => ?_, fun hclosed => ?_⟩
  · rw [howner] at hjoined
    contradiction
  · rw [hfound] at howner
    contradiction
  · rw [hclosed] at howner
    contradiction

/-- A step of somebody else. -/
theorem Joined.frame (h : Joined s) (howner : s'.owner = s.owner)
    (hworker : s.driver.worker = .Exited →
      s'.driver.worker = .Exited ∧ s'.driver.failure = s.driver.failure)
    (hstate : s'.state = s.state ∨ s.owner ≠ .Closed) : Joined s' := by
  -- a worker that has gone records nothing
  have hfailure : s.owner.joined = true → s'.driver.failure = s.driver.failure :=
    fun hjoined => (hworker (h.exited hjoined)).2
  refine ⟨fun hjoined => (hworker (h.exited (howner ▸ hjoined))).1, fun hfound => ?_,
    fun hclosed => ?_⟩
  · rw [howner] at hfound
    rw [hfailure (by rw [hfound]; rfl)]
    exact h.found hfound
  · rw [howner] at hclosed
    rw [hfailure (by rw [hclosed]; rfl), hstate.resolve_right (not_not.mpr hclosed)]
    exact h.outcome hclosed

theorem joined_step (h : Joined s) (hcopies : Copies s) (hplaced : Placed s)
    (hmoved : EngineMoved s s' out) : Joined s' := by
  cases hmoved with
  | Driver hmoved =>
    refine h.frame rfl (fun hexited => ?_) (.inl rfl)
    obtain ⟨hexited, hfailure, -⟩ := exited_moved hmoved hexited
    exact ⟨hexited, hfailure⟩
  | Closed hworker =>
    refine h.frame rfl (fun hexited => ?_) (.inl rfl)
    rw [hexited] at hworker
    contradiction
  | Flip hwatcher =>
    -- after the shutdown the state is settled, and the task leaves it
    by_cases hclosed : s.owner = .Closed
    · refine h.frame rfl (fun hexited => ⟨hexited, rfl⟩) (.inl ?_)
      have houtcome := h.outcome hclosed
      have hset : s.state ≠ .Running := by
        rw [houtcome]
        cases s.driver.failure <;> simp
      simp only [V2EngineState.set, hset, if_false]
    · exact h.frame rfl (fun hexited => ⟨hexited, rfl⟩) (.inr hclosed)
  | Reader hmem hstep =>
    refine h.frame rfl (fun hexited => ⟨hexited, rfl⟩) (.inr ?_)
    rw [hplaced.idle _ hmem]
    simp
  | Publish | Wake | Look | CancelWatcher | Read | CancelRead =>
    exact h.frame rfl (fun hexited => ⟨hexited, rfl⟩) (.inl rfl)
  | Join howner hworker => exact ⟨fun _ => hworker, by simp, by simp⟩
  | ReadFailure howner =>
    refine ⟨fun _ => h.exited (by rw [howner]; rfl), fun hfound => ?_, by simp⟩
    exact (EnginePoint.Store.inj hfound).symm
  | Store howner =>
    refine ⟨fun _ => h.exited (by rw [howner]; rfl), by simp, fun _ => ?_⟩
    rw [h.found howner]
    have hopen : s.state ≠ .Closed := fun hclosed => by
      rw [hplaced.closed hclosed] at howner
      contradiction
    -- somebody may have flipped it before
    cases hstate : s.state with
    | Running => rfl
    | Terminal failure =>
      have hknown := hcopies.state
      rw [hstate] at hknown
      have hfailure : s.driver.failure = some failure := hknown failure rfl
      simp only [hfailure, V2EngineState.set, Option.elim_some, reduceCtorEq, if_false]
    | Closed => exact absurd hstate hopen
  | SetFailure howner =>
    refine joined_of_running ?_
    dsimp only
    split <;> rfl
  | Signal howner =>
    refine joined_of_running ?_
    rcases howner with ⟨-, rfl⟩ | ⟨-, rfl⟩ <;> rfl
  | _ => exact joined_of_running rfl

end Halting

/-! ## Runs -/

/-- What every state of a run satisfies. -/
structure EngineSound (s : V2Engine) (trace : List EngineTrace) : Prop where
  copies : Copies s
  signalled : Signalled s
  placed : Placed s
  prompt : Prompt s
  joined : Joined s
  returns : Returns s.driver (driven trace)
  halting : Halting s (driven trace)
  told : ∀ seen ∈ trace, seen.Told
  agree : ∀ seen ∈ trace, Known seen.report s.driver.failure ∧ Known seen.started s.driver.failure

section Runs

variable {s s' t : V2Engine} {out trace new : List EngineTrace} {config : DriverConfig}
  {labels more : List EngineLabel}

theorem engine_sound_spawn (config : DriverConfig) : EngineSound (V2Engine.spawn config) [] where
  copies := ⟨known_none, known_none, known_none, by simp [V2Engine.spawn], by
    simp [V2Engine.spawn, Driver.spawn]⟩
  signalled := ⟨by simp [V2Engine.spawn, Driver.spawn], by simp [V2Engine.spawn], by
    simp [V2Engine.spawn]⟩
  placed := ⟨by simp [V2Engine.spawn], by simp [V2Engine.spawn], by simp [V2Engine.spawn], by
    simp [V2Engine.spawn]⟩
  prompt := by simp [Prompt, V2Engine.spawn]
  joined := joined_of_running rfl
  returns := (spawn_sound config).returns
  halting := .inl ⟨(spawn_sound config).fate, by simp [V2Engine.spawn, Driver.spawn]⟩
  told := by simp
  agree := by simp

theorem EngineSound.step (h : EngineSound s trace) (hmoved : EngineMoved s s' out) :
    EngineSound s' (trace ++ out) := by
  have hreturns := returns_moved h.returns hmoved
  obtain ⟨hcopies, hagree⟩ := copies_step h.copies hmoved
  have hdriven : ∀ seen ∈ driven out, seen.Told := fun seen hmem =>
    hreturns.told seen (List.mem_append_right _ hmem)
  obtain ⟨hprompt, htold⟩ := prompt_step h.prompt h.copies h.signalled h.placed hmoved hdriven
  refine ⟨hcopies, signalled_step h.signalled hmoved, placed_step h.placed h.signalled hmoved,
    hprompt, joined_step h.joined h.copies h.placed hmoved, ?_, ?_, ?_, ?_⟩
  · rw [driven_append]
    exact hreturns
  · rw [driven_append]
    exact halting_step h.halting hmoved
  · exact List.forall_mem_append.mpr ⟨h.told, htold⟩
  · have hkept := engine_failure hmoved
    exact List.forall_mem_append.mpr ⟨fun seen hmem =>
      (h.agree seen hmem).imp (·.trans hkept) (·.trans hkept), hagree⟩

theorem EngineSound.run (h : EngineSound s trace)
    (hrun : exec V2Engine.step s more = some (t, new)) : EngineSound t (trace ++ new) :=
  exec_along_induct (P := EngineSound) (C := fun _ _ => True)
    (fun _ _ _ _ _ h _ hstep => h.step (engine_moved hstep)) h (along_true _ _) hrun

theorem engine_sound (hrun : exec V2Engine.step (V2Engine.spawn config) labels = some (s, trace)) :
    EngineSound s trace := by
  have h := (engine_sound_spawn config).run hrun
  rwa [List.nil_append] at h

end Runs

end StreamGuard.Tun
