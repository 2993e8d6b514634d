/-
One admission on its own, with the persistence owner's worker.

The pass of `AdmissionPass.lean` is run to its end against the session manager and
the pool. `AdmissionEnv` is what the outside decides: how the owner treats each of
the pass's calls, and what becomes of the write. A call whose caller has gone is
served all the same, at the latest before the owner serves the next one.
-/
import StreamGuard.Gateway.AdmissionPass
import StreamGuard.Gateway.OwnerCalls
import StreamGuard.Gateway.SessionLedger

set_option autoImplicit false

namespace StreamGuard.Gateway

open StreamGuard StreamGuard.Lib StreamGuard.Session

/-! ## The outside -/

/-- How the owner treats one call; `ok` is the outcome of its store operations. -/
inductive OwnerAnswer where
  | replied (ok : Bool)
  /-- The caller gives up; the call is served before the pass goes on, or later. -/
  | timed_out (ok before : Bool)
  /-- The call is not queued. -/
  | refused (error : PersistenceError)
  /-- The pass is dropped while it waits; the call is served all the same. -/
  | dropped (ok : Bool)

/-- The outcome of the call's store operations, if it is queued. -/
def OwnerAnswer.served : OwnerAnswer → Option Bool
  | .replied ok | .timed_out ok _ | .dropped ok => some ok
  | .refused _ => none

inductive WriteAnswer where
  | written
  | failed
  | dropped

/-- The answers to the three calls and the write that a pass can make. -/
structure AdmissionEnv where
  reserve : OwnerAnswer
  commit : OwnerAnswer
  release : OwnerAnswer
  write : WriteAnswer

def AdmissionEnv.answer (env : AdmissionEnv) : AdmissionPhase → OwnerAnswer
  | .reserving _ => env.reserve
  | .committing _ _ => env.commit
  | .unbinding _ | .unwinding _ _ _ | .writing _ _ _ => env.release

/-! ## The two stores -/

/-- The session manager, the pool, and the queued calls nobody waits for. -/
structure Stores where
  manager : V2SessionManager
  pool : PoolSystem
  late : List (PoolCall × Bool)

/-- `release_address`, the cleanup hook of the pool. -/
def PoolSystem.defer (s : PoolSystem) (session_id : SessionId) : PoolSystem :=
  { s with pool := { s.pool with
      inner := (AddressPool.release_deferred s.pool.config s.pool.inner session_id).1 } }

namespace Stores

/-- The worker serves what is queued. -/
def drain (s : Stores) : Stores :=
  { s with
    pool := s.late.foldl (fun pool call => (pool.serve call.1 call.2).1) s.pool
    late := [] }

/-- The cleanup hooks of removed sessions run. -/
def cleanup (s : Stores) (removals : List SessionRemoval) : Stores :=
  { s with pool := removals.foldl (fun pool removal => pool.defer removal.session_id) s.pool }

/-- A call through the owner queue: its events, an owner error, or nothing for a
caller that was dropped. -/
def ask (s : Stores) (call : PoolCall) :
    OwnerAnswer → Stores × Option (Except PersistenceError (List PoolEvent))
  | .replied ok =>
    let r := s.drain.pool.serve call ok
    ({ s.drain with pool := r.1 }, some (.ok r.2))
  | .timed_out ok true =>
    ({ s.drain with pool := (s.drain.pool.serve call ok).1 }, some (.error .Timeout))
  | .timed_out ok false => ({ s with late := s.late ++ [(call, ok)] }, some (.error .Timeout))
  | .refused error => (s, some (.error error))
  | .dropped ok => ({ s with late := s.late ++ [(call, ok)] }, none)

end Stores

/-! ## Running the pass -/

/-- What a phase makes of the answer to its pool call. -/
def AdmissionPhase.reply :
    AdmissionPhase → Except PersistenceError (List PoolEvent) → Option AdmissionReply
  | .reserving _, .error error => some (.reserved (.error error.to_pool))
  | .reserving _, .ok events =>
    events.findSome? fun
      | .reserved _ result => some (.reserved result)
      | _ => none
  | .committing _ _, .error error => some (.committed (.error error.to_pool))
  | .committing _ _, .ok events =>
    events.findSome? fun
      | .committed _ result => some (.committed result)
      | _ => none
  | .unbinding _, _ | .unwinding _ _ _, _ => some .released
  | .writing _ _ _, _ => none

inductive AdmissionOutcome where
  | dropped
  | failed (error : V2AdmissionListenerError)
  | delivered (admitted : AdmissionAccepted) (connection : AuthenticatedConnection)
  deriving DecidableEq

namespace Stores

variable (ctx : AdmissionContext) (env : AdmissionEnv)

/-- What a phase waits for, and the answer unless the pass is dropped. -/
def wait (s : Stores) (phase : AdmissionPhase) : Stores × Option AdmissionReply :=
  match phase.pool_call ctx.pool_now with
  | some call =>
    let r := s.ask call (env.answer phase)
    (r.1, r.2.bind phase.reply)
  | none =>
    match env.write with
    | .written => (s, some (.written true))
    | .failed => (s, some (.written false))
    | .dropped => (s, none)

/-- The pass from a phase on, for at most the given number of steps. -/
def run : ℕ → Stores → AdmissionPhase → Stores × AdmissionOutcome
  | 0, s, _ => (s, .dropped)
  | steps + 1, s, phase =>
    match s.wait ctx env phase with
    | (s, none) => (s, .dropped)
    | (s, some reply) =>
      match admission_step ctx s.manager phase reply with
      | none => (s, .dropped)
      | some turn =>
        let s := { s with manager := turn.manager }.cleanup turn.removals
        match turn.next with
        | .await phase => run steps s phase
        | .failed error => (s, .failed error)
        | .delivered admitted connection => (s, .delivered admitted connection)

/-- No pass has more phases than this. -/
def MAX_PHASES : ℕ := 4

/-- An admission from its verified ticket on, and the worker until its queue is idle. -/
def accept_one (s : Stores) (ticket : VerifiedAdmissionTicket) : Stores × AdmissionOutcome :=
  match admit_finish s.manager ticket ctx.now with
  | (m, .error _, removals) =>
    (({ s with manager := m }.cleanup removals).drain, .failed .AdmissionRejected)
  | (m, .ok admitted, removals) =>
    let r := run ctx env MAX_PHASES ({ s with manager := m }.cleanup removals) (.reserving admitted)
    (r.1.drain, r.2)

variable {ctx : AdmissionContext} {env : AdmissionEnv} {s : Stores}

/-! ## What waiting leaves alone -/

@[simp] theorem drain_manager : s.drain.manager = s.manager := rfl

@[simp] theorem cleanup_manager (removals : List SessionRemoval) :
    (s.cleanup removals).manager = s.manager := rfl

@[simp] theorem cleanup_nil : s.cleanup [] = s := rfl

theorem drain_idle (h : s.late = []) : s.drain = s := by
  obtain ⟨manager, pool, late⟩ := s
  subst h
  rfl

@[simp] theorem ask_manager (call : PoolCall) (answer : OwnerAnswer) :
    (s.ask call answer).1.manager = s.manager := by
  cases answer with
  | timed_out ok before => cases before <;> rfl
  | _ => rfl

/-- Once the owner is idle again a call has been served, unless it was not queued. -/
theorem ask_settled (hidle : s.late = []) (call : PoolCall)
    (answer : OwnerAnswer) : (s.ask call answer).1.drain =
      { s with pool := answer.served.elim s.pool (fun ok => (s.pool.serve call ok).1) } := by
  obtain ⟨manager, pool, late⟩ := s
  subst hidle
  cases answer with
  | timed_out ok before => cases before <;> rfl
  | _ => rfl

/-- Pool calls and writes do not touch the session manager. -/
@[simp] theorem wait_manager (phase : AdmissionPhase) :
    (s.wait ctx env phase).1.manager = s.manager := by
  rw [wait]
  split
  · exact ask_manager _ _
  · split <;> rfl

/-! ## Every session stays in one place -/

/-- The pool is coherent, and what is queued are calls of passes. -/
structure Sound (s : Stores) : Prop where
  coherent : s.pool.Coherent
  late : ∀ call ∈ s.late, call.1.Single

/-- The worker serves the queue one call after another. -/
theorem Sound.drain (h : s.Sound) : s.drain.pool.Coherent := by
  obtain ⟨manager, pool, late⟩ := s
  obtain ⟨hcoherent, hlate⟩ := h
  change (late.foldl (fun pool call => (pool.serve call.1 call.2).1) pool).Coherent
  dsimp only at hcoherent hlate
  induction late generalizing pool with
  | nil => exact hcoherent
  | cons call late ih =>
    obtain ⟨hcall, hlate⟩ := List.forall_mem_cons.mp hlate
    exact ih (pool.serve call.1 call.2).1 (hcoherent.serve hcall call.2) hlate

/-- The session manager is no part of it. -/
theorem Sound.with_manager (h : s.Sound) (manager : V2SessionManager) :
    Sound { s with manager } := ⟨h.coherent, h.late⟩

/-- Cleanup hooks are steps of the pool. -/
theorem Sound.cleanup (h : s.Sound) (removals : List SessionRemoval) :
    (s.cleanup removals).Sound := by
  obtain ⟨manager, pool, late⟩ := s
  obtain ⟨hcoherent, hlate⟩ := h
  refine ⟨?_, hlate⟩
  change (removals.foldl (fun pool removal => pool.defer removal.session_id) pool).Coherent
  dsimp only at hcoherent
  induction removals generalizing pool with
  | nil => exact hcoherent
  | cons removal removals ih =>
    have hstep : pool.step (.release_deferred removal.session_id) =
        some (pool.defer removal.session_id, _) := rfl
    exact ih (pool.defer removal.session_id) (PoolSystem.step_refines hcoherent hstep).1 hlate

theorem Sound.ask (h : s.Sound) {call : PoolCall} (hcall : call.Single) (answer : OwnerAnswer) :
    (s.ask call answer).1.Sound := by
  have hserved : ∀ ok, (s.drain.pool.serve call ok).1.Coherent := fun ok => h.drain.serve hcall ok
  have hqueued : ∀ ok, ∀ queued ∈ s.late ++ [(call, ok)], queued.1.Single := by
    intro ok queued hmem
    rcases List.mem_append.mp hmem with hmem | hmem
    · exact h.late queued hmem
    · obtain rfl := List.mem_singleton.mp hmem
      exact hcall
  cases answer with
  | replied ok => exact ⟨hserved ok, fun _ hmem => by contradiction⟩
  | timed_out ok before =>
    cases before with
    | true => exact ⟨hserved ok, fun _ hmem => by contradiction⟩
    | false => exact ⟨h.coherent, hqueued ok⟩
  | refused error => exact h
  | dropped ok => exact ⟨h.coherent, hqueued ok⟩

theorem Sound.wait (h : s.Sound) (ctx : AdmissionContext) (env : AdmissionEnv)
    (phase : AdmissionPhase) : (s.wait ctx env phase).1.Sound := by
  rw [Stores.wait]
  split
  · next call hcall =>
    refine h.ask ?_ _
    cases phase with
    | writing admitted connection response => contradiction
    | _ =>
      obtain rfl := Option.some.inj hcall
      trivial
  · split <;> exact h

theorem Sound.run (h : s.Sound) (ctx : AdmissionContext) (env : AdmissionEnv) (steps : ℕ)
    (phase : AdmissionPhase) : (s.run ctx env steps phase).1.Sound := by
  induction steps generalizing s phase with
  | zero => exact h
  | succ steps ih =>
    have hwait := h.wait ctx env phase
    rw [Stores.run]
    generalize s.wait ctx env phase = waited at hwait
    obtain ⟨s', answer⟩ := waited
    dsimp only at hwait ⊢
    cases answer with
    | none => exact hwait
    | some reply =>
      dsimp only
      cases admission_step ctx s'.manager phase reply with
      | none => exact hwait
      | some turn =>
        dsimp only
        have hturn : ({ s' with manager := turn.manager }.cleanup turn.removals).Sound :=
          (hwait.with_manager turn.manager).cleanup turn.removals
        cases turn.next with
        | await next => exact ih hturn next
        | failed error => exact hturn
        | delivered admitted connection => exact hturn

/-- **After any admission every session is in one place and nothing is queued.** -/
theorem Sound.accept_one (h : s.Sound) (ctx : AdmissionContext) (env : AdmissionEnv)
    (ticket : VerifiedAdmissionTicket) :
    (s.accept_one ctx env ticket).1.Sound ∧ (s.accept_one ctx env ticket).1.late = [] := by
  have hidle : ∀ {s' : Stores}, s'.Sound → s'.drain.Sound ∧ s'.drain.late = [] := fun h =>
    ⟨⟨h.drain, fun _ hmem => by contradiction⟩, rfl⟩
  rw [Stores.accept_one]
  split
  · next m error removals hgranted =>
    exact hidle ((h.with_manager m).cleanup removals)
  · next m admitted removals hgranted =>
    exact hidle (((h.with_manager m).cleanup removals).run ctx env MAX_PHASES (.reserving admitted))

/-! ## Past the binding -/

/-- **A pass past the binding keeps the session manager until it ends**, and closes
the session if it fails, whatever step it fails at and whoever else uses the session. -/
theorem run_bound {steps : ℕ} {phase : AdmissionPhase} {connection : AuthenticatedConnection}
    (hbound : phase.bound = some connection) (hm : s.manager.authenticates connection = true) :
    ((s.run ctx env steps phase).2 = .dropped ∧
        (s.run ctx env steps phase).1.manager = s.manager) ∨
      (∃ error, (s.run ctx env steps phase).2 = .failed error ∧
        (s.run ctx env steps phase).1.manager.sessions.lookup connection.session_id = none) ∨
      ∃ admitted, (s.run ctx env steps phase).2 = .delivered admitted connection := by
  induction steps generalizing s phase with
  | zero => exact .inl ⟨rfl, rfl⟩
  | succ steps ih =>
    rw [Stores.run]
    have hmanager : (s.wait ctx env phase).1.manager = s.manager := wait_manager phase
    generalize s.wait ctx env phase = waited at hmanager
    obtain ⟨s', answer⟩ := waited
    dsimp only at hmanager ⊢
    cases answer with
    | none => exact .inl ⟨rfl, hmanager⟩
    | some reply =>
      dsimp only
      cases hstep : admission_step ctx s'.manager phase reply with
      | none => exact .inl ⟨rfl, hmanager⟩
      | some turn =>
        dsimp only
        rw [← hmanager] at hm
        rcases bound_step hstep hbound hm with ⟨next, hnext, hkept, hsame⟩ | ⟨e, hnext, hclosed⟩ |
          ⟨admitted, hnext⟩
        · rw [hnext]
          have hturn : ({ s' with manager := turn.manager }.cleanup turn.removals).manager =
              s'.manager := hsame
          rw [← hturn] at hm
          have hrun := ih hkept hm
          rw [hturn, hmanager] at hrun
          exact hrun
        · rw [hnext]
          exact .inr (.inl ⟨e, rfl, hclosed⟩)
        · rw [hnext]
          exact .inr (.inr ⟨admitted, rfl⟩)

theorem run_failed_closes {steps : ℕ} {phase : AdmissionPhase}
    {connection : AuthenticatedConnection} {error : V2AdmissionListenerError}
    (hbound : phase.bound = some connection) (hm : s.manager.authenticates connection = true)
    (hfailed : (s.run ctx env steps phase).2 = .failed error) :
    (s.run ctx env steps phase).1.manager.sessions.lookup connection.session_id = none := by
  rcases run_bound hbound hm with ⟨hdropped, -⟩ | ⟨e, -, hclosed⟩ | ⟨admitted, hdelivered⟩
  · rw [hdropped] at hfailed
    contradiction
  · exact hclosed
  · rw [hdelivered] at hfailed
    contradiction

theorem run_dropped_keeps {steps : ℕ} {phase : AdmissionPhase}
    {connection : AuthenticatedConnection} (hbound : phase.bound = some connection)
    (hm : s.manager.authenticates connection = true)
    (hdropped : (s.run ctx env steps phase).2 = .dropped) :
    (s.run ctx env steps phase).1.manager = s.manager := by
  rcases run_bound hbound hm with ⟨-, hkept⟩ | ⟨e, hfailed, -⟩ | ⟨admitted, hdelivered⟩
  · exact hkept
  · rw [hfailed] at hdropped
    contradiction
  · rw [hdelivered] at hdropped
    contradiction

/-! ## A gateway that has just started -/

namespace Sample

def config : V2SessionManagerConfig := ⟨4, 120000, 2, 4, 5000, 4, 4, 5000⟩

/-- No session, and a durable pool over an empty store. -/
def fresh : Stores := ⟨⟨config, ∅, ∅, ∅, ∅, ∅, 1⟩, .start PoolSystem.Sample.recovered, []⟩

theorem fresh_sound : fresh.Sound :=
  ⟨PoolSystem.start_coherent fun _ => ⟨.free, rfl, rfl⟩, fun _ hmem => by contradiction⟩

/-- Wall second 1000 is monotonic time 5000. -/
def context : AdmissionContext := ⟨⟨[1]⟩, 1, ⟨1000, 5000⟩⟩

def ticket : VerifiedAdmissionTicket := ⟨⟨1⟩, ⟨2⟩, ⟨3⟩, ⟨4⟩, 1600, 1⟩

/-- Everything goes well. -/
def prompt : AdmissionEnv := ⟨.replied true, .replied true, .replied true, .written⟩

/-- The session of `ticket` is live through its first connection. -/
def live : Stores := (fresh.accept_one context prompt ticket).1

end Sample

end Stores

end StreamGuard.Gateway
