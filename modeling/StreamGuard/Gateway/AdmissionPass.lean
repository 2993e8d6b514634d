/-
One admission after its ticket is consumed: the second half of
`V2AdmissionListener::accept_one_at`, `streamguard-gateway/src/v2/listener.rs`.

The pass suspends at every call on the pool and at the write of `SessionAdmit`, so
it is a state machine: `AdmissionPhase` is the await it is at, with the local
variables that are used afterwards, and `admission_step` is what it does with the
answer. Nothing here says who else runs between two steps; the modules that use the
pass do.
-/
import StreamGuard.Gateway.Admission

set_option autoImplicit false

namespace StreamGuard.Gateway

open StreamGuard StreamGuard.Lib StreamGuard.Session

/-! ## Phases -/

/-- What a pass knows before its first await. -/
structure AdmissionContext where
  template : SessionAdmitTemplate
  transaction_id : U64
  now : AdmissionTime

/-- `pool_now`. -/
def AdmissionContext.pool_now (ctx : AdmissionContext) : PoolTime :=
  .from_monotonic_and_wall_seconds ctx.now.monotonic_millis ctx.now.unix_seconds

/-- The await a pass is at. -/
inductive AdmissionPhase where
  | reserving (admitted : AdmissionAccepted)
  /-- The release after a failed `commit_and_bind`. -/
  | unbinding (admitted : AdmissionAccepted)
  | committing (admitted : AdmissionAccepted) (connection : AuthenticatedConnection)
  | writing (admitted : AdmissionAccepted) (connection : AuthenticatedConnection)
      (response : U64 × SessionAdmit)
  /-- The release after a failure behind `commit_and_bind`. -/
  | unwinding (admitted : AdmissionAccepted) (connection : AuthenticatedConnection)
      (error : V2AdmissionListenerError)

/-- The pool call a phase waits for; a write waits for the client. -/
def AdmissionPhase.pool_call (now : PoolTime) : AdmissionPhase → Option PoolCall
  | .reserving admitted =>
    some (.reserve admitted.owner.session_id admitted.owner.device_id now)
  | .committing admitted _ => some (.commit admitted.owner.session_id now)
  | .unbinding admitted | .unwinding admitted _ _ => some (.release admitted.owner.session_id)
  | .writing .. => none

/-- The answer to what a phase waits for. The result of a release is not looked at. -/
inductive AdmissionReply where
  | reserved (result : Except AddressPoolError AssignedAddresses)
  | committed (result : Except AddressPoolError AssignedAddresses)
  | released
  | written (ok : Bool)

/-- What a pass does next. -/
inductive AdmissionNext where
  | await (phase : AdmissionPhase)
  | failed (error : V2AdmissionListenerError)
  /-- The pass returns its `V2AdmittedConnection`. -/
  | delivered (admitted : AdmissionAccepted) (connection : AuthenticatedConnection)

/-- The state a step leaves, the sessions it removed, and what follows. -/
structure AdmissionTurn where
  manager : V2SessionManager
  removals : List SessionRemoval
  next : AdmissionNext

/-! ## Steps -/

/-- The lease is reserved: the session is committed and the connection bound. -/
def bind_turn (ctx : AdmissionContext) (m : V2SessionManager) (admitted : AdmissionAccepted) :
    AdmissionTurn :=
  match commit_and_bind m admitted ctx.now with
  | (m, .error _, removals) => ⟨m, removals, .await (.unbinding admitted)⟩
  | (m, .ok connection, removals) => ⟨m, removals, .await (.committing admitted connection)⟩

/-- The lease is committed: the answer to the client is made and sent. -/
def frame_turn (ctx : AdmissionContext) (m : V2SessionManager) (admitted : AdmissionAccepted)
    (connection : AuthenticatedConnection) (lease : AssignedAddresses) : AdmissionTurn :=
  match ctx.template.frame ctx.transaction_id admitted lease with
  | .error error => ⟨m, [], .await (.unwinding admitted connection error)⟩
  | .ok response => ⟨m, [], .await (.writing admitted connection response)⟩

/-- The last step of an unwinding: the session is closed. -/
def unwound_turn (m : V2SessionManager) (connection : AuthenticatedConnection)
    (error : V2AdmissionListenerError) : AdmissionTurn :=
  let r := m.close_session connection
  ⟨r.manager, r.removals, .failed error⟩

/-- The step of a pass that gets its answer; `none` for an answer to something else. -/
def admission_step (ctx : AdmissionContext) (m : V2SessionManager) :
    AdmissionPhase → AdmissionReply → Option AdmissionTurn
  | .reserving admitted, .reserved (.error _) =>
    some ⟨abort m admitted, [], .failed .AddressPool⟩
  | .reserving admitted, .reserved (.ok _) => some (bind_turn ctx m admitted)
  | .unbinding admitted, .released => some ⟨abort m admitted, [], .failed .AdmissionRejected⟩
  | .committing admitted connection, .committed (.error _) =>
    some ⟨m, [], .await (.unwinding admitted connection .AddressPool)⟩
  | .committing admitted connection, .committed (.ok lease) =>
    some (frame_turn ctx m admitted connection lease)
  | .writing admitted connection _, .written true => some ⟨m, [], .delivered admitted connection⟩
  | .writing admitted connection _, .written false =>
    some ⟨m, [], .await (.unwinding admitted connection .ResponseWrite)⟩
  | .unwinding _ connection error, .released => some (unwound_turn m connection error)
  | _, _ => none

/-! ## Past the binding -/

/-- The connection a pass has bound. -/
def AdmissionPhase.bound : AdmissionPhase → Option AuthenticatedConnection
  | .reserving _ | .unbinding _ => none
  | .committing _ connection | .writing _ connection _ | .unwinding _ connection _ =>
    some connection

/-- Closing a session by one of its capabilities takes it out of the map. -/
theorem close_session_removes {m : V2SessionManager} {connection : AuthenticatedConnection}
    (h : m.authenticates connection = true) :
    (m.close_session connection).manager.sessions.lookup connection.session_id = none := by
  have hopen : ¬ (!m.authenticates connection) = true := by simp [h]
  rw [V2SessionManager.close_session, if_neg hopen, V2SessionManager.removes,
    V2SessionManager.remove_session]
  cases hsession : m.sessions.lookup connection.session_id with
  | none => exact hsession
  | some held => exact AList.lookup_erase _ _

/-- Past the binding a pass keeps its connection and the session manager, until it
fails and closes the session. -/
theorem bound_step {ctx : AdmissionContext} {m : V2SessionManager} {phase : AdmissionPhase}
    {reply : AdmissionReply} {turn : AdmissionTurn} {connection : AuthenticatedConnection}
    (h : admission_step ctx m phase reply = some turn) (hbound : phase.bound = some connection)
    (hm : m.authenticates connection = true) :
    (∃ next, turn.next = .await next ∧ next.bound = some connection ∧ turn.manager = m) ∨
      (∃ error, turn.next = .failed error ∧
        turn.manager.sessions.lookup connection.session_id = none) ∨
      ∃ admitted, turn.next = .delivered admitted connection := by
  cases phase with
  | reserving admitted => contradiction
  | unbinding admitted => contradiction
  | committing admitted bound =>
    obtain rfl := Option.some.inj hbound
    cases reply with
    | committed result =>
      left
      cases result with
      | error e =>
        obtain rfl := Option.some.inj h
        exact ⟨_, rfl, rfl, rfl⟩
      | ok lease =>
        obtain rfl := Option.some.inj h
        rw [frame_turn]
        split
        · exact ⟨_, rfl, rfl, rfl⟩
        · exact ⟨_, rfl, rfl, rfl⟩
    | _ => contradiction
  | writing admitted bound response =>
    obtain rfl := Option.some.inj hbound
    cases reply with
    | written ok =>
      cases ok with
      | true =>
        obtain rfl := Option.some.inj h
        exact .inr (.inr ⟨_, rfl⟩)
      | false =>
        obtain rfl := Option.some.inj h
        exact .inl ⟨_, rfl, rfl, rfl⟩
    | _ => contradiction
  | unwinding admitted bound error =>
    obtain rfl := Option.some.inj hbound
    cases reply with
    | released =>
      obtain rfl := Option.some.inj h
      exact .inr (.inl ⟨_, rfl, close_session_removes hm⟩)
    | _ => contradiction

end StreamGuard.Gateway
