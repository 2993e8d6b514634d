/-
The accept loop: `V2GatewayRuntime::run`, `streamguard-gateway/src/v2/runtime.rs`, and
the whole of `V2AdmissionListener::accept_one_at`, `listener.rs`.

The loop polls the future of `accept_one_at` and its control tasks in one `select!`.
A branch that wins drops the others, so a control task that ends while a connection
is being admitted drops that admission. The machine here has one step for each thing
the `select!` can see, in any order; the future is the phase it waits at, with the
local variables it needs afterwards. What a dropped admission leaves in the two
stores is the subject of `AdmissionDrop.lean`; the replies of the owner queue are
events of the environment here, and counters are left out.
-/
import StreamGuard.Gateway.AdmissionPass
import StreamGuard.Lib.Run

set_option autoImplicit false

namespace StreamGuard.Gateway

open StreamGuard StreamGuard.Lib StreamGuard.Session

/-! ## The accept future -/

inductive HandshakeResult where
  /-- The peer's certificate names its device. -/
  | identified
  | failed
  | deadline
  | unidentified

inductive StreamResult where
  | opened
  | failed
  | deadline

/-- What is used of a `ClientHello`: its transaction, and what the verifier says of
its ticket. -/
structure Hello where
  transaction_id : U64
  ticket : Except TicketVerificationError VerifiedAdmissionTicket

/-- What a pass of `accept_one_at` waits for once a connection is there. -/
inductive AcceptEvent where
  | handshake (result : HandshakeResult)
  | control_stream (result : StreamResult)
  /-- The first control frame, if it is a valid `ClientHello`, and the time since the
  clock sample of the pass. -/
  | hello (result : Option Hello) (elapsed_millis : ℕ)
  /-- The sessions whose leases the pool has swept. -/
  | swept (expired : List SessionId)
  | consumed (result : Except ReplayCacheError Unit)
  | reply (reply : AdmissionReply)

/-- The await a pass is at. -/
inductive AcceptPhase where
  | handshaking (handshake_permit : AdmissionPermit)
  | opening
  | reading
  | sweeping (hello : Hello) (admission_now : AdmissionTime)
  | consuming (permit : AdmissionPermit) (ticket : VerifiedAdmissionTicket)
      (ctx : AdmissionContext)
  | admitting (ctx : AdmissionContext) (phase : AdmissionPhase)

/-- The permit that goes when the pass does. -/
def AcceptPhase.permit : AcceptPhase → Option AdmissionPermit
  | .handshaking permit | .consuming permit _ _ => some permit
  | _ => none

/-- A pass with a connection; `now` is the clock sample it was called with. -/
structure AcceptPass where
  source : IpAddr
  now : AdmissionTime
  phase : AcceptPhase

inductive AcceptNext where
  | await (phase : AcceptPhase)
  | failed (error : V2AdmissionListenerError)
  | delivered (admitted : AdmissionAccepted) (connection : AuthenticatedConnection)

/-- The state of the admission handler that a step of a pass leaves, and what follows. -/
structure AcceptTurn where
  manager : V2SessionManager
  limiter : HandshakeAdmissionLimiter
  next : AcceptNext

def AdmissionNext.to_accept (ctx : AdmissionContext) : AdmissionNext → AcceptNext
  | .await phase => .await (.admitting ctx phase)
  | .failed error => .failed error
  | .delivered admitted connection => .delivered admitted connection

/-- The leases are swept: their sessions are closed, and the ticket is looked at. -/
def swept_turn (template : SessionAdmitTemplate) (m : V2SessionManager)
    (l : HandshakeAdmissionLimiter) (source : IpAddr) (now admission_now : AdmissionTime)
    (hello : Hello) (expired : List SessionId) : AcceptTurn :=
  let m := expired.foldl (fun m session_id => (m.close session_id).manager) m
  match admit_begin l source hello.ticket now.monotonic_millis admission_now with
  | (l, .error _) => ⟨m, l, .failed .AdmissionRejected⟩
  | (l, .ok (permit, ticket)) =>
    ⟨m, l, .await (.consuming permit ticket ⟨template, hello.transaction_id, admission_now⟩)⟩

/-- The ticket is consumed, or not. -/
def consumed_turn (m : V2SessionManager) (l : HandshakeAdmissionLimiter) (permit : AdmissionPermit)
    (ticket : VerifiedAdmissionTicket) (ctx : AdmissionContext) :
    Except ReplayCacheError Unit → AcceptTurn
  | .error _ => ⟨m, l.drop_permit permit, .failed .AdmissionRejected⟩
  | .ok () =>
    match admit_finish m ticket ctx.now with
    | (m, .error _, _) => ⟨m, l.drop_permit permit, .failed .AdmissionRejected⟩
    | (m, .ok admitted, _) =>
      ⟨m, l.drop_permit permit, .await (.admitting ctx (.reserving admitted))⟩

/-- The step of a pass that gets what it waits for; `none` for anything else. -/
def accept_step (template : SessionAdmitTemplate) (order : Traversal SessionId ManagedSession)
    (m : V2SessionManager) (l : HandshakeAdmissionLimiter) (pass : AcceptPass) :
    AcceptEvent → Option AcceptTurn
  | .handshake result =>
    match pass.phase, result with
    | .handshaking permit, .identified => some ⟨m, l.drop_permit permit, .await .opening⟩
    | .handshaking permit, .failed => some ⟨m, l.drop_permit permit, .failed .Handshake⟩
    | .handshaking permit, .deadline => some ⟨m, l.drop_permit permit, .failed .HandshakeDeadline⟩
    | .handshaking permit, .unidentified => some ⟨m, l.drop_permit permit, .failed .PeerIdentity⟩
    | _, _ => none
  | .control_stream result =>
    match pass.phase, result with
    | .opening, .opened => some ⟨m, l, .await .reading⟩
    | .opening, .failed => some ⟨m, l, .failed .ControlStream⟩
    | .opening, .deadline => some ⟨m, l, .failed .ControlStreamDeadline⟩
    | _, _ => none
  | .hello result elapsed_millis =>
    match pass.phase, result with
    | .reading, none => some ⟨m, l, .failed .InvalidControl⟩
    | .reading, some hello =>
      let admission_now := advance_admission_time pass.now elapsed_millis
      some ⟨(m.sweep order admission_now.monotonic_millis).1, l,
        .await (.sweeping hello admission_now)⟩
    | _, _ => none
  | .swept expired =>
    match pass.phase with
    | .sweeping hello admission_now =>
      some (swept_turn template m l pass.source pass.now admission_now hello expired)
    | _ => none
  | .consumed result =>
    match pass.phase with
    | .consuming permit ticket ctx => some (consumed_turn m l permit ticket ctx result)
    | _ => none
  | .reply reply =>
    match pass.phase with
    | .admitting ctx phase =>
      (admission_step ctx m phase reply).map
        (fun turn => ⟨turn.manager, l, turn.next.to_accept ctx⟩)
    | _ => none

/-! ## The loop -/

/-- Where the loop is. -/
inductive LoopState where
  /-- Before the checks of an iteration. -/
  | top
  /-- As many control tasks as there may be: only these are polled. -/
  | full
  /-- In the `select!`, with the clock sample and the pass that has a connection. -/
  | accepting (now : AdmissionTime) (pass : Option AcceptPass)
  | stopped

structure V2GatewayRuntime where
  template : SessionAdmitTemplate
  /-- The order in which the sweep of the session manager meets the sessions. -/
  order : Traversal SessionId ManagedSession
  manager : V2SessionManager
  limiter : HandshakeAdmissionLimiter
  /-- The number of control tasks. -/
  tasks : ℕ
  maximum_connections : ℕ
  loop : LoopState

inductive RuntimeLabel where
  /-- The loop comes round, with a new clock sample. -/
  | iterate (now : AdmissionTime)
  /-- The endpoint has a connection. -/
  | incoming (source : IpAddr)
  /-- The connection that is being admitted gets on. -/
  | own (event : AcceptEvent)
  /-- A control task ends, and gives its capability back if it still has one. -/
  | completed (connection : Option AuthenticatedConnection)
  | shutdown

/-- What becomes of an incoming connection. -/
inductive RuntimeEvent where
  | spawned (admitted : AdmissionAccepted) (connection : AuthenticatedConnection)
  | refused_full
  | refused (error : V2AdmissionListenerError)
  /-- Its pass was dropped. -/
  | dropped
  deriving DecidableEq

namespace V2GatewayRuntime

/-- The end of a pass: the control task is spawned, or there are too many. -/
def finish (s : V2GatewayRuntime) (admitted : AdmissionAccepted)
    (connection : AuthenticatedConnection) : V2GatewayRuntime × List RuntimeEvent :=
  if s.maximum_connections ≤ s.tasks then
    ({ s with
      manager := ((s.manager.close_connection connection).manager.close
        admitted.owner.session_id).manager
      loop := .top }, [.refused_full])
  else ({ s with tasks := s.tasks + 1, loop := .top }, [.spawned admitted connection])

/-- A step of the pass, in the loop. -/
def take_turn (s : V2GatewayRuntime) (now : AdmissionTime) (pass : AcceptPass) (turn : AcceptTurn) :
    V2GatewayRuntime × List RuntimeEvent :=
  let s := { s with manager := turn.manager, limiter := turn.limiter }
  match turn.next with
  | .await phase => ({ s with loop := .accepting now (some { pass with phase := phase }) }, [])
  | .failed error => ({ s with loop := .top }, [.refused error])
  | .delivered admitted connection => s.finish admitted connection

/-- The `select!` drops the accept future, and what it holds goes with it. -/
def drop_pass (s : V2GatewayRuntime) (pass : Option AcceptPass) :
    V2GatewayRuntime × List RuntimeEvent :=
  match pass with
  | none => ({ s with loop := .top }, [])
  | some pass =>
    let limiter :=
      match pass.phase.permit with
      | some permit => s.limiter.drop_permit permit
      | none => s.limiter
    ({ s with limiter, loop := .top }, [.dropped])

/-- A control task is over. -/
def join (s : V2GatewayRuntime) (connection : Option AuthenticatedConnection) : V2GatewayRuntime :=
  { s with
    tasks := s.tasks - 1
    manager :=
      match connection with
      | some connection => (s.manager.close_connection connection).manager
      | none => s.manager }

def step (s : V2GatewayRuntime) : RuntimeLabel → Option (V2GatewayRuntime × List RuntimeEvent)
  | .iterate now =>
    match s.loop with
    | .top =>
      if s.maximum_connections ≤ s.tasks then some ({ s with loop := .full }, [])
      else some ({ s with loop := .accepting now none }, [])
    | _ => none
  | .incoming source =>
    match s.loop with
    | .accepting now none =>
      match s.limiter.acquire_handshake source now with
      | (limiter, .error _) => some ({ s with limiter, loop := .top }, [.refused .Limited])
      | (limiter, .ok permit) =>
        let pass : AcceptPass := ⟨source, now, .handshaking permit⟩
        some ({ s with limiter, loop := .accepting now (some pass) }, [])
    | _ => none
  | .own event =>
    match s.loop with
    | .accepting now (some pass) =>
      (accept_step s.template s.order s.manager s.limiter pass event).map (s.take_turn now pass)
    -- nobody waits for it any more
    | _ => some (s, [])
  | .completed connection =>
    if s.tasks = 0 then none
    else
      match s.loop with
      | .top => some (s.join connection, [])
      | .full => some ({ s.join connection with loop := .top }, [])
      | .accepting _ pass => some ((s.join connection).drop_pass pass)
      | .stopped => none
  | .shutdown =>
    match s.loop with
    | .accepting _ pass =>
      let r := s.drop_pass pass
      some ({ r.1 with loop := .stopped }, r.2)
    | .top | .full => some ({ s with loop := .stopped }, [])
    | .stopped => none

/-! ## One admission, seen from the loop -/

/-- A connection is being admitted, and there is room for its control task. -/
structure Admitting (s : V2GatewayRuntime) : Prop where
  pass : ∃ now pass, s.loop = .accepting now (some pass)
  room : s.tasks < s.maximum_connections

/-- No connection is being admitted. -/
def Quiet (s : V2GatewayRuntime) : Prop := ∀ now pass, s.loop ≠ .accepting now (some pass)

end V2GatewayRuntime

/-- Delivered and spawned, or refused with an error. -/
def RuntimeEvent.answers : RuntimeEvent → Bool
  | .spawned _ _ | .refused _ => true
  | .refused_full | .dropped => false

/-- The labels between the start and the end of an admission: its own events,
control tasks that end, and the loop coming round. -/
def RuntimeLabel.ordinary : RuntimeLabel → Bool
  | .iterate _ | .own _ | .completed _ => true
  | .incoming _ | .shutdown => false

def RuntimeLabel.event : RuntimeLabel → Option AcceptEvent
  | .own event => some event
  | _ => none

/-- The events of the connection, with control tasks ending anywhere in between. -/
structure Interleaves (own : List AcceptEvent) (labels : List RuntimeLabel) : Prop where
  own : labels.filterMap RuntimeLabel.event = own
  ordinary : ∀ label ∈ labels, label.ordinary = true

/-- Nothing ends before the last event of the connection. -/
def completions_last (labels : List RuntimeLabel) : Bool :=
  (labels.dropWhile (fun label => label.event.isSome)).all (fun label => label.event.isNone)

namespace V2GatewayRuntime

/-- How an admission ends when its events come one after another and nothing else
happens. -/
def undisturbed : V2GatewayRuntime → List AcceptEvent → Option RuntimeEvent
  | _, [] => none
  | s, event :: rest =>
    match s.step (.own event) with
    | some (s', []) => undisturbed s' rest
    | some (_, [outcome]) => if rest = [] then some outcome else none
    | _ => none

variable {s s' : V2GatewayRuntime} {label : RuntimeLabel} {events : List RuntimeEvent}

/-- A step of the pass: it goes on, or it ends and the loop comes round. -/
theorem Admitting.own (h : s.Admitting) {event : AcceptEvent}
    (hs : s.step (.own event) = some (s', events)) :
    (events = [] ∧ s'.Admitting) ∨
      ∃ outcome, events = [outcome] ∧ outcome.answers = true ∧ s'.loop = .top := by
  obtain ⟨⟨now, pass, hloop⟩, hroom⟩ := h
  rw [step, hloop] at hs
  obtain ⟨turn, -, hturn⟩ := Option.map_eq_some_iff.mp hs
  rw [take_turn] at hturn
  cases hnext : turn.next with
  | await phase =>
    rw [hnext] at hturn
    obtain ⟨rfl, rfl⟩ := Prod.mk.inj hturn
    exact .inl ⟨rfl, ⟨now, _, rfl⟩, hroom⟩
  | failed error =>
    rw [hnext] at hturn
    obtain ⟨rfl, rfl⟩ := Prod.mk.inj hturn
    exact .inr ⟨_, rfl, rfl, rfl⟩
  | delivered admitted connection =>
    rw [hnext] at hturn
    dsimp only at hturn
    rw [finish, if_neg (Nat.not_le.mpr hroom)] at hturn
    obtain ⟨rfl, rfl⟩ := Prod.mk.inj hturn
    exact .inr ⟨_, rfl, rfl, rfl⟩

/-- A control task that ends drops the admission. -/
theorem Admitting.completed (h : s.Admitting) {connection : Option AuthenticatedConnection}
    (hs : s.step (.completed connection) = some (s', events)) :
    events = [.dropped] ∧ s'.loop = .top := by
  obtain ⟨⟨now, pass, hloop⟩, hroom⟩ := h
  rw [step, hloop] at hs
  split at hs
  · contradiction
  · obtain ⟨rfl, rfl⟩ := step_inj hs
    exact ⟨rfl, rfl⟩

theorem Quiet.of_top (h : s.loop = .top) : s.Quiet := by
  intro now pass hloop
  rw [h] at hloop
  contradiction

/-- While no connection is being admitted, nothing ordinary tells of one. -/
theorem Quiet.stays (h : s.Quiet) (hlabel : label.ordinary = true)
    (hs : s.step label = some (s', events)) : events = [] ∧ s'.Quiet := by
  cases label with
  | incoming source => contradiction
  | shutdown => contradiction
  | iterate now =>
    rw [V2GatewayRuntime.step] at hs
    split at hs
    · split at hs
      · obtain ⟨rfl, rfl⟩ := step_inj hs
        exact ⟨rfl, fun _ _ hloop => by cases hloop⟩
      · obtain ⟨rfl, rfl⟩ := step_inj hs
        exact ⟨rfl, fun _ _ hloop => by cases hloop⟩
    · contradiction
  | own event =>
    rw [V2GatewayRuntime.step] at hs
    split at hs
    · next now pass hloop => exact absurd hloop (h now pass)
    · obtain ⟨rfl, rfl⟩ := step_inj hs
      exact ⟨rfl, h⟩
  | completed connection =>
    rw [V2GatewayRuntime.step] at hs
    split at hs
    · contradiction
    split at hs
    · next hloop =>
      obtain ⟨rfl, rfl⟩ := step_inj hs
      exact ⟨rfl, .of_top hloop⟩
    · obtain ⟨rfl, rfl⟩ := step_inj hs
      exact ⟨rfl, .of_top rfl⟩
    · next now pass hloop =>
      cases pass with
      | none =>
        obtain ⟨rfl, rfl⟩ := step_inj hs
        exact ⟨rfl, .of_top rfl⟩
      | some pass => exact absurd hloop (h now pass)
    · contradiction

theorem Quiet.run (h : s.Quiet) {labels : List RuntimeLabel}
    (hlabels : ∀ label ∈ labels, label.ordinary = true)
    (hrun : exec step s labels = some (s', events)) : events = [] := by
  induction labels generalizing s events with
  | nil => exact (step_inj hrun).2.symm
  | cons label labels ih =>
    obtain ⟨hlabel, hlabels⟩ := List.forall_mem_cons.mp hlabels
    obtain ⟨s₁, first, rest, hs, hafter, rfl⟩ := exec_cons_eq_some.mp hrun
    obtain ⟨rfl, hquiet⟩ := h.stays hlabel hs
    rw [ih hquiet hlabels hafter]
    rfl

/-- Undisturbed, a connection gets an answer. -/
theorem undisturbed_answers (h : s.Admitting) {own : List AcceptEvent} {outcome : RuntimeEvent}
    (hown : s.undisturbed own = some outcome) : outcome.answers = true := by
  induction own generalizing s with
  | nil => contradiction
  | cons event rest ih =>
    rw [undisturbed] at hown
    cases hs : s.step (.own event) with
    | none =>
      rw [hs] at hown
      contradiction
    | some r =>
      obtain ⟨s', events⟩ := r
      rw [hs] at hown
      rcases h.own hs with ⟨rfl, hnext⟩ | ⟨answer, rfl, hanswer, -⟩
      · exact ih hnext hown
      · dsimp only at hown
        split at hown
        · obtain rfl := Option.some.inj hown
          exact hanswer
        · contradiction

/-! ## Interleavings -/

/-- With none of the connection's events left, everything comes after the last one. -/
theorem completions_last_of_no_event {labels : List RuntimeLabel}
    (h : labels.filterMap RuntimeLabel.event = []) : completions_last labels = true := by
  have hnone := List.filterMap_eq_nil_iff.mp h
  refine List.all_eq_true.mpr fun label hmem => ?_
  rw [hnone label (List.dropWhile_sublist _ |>.subset hmem)]
  rfl

/-- A control task that ends before an event of the connection does not end last. -/
theorem completions_last_cons {label : RuntimeLabel} {labels : List RuntimeLabel}
    (hlabel : label.event = none) (h : labels.filterMap RuntimeLabel.event ≠ []) :
    completions_last (label :: labels) = false := by
  rw [completions_last, List.dropWhile_cons_of_neg (by simp [hlabel]), List.all_cons]
  refine Bool.and_eq_false_iff.mpr (.inr (List.all_eq_false.mpr ?_))
  obtain ⟨event, hevent⟩ := List.exists_mem_of_ne_nil _ h
  obtain ⟨own, hmem, hown⟩ := List.mem_filterMap.mp hevent
  exact ⟨own, hmem, by simp [hown]⟩

/-- **One run of an admission.** It ends as it would undisturbed if no control task
ends before its last event, and is dropped otherwise. -/
theorem Admitting.run (h : s.Admitting) {own : List AcceptEvent} {labels : List RuntimeLabel}
    {outcome : RuntimeEvent} (hown : s.undisturbed own = some outcome)
    (hlabels : Interleaves own labels) (hrun : exec step s labels = some (s', events)) :
    outcome.answers = true ∧
      events = if completions_last labels then [outcome] else [.dropped] := by
  induction labels generalizing s own events with
  | nil =>
    obtain rfl : [] = own := hlabels.own
    contradiction
  | cons label labels ih =>
    obtain ⟨hlabel, hrest⟩ := List.forall_mem_cons.mp hlabels.ordinary
    obtain ⟨s₁, first, rest, hs, hafter, rfl⟩ := exec_cons_eq_some.mp hrun
    cases label with
    | incoming source => contradiction
    | shutdown => contradiction
    | iterate now =>
      obtain ⟨⟨now, pass, hloop⟩, -⟩ := h
      rw [V2GatewayRuntime.step, hloop] at hs
      contradiction
    | completed connection =>
      obtain ⟨rfl, hloop⟩ := h.completed hs
      have hquiet := (Quiet.of_top hloop).run hrest hafter
      have hanswers := undisturbed_answers h hown
      have hleft : labels.filterMap RuntimeLabel.event ≠ [] := by
        intro hnil
        have hnone : own = [] := hlabels.own.symm.trans hnil
        rw [hnone] at hown
        contradiction
      have hlast : completions_last (.completed connection :: labels) = false :=
        completions_last_cons rfl hleft
      rw [hlast, hquiet]
      exact ⟨hanswers, rfl⟩
    | own event =>
      have howned : own = event :: labels.filterMap RuntimeLabel.event := hlabels.own.symm
      subst howned
      have hlast : completions_last (.own event :: labels) = completions_last labels := rfl
      rw [undisturbed, hs] at hown
      rcases h.own hs with ⟨rfl, hnext⟩ | ⟨answer, rfl, hanswer, hloop⟩
      · rw [hlast]
        exact ih hnext hown ⟨rfl, hrest⟩ hafter
      · dsimp only at hown
        split at hown
        · next hnone =>
          obtain rfl := Option.some.inj hown
          have hquiet := (Quiet.of_top hloop).run hrest hafter
          rw [hlast, completions_last_of_no_event hnone, hquiet]
          exact ⟨hanswer, rfl⟩
        · contradiction

/-- Two runs give the connection the same answer. -/
def SameAnswer (events events' : List RuntimeEvent) : Prop :=
  ∃ answer : RuntimeEvent, answer.answers = true ∧ events = [answer] ∧ events' = [answer]

/-- **When other connections that end do not disturb an admission.** Two runs from one
state, with the same events for the connection that is being admitted and control
tasks that end anywhere in between, give it the same answer exactly if in both of
them no control task ends before its last event. -/
theorem admission_undisturbed_iff (h : s.Admitting) {own : List AcceptEvent} {outcome : RuntimeEvent}
    (hown : s.undisturbed own = some outcome) {labels labels' : List RuntimeLabel}
    {t t' : V2GatewayRuntime} {events events' : List RuntimeEvent}
    (hlabels : Interleaves own labels) (hlabels' : Interleaves own labels')
    (hrun : exec step s labels = some (t, events))
    (hrun' : exec step s labels' = some (t', events')) :
    SameAnswer events events' ↔
      completions_last labels = true ∧ completions_last labels' = true := by
  obtain ⟨hanswers, hevents⟩ := h.run hown hlabels hrun
  obtain ⟨-, hevents'⟩ := h.run hown hlabels' hrun'
  constructor
  · rintro ⟨answer, hanswer, hfirst, hsecond⟩
    -- a dropped admission is no answer
    have hlast : ∀ {labels : List RuntimeLabel},
        (if completions_last labels then [outcome] else [.dropped]) = [answer] →
          completions_last labels = true := by
      intro labels hends
      cases hlast : completions_last labels with
      | true => rfl
      | false =>
        rw [hlast] at hends
        obtain rfl := (List.cons.inj hends).1
        contradiction
    rw [hfirst] at hevents
    rw [hsecond] at hevents'
    exact ⟨hlast hevents.symm, hlast hevents'.symm⟩
  · rintro ⟨hlast, hlast'⟩
    rw [if_pos hlast] at hevents
    rw [if_pos hlast'] at hevents'
    exact ⟨outcome, hanswers, hevents, hevents'⟩

namespace Sample

def limiter : HandshakeAdmissionLimiter :=
  ⟨⟨1024, 60000, 4, 64, 10000⟩, AList.insert (.V4 0x0a000001) ⟨1, 5000⟩ ∅, 1⟩

def manager : V2SessionManager := ⟨⟨4, 120000, 2, 4, 5000, 4, 4, 5000⟩, ∅, ∅, ∅, ∅, ∅, 1⟩

/-- A connection is in its handshake while one control task runs. -/
def runtime : V2GatewayRuntime :=
  ⟨⟨[1]⟩, .stored, manager, limiter, 1, 4,
    .accepting ⟨1000, 5000⟩ (some ⟨.V4 0x0a000001, ⟨1000, 5000⟩, .handshaking ⟨.V4 0x0a000001⟩⟩)⟩

theorem runtime_admitting : runtime.Admitting := ⟨⟨_, _, rfl⟩, by decide⟩

def ticket : VerifiedAdmissionTicket := ⟨⟨1⟩, ⟨2⟩, ⟨3⟩, ⟨4⟩, 1600, 1⟩

def lease : AssignedAddresses := ⟨0x0a400002, 24, 0xfd000000000000010000000000000000, 64⟩

/-- Everything the connection needs goes well. -/
def arrival : List AcceptEvent :=
  [.handshake .identified, .control_stream .opened, .hello (some ⟨1, .ok ticket⟩) 20, .swept [],
    .consumed (.ok ()), .reply (.reserved (.ok lease)), .reply (.committed (.ok lease)),
    .reply (.written true)]

/-- The control task ends before the answer is written. -/
def disturbed : List RuntimeLabel :=
  (arrival.take 7).map .own ++ [.completed none] ++ (arrival.drop 7).map .own

def admitted : AdmissionAccepted :=
  ⟨⟨⟨4⟩, ⟨2⟩, ⟨3⟩⟩, 1600, 1, ⟨⟨4⟩, ⟨2⟩, ⟨3⟩, 605020, true⟩⟩

theorem arrival_undisturbed :
    runtime.undisturbed arrival = some (.spawned admitted ⟨⟨4⟩, ⟨1⟩⟩) := by
  decide +kernel

end Sample

open Sample in
theorem admission_undisturbed_sample :
    ∃ t t' answered answered',
      runtime.undisturbed arrival = some (.spawned admitted ⟨⟨4⟩, ⟨1⟩⟩) ∧
      exec step runtime (arrival.map .own) = some (t, answered) ∧
      exec step runtime (arrival.map .own ++ [.completed none]) = some (t', answered') ∧
      (SameAnswer answered answered' ↔ completions_last (arrival.map .own) = true ∧
        completions_last (arrival.map .own ++ [.completed none]) = true) := by
  have hfirst : (exec step runtime (arrival.map .own)).isSome = true := by decide
  have hsecond : (exec step runtime (arrival.map .own ++ [.completed none])).isSome = true := by
    decide
  obtain ⟨⟨t, answered⟩, hrun⟩ := Option.isSome_iff_exists.mp hfirst
  obtain ⟨⟨t', answered'⟩, hrun'⟩ := Option.isSome_iff_exists.mp hsecond
  exact ⟨t, t', answered, answered', arrival_undisturbed, hrun, hrun',
    admission_undisturbed_iff runtime_admitting arrival_undisturbed ⟨rfl, by decide⟩
      ⟨rfl, by decide⟩ hrun hrun'⟩

open Sample in
/-- The same connection is spawned when it is left alone, and gets no answer when
another control task ends before its `SessionAdmit` is written. -/
theorem completion_drops_admission :
    runtime.Admitting ∧ Interleaves arrival (arrival.map .own) ∧ Interleaves arrival disturbed ∧
      ∃ t t' answered answered',
        exec step runtime (arrival.map .own) = some (t, answered) ∧
        exec step runtime disturbed = some (t', answered') ∧
        answered = [.spawned admitted ⟨⟨4⟩, ⟨1⟩⟩] ∧ answered' = [.dropped] ∧
        ¬ SameAnswer answered answered' := by
  have hfirst : (exec step runtime (arrival.map .own)).map (·.2) =
      some [.spawned admitted ⟨⟨4⟩, ⟨1⟩⟩] := by
    decide +kernel
  have hsecond : (exec step runtime disturbed).map (·.2) = some [.dropped] := by
    decide
  obtain ⟨⟨t, answered⟩, hrun, hanswered⟩ := Option.map_eq_some_iff.mp hfirst
  obtain ⟨⟨t', answered'⟩, hrun', hanswered'⟩ := Option.map_eq_some_iff.mp hsecond
  refine ⟨runtime_admitting, ⟨rfl, by decide⟩, ⟨rfl, by decide⟩, t, t', answered, answered', hrun,
    hrun', hanswered, hanswered', ?_⟩
  rintro ⟨answer, -, hspawned, hdropped⟩
  dsimp only at hanswered hanswered'
  rw [hanswered] at hspawned
  rw [hanswered', ← hspawned] at hdropped
  cases hdropped

end V2GatewayRuntime

end StreamGuard.Gateway
