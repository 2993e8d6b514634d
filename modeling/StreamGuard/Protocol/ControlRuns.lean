/-
Runs of one endpoint.

A run is any sequence of `on_outbound` and `on_inbound` calls with any frames and
any clock readings, from an endpoint as the constructors build it. `Effect` says
what one call does, whatever the role: it is the only thing the invariants below
are proved from.
-/
import StreamGuard.Protocol.ControlSteps
import StreamGuard.Lib.Run

set_option autoImplicit false

namespace StreamGuard.Control

open StreamGuard StreamGuard.Lib

/-! ## Calls -/

/-- One call on an endpoint with the clock reading passed to it. -/
inductive ControlCall where
  | on_outbound (frame : ControlFrame) (now_ms : ℕ)
  | on_inbound (frame : ControlFrame) (now_ms : ℕ)

/-- What the caller gets back. -/
inductive ControlResult where
  | sent (result : Except ControlStateError Unit)
  | received (result : Except ControlStateError ControlAction)

def ControlCall.now_ms : ControlCall → ℕ
  | .on_outbound _ now_ms => now_ms
  | .on_inbound _ now_ms => now_ms

namespace ControlConnectionState

def apply (s : ControlConnectionState) : ControlCall → ControlConnectionState × ControlResult
  | .on_outbound frame now_ms =>
    let (s, result) := s.on_outbound frame now_ms
    (s, .sent result)
  | .on_inbound frame now_ms =>
    let (s, result) := s.on_inbound frame now_ms
    (s, .received result)

theorem apply_on_outbound (s : ControlConnectionState) (frame : ControlFrame) (now_ms : ℕ) :
    s.apply (.on_outbound frame now_ms) =
      ((s.on_outbound frame now_ms).1, .sent (s.on_outbound frame now_ms).2) := rfl

theorem apply_on_inbound (s : ControlConnectionState) (frame : ControlFrame) (now_ms : ℕ) :
    s.apply (.on_inbound frame now_ms) =
      ((s.on_inbound frame now_ms).1, .received (s.on_inbound frame now_ms).2) := rfl

/-- The endpoint as a machine whose inputs are the calls. -/
def step (s : ControlConnectionState) (call : ControlCall) :
    Option (ControlConnectionState × List ControlResult) :=
  some ((s.apply call).1, [(s.apply call).2])

/-- The endpoint `new` builds. -/
def initial (role : ControlRole) (config : StateConfig)
    (verified_admission : Option VerifiedAdmission) : ControlConnectionState where
  role
  phase := .AwaitHello
  config
  verified_admission
  session_id := none
  expires_at_ms := none
  policy_epoch := 0
  protocol_paths := ∅
  attachments := ∅
  pending_attaches := ∅
  pending_policy_updates := ∅
  pending_detaches := ∅
  completed := []
  hello_transaction_id := none
  next_path_id := some 1

/-- An endpoint as the constructors build it. -/
def Fresh (s : ControlConnectionState) : Prop :=
  (∃ config, client config = .ok s) ∨
    ∃ config admission, gateway_after_verified_admission config admission = .ok s

/-- A state some run arrives at. -/
def Reachable (s : ControlConnectionState) : Prop :=
  ∃ s₀ calls results, Fresh s₀ ∧ exec step s₀ calls = some (s, results)

theorem step_eq_some {s s' : ControlConnectionState} {call : ControlCall}
    {results : List ControlResult} :
    step s call = some (s', results) ↔
      s' = (s.apply call).1 ∧ results = [(s.apply call).2] := by
  rw [step, Option.some.injEq, Prod.mk.injEq, eq_comm, eq_comm (b := results)]

variable (s : ControlConnectionState)

/-! ## What one call does -/

/-- The prunes `on_inbound` starts with, in one. -/
def prune (now_ms : ℕ) : ControlConnectionState :=
  { s with
    completed := s.completed.filter (fun entry => now_ms < entry.expires_at_ms)
    pending_attaches :=
      s.pending_attaches.retain (fun _ pending => now_ms < pending.expires_at_ms)
    pending_policy_updates :=
      s.pending_policy_updates.retain (fun _ pending => now_ms < pending.expires_at_ms)
    pending_detaches :=
      s.pending_detaches.retain (fun _ pending => now_ms < pending.expires_at_ms) }

theorem prune_eq (now_ms : ℕ) :
    (s.prune_completed now_ms).prune_pending now_ms = s.prune now_ms := rfl

@[simp] theorem prune_phase (now_ms : ℕ) : (s.prune now_ms).phase = s.phase := rfl

@[simp] theorem prune_session_id (now_ms : ℕ) : (s.prune now_ms).session_id = s.session_id := rfl

@[simp] theorem prune_path_epoch (now_ms : ℕ) (path_id : PathId) :
    (s.prune now_ms).path_epoch path_id = s.path_epoch path_id := rfl

@[simp] theorem prune_active_session (now_ms : ℕ) (session_id : SessionId) :
    (s.prune now_ms).active_session session_id ↔ s.active_session session_id := Iff.rfl

/-- What a call does, by what it finds: an admission that is over, or one of the
four handlers on the pruned tables. -/
inductive Effect : ControlCall → ControlConnectionState → ControlResult → Prop
  | late_outbound {frame : ControlFrame} {now_ms : ℕ} (hexpires : s.expires now_ms) :
    Effect (.on_outbound frame now_ms) { s.prune_pending now_ms with phase := .Closed }
      (.sent (.error .Expired))
  | late_inbound {frame : ControlFrame} {now_ms : ℕ} (hexpires : s.expires now_ms) :
    Effect (.on_inbound frame now_ms) { s.prune now_ms with phase := .Closed }
      (.received (.ok (.Reply (reject frame.transaction_id .Expired "admission expired"))))
  | client_outbound {frame : ControlFrame} {now_ms : ℕ} {s' : ControlConnectionState}
    {result : Except ControlStateError Unit} (hrole : s.role = .Client) (hlive : ¬ s.expires now_ms)
    (hsent : (s.prune_pending now_ms).ClientOutbound frame now_ms s' result) :
    Effect (.on_outbound frame now_ms) s' (.sent result)
  | gateway_outbound {frame : ControlFrame} {now_ms : ℕ} {s' : ControlConnectionState}
    {result : Except ControlStateError Unit} (hrole : s.role = .Gateway)
    (hlive : ¬ s.expires now_ms)
    (hsent : (s.prune_pending now_ms).GatewayOutbound frame now_ms s' result) :
    Effect (.on_outbound frame now_ms) s' (.sent result)
  | client_inbound {frame : ControlFrame} {now_ms : ℕ} {s' : ControlConnectionState}
    {action : ControlAction} (hrole : s.role = .Client) (hlive : ¬ s.expires now_ms)
    (hreceived : (s.prune now_ms).ClientInbound frame now_ms s' action) :
    Effect (.on_inbound frame now_ms) s' (.received (.ok action))
  | gateway_inbound {frame : ControlFrame} {now_ms : ℕ} {s' : ControlConnectionState}
    {action : ControlAction} (hrole : s.role = .Gateway) (hlive : ¬ s.expires now_ms)
    (hreceived : (s.prune now_ms).GatewayInbound frame now_ms s' action) :
    Effect (.on_inbound frame now_ms) s' (.received (.ok action))

/-- Pruning does not touch what `expire_if_needed` reads. -/
theorem expire_prune_pending (now_ms : ℕ) : (s.prune_pending now_ms).expire_if_needed now_ms =
    if s.expires now_ms then ({ s.prune_pending now_ms with phase := .Closed }, true)
    else (s.prune_pending now_ms, false) := rfl

theorem expire_prune (now_ms : ℕ) : (s.prune now_ms).expire_if_needed now_ms =
    if s.expires now_ms then ({ s.prune now_ms with phase := .Closed }, true)
    else (s.prune now_ms, false) := rfl

theorem on_inbound_of_expires {now_ms : ℕ} (hexpires : s.expires now_ms) (frame : ControlFrame) :
    s.on_inbound frame now_ms = ({ s.prune now_ms with phase := .Closed },
      .ok (.Reply (reject frame.transaction_id .Expired "admission expired"))) := by
  rw [on_inbound, prune_eq, expire_prune, if_pos hexpires]
  rfl

theorem on_inbound_of_live {now_ms : ℕ} (hlive : ¬ s.expires now_ms) (frame : ControlFrame) :
    s.on_inbound frame now_ms = match s.role with
      | .Client => (s.prune now_ms).client_inbound frame now_ms
      | .Gateway => (s.prune now_ms).gateway_inbound frame now_ms := by
  rw [on_inbound, prune_eq, expire_prune, if_neg hlive]
  rfl

theorem on_outbound_of_expires {now_ms : ℕ} (hexpires : s.expires now_ms) (frame : ControlFrame) :
    s.on_outbound frame now_ms =
      ({ s.prune_pending now_ms with phase := .Closed }, .error .Expired) := by
  rw [on_outbound, expire_prune_pending, if_pos hexpires]

theorem on_outbound_of_live {now_ms : ℕ} (hlive : ¬ s.expires now_ms) (frame : ControlFrame) :
    s.on_outbound frame now_ms = match s.role with
      | .Client => (s.prune_pending now_ms).client_outbound frame now_ms
      | .Gateway => (s.prune_pending now_ms).gateway_outbound frame now_ms := by
  rw [on_outbound, expire_prune_pending, if_neg hlive]
  rfl

/-! ## The invariant of every run -/

/-- A gateway has an admission to hand out, and before it is handed out there is no
session. -/
structure Wellformed : Prop where
  admission : s.role = .Gateway → s.verified_admission.isSome
  unadmitted : s.phase = .AwaitHello ∨ s.phase = .AwaitAdmit →
    s.session_id = none ∧ s.expires_at_ms = none ∧ s.policy_epoch = 0

/-- **Every call has one of the listed effects.** -/
theorem apply_effect (hs : s.Wellformed) (call : ControlCall) :
    s.Effect call (s.apply call).1 (s.apply call).2 := by
  cases call with
  | on_outbound frame now_ms =>
    rw [apply]
    by_cases hexpires : s.expires now_ms
    · rw [s.on_outbound_of_expires hexpires]
      exact .late_outbound hexpires
    · rw [s.on_outbound_of_live hexpires]
      cases hrole : s.role with
      | Client =>
        exact .client_outbound hrole hexpires
          ((s.prune_pending now_ms).client_outbound_cases frame now_ms)
      | Gateway =>
        exact .gateway_outbound hrole hexpires
          ((s.prune_pending now_ms).gateway_outbound_cases frame now_ms)
  | on_inbound frame now_ms =>
    rw [apply]
    by_cases hexpires : s.expires now_ms
    · rw [s.on_inbound_of_expires hexpires]
      exact .late_inbound hexpires
    · rw [s.on_inbound_of_live hexpires]
      cases hrole : s.role with
      | Client =>
        obtain ⟨s', action, heq, heffect⟩ := (s.prune now_ms).client_inbound_cases frame now_ms
        dsimp only
        rw [heq]
        exact .client_inbound hrole hexpires heffect
      | Gateway =>
        obtain ⟨s', action, heq, heffect⟩ :=
          (s.prune now_ms).gateway_inbound_cases (hs.admission hrole) frame now_ms
        dsimp only
        rw [heq]
        exact .gateway_inbound hrole hexpires heffect

/-! ## What no call undoes -/

variable {s} {t u : ControlConnectionState}

/-- The fields a peer can see the effect of. -/
structure Unchanged (s t : ControlConnectionState) : Prop where
  phase : t.phase = s.phase
  session_id : t.session_id = s.session_id
  policy_epoch : t.policy_epoch = s.policy_epoch
  protocol_paths : t.protocol_paths = s.protocol_paths
  attachments : t.attachments = s.attachments
  next_path_id : t.next_path_id = s.next_path_id

theorem Unchanged.refl (s : ControlConnectionState) : Unchanged s s := ⟨rfl, rfl, rfl, rfl, rfl, rfl⟩

theorem Unchanged.trans (h : Unchanged s t) (h' : Unchanged t u) : Unchanged s u :=
  ⟨h'.phase.trans h.phase, h'.session_id.trans h.session_id,
    h'.policy_epoch.trans h.policy_epoch, h'.protocol_paths.trans h.protocol_paths,
    h'.attachments.trans h.attachments, h'.next_path_id.trans h.next_path_id⟩

/-- The phase before an admission. -/
def unadmitted (s : ControlConnectionState) : Prop :=
  s.phase = .AwaitHello ∨ s.phase = .AwaitAdmit

/-- `t` comes later than `s` in the life of one endpoint. -/
structure Advance (s t : ControlConnectionState) : Prop where
  role : t.role = s.role
  config : t.config = s.config
  admission : t.verified_admission = s.verified_admission
  session_id : s.session_id = none ∨ t.session_id = s.session_id
  expires_at_ms : s.expires_at_ms = none ∨ t.expires_at_ms = s.expires_at_ms
  unadmitted : t.unadmitted → s.unadmitted ∧ t.session_id = s.session_id ∧
    t.expires_at_ms = s.expires_at_ms ∧ t.policy_epoch = s.policy_epoch
  closed : s.phase = .Closed → Unchanged s t

theorem Advance.of_unchanged (h : Unchanged s t) (hrole : t.role = s.role)
    (hconfig : t.config = s.config) (hadmission : t.verified_admission = s.verified_admission)
    (hexpires : t.expires_at_ms = s.expires_at_ms) : Advance s t where
  role := hrole
  config := hconfig
  admission := hadmission
  session_id := .inr h.session_id
  expires_at_ms := .inr hexpires
  unadmitted := by
    intro ht
    rw [ControlConnectionState.unadmitted, h.phase] at ht
    exact ⟨ht, h.session_id, hexpires, h.policy_epoch⟩
  closed := fun _ => h

theorem Advance.refl (s : ControlConnectionState) : Advance s s :=
  .of_unchanged (.refl s) rfl rfl rfl rfl

/-- An Active endpoint stays Active or closes, and keeps its session. -/
theorem Advance.of_active (hs : s.phase = .Active) (ht : t.phase = .Active ∨ t.phase = .Closed)
    (hrole : t.role = s.role) (hconfig : t.config = s.config)
    (hadmission : t.verified_admission = s.verified_admission)
    (hsession : t.session_id = s.session_id) (hexpires : t.expires_at_ms = s.expires_at_ms) :
    Advance s t where
  role := hrole
  config := hconfig
  admission := hadmission
  session_id := .inr hsession
  expires_at_ms := .inr hexpires
  unadmitted := by
    intro h
    rcases ht with ht | ht <;> rcases h with h | h <;> rw [ht] at h <;> contradiction
  closed := by
    intro h
    rw [hs] at h
    contradiction

/-- An endpoint without a session is admitted. -/
theorem Advance.of_admitted (hs : s.unadmitted) (ht : t.phase = .Active)
    (hrole : t.role = s.role) (hconfig : t.config = s.config)
    (hadmission : t.verified_admission = s.verified_admission)
    (hsession : s.session_id = none) (hexpires : s.expires_at_ms = none) : Advance s t where
  role := hrole
  config := hconfig
  admission := hadmission
  session_id := .inl hsession
  expires_at_ms := .inl hexpires
  unadmitted := by
    intro h
    rcases h with h | h <;> rw [ht] at h <;> contradiction
  closed := by
    intro h
    rcases hs with hs | hs <;> rw [hs] at h <;> contradiction

theorem Advance.trans (h : Advance s t) (h' : Advance t u) : Advance s u where
  role := h'.role.trans h.role
  config := h'.config.trans h.config
  admission := h'.admission.trans h.admission
  session_id := by
    rcases h.session_id with hs | hs
    · exact .inl hs
    · rw [← hs]
      exact h'.session_id
  expires_at_ms := by
    rcases h.expires_at_ms with hs | hs
    · exact .inl hs
    · rw [← hs]
      exact h'.expires_at_ms
  unadmitted := by
    intro hu
    obtain ⟨ht, hsession, hexpires, hepoch⟩ := h'.unadmitted hu
    obtain ⟨hs, hsession', hexpires', hepoch'⟩ := h.unadmitted ht
    exact ⟨hs, hsession.trans hsession', hexpires.trans hexpires', hepoch.trans hepoch'⟩
  closed := by
    intro hs
    have ht := h.closed hs
    exact ht.trans (h'.closed (ht.phase.trans hs))

theorem advance_prune_pending (s : ControlConnectionState) (now_ms : ℕ) :
    Advance s (s.prune_pending now_ms) :=
  .of_unchanged ⟨rfl, rfl, rfl, rfl, rfl, rfl⟩ rfl rfl rfl rfl

theorem advance_prune (s : ControlConnectionState) (now_ms : ℕ) : Advance s (s.prune now_ms) :=
  .of_unchanged ⟨rfl, rfl, rfl, rfl, rfl, rfl⟩ rfl rfl rfl rfl

/-- Remembering an answer changes nothing else. -/
theorem advance_remember (s : ControlConnectionState) (request response : ControlFrame)
    (now_ms : ℕ) : Advance s (s.remember request response now_ms) :=
  .of_unchanged ⟨rfl, rfl, rfl, rfl, rfl, rfl⟩ rfl rfl rfl rfl

section Handlers

variable {frame : ControlFrame} {now_ms : ℕ} {action : ControlAction}
  {result : Except ControlStateError Unit}

theorem GatewayInbound.advance (hs : s.Wellformed)
    (h : s.GatewayInbound frame now_ms t action) : Advance s t := by
  cases h with
  | cached => exact .refl s
  | refused => exact advance_remember s _ _ _
  | admitted _ _ hphase =>
    obtain ⟨hsession, hexpires, -⟩ := hs.unadmitted (.inl hphase)
    exact .of_admitted (.inl hphase) rfl rfl rfl rfl hsession hexpires
  | attached _ _ hactive =>
    exact .of_active hactive.1 (.inl hactive.1) rfl rfl rfl rfl rfl
  | reattached => exact advance_remember s _ _ _
  | confirmed => exact advance_remember s _ _ _
  | detached _ _ hactive =>
    exact .of_active hactive.1 (.inl hactive.1) rfl rfl rfl rfl rfl
  | closed _ _ hactive => exact .of_active hactive.1 (.inr rfl) rfl rfl rfl rfl rfl
  | acknowledged _ _ hphase => exact .of_active hphase (.inl hphase) rfl rfl rfl rfl rfl
  | declined => exact .of_unchanged ⟨rfl, rfl, rfl, rfl, rfl, rfl⟩ rfl rfl rfl rfl
  | unsolicited => exact .refl s

theorem ClientInbound.advance (hs : s.Wellformed)
    (h : s.ClientInbound frame now_ms t action) : Advance s t := by
  cases h with
  | rejected => exact .refl s
  | admitted _ hphase =>
    obtain ⟨hsession, hexpires, -⟩ := hs.unadmitted (.inr hphase)
    exact .of_admitted (.inr hphase) rfl rfl rfl rfl hsession hexpires
  | attached _ hactive => exact .of_active hactive.1 (.inl hactive.1) rfl rfl rfl rfl rfl
  | updated _ hactive => exact .of_active hactive.1 (.inl hactive.1) rfl rfl rfl rfl rfl
  | closed _ hactive => exact .of_active hactive.1 (.inr rfl) rfl rfl rfl rfl rfl
  | detached _ hphase => exact .of_active hphase (.inl hphase) rfl rfl rfl rfl rfl
  | settled => exact .of_unchanged ⟨rfl, rfl, rfl, rfl, rfl, rfl⟩ rfl rfl rfl rfl

theorem ClientOutbound.advance (h : s.ClientOutbound frame now_ms t result) : Advance s t := by
  cases h with
  | failed => exact .refl s
  | hello _ hphase =>
    refine ⟨rfl, rfl, rfl, .inr rfl, .inr rfl, fun _ => ⟨.inl hphase, rfl, rfl, rfl⟩, ?_⟩
    intro hclosed
    rw [hphase] at hclosed
    contradiction
  | attaching _ hphase => exact .of_active hphase (.inl hphase) rfl rfl rfl rfl rfl
  | detaching _ hphase => exact .of_active hphase (.inl hphase) rfl rfl rfl rfl rfl
  | sent => exact .refl s
  | closed _ hactive => exact .of_active hactive.1 (.inr rfl) rfl rfl rfl rfl rfl

theorem GatewayOutbound.advance (h : s.GatewayOutbound frame now_ms t result) : Advance s t := by
  cases h with
  | failed => exact .refl s
  | updating _ hactive => exact .of_active hactive.1 (.inl hactive.1) rfl rfl rfl rfl rfl
  | updating_again => exact .refl s
  | answered => exact .refl s
  | closed _ hactive => exact .of_active hactive.1 (.inr rfl) rfl rfl rfl rfl rfl

end Handlers

theorem Wellformed.prune (hs : s.Wellformed) (now_ms : ℕ) : (s.prune now_ms).Wellformed :=
  ⟨hs.admission, hs.unadmitted⟩

theorem Effect.advance {call : ControlCall} {result : ControlResult} (hs : s.Wellformed)
    (h : s.Effect call t result) : Advance s t := by
  cases h with
  | late_outbound hexpires =>
    exact .of_active hexpires.1 (.inr rfl) rfl rfl rfl rfl rfl
  | late_inbound hexpires =>
    exact .of_active hexpires.1 (.inr rfl) rfl rfl rfl rfl rfl
  | client_outbound _ _ hsent => exact (advance_prune_pending s _).trans hsent.advance
  | gateway_outbound _ _ hsent => exact (advance_prune_pending s _).trans hsent.advance
  | client_inbound _ _ hreceived =>
    exact (advance_prune s _).trans (hreceived.advance (hs.prune _))
  | gateway_inbound _ _ hreceived =>
    exact (advance_prune s _).trans (hreceived.advance (hs.prune _))

theorem Advance.wellformed (hs : s.Wellformed) (h : Advance s t) : t.Wellformed where
  admission := by
    rw [h.role, h.admission]
    exact hs.admission
  unadmitted := by
    intro ht
    obtain ⟨hu, hsession, hexpires, hepoch⟩ := h.unadmitted ht
    rw [hsession, hexpires, hepoch]
    exact hs.unadmitted hu

theorem new_eq_ok {role : ControlRole} {config : StateConfig}
    {verified_admission : Option VerifiedAdmission} (h : new role config verified_admission = .ok s) :
    s = initial role config verified_admission ∧ config.completed_request_capacity ≠ 0 := by
  rw [new] at h
  split at h
  · contradiction
  · next hcapacity =>
    rw [not_or] at hcapacity
    exact ⟨(Except.ok.inj h).symm, hcapacity.1⟩

theorem Fresh.eq_initial (h : Fresh s) : ∃ role config verified_admission,
    s = initial role config verified_admission ∧ config.completed_request_capacity ≠ 0 ∧
      (role = .Gateway → verified_admission.isSome) := by
  rcases h with ⟨config, h⟩ | ⟨config, admission, h⟩
  · obtain ⟨heq, hcapacity⟩ := new_eq_ok h
    exact ⟨_, _, _, heq, hcapacity, fun hrole => by contradiction⟩
  · obtain ⟨heq, hcapacity⟩ := new_eq_ok h
    exact ⟨_, _, _, heq, hcapacity, fun _ => rfl⟩

theorem Fresh.wellformed (h : Fresh s) : s.Wellformed := by
  obtain ⟨role, config, verified_admission, rfl, -, hadmission⟩ := h.eq_initial
  exact ⟨hadmission, fun _ => ⟨rfl, rfl, rfl⟩⟩

/-- A call on a well-formed endpoint leads later in its life. -/
theorem apply_advance (hs : s.Wellformed) (call : ControlCall) : Advance s (s.apply call).1 :=
  (s.apply_effect hs call).advance hs

/-- **A whole run leads later in its life.** -/
theorem exec_advance (hs : s.Wellformed) {calls : List ControlCall} {results : List ControlResult}
    (h : exec step s calls = some (t, results)) : Advance s t := by
  refine exec_invariant (I := fun t => Advance s t) ?_ (.refl s) h
  intro u call u' o hu hstep
  obtain ⟨rfl, -⟩ := step_eq_some.mp hstep
  exact hu.trans (apply_advance (hu.wellformed hs) call)

theorem Reachable.wellformed (h : s.Reachable) : s.Wellformed := by
  obtain ⟨s₀, calls, results, hfresh, hrun⟩ := h
  exact (exec_advance hfresh.wellformed hrun).wellformed hfresh.wellformed

theorem Fresh.reachable (h : Fresh s) : s.Reachable := ⟨s, [], [], h, rfl⟩

/-- The state after a list of calls. -/
def run (s : ControlConnectionState) (calls : List ControlCall) : ControlConnectionState :=
  calls.foldl (fun s call => (s.apply call).1) s

/-- No call is ever disabled, so every list of calls is a run. -/
theorem exec_run (s : ControlConnectionState) (calls : List ControlCall) :
    ∃ results, exec step s calls = some (s.run calls, results) := by
  induction calls generalizing s with
  | nil => exact ⟨[], rfl⟩
  | cons call calls ih =>
    obtain ⟨results, hrun⟩ := ih (s.apply call).1
    exact ⟨_, exec_cons_eq_some.mpr ⟨_, _, _, rfl, hrun, rfl⟩⟩

theorem Reachable.run (h : s.Reachable) (calls : List ControlCall) : (s.run calls).Reachable := by
  obtain ⟨s₀, before, results, hfresh, hbefore⟩ := h
  obtain ⟨results', hrun⟩ := s.exec_run calls
  exact ⟨s₀, before ++ calls, _, hfresh, exec_append hbefore hrun⟩

end ControlConnectionState

/-! ## Fixtures

The endpoints and frames of the source's own tests. -/

namespace Sample

open ControlConnectionState

def session : SessionId := ⟨0x44⟩

def config : StateConfig := ⟨2, 10, 2, 2, 5, 2, 5⟩

def admission : VerifiedAdmission where
  session_id := session
  expires_at_ms := 1000
  policy_epoch := 1
  assigned_ipv4 := 0x0a000002
  assigned_ipv4_prefix_len := 24
  assigned_ipv6_prefix := 0x20
  assigned_ipv6_prefix_len := 64
  safe_mode_policy := ⟨[1], by decide, by decide⟩
  session_id_nonzero := by decide
  epochs_nonzero := by decide
  ipv4_nonzero := by decide
  ipv4_prefix_len := by decide
  ipv6_nonzero := by decide
  ipv6_prefix_len := by decide

def client : ControlConnectionState := initial .Client config none

def gateway : ControlConnectionState := initial .Gateway config (some admission)

theorem client_fresh : client.Fresh := .inl ⟨config, rfl⟩

theorem gateway_fresh : gateway.Fresh := .inr ⟨config, admission, rfl⟩

def hello (transaction_id : U64) : ControlFrame :=
  ⟨transaction_id, .ClientHello ⟨0x55⟩ "iad-1" ⟨"ticket", by decide, by decide⟩⟩

def attach (transaction_id : U64) (nonce : BitVec 128) (epoch : U64) : ControlFrame :=
  ⟨transaction_id, .PathAttach session nonce epoch 1 [1]⟩

def detach (transaction_id : U64) (path_id : U16) (epoch : U64) : ControlFrame :=
  ⟨transaction_id, .PathDetach session ⟨path_id⟩ epoch "detach"⟩

def health (transaction_id : U64) (path_id : U16) (epoch : U64) : ControlFrame :=
  ⟨transaction_id, .PathHealth session ⟨path_id⟩ epoch 1 0⟩

def update (transaction_id : U64) (epoch : U64) : ControlFrame :=
  ⟨transaction_id, .PolicyUpdate session epoch [1]⟩

def close (transaction_id : U64) : ControlFrame := ⟨transaction_id, .Close session "close"⟩

end Sample

namespace ControlConnectionState

variable {s t : ControlConnectionState}

/-! ## Closed is absorbing -/

/-- A closed endpoint refuses to send. -/
theorem Effect.sent_of_closed {call : ControlCall} {result : Except ControlStateError Unit}
    (h : s.Effect call t (.sent result)) (hclosed : s.phase = .Closed) :
    ∃ error, result = .error error := by
  -- every arm that sends something has checked for another phase
  have hphase : ∀ phase, phase ≠ .Closed → s.phase = phase → False := by
    rintro phase hne rfl
    exact hne hclosed
  cases h with
  | late_outbound hexpires => exact ⟨_, rfl⟩
  | client_outbound _ _ hsent =>
    cases hsent with
    | failed => exact ⟨_, rfl⟩
    | hello _ h => exact (hphase .AwaitHello (by decide) h).elim
    | attaching _ h => exact (hphase .Active (by decide) h).elim
    | detaching _ h => exact (hphase .Active (by decide) h).elim
    | sent _ h => exact (hphase .Active (by decide) h).elim
    | closed _ h => exact (hphase .Active (by decide) h.1).elim
  | gateway_outbound _ _ hsent =>
    cases hsent with
    | failed => exact ⟨_, rfl⟩
    | updating _ h => exact (hphase .Active (by decide) h.1).elim
    | updating_again _ h => exact (hphase .Active (by decide) h.1).elim
    | answered _ h => exact (hphase .Active (by decide) h).elim
    | closed _ h => exact (hphase .Active (by decide) h.1).elim

/-- A call that finds the admission over only closes the connection and prunes. -/
theorem Effect.of_expires {call : ControlCall} {result : ControlResult}
    (h : s.Effect call t result) (hexpires : s.expires call.now_ms) :
    t.policy_epoch = s.policy_epoch ∧ t.protocol_paths = s.protocol_paths ∧
      t.attachments = s.attachments := by
  cases h with
  | late_outbound => exact ⟨rfl, rfl, rfl⟩
  | late_inbound => exact ⟨rfl, rfl, rfl⟩
  | client_outbound _ hlive => exact absurd hexpires hlive
  | gateway_outbound _ hlive => exact absurd hexpires hlive
  | client_inbound _ hlive => exact absurd hexpires hlive
  | gateway_inbound _ hlive => exact absurd hexpires hlive

/-- Every send of a run that starts closed fails. -/
theorem exec_sent_of_closed (hs : s.Wellformed) (hclosed : s.phase = .Closed)
    {calls : List ControlCall} {results : List ControlResult}
    (h : exec step s calls = some (t, results)) :
    ∀ result, .sent result ∈ results → ∃ error, result = .error error := by
  have hrun : Advance s t ∧ ∀ result, .sent result ∈ [] ++ results →
      ∃ error, result = .error error := by
    refine exec_along_induct (C := fun _ _ => True) (P := fun u os => Advance s u ∧
      ∀ result, .sent result ∈ os → ∃ error, result = .error error) ?_ ?_ (along_true _ _) h
    · rintro u call u' o os ⟨hu, hos⟩ - hstep
      obtain ⟨rfl, rfl⟩ := step_eq_some.mp hstep
      have hwell := hu.wellformed hs
      refine ⟨hu.trans (apply_advance hwell call), ?_⟩
      intro result hmem
      rcases List.mem_append.mp hmem with hmem | hmem
      · exact hos result hmem
      · have heffect := u.apply_effect hwell call
        rw [← List.mem_singleton.mp hmem] at heffect
        exact heffect.sent_of_closed ((hu.closed hclosed).phase.trans hclosed)
    · exact ⟨.refl s, fun _ hmem => absurd hmem List.not_mem_nil⟩
  exact hrun.2

/-- **Closed is absorbing and the session is fixed.** `s` is any state of a run and `t`
any later one. -/
theorem closed_absorbing (hs : s.Reachable) {calls : List ControlCall}
    {results : List ControlResult} (h : exec step s calls = some (t, results)) :
    (s.session_id = none ∨ t.session_id = s.session_id) ∧
    (s.expires_at_ms = none ∨ t.expires_at_ms = s.expires_at_ms) ∧
    (s.phase = .Closed → Unchanged s t ∧
      ∀ result, .sent result ∈ results → ∃ error, result = .error error) ∧
    (∀ expires_at_ms call, s.phase = .Active → s.expires_at_ms = some expires_at_ms →
      expires_at_ms.val ≤ call.now_ms →
      (s.apply call).1.policy_epoch = s.policy_epoch ∧
      (s.apply call).1.protocol_paths = s.protocol_paths ∧
      (s.apply call).1.attachments = s.attachments) := by
  have hwell := hs.wellformed
  have hadvance := exec_advance hwell h
  refine ⟨hadvance.session_id, hadvance.expires_at_ms, ?_, ?_⟩
  · intro hclosed
    exact ⟨hadvance.closed hclosed, exec_sent_of_closed hwell hclosed h⟩
  · intro expires_at_ms call hactive hexpires hlate
    refine (s.apply_effect hwell call).of_expires ⟨hactive, ?_⟩
    rw [hexpires, Option.any_some]
    exact decide_eq_true hlate

/-- A closed gateway that is asked for a path. -/
theorem closed_absorbing_sample :
    Unchanged (Sample.gateway.run [.on_inbound (Sample.hello 1) 0, .on_inbound (Sample.close 2) 1])
      ((Sample.gateway.run [.on_inbound (Sample.hello 1) 0, .on_inbound (Sample.close 2) 1]).run
        [.on_inbound (Sample.attach 3 0x66 7) 2]) := by
  obtain ⟨results, hrun⟩ := exec_run
    (Sample.gateway.run [.on_inbound (Sample.hello 1) 0, .on_inbound (Sample.close 2) 1])
    [.on_inbound (Sample.attach 3 0x66 7) 2]
  exact ((closed_absorbing (Sample.gateway_fresh.reachable.run _) hrun).2.2.1 (by decide)).1

/-! ## Policy epochs -/

/-- The live pending update a frame acknowledges, on pruned tables. -/
def acknowledges (s : ControlConnectionState) (frame : ControlFrame) : Option PendingPolicyUpdate :=
  if frame.message = .Ack ∧ s.phase = .Active ∧ s.completed_action frame = none then
    s.pending_policy_updates.lookup frame.transaction_id
  else none

/-- The call delivers an acknowledgement of an update older than the policy the
gateway already runs. -/
def takes_back (s : ControlConnectionState) : ControlCall → Prop
  | .on_outbound .. => False
  | .on_inbound frame now_ms => s.role = .Gateway ∧ ¬ s.expires now_ms ∧
      ((s.prune now_ms).acknowledges frame).any
        (fun pending => pending.policy_epoch < s.policy_epoch)

instance (s : ControlConnectionState) : ∀ call, Decidable (s.takes_back call)
  | .on_outbound .. => inferInstanceAs (Decidable False)
  | .on_inbound .. => inferInstanceAs (Decidable (_ ∧ _ ∧ _))

theorem acknowledges_eq_none_of_request {frame : ControlFrame} (h : frame.message.is_request) :
    s.acknowledges frame = none := by
  rw [acknowledges, if_neg]
  rintro ⟨hack, -⟩
  rw [hack] at h
  contradiction

/-- A frame moves a gateway's epoch to the update it acknowledges, and otherwise
not back. -/
theorem GatewayInbound.policy_epoch {frame : ControlFrame} {now_ms : ℕ} {action : ControlAction}
    (hs : s.Wellformed) (h : s.GatewayInbound frame now_ms t action) :
    (∃ pending, s.acknowledges frame = some pending ∧ t.policy_epoch = pending.policy_epoch) ∨
      s.acknowledges frame = none ∧ s.policy_epoch ≤ t.policy_epoch := by
  cases h with
  | cached hcached =>
    refine .inr ⟨?_, le_rfl⟩
    rw [acknowledges, if_neg]
    rintro ⟨-, -, hfresh⟩
    rw [hcached] at hfresh
    contradiction
  | refused _ hrequest => exact .inr ⟨acknowledges_eq_none_of_request hrequest, le_rfl⟩
  | admitted _ hmessage hphase =>
    refine .inr ⟨acknowledges_eq_none_of_request (by rw [hmessage]; rfl), ?_⟩
    rw [(hs.unadmitted (.inl hphase)).2.2]
    exact Fin.zero_le _
  | attached _ hmessage =>
    exact .inr ⟨acknowledges_eq_none_of_request (by rw [hmessage]; rfl), le_rfl⟩
  | reattached _ hmessage =>
    exact .inr ⟨acknowledges_eq_none_of_request (by rw [hmessage]; rfl), le_rfl⟩
  | confirmed _ hmessage =>
    exact .inr ⟨acknowledges_eq_none_of_request (by rw [hmessage]; rfl), le_rfl⟩
  | detached _ hmessage =>
    exact .inr ⟨acknowledges_eq_none_of_request (by rw [hmessage]; rfl), le_rfl⟩
  | closed _ hmessage =>
    exact .inr ⟨acknowledges_eq_none_of_request (by rw [hmessage]; rfl), le_rfl⟩
  | acknowledged hfresh hmessage hphase hpending =>
    refine .inl ⟨_, ?_, rfl⟩
    rw [acknowledges, if_pos ⟨hmessage, hphase, hfresh⟩, hpending]
  | declined _ hmessage =>
    refine .inr ⟨?_, le_rfl⟩
    rw [acknowledges, if_neg]
    rintro ⟨hack, -⟩
    rw [hmessage] at hack
    contradiction
  | unsolicited _ _ hpending =>
    refine .inr ⟨?_, le_rfl⟩
    rw [acknowledges]
    split
    · next h => exact hpending h.2.1 (by rw [h.1]; rfl)
    · rfl

/-- A client's epoch only moves forward. -/
theorem ClientInbound.policy_epoch_le {frame : ControlFrame} {now_ms : ℕ} {action : ControlAction}
    (hs : s.Wellformed) (h : s.ClientInbound frame now_ms t action) :
    s.policy_epoch ≤ t.policy_epoch := by
  cases h with
  | admitted _ hphase =>
    rw [(hs.unadmitted (.inr hphase)).2.2]
    exact Fin.zero_le _
  | updated _ _ hnewer => exact hnewer.le
  | rejected => exact le_rfl
  | attached => exact le_rfl
  | closed => exact le_rfl
  | detached => exact le_rfl
  | settled => exact le_rfl

theorem ClientOutbound.policy_epoch_eq {frame : ControlFrame} {now_ms : ℕ}
    {result : Except ControlStateError Unit} (h : s.ClientOutbound frame now_ms t result) :
    t.policy_epoch = s.policy_epoch := by
  cases h <;> rfl

theorem GatewayOutbound.policy_epoch_eq {frame : ControlFrame} {now_ms : ℕ}
    {result : Except ControlStateError Unit} (h : s.GatewayOutbound frame now_ms t result) :
    t.policy_epoch = s.policy_epoch := by
  cases h <;> rfl

/-- One call takes the policy epoch back exactly when it delivers such an
acknowledgement. -/
theorem Effect.policy_epoch_le_iff {call : ControlCall} {result : ControlResult}
    (hs : s.Wellformed) (h : s.Effect call t result) :
    s.policy_epoch ≤ t.policy_epoch ↔ ¬ s.takes_back call := by
  cases h with
  | late_outbound => exact iff_of_true le_rfl id
  | late_inbound hexpires => exact iff_of_true le_rfl (fun h => h.2.1 hexpires)
  | client_outbound _ _ hsent =>
    rw [hsent.policy_epoch_eq]
    exact iff_of_true le_rfl id
  | gateway_outbound _ _ hsent =>
    rw [hsent.policy_epoch_eq]
    exact iff_of_true le_rfl id
  | client_inbound hrole _ hreceived =>
    have hle := hreceived.policy_epoch_le (hs.prune _)
    refine iff_of_true hle ?_
    rintro ⟨hgateway, -⟩
    rw [hrole] at hgateway
    contradiction
  | @gateway_inbound frame now_ms _ _ hrole hlive hreceived =>
    rcases hreceived.policy_epoch (hs.prune _) with ⟨pending, hpending, hepoch⟩ | ⟨hnone, hle⟩
    · have htakes : s.takes_back (.on_inbound frame now_ms) ↔
          pending.policy_epoch < s.policy_epoch := by
        rw [takes_back, hpending, Option.any_some, decide_eq_true_iff]
        exact ⟨fun h => h.2.2, fun h => ⟨hrole, hlive, h⟩⟩
      rw [htakes, hepoch, not_lt]
    · refine iff_of_true hle ?_
      rintro ⟨-, -, hany⟩
      rw [hnone] at hany
      contradiction

/-- **The policy epoch never goes back along a run exactly when no call of the run
delivers the acknowledgement of an update that a newer one has overtaken.** -/
theorem policy_epoch_mono_iff (hs : s.Reachable) (calls : List ControlCall) :
    Along step (fun s call => s.policy_epoch ≤ (s.apply call).1.policy_epoch) s calls ↔
      Along step (fun s call => ¬ s.takes_back call) s calls := by
  refine along_iff_along (I := Wellformed) ?_ ?_ hs.wellformed calls
  · intro u call u' o hu hstep
    obtain ⟨rfl, -⟩ := step_eq_some.mp hstep
    exact (apply_advance hu call).wellformed hu
  · intro u call hu
    exact (u.apply_effect hu call).policy_epoch_le_iff hu

/-- Two updates acknowledged in the order they were sent. -/
theorem policy_epoch_mono_sample :
    Along step (fun s call => s.policy_epoch ≤ (s.apply call).1.policy_epoch)
      (Sample.gateway.run [.on_inbound (Sample.hello 1) 0])
      [.on_outbound (Sample.update 2 2) 1, .on_outbound (Sample.update 3 3) 1,
        .on_inbound (ack 2) 2, .on_inbound (ack 3) 2] :=
  (policy_epoch_mono_iff (Sample.gateway_fresh.reachable.run _) _).mpr (by decide)

/-- Two updates are pending and the newer one is acknowledged first: the older
acknowledgement takes the gateway from epoch 3 back to epoch 2. -/
theorem policy_epoch_taken_back :
    ¬ ∀ (s : ControlConnectionState) (calls : List ControlCall), s.Reachable →
      Along step (fun s call => s.policy_epoch ≤ (s.apply call).1.policy_epoch) s calls := by
  intro hmono
  have hrun := hmono Sample.gateway [.on_inbound (Sample.hello 1) 0,
    .on_outbound (Sample.update 2 2) 1, .on_outbound (Sample.update 3 3) 1,
    .on_inbound (ack 3) 2, .on_inbound (ack 2) 2] Sample.gateway_fresh.reachable
  exact absurd hrun (by decide)

end ControlConnectionState

end StreamGuard.Control
