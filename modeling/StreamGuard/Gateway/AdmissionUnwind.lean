/-
What a failed admission undoes.

The unwinding of `accept_one_at` is keyed by the session, not by the connection: it
releases the session's lease and closes the session. For a first admission that is
all there is. For a further connection of an owner whose session is live it takes
the session's other connections along: `unwinding_scoped_iff` says at which
failures the session is left as it was.
-/
import StreamGuard.Gateway.AdmissionAlone

set_option autoImplicit false

namespace StreamGuard.Gateway

open StreamGuard StreamGuard.Lib StreamGuard.Session

/-! ## A further connection -/

/-- What a further connection of the owner meets: its session is live, and the pool
has its Active lease. -/
structure Live (s : Stores) (ctx : AdmissionContext) (ticket : VerifiedAdmissionTicket)
    (managed : ManagedSession) (lease : ActiveLease) : Prop where
  session : s.manager.sessions.lookup ticket.session_id = some managed
  device : managed.session.admission.device_id = ticket.device_id
  organization : managed.organization_id = ticket.organization_id
  unexpired : managed.session.is_expired ctx.now.monotonic_millis = false
  lease : s.pool.pool.inner.active.lookup ticket.session_id = some lease
  coherent : s.pool.Coherent
  idle : s.late = []

/-- The session, its authenticated connections, paths and attaches, and its
authority to send are those of before. -/
structure Undisturbed (session_id : SessionId) (before after : Stores) : Prop where
  session : after.manager.sessions.lookup session_id = before.manager.sessions.lookup session_id
  connections : ∀ id, before.manager.authenticated_connections.lookup id = some session_id →
    after.manager.authenticated_connections.lookup id = some session_id
  paths : ∀ id binding, before.manager.connections.lookup id = some binding →
    binding.1 = session_id → after.manager.connections.lookup id = some binding
  attaches : ∀ id pending, before.manager.pending_connections.lookup id = some pending →
    pending.reservation.session_id = session_id →
    after.manager.pending_connections.lookup id = some pending
  lease : AddressPool.lookup_active after.pool.pool.inner session_id =
    AddressPool.lookup_active before.pool.pool.inner session_id

/-- `reserve_admission` turns the ticket down. -/
def reservation_refused (ctx : AdmissionContext) (ticket : VerifiedAdmissionTicket) : Prop :=
  (is_zero_id ticket.session_id.bytes = true ∨ is_zero_id ticket.device_id.bytes = true) ∨
    expires_at_monotonic_ms ticket ctx.now = 0 ∨
    expires_at_monotonic_ms ticket ctx.now ≤ ctx.now.monotonic_millis

/-- The pool does not hand out the lease: the owner queue fails the call, a call on
the session is in progress, or the lease is another device's. -/
def lease_refused (s : Stores) (env : AdmissionEnv) (ticket : VerifiedAdmissionTicket)
    (lease : ActiveLease) : Prop :=
  (∀ ok, env.reserve ≠ .replied ok) ∨ ticket.session_id ∈ s.pool.pool.inner.inflight ∨
    lease.device_id ≠ ticket.device_id

/-- The session takes no further connection. -/
def bind_refused (s : Stores) (managed : ManagedSession) : Prop :=
  managed.session.state ≠ .Active ∨
    s.manager.maximum_authenticated_connections ≤ s.manager.authenticated_connections.len

/-- A release would leave an Active lease alone: it is not queued, or its delete
fails with the quarantine full. -/
def release_harmless (s : Stores) (env : AdmissionEnv) : Prop :=
  env.release.served = none ∨
    (s.pool.durable = true ∧ env.release.served = some false ∧
      s.pool.pool.inner.quarantine_full s.pool.pool.config)

theorem Undisturbed.of_lookup {session_id : SessionId} {s s' : Stores}
    (hmanager : s'.manager = s.manager)
    (hlease : AddressPool.lookup_active s'.pool.pool.inner session_id =
      AddressPool.lookup_active s.pool.pool.inner session_id) :
    Undisturbed session_id s s' := by
  refine ⟨?_, ?_, ?_, ?_, hlease⟩
  · rw [hmanager]
  · intro id h
    rw [hmanager]
    exact h
  · intro id binding h _
    rw [hmanager]
    exact h
  · intro id pending h _
    rw [hmanager]
    exact h

section Live

variable {ctx : AdmissionContext} {env : AdmissionEnv} {s : Stores}
  {ticket : VerifiedAdmissionTicket} {managed : ManagedSession} {lease : ActiveLease}

/-- A live session's lease is at rest unless a call has the session in flight. -/
theorem Live.at_rest (h : Live s ctx ticket managed lease)
    (hflight : ticket.session_id ∉ s.pool.pool.inner.inflight) :
    s.pool.pool.inner.slot ticket.session_id = (Place.active lease).slot := by
  obtain ⟨p, hp⟩ := h.coherent.places ticket.session_id
  have hactive : p.slot.active = some lease := (congrArg Slot.active hp.slot).symm.trans h.lease
  have hinflight : p.slot.inflight = false :=
    (congrArg Slot.inflight hp.slot).symm.trans (decide_eq_false hflight)
  rw [hp.slot]
  cases p with
  | active other =>
    obtain rfl := Option.some.inj hactive
    rfl
  | renewing other mono => contradiction
  | _ => contradiction

/-- The session answers for the reservation, or the ticket is turned down; neither
changes anything. -/
theorem Live.admit_finish (h : Live s ctx ticket managed lease) :
    (reservation_refused ctx ticket ∧
        admit_finish s.manager ticket ctx.now = (s.manager, .error .ProvisioningRejected, [])) ∨
      (¬ reservation_refused ctx ticket ∧ ∃ admitted : AdmissionAccepted,
        admitted.owner = SessionOwner.from_ticket ticket ∧
        admitted.reservation.session_id = ticket.session_id ∧
        admitted.reservation.creates_session = false ∧
        admit_finish s.manager ticket ctx.now = (s.manager, .ok admitted, [])) := by
  have hcleanup : s.manager.expire_admitted ticket.session_id ctx.now.monotonic_millis =
      (s.manager, none) := by
    rw [V2SessionManager.expire_admitted, h.session, Option.any_some, h.unexpired]
    rfl
  have howner : s.manager.reserve_owner ticket.session_id ticket.device_id ticket.organization_id
      (expires_at_monotonic_ms ticket ctx.now) = (s.manager,
        .ok ⟨ticket.session_id, ticket.device_id, ticket.organization_id,
          managed.session.admission.expires_at_ms, false⟩) := by
    rw [V2SessionManager.reserve_owner, h.session]
    dsimp only
    rw [if_neg (not_or.mpr ⟨not_not.mpr h.device, not_not.mpr h.organization⟩)]
  -- the three answers of `reserve_admission`
  by_cases hids : is_zero_id ticket.session_id.bytes = true ∨ is_zero_id ticket.device_id.bytes = true
  · left
    have hreserve : s.manager.reserve_admission ticket.session_id ticket.device_id
        ticket.organization_id (expires_at_monotonic_ms ticket ctx.now) ctx.now.monotonic_millis =
          s.manager.fails .InvalidIdentity := by
      rw [V2SessionManager.reserve_admission, if_pos hids]
    refine ⟨.inl hids, ?_⟩
    unfold Gateway.admit_finish SessionOwner.from_ticket
    dsimp only
    rw [hreserve]
    rfl
  by_cases hexpired : expires_at_monotonic_ms ticket ctx.now = 0 ∨
      expires_at_monotonic_ms ticket ctx.now ≤ ctx.now.monotonic_millis
  · left
    have hreserve : s.manager.reserve_admission ticket.session_id ticket.device_id
        ticket.organization_id (expires_at_monotonic_ms ticket ctx.now) ctx.now.monotonic_millis =
          s.manager.fails .Expired := by
      rw [V2SessionManager.reserve_admission, if_neg hids, if_pos hexpired]
    refine ⟨.inr hexpired, ?_⟩
    unfold Gateway.admit_finish SessionOwner.from_ticket
    dsimp only
    rw [hreserve]
    rfl
  · right
    have hreserve : s.manager.reserve_admission ticket.session_id ticket.device_id
        ticket.organization_id (expires_at_monotonic_ms ticket ctx.now) ctx.now.monotonic_millis =
          s.manager.returns ⟨ticket.session_id, ticket.device_id, ticket.organization_id,
            managed.session.admission.expires_at_ms, false⟩ := by
      rw [V2SessionManager.reserve_admission, if_neg hids, if_neg hexpired, hcleanup]
      dsimp only
      rw [howner]
      rfl
    refine ⟨not_or.mpr ⟨hids, hexpired⟩, ⟨SessionOwner.from_ticket ticket,
      ticket.expires_at_unix_seconds, ticket.policy_version, ⟨ticket.session_id, ticket.device_id,
        ticket.organization_id, managed.session.admission.expires_at_ms, false⟩⟩, rfl, rfl, rfl, ?_⟩
    unfold Gateway.admit_finish SessionOwner.from_ticket
    dsimp only
    rw [hreserve]
    rfl

end Live

/-! ## The four failures of a further connection -/

section Live

variable {ctx : AdmissionContext} {env : AdmissionEnv} {s : Stores}
  {ticket : VerifiedAdmissionTicket} {managed : ManagedSession} {lease : ActiveLease}
  {admitted : AdmissionAccepted}

/-- The binding of a further connection: refused with nothing changed, or a fresh
capability and nothing else. -/
theorem Live.bind_turn (h : Live s ctx ticket managed lease)
    (hid : admitted.reservation.session_id = ticket.session_id)
    (hfirst : admitted.reservation.creates_session = false) :
    (bind_refused s managed ∧
        bind_turn ctx s.manager admitted = ⟨s.manager, [], .await (.unbinding admitted)⟩) ∨
      (¬ bind_refused s managed ∧ ∃ m connection, connection.session_id = ticket.session_id ∧
        m.authenticates connection = true ∧
        bind_turn ctx s.manager admitted = ⟨m, [], .await (.committing admitted connection)⟩) := by
  have hcommit : s.manager.commit_admission_and_bind admitted.reservation ctx.now.monotonic_millis =
      s.manager.bind_authenticated_connection ticket.session_id ctx.now.monotonic_millis := by
    rw [V2SessionManager.commit_admission_and_bind, hfirst, ← hid]
    rfl
  have hlive : ¬ managed.session.is_expired ctx.now.monotonic_millis = true := by
    simp [h.unexpired]
  by_cases hrefused : bind_refused s managed
  · left
    refine ⟨hrefused, ?_⟩
    have hbind : ∃ e, s.manager.bind_authenticated_connection ticket.session_id
        ctx.now.monotonic_millis = s.manager.fails e := by
      rw [V2SessionManager.bind_authenticated_connection, h.session]
      dsimp only
      rw [if_neg hlive]
      by_cases hstate : managed.session.state = .Active
      · have hfull := hrefused.resolve_left (not_not.mpr hstate)
        rw [if_neg (not_not.mpr hstate), if_pos hfull]
        exact ⟨_, rfl⟩
      · rw [if_pos hstate]
        exact ⟨_, rfl⟩
    obtain ⟨e, he⟩ := hbind
    rw [Gateway.bind_turn, commit_and_bind, hcommit, he]
    rfl
  · right
    obtain ⟨hstate, hroom⟩ := not_or.mp hrefused
    have hbind : s.manager.bind_authenticated_connection ticket.session_id
        ctx.now.monotonic_millis = s.manager.bind ticket.session_id := by
      rw [V2SessionManager.bind_authenticated_connection, h.session]
      dsimp only
      rw [if_neg hlive, if_neg hstate, if_neg hroom]
    refine ⟨hrefused, (s.manager.bind ticket.session_id).manager,
      ⟨ticket.session_id, ⟨s.manager.next_connection_identity.2⟩⟩, rfl, ?_, ?_⟩
    · rw [V2SessionManager.authenticates, V2SessionManager.bind]
      exact decide_eq_true (AList.lookup_insert _)
    · rw [Gateway.bind_turn, commit_and_bind, hcommit, hbind]
      rfl

/-- The reserve call of a further connection changes nothing, whether it runs before
the pass goes on or after. -/
theorem Live.serve_reserve (h : Live s ctx ticket managed lease)
    (hids : ¬ (is_zero_id ticket.session_id.bytes = true ∨ is_zero_id ticket.device_id.bytes = true))
    (ok : Bool) : ∃ result,
      s.pool.serve (.reserve ticket.session_id ticket.device_id ctx.pool_now) ok =
        (s.pool, [.reserved ticket.session_id result]) ∧
      ((∃ e, result = .error e) ↔ ticket.session_id ∈ s.pool.pool.inner.inflight ∨
        lease.device_id ≠ ticket.device_id) := by
  by_cases hflight : ticket.session_id ∈ s.pool.pool.inner.inflight
  · obtain ⟨e, he⟩ := PoolSystem.serve_reserve_inflight ticket.device_id ctx.pool_now ok hflight
    exact ⟨_, he, fun _ => .inl hflight, fun _ => ⟨e, rfl⟩⟩
  · refine ⟨_, PoolSystem.serve_reserve_active ctx.pool_now ok hids (h.at_rest hflight), ?_⟩
    by_cases hdevice : lease.device_id ≠ ticket.device_id
    · rw [if_pos hdevice]
      exact ⟨fun _ => .inr hdevice, fun _ => ⟨_, rfl⟩⟩
    · rw [if_neg hdevice]
      refine ⟨fun ⟨e, he⟩ => by contradiction, ?_⟩
      rintro (hin | hother)
      · exact absurd hin hflight
      · exact absurd hother hdevice

/-- The reserve phase of a further connection: dropped, refused, or the lease of the
session with both stores as they were. -/
theorem Live.wait_reserving (h : Live s ctx ticket managed lease) (env : AdmissionEnv)
    (hids : ¬ (is_zero_id ticket.session_id.bytes = true ∨ is_zero_id ticket.device_id.bytes = true))
    (howner : admitted.owner = SessionOwner.from_ticket ticket) :
    (s.wait ctx env (.reserving admitted)).2 = none ∨
      (lease_refused s env ticket lease ∧
        (∃ e, (s.wait ctx env (.reserving admitted)).2 = some (.reserved (.error e))) ∧
        (s.wait ctx env (.reserving admitted)).1.drain = s) ∨
      (¬ lease_refused s env ticket lease ∧
        ∃ a, s.wait ctx env (.reserving admitted) = (s, some (.reserved (.ok a)))) := by
  have hwait : s.wait ctx env (.reserving admitted) =
      ((s.ask (.reserve ticket.session_id ticket.device_id ctx.pool_now) env.reserve).1,
        (s.ask (.reserve ticket.session_id ticket.device_id ctx.pool_now) env.reserve).2.bind
          (AdmissionPhase.reserving admitted).reply) := by
    rw [Stores.wait, AdmissionPhase.pool_call, howner]
    rfl
  -- served or not, the call leaves the pool alone
  have hsettled : (s.ask (.reserve ticket.session_id ticket.device_id ctx.pool_now)
      env.reserve).1.drain = s := by
    rw [Stores.ask_settled h.idle]
    cases hserved : env.reserve.served with
    | none => rfl
    | some ok =>
      obtain ⟨result, hserve, -⟩ := h.serve_reserve hids ok
      rw [Option.elim_some, hserve]
  rw [hwait]
  dsimp only
  cases hanswer : env.reserve with
  | dropped ok => exact .inl rfl
  | timed_out ok before =>
    rw [hanswer] at hsettled
    refine .inr (.inl ⟨.inl ?_, ?_, hsettled⟩)
    · rw [hanswer]
      exact fun ok h => by contradiction
    · cases before with
      | true => exact ⟨_, rfl⟩
      | false => exact ⟨_, rfl⟩
  | refused error =>
    rw [hanswer] at hsettled
    refine .inr (.inl ⟨.inl ?_, ⟨_, rfl⟩, hsettled⟩)
    rw [hanswer]
    exact fun ok h => by contradiction
  | replied ok =>
    obtain ⟨result, hserve, hresult⟩ := h.serve_reserve hids ok
    have hask : s.ask (.reserve ticket.session_id ticket.device_id ctx.pool_now) (.replied ok) =
        (s, some (.ok [.reserved ticket.session_id result])) := by
      rw [Stores.ask, Stores.drain_idle h.idle, hserve]
    rw [hask]
    cases result with
    | error e =>
      refine .inr (.inl ⟨.inr (hresult.mp ⟨e, rfl⟩), ⟨e, rfl⟩, Stores.drain_idle h.idle⟩)
    | ok a =>
      refine .inr (.inr ⟨?_, a, rfl⟩)
      rintro (hnot | hpool)
      · exact hnot ok hanswer
      · obtain ⟨e, he⟩ := hresult.mpr hpool
        contradiction

/-- The release after a refused binding takes the lease of the session, unless it
comes to nothing. -/
theorem Live.run_unbinding (h : Live s ctx ticket managed lease)
    (hflight : ticket.session_id ∉ s.pool.pool.inner.inflight)
    (howner : admitted.owner = SessionOwner.from_ticket ticket)
    (hfirst : admitted.reservation.creates_session = false) {steps : ℕ}
    {error : V2AdmissionListenerError}
    (hfailed : (s.run ctx env (steps + 1) (.unbinding admitted)).2 = .failed error) :
    Undisturbed ticket.session_id s (s.run ctx env (steps + 1) (.unbinding admitted)).1.drain ↔
      release_harmless s env := by
  have hwait : s.wait ctx env (.unbinding admitted) =
      ((s.ask (.release ticket.session_id) env.release).1,
        (s.ask (.release ticket.session_id) env.release).2.bind
          (AdmissionPhase.unbinding admitted).reply) := by
    rw [Stores.wait, AdmissionPhase.pool_call, howner]
    rfl
  have hmanager := Stores.ask_manager (s := s) (.release ticket.session_id) env.release
  have hsettled := Stores.ask_settled h.idle (.release ticket.session_id) env.release
  rw [Stores.run, hwait] at hfailed ⊢
  generalize s.ask (.release ticket.session_id) env.release = asked at hmanager hsettled hfailed ⊢
  obtain ⟨s', answer⟩ := asked
  dsimp only at hmanager hsettled hfailed ⊢
  cases answer with
  | none => contradiction
  | some reply =>
    have habort : abort s'.manager admitted = s'.manager := by
      rw [abort, V2SessionManager.abort_admission, hfirst]
      rfl
    have hreply : (AdmissionPhase.unbinding admitted).reply reply = some .released := rfl
    rw [Option.bind_some, hreply]
    dsimp only [admission_step]
    rw [habort]
    have hlease : AddressPool.lookup_active s.pool.pool.inner ticket.session_id =
        some lease.addresses := by
      rw [AddressPool.lookup_active, h.lease]
      rfl
    change Undisturbed ticket.session_id s s'.drain ↔ _
    rw [hsettled]
    -- what is left of the lease depends on what became of the release
    have hafter : AddressPool.lookup_active
        (env.release.served.elim s.pool
          (fun ok => (s.pool.serve (.release ticket.session_id) ok).1)).pool.inner
          ticket.session_id = some lease.addresses ↔ release_harmless s env := by
      cases hserved : env.release.served with
      | none => exact ⟨fun _ => .inl hserved, fun _ => hlease⟩
      | some ok =>
        rw [Option.elim_some, PoolSystem.serve_release_active ok (h.at_rest hflight)]
        split
        · next hkept =>
          obtain ⟨hdurable, rfl, hfull⟩ := hkept
          exact ⟨fun _ => .inr ⟨hdurable, hserved, hfull⟩, fun _ => rfl⟩
        · next hgone =>
          refine ⟨fun h => by contradiction, ?_⟩
          rintro (hnone | ⟨hdurable, hfalse, hfull⟩)
          · rw [hserved] at hnone
            contradiction
          · rw [hserved] at hfalse
            exact absurd ⟨hdurable, Option.some.inj hfalse, hfull⟩ hgone
    rw [← hafter]
    constructor
    · intro hundisturbed
      exact hundisturbed.lease.trans hlease
    · intro hkept
      exact .of_lookup rfl (hkept.trans hlease.symm)

/-- **What a failed admission leaves of a live session.** For a further connection of
the owner of a live session, every failure up to the pool's answer leaves the session
as it was, a refused binding does only if its release comes to nothing, and every later
failure closes the session under its other connections. -/
theorem unwinding_scoped_iff (h : Live s ctx ticket managed lease)
    {error : V2AdmissionListenerError}
    (hfailed : (s.accept_one ctx env ticket).2 = .failed error) :
    Undisturbed ticket.session_id s (s.accept_one ctx env ticket).1 ↔
      reservation_refused ctx ticket ∨ lease_refused s env ticket lease ∨
        (bind_refused s managed ∧ release_harmless s env) := by
  rw [Stores.accept_one] at hfailed ⊢
  rcases h.admit_finish with
    ⟨hrefused, hgranted⟩ | ⟨hreserved, admitted, howner, hid, hfirst, hgranted⟩
  · -- `reserve_admission` fails
    rw [hgranted]
    refine ⟨fun _ => .inl hrefused, fun _ => ?_⟩
    change Undisturbed ticket.session_id s s.drain
    rw [Stores.drain_idle h.idle]
    exact .of_lookup rfl rfl
  rw [hgranted] at hfailed ⊢
  dsimp only at hfailed ⊢
  rw [Stores.cleanup_nil] at hfailed ⊢
  have hids := fun hzero => hreserved (.inl hzero)
  rcases h.wait_reserving env hids howner with hdropped | ⟨hrefused, ⟨e, hanswer⟩, hsettled⟩ |
    ⟨hleased, a, hwait⟩
  · -- the pass is dropped
    rw [Stores.MAX_PHASES, Stores.run] at hfailed
    generalize s.wait ctx env (.reserving admitted) = waited at hdropped hfailed
    obtain ⟨s', answer⟩ := waited
    dsimp only at hdropped
    subst hdropped
    contradiction
  · -- the pool's reserve fails
    refine ⟨fun _ => .inr (.inl hrefused), fun _ => ?_⟩
    have hmanager : (s.wait ctx env (.reserving admitted)).1.manager = s.manager :=
      Stores.wait_manager (.reserving admitted)
    rw [Stores.MAX_PHASES, Stores.run]
    generalize s.wait ctx env (.reserving admitted) = waited at hanswer hsettled hmanager
    obtain ⟨s', answer⟩ := waited
    dsimp only at hanswer hsettled hmanager
    subst hanswer
    have habort : abort s'.manager admitted = s'.manager := by
      rw [abort, V2SessionManager.abort_admission, hfirst]
      rfl
    dsimp only [admission_step]
    rw [habort]
    change Undisturbed ticket.session_id s s'.drain
    rw [hsettled]
    exact .of_lookup rfl rfl
  · have hflight := fun hin => hleased (.inr (.inl hin))
    rw [Stores.MAX_PHASES, Stores.run, hwait] at hfailed ⊢
    dsimp only [admission_step] at hfailed ⊢
    rcases h.bind_turn hid hfirst with
      ⟨hrefused, hturn⟩ | ⟨hbound, m, connection, hsession, hm, hturn⟩
    · -- the binding fails
      rw [hturn] at hfailed ⊢
      dsimp only at hfailed ⊢
      rw [Stores.cleanup_nil] at hfailed ⊢
      rw [h.run_unbinding hflight howner hfirst hfailed]
      constructor
      · intro hharmless
        exact .inr (.inr ⟨hrefused, hharmless⟩)
      · rintro (hreservation | hlease | ⟨-, hharmless⟩)
        · exact absurd hreservation hreserved
        · exact absurd hlease hleased
        · exact hharmless
    · -- any later step fails
      rw [hturn] at hfailed ⊢
      dsimp only at hfailed ⊢
      rw [Stores.cleanup_nil] at hfailed ⊢
      have hclosed := Stores.run_failed_closes rfl hm hfailed
      constructor
      · intro hundisturbed
        have hsame := hundisturbed.session
        rw [Stores.drain_manager, ← hsession, hclosed, hsession, h.session] at hsame
        contradiction
      · rintro (hreservation | hlease | ⟨hbind, -⟩)
        · exact absurd hreservation hreserved
        · exact absurd hlease hleased
        · exact absurd hbind hbound

end Live

section Sample

open Stores.Sample

/-- The session of the sample is live. -/
theorem sample_live : ∃ managed lease, Live live context ticket managed lease := by
  have hsession : (live.manager.sessions.lookup ticket.session_id).any (fun managed =>
      managed.session.admission.device_id = ticket.device_id ∧
        managed.organization_id = ticket.organization_id ∧
        managed.session.is_expired context.now.monotonic_millis = false) = true := by
    decide
  have hactive : (live.pool.pool.inner.active.lookup ticket.session_id).isSome = true := by
    decide
  obtain ⟨managed, hmanaged, howner⟩ := Option.any_eq_true _ _ |>.mp hsession
  obtain ⟨lease, hlease⟩ := Option.isSome_iff_exists.mp hactive
  obtain ⟨hdevice, horganization, hexpired⟩ := of_decide_eq_true howner
  obtain ⟨hsound, hidle⟩ := fresh_sound.accept_one context prompt ticket
  exact ⟨managed, lease, hmanaged, hdevice, horganization, hexpired, hlease, hsound.coherent, hidle⟩

/-- The owner queue is full when a second connection is admitted. -/
theorem unwinding_scoped_sample :
    ∃ managed lease, Live live context ticket managed lease ∧
      (live.accept_one context { prompt with reserve := .refused .Full } ticket).2 =
        .failed .AddressPool ∧
      (Undisturbed ticket.session_id live
          (live.accept_one context { prompt with reserve := .refused .Full } ticket).1 ↔
        reservation_refused context ticket ∨
          lease_refused live { prompt with reserve := .refused .Full } ticket lease ∨
          (bind_refused live managed ∧
            release_harmless live { prompt with reserve := .refused .Full })) := by
  obtain ⟨managed, lease, hlive⟩ := sample_live
  have hfailed : (live.accept_one context { prompt with reserve := .refused .Full } ticket).2 =
      .failed .AddressPool := by
    decide
  exact ⟨managed, lease, hlive, hfailed, unwinding_scoped_iff hlive hfailed⟩

/-- The answer to a second connection cannot be written: the session goes, and the
lease with it, under the first connection. -/
theorem second_connection_closes_session :
    ∃ managed lease id, Live live context ticket managed lease ∧
      live.manager.authenticated_connections.lookup id = some ticket.session_id ∧
      (live.accept_one context { prompt with write := .failed } ticket).2 = .failed .ResponseWrite ∧
      (live.accept_one context { prompt with write := .failed } ticket).1.manager.sessions.lookup
        ticket.session_id = none ∧
      AddressPool.lookup_active
        (live.accept_one context { prompt with write := .failed } ticket).1.pool.pool.inner
          ticket.session_id = none ∧
      ¬ Undisturbed ticket.session_id live
        (live.accept_one context { prompt with write := .failed } ticket).1 := by
  obtain ⟨managed, lease, hlive⟩ := sample_live
  have hclosed : ((live.accept_one context { prompt with write := .failed }
      ticket).1.manager.sessions.lookup ticket.session_id).isNone = true := by
    decide
  have hclosed := Option.isNone_iff_eq_none.mp hclosed
  refine ⟨managed, lease, ⟨1⟩, hlive, by decide, by decide, hclosed,
    by decide, ?_⟩
  intro hundisturbed
  have hsame := hundisturbed.session
  rw [hclosed, hlive.session] at hsame
  contradiction

end Sample

end StreamGuard.Gateway
