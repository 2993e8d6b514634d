/-
Which sessions a manager call inserts and removes.

Most of the manager's methods work on paths and connections. `Keeps` says that a
call leaves the sessions and the reservations themselves alone, and `Ledger` what
any call can do to them: a session in the map was there before, with the same
admission, or the call committed its reservation; and a session that is gone is
among the removals, whose cleanup rounds follow.
-/
import StreamGuard.Gateway.SessionManager
import StreamGuard.Lib.Run

set_option autoImplicit false

namespace StreamGuard.Gateway

open StreamGuard StreamGuard.Lib StreamGuard.Session

/-! ## Calls -/

/-- A call on the manager. -/
inductive ManagerCall where
  | reserve_admission (session_id : SessionId) (device_id : DeviceId)
      (organization_id : OrganizationId) (expires_at_ms now_ms : ℕ)
  | commit_admission (reservation : AdmissionReservation) (now_ms : ℕ)
  | commit_admission_and_bind (reservation : AdmissionReservation) (now_ms : ℕ)
  | abort_admission (reservation : AdmissionReservation)
  | bind_authenticated_connection (session_id : SessionId) (now_ms : ℕ)
  | reserve_attach (connection : AuthenticatedConnection) (path_epoch : U64) (key_epoch : U32)
      (now_ms : ℕ)
  | commit_attach (reservation : GatewayAttachReservation)
  | detach_connection (connection : AuthenticatedConnection) (path_id : PathId)
      (path_epoch : U64) (now_ms : ℕ)
  | validate_attached_path (connection : AuthenticatedConnection) (path_id : PathId)
      (path_epoch : U64) (key_epoch : U32) (now_ms : ℕ)
  | close_connection (connection : AuthenticatedConnection)
  | validate_ingress (connection : AuthenticatedConnection) (envelope : V2Envelope) (now_ms : ℕ)
  | record_authenticated_activity (connection : AuthenticatedConnection) (now_ms : ℕ)
  | begin_draining (session_id : SessionId)
  | close (session_id : SessionId)
  | close_all (order : Traversal SessionId ManagedSession)
  | close_session (connection : AuthenticatedConnection)
  | sweep (order : Traversal SessionId ManagedSession) (now_ms : ℕ)

/-- The state and the removals of a reply. -/
def Reply.effect {α : Type} (r : Reply α) : V2SessionManager × List SessionRemoval :=
  (r.manager, r.removals)

/-- The state after a call, and the sessions it removed. -/
def ManagerCall.apply (m : V2SessionManager) :
    ManagerCall → V2SessionManager × List SessionRemoval
  | .reserve_admission session_id device_id organization_id expires_at_ms now_ms =>
    (m.reserve_admission session_id device_id organization_id expires_at_ms now_ms).effect
  | .commit_admission reservation now_ms => (m.commit_admission reservation now_ms).effect
  | .commit_admission_and_bind reservation now_ms =>
    (m.commit_admission_and_bind reservation now_ms).effect
  | .abort_admission reservation => (m.abort_admission reservation).effect
  | .bind_authenticated_connection session_id now_ms =>
    (m.bind_authenticated_connection session_id now_ms).effect
  | .reserve_attach connection path_epoch key_epoch now_ms =>
    (m.reserve_attach connection path_epoch key_epoch now_ms).effect
  | .commit_attach reservation => (m.commit_attach reservation).effect
  | .detach_connection connection path_id path_epoch now_ms =>
    (m.detach_connection connection path_id path_epoch now_ms).effect
  | .validate_attached_path connection path_id path_epoch key_epoch now_ms =>
    (m.validate_attached_path connection path_id path_epoch key_epoch now_ms).effect
  | .close_connection connection => (m.close_connection connection).effect
  | .validate_ingress connection envelope now_ms =>
    (m.validate_ingress connection envelope now_ms).effect
  | .record_authenticated_activity connection now_ms =>
    (m.record_authenticated_activity connection now_ms).effect
  | .begin_draining session_id => (m.begin_draining session_id).effect
  | .close session_id => (m.close session_id).effect
  | .close_all order => m.close_all order
  | .close_session connection => (m.close_session connection).effect
  | .sweep order now_ms => m.sweep order now_ms

/-! ## Calls that only touch paths and connections -/

/-- What a managed session keeps under path operations. -/
def ManagedSession.ident (managed : ManagedSession) :
    (Admission × SessionState) × OrganizationId × ℕ :=
  (managed.session.ticket, managed.organization_id, managed.last_activity_ms)

namespace V2SessionManager

/-- The sessions as path operations leave them. -/
def idents (m : V2SessionManager) (session_id : SessionId) :
    Option ((Admission × SessionState) × OrganizationId × ℕ) :=
  (m.sessions.lookup session_id).map ManagedSession.ident

/-- The sessions and the reservations are those of before. -/
structure Keeps (m m' : V2SessionManager) : Prop where
  config : m'.config = m.config
  idents : m'.idents = m.idents
  admissions : m'.admissions = m.admissions

variable {m m' : V2SessionManager} {session_id : SessionId}

theorem Keeps.rfl : m.Keeps m := ⟨.refl _, .refl _, .refl _⟩

theorem Keeps.trans {m'' : V2SessionManager} (h : m.Keeps m') (h' : m'.Keeps m'') : m.Keeps m'' :=
  ⟨h'.config.trans h.config, h'.idents.trans h.idents, h'.admissions.trans h.admissions⟩

/-- Changes of the connection maps alone. -/
theorem Keeps.of_sessions (hc : m'.config = m.config) (hs : m'.sessions = m.sessions)
    (ha : m'.admissions = m.admissions) : m.Keeps m' := by
  refine ⟨hc, ?_, ha⟩
  funext session_id
  rw [V2SessionManager.idents, V2SessionManager.idents, hs]

theorem Keeps.update {managed managed' : ManagedSession}
    (hl : m.sessions.lookup session_id = some managed) (hi : managed'.ident = managed.ident) :
    m.Keeps (m.update_session session_id managed') := by
  refine ⟨.refl _, ?_, .refl _⟩
  funext id
  rw [V2SessionManager.idents, V2SessionManager.idents, update_session, AList.lookup_insert_of]
  split
  · next he =>
    subst he
    rw [hl]
    exact congrArg some hi
  · exact .refl _

/-- A path operation on one session, after changes of the connection maps. -/
theorem Keeps.path {managed : ManagedSession} {session : V2Session}
    (h : m.Keeps m') (hl : m'.sessions.lookup session_id = some managed)
    (ht : session.ticket = managed.session.ticket) :
    m.Keeps (m'.update_session session_id { managed with session := session }) := by
  refine h.trans (.update hl ?_)
  rw [ManagedSession.ident, ManagedSession.ident, ht]

theorem prune_pending_attach_keeps (e : Σ _ : ConnectionId, PendingAttach) :
    m.Keeps (m.prune_pending_attach e) := by
  unfold prune_pending_attach
  dsimp only
  split
  · exact .of_sessions (.refl _) (.refl _) (.refl _)
  · refine Keeps.path ?_ ?_ (V2Session.abort_attach_ticket _ _)
    · exact .of_sessions (.refl _) (.refl _) (.refl _)
    · assumption

theorem prune_pending_attaches_keeps (m : V2SessionManager) (now_ms : ℕ) :
    m.Keeps (m.prune_pending_attaches now_ms) := by
  rw [prune_pending_attaches]
  exact List.foldlRecOn (motive := fun pruned : V2SessionManager => m.Keeps pruned) _ _ .rfl
    (fun _ hbefore e _ => hbefore.trans (prune_pending_attach_keeps e))

theorem reserve_attach_keeps (connection : AuthenticatedConnection) (path_epoch : U64)
    (key_epoch : U32) (now_ms : ℕ) :
    m.Keeps (m.reserve_attach connection path_epoch key_epoch now_ms).manager ∧
      (m.reserve_attach connection path_epoch key_epoch now_ms).removals = [] := by
  have hprune := prune_pending_attaches_keeps m now_ms
  unfold reserve_attach
  dsimp only
  generalize m.prune_pending_attaches now_ms = pruned at hprune ⊢
  split
  · exact ⟨hprune, .refl _⟩
  split
  · exact ⟨hprune, .refl _⟩
  split
  · exact ⟨hprune, .refl _⟩
  split
  · exact ⟨hprune, .refl _⟩
  next managed hl =>
  have hupdate := hprune.path hl
    (V2Session.reserve_attach_ticket managed.session connection.connection_id path_epoch key_epoch
      now_ms)
  generalize managed.session.reserve_attach connection.connection_id path_epoch key_epoch now_ms =
    r at hupdate
  obtain ⟨session, result⟩ := r
  dsimp only at hupdate ⊢
  split
  · exact ⟨hupdate, .refl _⟩
  · exact ⟨hupdate.trans (.of_sessions (.refl _) (.refl _) (.refl _)), .refl _⟩

theorem commit_attach_keeps (reservation : GatewayAttachReservation) :
    m.Keeps (m.commit_attach reservation).manager ∧ (m.commit_attach reservation).removals = [] := by
  unfold commit_attach
  dsimp only
  have herase : m.Keeps { m with
      pending_connections := m.pending_connections.erase reservation.reservation.connection_id } :=
    .of_sessions (.refl _) (.refl _) (.refl _)
  split
  · exact ⟨herase, .refl _⟩
  split
  · exact ⟨herase, .refl _⟩
  next managed hl =>
  have hcommit := V2Session.commit_attach_ticket managed.session reservation.reservation
  split
  · next session e hr =>
    rw [hr] at hcommit
    exact ⟨herase.path hl hcommit, .refl _⟩
  next session path hr =>
  rw [hr] at hcommit
  have hstate := V2Session.set_path_state_ticket session path.path_id .Healthy
  split
  · next session' e hr' =>
    rw [hr'] at hstate
    exact ⟨herase.path hl (hstate.trans hcommit), .refl _⟩
  · next session' path' hr' =>
    rw [hr'] at hstate
    exact ⟨(herase.path hl (hstate.trans hcommit)).trans
      (.of_sessions (.refl _) (.refl _) (.refl _)), .refl _⟩

theorem detach_connection_keeps (connection : AuthenticatedConnection) (path_id : PathId)
    (path_epoch : U64) (now_ms : ℕ) :
    m.Keeps (m.detach_connection connection path_id path_epoch now_ms).manager ∧
      (m.detach_connection connection path_id path_epoch now_ms).removals = [] := by
  unfold detach_connection
  split
  · exact ⟨.rfl, .refl _⟩
  split
  · exact ⟨.rfl, .refl _⟩
  split
  · exact ⟨.rfl, .refl _⟩
  dsimp only
  split
  · exact ⟨.of_sessions (.refl _) (.refl _) (.refl _), .refl _⟩
  · refine ⟨Keeps.path ?_ ?_ (V2Session.detach_ticket _ _ _ _ _), .refl _⟩
    · exact .of_sessions (.refl _) (.refl _) (.refl _)
    · assumption

theorem close_connection_keeps (connection : AuthenticatedConnection) :
    m.Keeps (m.close_connection connection).manager ∧
      (m.close_connection connection).removals = [] := by
  unfold close_connection
  dsimp only
  split
  · exact ⟨.of_sessions (.refl _) (.refl _) (.refl _), .refl _⟩
  split
  · split
    · exact ⟨.of_sessions (.refl _) (.refl _) (.refl _), .refl _⟩
    · refine ⟨Keeps.path ?_ ?_ (V2Session.abort_attach_ticket _ _), .refl _⟩
      · exact .of_sessions (.refl _) (.refl _) (.refl _)
      · assumption
  split
  · exact ⟨.of_sessions (.refl _) (.refl _) (.refl _), .refl _⟩
  split
  · exact ⟨.of_sessions (.refl _) (.refl _) (.refl _), .refl _⟩
  · refine ⟨Keeps.path ?_ ?_ (V2Session.detach_ticket _ _ _ _ _), .refl _⟩
    · exact .of_sessions (.refl _) (.refl _) (.refl _)
    · assumption

theorem sweep_prune_idents (m : V2SessionManager) (now_ms : ℕ) :
    (m.sweep_prune now_ms).idents = m.idents ∧
      ∀ {id r}, (m.sweep_prune now_ms).admissions.lookup id = some r →
        m.admissions.lookup id = some r := by
  have hpass : ∀ m : V2SessionManager, m.Keeps (m.sessions.entries.foldl
      (fun m e => m.update_session e.1
        { e.2 with session := e.2.session.prune_path_tombstones now_ms }) m) := by
    intro m
    refine List.foldlRecOn (motive := fun m' : V2SessionManager => m.Keeps m') _ _ .rfl ?_
    intro m' hbefore e he
    -- the entry is that of the first manager, whose owners are still the same
    have hsame := congrFun hbefore.idents e.1
    rw [V2SessionManager.idents, V2SessionManager.idents, AList.mem_entries_iff.mp he] at hsame
    obtain ⟨managed, hlookup, hident⟩ := Option.map_eq_some_iff.mp hsame
    exact hbefore.trans (.update hlookup (Eq.trans (.refl _) hident.symm))
  rw [sweep_prune]
  have hprune := prune_pending_attaches_keeps
    { m with admissions := m.admissions.retain (fun _ r => now_ms < r.expires_at_ms) } now_ms
  dsimp only
  generalize prune_pending_attaches
    { m with admissions := m.admissions.retain (fun _ r => now_ms < r.expires_at_ms) } now_ms =
      pruned at hprune ⊢
  have hkeeps := hprune.trans (hpass pruned)
  refine ⟨hkeeps.idents, ?_⟩
  intro id r hr
  rw [hkeeps.admissions, AList.lookup_retain_eq_some] at hr
  exact hr.1

/-! ## Removals -/

theorem remove_session_lookup (m : V2SessionManager) (session_id : SessionId)
    (reason : SessionRemovalReason) (id : SessionId) :
    (m.remove_session session_id reason).1.sessions.lookup id =
      if id = session_id then none else m.sessions.lookup id := by
  rw [remove_session]
  split
  · next hl =>
    split
    · next he =>
      subst he
      exact hl
    · rfl
  · exact AList.lookup_erase_of

theorem remove_session_removal (m : V2SessionManager) (session_id : SessionId)
    (reason : SessionRemovalReason) :
    (m.remove_session session_id reason).2.map (·.session_id) =
      if session_id ∈ m.sessions then some session_id else none := by
  rw [remove_session]
  split
  · next hl =>
    rw [if_neg (AList.lookup_eq_none.mp hl)]
    rfl
  · next managed hl =>
    rw [if_pos (AList.mem_of_lookup hl)]
    rfl

theorem remove_session_admissions (m : V2SessionManager) (session_id : SessionId)
    (reason : SessionRemovalReason) :
    (m.remove_session session_id reason).1.admissions = m.admissions := by
  rw [remove_session]
  split
  · rfl
  · rfl

/-! ## The ledger -/

/-- What a call does to the set of sessions: the ones in the map were there, with
the same admission, or were created from a reservation; the ones that are gone are
among the removals, and the removals are gone. -/
structure Ledger (m : V2SessionManager) (r : V2SessionManager × List SessionRemoval)
    (creates : AdmissionReservation → Prop) : Prop where
  kept : ∀ {id managed'}, r.1.sessions.lookup id = some managed' →
    (∃ managed, m.sessions.lookup id = some managed ∧
      managed'.session.admission = managed.session.admission) ∨
    ∃ reservation, creates reservation ∧ reservation.session_id = id ∧
      managed'.session.admission = ⟨id, reservation.device_id, reservation.expires_at_ms⟩
  removed : ∀ {id}, id ∈ m.sessions → id ∉ r.1.sessions →
    ∃ removal ∈ r.2, removal.session_id = id
  gone : ∀ removal ∈ r.2, removal.session_id ∉ r.1.sessions

variable {creates : AdmissionReservation → Prop} {removals : List SessionRemoval}

theorem Ledger.of_idents (h : m'.idents = m.idents) : Ledger m (m', []) creates := by
  refine ⟨?_, ?_, ?_⟩
  · intro id managed' hl
    have hi : (m.sessions.lookup id).map ManagedSession.ident = some managed'.ident := by
      have := congrFun h id
      rw [idents, idents, hl] at this
      exact this.symm
    obtain ⟨managed, hm, he⟩ := Option.map_eq_some_iff.mp hi
    refine .inl ⟨managed, hm, ?_⟩
    exact (congrArg (fun i => i.1.1) he).symm
  · intro id hmem hnot
    obtain ⟨managed, hm⟩ := AList.mem_iff_lookup.mp hmem
    have hi := congrFun h id
    rw [idents, idents, hm, AList.lookup_eq_none.mpr hnot] at hi
    contradiction
  · intro removal hr
    contradiction

theorem Ledger.of_sessions (h : m'.sessions = m.sessions) : Ledger m (m', []) creates := by
  refine .of_idents ?_
  funext id
  rw [idents, idents, h]

/-- One more change that creates nothing. -/
theorem Ledger.trans {r : V2SessionManager × List SessionRemoval}
    (h : Ledger m (m', removals) creates) (h' : Ledger m' r (fun _ => False)) :
    Ledger m (r.1, removals ++ r.2) creates := by
  have hsub : ∀ {id}, id ∈ r.1.sessions → id ∈ m'.sessions := by
    intro id hmem
    obtain ⟨managed, hm⟩ := AList.mem_iff_lookup.mp hmem
    rcases h'.kept hm with ⟨managed', hm', _⟩ | ⟨_, hf, _⟩
    · exact AList.mem_of_lookup hm'
    · exact hf.elim
  refine ⟨?_, ?_, ?_⟩
  · intro id managed' hl
    rcases h'.kept hl with ⟨managed, hm, he⟩ | ⟨_, hf, _⟩
    · rw [he]
      exact h.kept hm
    · exact hf.elim
  · intro id hmem hnot
    by_cases hm' : id ∈ m'.sessions
    · obtain ⟨removal, hr, hid⟩ := h'.removed hm' hnot
      exact ⟨removal, List.mem_append_right _ hr, hid⟩
    · obtain ⟨removal, hr, hid⟩ := h.removed hmem hm'
      exact ⟨removal, List.mem_append_left _ hr, hid⟩
  · intro removal hr
    rcases List.mem_append.mp hr with hr | hr
    · exact fun hmem => h.gone removal hr (hsub hmem)
    · exact h'.gone removal hr

/-- A call that creates nothing, among those that create. -/
theorem Ledger.mono {r : V2SessionManager × List SessionRemoval}
    (h : Ledger m r (fun _ => False)) : Ledger m r creates := by
  refine ⟨?_, h.removed, h.gone⟩
  intro id managed' hl
  rcases h.kept hl with hkept | ⟨_, hf, _⟩
  · exact .inl hkept
  · exact hf.elim

theorem remove_session_ledger (m : V2SessionManager) (session_id : SessionId)
    (reason : SessionRemovalReason) :
    Ledger m ((m.remove_session session_id reason).1, (m.remove_session session_id reason).2.toList)
      creates := by
  have hremoval := remove_session_removal m session_id reason
  refine ⟨?_, ?_, ?_⟩
  · intro id managed' hl
    rw [remove_session_lookup] at hl
    split at hl
    · contradiction
    · exact .inl ⟨managed', hl, rfl⟩
  · intro id hmem hnot
    have hid : id = session_id := by
      by_contra hne
      obtain ⟨managed, hm⟩ := AList.mem_iff_lookup.mp hmem
      refine hnot (AList.mem_of_lookup (v := managed) ?_)
      rw [remove_session_lookup, if_neg hne]
      exact hm
    subst hid
    rw [if_pos hmem] at hremoval
    obtain ⟨removal, hr, hid⟩ := Option.map_eq_some_iff.mp hremoval
    exact ⟨removal, Option.mem_toList.mpr hr, hid⟩
  · intro removal hr
    have hid : removal.session_id = session_id := by
      have := congrArg (Option.map SessionRemoval.session_id) (Option.mem_toList.mp hr)
      rw [hremoval] at this
      split at this
      · exact (Option.some.inj this).symm
      · contradiction
    rw [hid, ← AList.lookup_eq_none, remove_session_lookup, if_pos rfl]

theorem removes_ledger {α : Type} (m : V2SessionManager) (session_id : SessionId)
    (reason : SessionRemovalReason) (result : Except V2SessionManagerError α) :
    Ledger m (m.removes session_id reason result).effect creates :=
  remove_session_ledger m session_id reason

theorem remove_sessions_ledger (due : List (SessionId × SessionRemovalReason))
    (m : V2SessionManager) : Ledger m (m.remove_sessions due) (fun _ => False) := by
  induction due generalizing m with
  | nil => exact .of_sessions rfl
  | cons d due ih =>
    obtain ⟨session_id, reason⟩ := d
    exact (remove_session_ledger m session_id reason).trans (ih _)

theorem record_activity_ledger {α : Type} (now_ms : ℕ)
    (usable : ManagedSession → Except V2SessionManagerError α) :
    Ledger m (m.record_activity session_id now_ms usable).effect creates := by
  rw [record_activity]
  split
  · exact .of_sessions rfl
  next managed hl =>
  split
  · exact removes_ledger _ _ _ _
  split
  · exact removes_ledger _ _ _ _
  split
  · exact .of_sessions rfl
  · refine ⟨?_, ?_, fun removal hr => absurd hr List.not_mem_nil⟩
    · intro id managed' hafter
      change (m.sessions.insert session_id { managed with last_activity_ms := now_ms }).lookup
        id = some managed' at hafter
      rw [AList.lookup_insert_of] at hafter
      split at hafter
      · next he =>
        subst he
        obtain rfl := Option.some.inj hafter
        exact .inl ⟨managed, hl, rfl⟩
      · exact .inl ⟨managed', hafter, rfl⟩
    · intro id hmem hnot
      exact absurd ((AList.mem_insert _).mpr (.inr hmem)) hnot

theorem activated_session_admission {reservation : AdmissionReservation} {now_ms : ℕ}
    {session : V2Session} (h : m.activated_session reservation now_ms = .ok session) :
    session.admission =
      ⟨reservation.session_id, reservation.device_id, reservation.expires_at_ms⟩ := by
  rw [activated_session] at h
  split at h
  · contradiction
  next fresh hnew =>
  have hadmission : fresh.admission =
      ⟨reservation.session_id, reservation.device_id, reservation.expires_at_ms⟩ := by
    rw [V2Session.new] at hnew
    split at hnew
    · contradiction
    split at hnew
    · contradiction
    · rw [← Except.ok.inj hnew]
  split at h
  · contradiction
  next active hactivate =>
  obtain rfl := Except.ok.inj h
  rw [← hadmission]
  rw [V2Session.activate] at hactivate
  split at hactivate
  · cases hactivate
  split at hactivate
  · cases hactivate
  · rw [← (Prod.mk.inj hactivate).1]

/-- The reservations a call turns into sessions: committed by this call, held by
the manager, and meant for a new session. -/
def commits_reservation (m : V2SessionManager) (reservation : AdmissionReservation) : Prop :=
  reservation.creates_session ∧ m.admissions.lookup reservation.session_id = some reservation

theorem insert_admitted_ledger (m : V2SessionManager) (reservation : AdmissionReservation)
    (hc : reservation.creates_session) (now_ms : ℕ) :
    Ledger m ((m.insert_admitted reservation now_ms).1, [])
      (fun r => r = reservation ∧ m.commits_reservation r) := by
  rw [insert_admitted]
  split
  · exact .of_sessions rfl
  next hheld =>
  split
  · exact .of_sessions rfl
  next session hsession =>
  have hadmission := activated_session_admission hsession
  refine ⟨?_, ?_, fun removal hr => absurd hr List.not_mem_nil⟩
  · intro id managed' hl
    change (m.sessions.insert reservation.session_id
      ⟨session, reservation.organization_id, now_ms⟩).lookup id = some managed' at hl
    rw [AList.lookup_insert_of] at hl
    split at hl
    · next he =>
      subst he
      obtain rfl := Option.some.inj hl
      exact .inr ⟨reservation, ⟨rfl, hc, not_not.mp hheld⟩, rfl, hadmission⟩
    · exact .inl ⟨managed', hl, rfl⟩
  · intro id hmem hnot
    exact absurd ((AList.mem_insert _).mpr (.inr hmem)) hnot

/-- Handing out an identity changes the counter alone. -/
theorem next_connection_identity_fst (m : V2SessionManager) :
    ∃ next, m.next_connection_identity.1 = { m with next_connection_id := next } := by
  rw [next_connection_identity]
  split
  · exact ⟨_, rfl⟩
  · exact ⟨_, rfl⟩

theorem bind_keeps (m : V2SessionManager) (session_id : SessionId) :
    m.Keeps (m.bind session_id).manager ∧ (m.bind session_id).removals = [] ∧
      (m.bind session_id).manager.sessions = m.sessions := by
  obtain ⟨next, hnext⟩ := next_connection_identity_fst m
  unfold V2SessionManager.bind
  generalize m.next_connection_identity = r at hnext
  obtain ⟨m', identity⟩ := r
  dsimp only at hnext
  subst hnext
  exact ⟨.of_sessions rfl rfl rfl, rfl, rfl⟩

theorem bind_ledger : Ledger m (m.bind session_id).effect creates := by
  obtain ⟨_, hremovals, hsessions⟩ := bind_keeps m session_id
  rw [Reply.effect, hremovals]
  exact .of_sessions hsessions

theorem bind_authenticated_connection_ledger (now_ms : ℕ) :
    Ledger m (m.bind_authenticated_connection session_id now_ms).effect creates := by
  rw [bind_authenticated_connection]
  split
  · exact .of_sessions rfl
  split
  · exact removes_ledger _ _ _ _
  split
  · exact .of_sessions rfl
  split
  · exact .of_sessions rfl
  · exact bind_ledger

theorem expire_admitted_ledger (session_id : SessionId) (now_ms : ℕ) :
    Ledger m ((m.expire_admitted session_id now_ms).1,
      (m.expire_admitted session_id now_ms).2.toList) creates := by
  rw [expire_admitted]
  split
  · exact remove_session_ledger _ _ _
  · exact .of_sessions rfl

theorem reserve_owner_sessions (m : V2SessionManager) (session_id : SessionId)
    (device_id : DeviceId) (organization_id : OrganizationId) (expires_at_ms : ℕ) :
    (m.reserve_owner session_id device_id organization_id expires_at_ms).1.sessions =
      m.sessions := by
  rw [reserve_owner]
  split
  · dsimp only
    split
    · rfl
    · rfl
  split
  · split
    · rfl
    · rfl
  split
  · rfl
  · rfl

theorem reserve_admission_ledger (session_id : SessionId) (device_id : DeviceId)
    (organization_id : OrganizationId) (expires_at_ms now_ms : ℕ) :
    Ledger m (m.reserve_admission session_id device_id organization_id expires_at_ms now_ms).effect
      creates := by
  rw [reserve_admission]
  split
  · exact .of_sessions rfl
  split
  · exact .of_sessions rfl
  have hcleanup : Ledger m ((m.expire_admitted session_id now_ms).1,
      (m.expire_admitted session_id now_ms).2.toList) creates :=
    expire_admitted_ledger session_id now_ms
  have howner := hcleanup.trans (.of_sessions (reserve_owner_sessions
    (m.expire_admitted session_id now_ms).1 session_id device_id organization_id expires_at_ms))
  rw [List.append_nil] at howner
  exact howner

theorem begin_draining_admission (session : V2Session) :
    session.begin_draining.1.admission = session.admission := by
  rw [V2Session.begin_draining]
  split
  · rfl
  · rfl

theorem begin_draining_ledger : Ledger m (m.begin_draining session_id).effect creates := by
  rw [begin_draining]
  split
  · exact .of_sessions rfl
  next managed hl =>
  refine ⟨?_, ?_, fun removal hr => absurd hr List.not_mem_nil⟩
  · intro id managed' hafter
    change (m.sessions.insert session_id
      { managed with session := managed.session.begin_draining.1 }).lookup id = some managed'
      at hafter
    rw [AList.lookup_insert_of] at hafter
    split at hafter
    · next he =>
      subst he
      obtain rfl := Option.some.inj hafter
      exact .inl ⟨managed, hl, begin_draining_admission _⟩
    · exact .inl ⟨managed', hafter, rfl⟩
  · intro id hmem hnot
    exact absurd ((AList.mem_insert _).mpr (.inr hmem)) hnot

end V2SessionManager

open V2SessionManager

variable {m : V2SessionManager}

/-- The reservation a call commits into a new session. -/
def ManagerCall.creates (m : V2SessionManager) (reservation : AdmissionReservation) :
    ManagerCall → Prop
  | .commit_admission r _ | .commit_admission_and_bind r _ =>
    reservation = r ∧ m.commits_reservation reservation
  | _ => False

/-- **Every call keeps the ledger.** -/
theorem ManagerCall.ledger (call : ManagerCall) :
    Ledger m (call.apply m) (fun r => call.creates m r) := by
  cases call with
  | reserve_admission session_id device_id organization_id expires_at_ms now_ms =>
    exact reserve_admission_ledger _ _ _ expires_at_ms now_ms
  | commit_admission reservation now_ms =>
    rw [ManagerCall.apply, V2SessionManager.commit_admission]
    split
    · exact .of_sessions rfl
    · next hc => exact insert_admitted_ledger _ _ (by simpa using hc) now_ms
  | commit_admission_and_bind reservation now_ms =>
    rw [ManagerCall.apply, V2SessionManager.commit_admission_and_bind]
    split
    · exact bind_authenticated_connection_ledger now_ms
    next hc =>
    have hinsert := insert_admitted_ledger m reservation (by simpa using hc)
      now_ms
    split
    · next m' e he =>
      rw [he] at hinsert
      exact hinsert
    · next m' he =>
      rw [he] at hinsert
      split
      · have hremove : Ledger m' (m'.removes reservation.session_id .Closed
            (.error V2SessionManagerError.ConnectionCapacity) : Reply AuthenticatedConnection).effect
            (fun _ => False) := removes_ledger _ _ _ _
        exact hinsert.trans hremove
      · have hbind : Ledger m' (m'.bind reservation.session_id).effect (fun _ => False) :=
          bind_ledger
        exact hinsert.trans hbind
  | abort_admission reservation =>
    rw [ManagerCall.apply, V2SessionManager.abort_admission]
    split
    · exact .of_sessions rfl
    · exact .of_sessions rfl
  | bind_authenticated_connection session_id now_ms =>
    exact bind_authenticated_connection_ledger now_ms
  | reserve_attach connection path_epoch key_epoch now_ms =>
    obtain ⟨hkeeps, hnone⟩ := reserve_attach_keeps (m := m) connection path_epoch key_epoch now_ms
    rw [ManagerCall.apply, Reply.effect, hnone]
    exact .of_idents hkeeps.idents
  | commit_attach reservation =>
    obtain ⟨hkeeps, hnone⟩ := commit_attach_keeps (m := m) reservation
    rw [ManagerCall.apply, Reply.effect, hnone]
    exact .of_idents hkeeps.idents
  | detach_connection connection path_id path_epoch now_ms =>
    obtain ⟨hkeeps, hnone⟩ := detach_connection_keeps (m := m) connection path_id path_epoch now_ms
    rw [ManagerCall.apply, Reply.effect, hnone]
    exact .of_idents hkeeps.idents
  | close_connection connection =>
    obtain ⟨hkeeps, hnone⟩ := close_connection_keeps (m := m) connection
    rw [ManagerCall.apply, Reply.effect, hnone]
    exact .of_idents hkeeps.idents
  | validate_attached_path connection path_id path_epoch key_epoch now_ms =>
    rw [ManagerCall.apply, V2SessionManager.validate_attached_path]
    split
    · exact .of_sessions rfl
    split
    · exact .of_sessions rfl
    · exact record_activity_ledger now_ms _
  | validate_ingress connection envelope now_ms =>
    rw [ManagerCall.apply, V2SessionManager.validate_ingress]
    split
    · exact .of_sessions rfl
    split
    · exact .of_sessions rfl
    split
    · exact .of_sessions rfl
    split
    · exact .of_sessions rfl
    split
    · exact .of_sessions rfl
    · exact record_activity_ledger now_ms _
  | record_authenticated_activity connection now_ms =>
    rw [ManagerCall.apply, V2SessionManager.record_authenticated_activity]
    split
    · exact .of_sessions rfl
    · exact record_activity_ledger now_ms _
  | begin_draining session_id => exact begin_draining_ledger
  | close session_id => exact removes_ledger _ _ _ _
  | close_all order => exact remove_sessions_ledger _ m |>.mono
  | close_session connection =>
    rw [ManagerCall.apply, V2SessionManager.close_session]
    split
    · exact .of_sessions rfl
    · exact removes_ledger _ _ _ _
  | sweep order now_ms =>
    rw [ManagerCall.apply, V2SessionManager.sweep]
    have hprune : Ledger m (m.sweep_prune now_ms, [])
        (fun r => (ManagerCall.sweep order now_ms).creates m r) :=
      .of_idents (sweep_prune_idents m now_ms).1
    exact hprune.trans (remove_sessions_ledger _ _)

/-! ## Reservations -/

/-- A call that makes, commits or binds a reservation. -/
def ManagerCall.admits : ManagerCall → Bool
  | .reserve_admission .. | .commit_admission .. | .commit_admission_and_bind .. => true
  | _ => false

namespace V2SessionManager

variable {session_id : SessionId} {device_id : DeviceId} {organization_id : OrganizationId}
  {expires_at_ms now_ms : ℕ} {reservation : AdmissionReservation}

theorem expire_admitted_admissions (session_id : SessionId) (now_ms : ℕ) :
    (m.expire_admitted session_id now_ms).1.admissions = m.admissions := by
  rw [expire_admitted]
  split
  · exact remove_session_admissions _ _ _
  · rfl

/-- Where an owner's reservation comes from: its live session, the reservation it
holds already, or free capacity. -/
theorem reserve_owner_ok
    (h : (m.reserve_owner session_id device_id organization_id expires_at_ms).2 = .ok reservation) :
    (∃ managed, m.sessions.lookup session_id = some managed ∧
        managed.session.admission.device_id = device_id ∧
        managed.organization_id = organization_id ∧
        reservation = ⟨session_id, device_id, organization_id,
          managed.session.admission.expires_at_ms, false⟩ ∧
        (m.reserve_owner session_id device_id organization_id expires_at_ms).1 = m) ∨
      (session_id ∉ m.sessions ∧ m.admissions.lookup session_id = some reservation ∧
        reservation.device_id = device_id ∧ reservation.organization_id = organization_id ∧
        (m.reserve_owner session_id device_id organization_id expires_at_ms).1 = m) ∨
      (session_id ∉ m.sessions ∧ m.admissions.lookup session_id = none ∧
        reservation = ⟨session_id, device_id, organization_id, expires_at_ms, true⟩ ∧
        (m.reserve_owner session_id device_id organization_id expires_at_ms).1 =
          { m with admissions := m.admissions.insert session_id reservation }) := by
  rw [reserve_owner] at h ⊢
  cases hlookup : m.sessions.lookup session_id with
  | some existing =>
    rw [hlookup] at h
    dsimp only at h ⊢
    split at h
    · contradiction
    next howner =>
    rw [if_neg howner]
    obtain ⟨hdevice, horganization⟩ := not_or.mp howner
    refine .inl ⟨existing, rfl, not_not.mp hdevice, not_not.mp horganization, ?_, rfl⟩
    exact (Except.ok.inj h).symm
  | none =>
    have hnot := AList.lookup_eq_none.mp hlookup
    rw [hlookup] at h
    dsimp only at h ⊢
    right
    cases hadmission : m.admissions.lookup session_id with
    | some existing =>
      rw [hadmission] at h
      dsimp only at h ⊢
      split at h
      · contradiction
      next howner =>
      rw [if_neg howner]
      obtain rfl := Except.ok.inj h
      obtain ⟨hdevice, horganization⟩ := not_or.mp howner
      exact .inl ⟨hnot, rfl, not_not.mp hdevice, not_not.mp horganization, rfl⟩
    | none =>
      rw [hadmission] at h
      dsimp only at h ⊢
      split at h
      · contradiction
      next hroom =>
      rw [if_neg hroom]
      obtain rfl := Except.ok.inj h
      exact .inr ⟨hnot, rfl, rfl, rfl⟩

/-- An owner's reservation that fails changes nothing. -/
theorem reserve_owner_error {e : V2SessionManagerError}
    (h : (m.reserve_owner session_id device_id organization_id expires_at_ms).2 = .error e) :
    (m.reserve_owner session_id device_id organization_id expires_at_ms).1 = m := by
  rw [reserve_owner] at h ⊢
  split
  · next existing hlookup =>
    dsimp only
    split
    · rfl
    · rfl
  next hlookup =>
  rw [hlookup] at h
  dsimp only at h
  split
  · split
    · rfl
    · rfl
  next hadmission =>
  rw [hadmission] at h
  dsimp only at h
  split
  · rfl
  next hroom =>
  rw [if_neg hroom] at h
  contradiction

/-- A granted reservation is that of the owner, after an expired session made way. -/
theorem reserve_admission_ok
    (h : (m.reserve_admission session_id device_id organization_id expires_at_ms now_ms).result =
      .ok reservation) :
    ((m.expire_admitted session_id now_ms).1.reserve_owner session_id device_id organization_id
        expires_at_ms).2 = .ok reservation ∧
      (m.reserve_admission session_id device_id organization_id expires_at_ms now_ms).manager =
        ((m.expire_admitted session_id now_ms).1.reserve_owner session_id device_id
          organization_id expires_at_ms).1 := by
  rw [reserve_admission] at h ⊢
  split at h
  · contradiction
  next hid =>
  split at h
  · contradiction
  next hexpired =>
  rw [if_neg hid, if_neg hexpired]
  exact ⟨h, rfl⟩

/-- Only a granted new reservation changes the reservations. -/
theorem reserve_admission_admissions {e : V2SessionManagerError}
    (h : (m.reserve_admission session_id device_id organization_id expires_at_ms now_ms).result =
      .error e) :
    (m.reserve_admission session_id device_id organization_id expires_at_ms
      now_ms).manager.admissions = m.admissions := by
  rw [reserve_admission] at h ⊢
  split
  · rfl
  next hid =>
  split
  · rfl
  next hexpired =>
  rw [if_neg hid, if_neg hexpired] at h
  dsimp only at h ⊢
  rw [reserve_owner_error h, expire_admitted_admissions]

/-- An admission that inserts its session holds its reservation. -/
theorem insert_admitted_ok {m' : V2SessionManager}
    (h : m.insert_admitted reservation now_ms = (m', .ok ())) :
    m.admissions.lookup reservation.session_id = some reservation ∧
      ∃ session, m.activated_session reservation now_ms = .ok session ∧
        m' = ({ m with admissions := m.admissions.erase reservation.session_id }).update_session
          reservation.session_id ⟨session, reservation.organization_id, now_ms⟩ := by
  rw [insert_admitted] at h
  split at h
  · cases h
  next hheld =>
  split at h
  · cases h
  next session hsession =>
  exact ⟨not_not.mp hheld, session, hsession, (Prod.mk.inj h).1.symm⟩

/-- A live, Active session takes one more connection. -/
theorem bind_authenticated_connection_ok {connection : AuthenticatedConnection}
    (h : (m.bind_authenticated_connection session_id now_ms).result = .ok connection) :
    (∃ managed, m.sessions.lookup session_id = some managed ∧
        managed.session.is_expired now_ms = false ∧ managed.session.state = .Active) ∧
      m.authenticated_connections.len < m.maximum_authenticated_connections ∧
      m.bind_authenticated_connection session_id now_ms = m.bind session_id := by
  rw [bind_authenticated_connection] at h ⊢
  split at h
  · cases h
  next managed hlookup =>
  split at h
  · cases h
  next hlive =>
  split at h
  · cases h
  next hstate =>
  split at h
  · cases h
  next hroom =>
  rw [if_neg hlive, if_neg hstate, if_neg hroom]
  exact ⟨⟨managed, hlookup, Bool.eq_false_iff.mpr hlive, not_not.mp hstate⟩, Nat.not_le.mp hroom, rfl⟩

/-- A commit that succeeds leaves its session in the map. -/
theorem commit_admission_and_bind_session {connection : AuthenticatedConnection}
    (h : (m.commit_admission_and_bind reservation now_ms).result = .ok connection) :
    ∃ managed, (m.commit_admission_and_bind reservation now_ms).manager.sessions.lookup
      reservation.session_id = some managed := by
  rw [commit_admission_and_bind] at h ⊢
  split at h
  · next hexisting =>
    rw [if_pos hexisting]
    obtain ⟨⟨managed, hlookup, -⟩, -, hbind⟩ := bind_authenticated_connection_ok h
    refine ⟨managed, ?_⟩
    rw [hbind, (bind_keeps m _).2.2]
    exact hlookup
  next hcreates =>
  rw [if_neg hcreates]
  split at h
  · cases h
  next m' hinsert =>
  split at h
  · cases h
  next hroom =>
  rw [if_neg hroom, (bind_keeps m' _).2.2]
  obtain ⟨-, session, -, rfl⟩ := insert_admitted_ok hinsert
  exact ⟨_, AList.lookup_insert _⟩

/-- Every reservation held afterwards was held before. -/
def HoldsNoMore (m m' : V2SessionManager) : Prop :=
  ∀ id r, m'.admissions.lookup id = some r → m.admissions.lookup id = some r

variable {m' : V2SessionManager}

theorem HoldsNoMore.of_admissions (h : m'.admissions = m.admissions) : m.HoldsNoMore m' := by
  intro id r hr
  rwa [h] at hr

theorem HoldsNoMore.of_erase (session_id : SessionId)
    (h : m'.admissions = m.admissions.erase session_id) :
    m.HoldsNoMore m' := by
  intro id r hr
  rw [h] at hr
  exact AList.lookup_of_erase hr

theorem removes_admissions {α : Type} (m : V2SessionManager) (session_id : SessionId)
    (reason : SessionRemovalReason) (result : Except V2SessionManagerError α) :
    (m.removes session_id reason result).manager.admissions = m.admissions :=
  remove_session_admissions m session_id reason

theorem remove_sessions_admissions (due : List (SessionId × SessionRemovalReason))
    (m : V2SessionManager) : (m.remove_sessions due).1.admissions = m.admissions := by
  induction due generalizing m with
  | nil => rfl
  | cons d due ih =>
    obtain ⟨session_id, reason⟩ := d
    rw [remove_sessions]
    exact (ih _).trans (remove_session_admissions m session_id reason)

theorem record_activity_admissions {α : Type} (now_ms : ℕ)
    (usable : ManagedSession → Except V2SessionManagerError α) :
    (m.record_activity session_id now_ms usable).manager.admissions = m.admissions := by
  rw [record_activity]
  split
  · rfl
  split
  · exact removes_admissions _ _ _ _
  split
  · exact removes_admissions _ _ _ _
  split
  · rfl
  · rfl

theorem insert_admitted_admissions (m : V2SessionManager) (reservation : AdmissionReservation)
    (now_ms : ℕ) : (m.insert_admitted reservation now_ms).1.admissions =
      m.admissions.erase reservation.session_id := by
  rw [insert_admitted]
  split
  · rfl
  split
  · rfl
  · rfl

theorem bind_authenticated_connection_admissions (now_ms : ℕ) :
    (m.bind_authenticated_connection session_id now_ms).manager.admissions = m.admissions := by
  rw [bind_authenticated_connection]
  split
  · rfl
  split
  · exact removes_admissions _ _ _ _
  split
  · rfl
  split
  · rfl
  · exact (bind_keeps m session_id).1.admissions

theorem commit_admission_and_bind_holds (reservation : AdmissionReservation) (now_ms : ℕ) :
    m.HoldsNoMore (m.commit_admission_and_bind reservation now_ms).manager := by
  rw [commit_admission_and_bind]
  split
  · exact .of_admissions (bind_authenticated_connection_admissions now_ms)
  have hinsert := insert_admitted_admissions m reservation now_ms
  split
  · next m' e he =>
    rw [he] at hinsert
    exact .of_erase reservation.session_id hinsert
  · next m' he =>
    rw [he] at hinsert
    split
    · exact .of_erase _ ((removes_admissions _ _ _ _).trans hinsert)
    · exact .of_erase _ ((bind_keeps m' _).1.admissions.trans hinsert)

end V2SessionManager

/-- **Only `reserve_admission` makes reservations.** -/
theorem ManagerCall.holds_no_more {call : ManagerCall}
    (hcall : ∀ session_id device_id organization_id expires_at_ms now_ms,
      call ≠ .reserve_admission session_id device_id organization_id expires_at_ms now_ms) :
    m.HoldsNoMore (call.apply m).1 := by
  cases call with
  | reserve_admission => exact absurd rfl (hcall _ _ _ _ _)
  | commit_admission reservation now_ms =>
    rw [ManagerCall.apply, V2SessionManager.commit_admission]
    split
    · exact .of_admissions rfl
    · exact .of_erase _ (insert_admitted_admissions m reservation now_ms)
  | commit_admission_and_bind reservation now_ms =>
    exact commit_admission_and_bind_holds reservation now_ms
  | abort_admission reservation =>
    rw [ManagerCall.apply, V2SessionManager.abort_admission]
    split
    · exact .of_admissions rfl
    · exact .of_erase reservation.session_id rfl
  | bind_authenticated_connection session_id now_ms =>
    exact .of_admissions (bind_authenticated_connection_admissions now_ms)
  | reserve_attach connection path_epoch key_epoch now_ms =>
    exact .of_admissions (reserve_attach_keeps connection path_epoch key_epoch now_ms).1.admissions
  | commit_attach reservation => exact .of_admissions (commit_attach_keeps reservation).1.admissions
  | detach_connection connection path_id path_epoch now_ms =>
    exact .of_admissions (detach_connection_keeps connection path_id path_epoch now_ms).1.admissions
  | close_connection connection =>
    exact .of_admissions (close_connection_keeps connection).1.admissions
  | validate_attached_path connection path_id path_epoch key_epoch now_ms =>
    rw [ManagerCall.apply, V2SessionManager.validate_attached_path]
    split
    · exact .of_admissions rfl
    split
    · exact .of_admissions rfl
    · exact .of_admissions (record_activity_admissions now_ms _)
  | validate_ingress connection envelope now_ms =>
    rw [ManagerCall.apply, V2SessionManager.validate_ingress]
    split
    · exact .of_admissions rfl
    split
    · exact .of_admissions rfl
    split
    · exact .of_admissions rfl
    split
    · exact .of_admissions rfl
    split
    · exact .of_admissions rfl
    · exact .of_admissions (record_activity_admissions now_ms _)
  | record_authenticated_activity connection now_ms =>
    rw [ManagerCall.apply, V2SessionManager.record_authenticated_activity]
    split
    · exact .of_admissions rfl
    · exact .of_admissions (record_activity_admissions now_ms _)
  | begin_draining session_id =>
    rw [ManagerCall.apply, V2SessionManager.begin_draining]
    split
    · exact .of_admissions rfl
    · exact .of_admissions rfl
  | close session_id => exact .of_admissions (remove_session_admissions m session_id .Closed)
  | close_all order => exact .of_admissions (remove_sessions_admissions _ m)
  | close_session connection =>
    rw [ManagerCall.apply, V2SessionManager.close_session]
    split
    · exact .of_admissions rfl
    · exact .of_admissions (remove_session_admissions m connection.session_id .Closed)
  | sweep order now_ms =>
    rw [ManagerCall.apply, V2SessionManager.sweep]
    intro id r hr
    rw [remove_sessions_admissions] at hr
    exact (sweep_prune_idents m now_ms).2 hr

end StreamGuard.Gateway
