/-
The age of sessions.

A call of the manager leaves a session as old as it was or marks it as active at the call's
clock reading (`Renewed`), so a session that is not due at a time in the past does not become
due at that time. A sweep leaves none that is due at its reading.
-/
import StreamGuard.Gateway.SessionUpdates

set_option autoImplicit false

namespace StreamGuard.Gateway

open StreamGuard StreamGuard.Lib StreamGuard.Session

/-! ## What calls do to the age of sessions -/

/-- What decides when a session is due. -/
def ManagedSession.deadlines (managed : ManagedSession) : ℕ × ℕ :=
  (managed.session.admission.expires_at_ms, managed.last_activity_ms)

namespace V2SessionManager

/-- Every session is as old as before, or active at the clock reading. -/
structure Renewed (clock : Option ℕ) (m m' : V2SessionManager) : Prop where
  config : m'.config = m.config
  sessions : ∀ {id managed'}, m'.sessions.lookup id = some managed' →
    (∃ managed, m.sessions.lookup id = some managed ∧ managed'.deadlines = managed.deadlines) ∨
      ∃ now ∈ clock, managed'.last_activity_ms = now ∧ managed'.session.is_expired now = false

variable {m m' m'' : V2SessionManager} {clock : Option ℕ} {session_id : SessionId} {now_ms : ℕ}

theorem Renewed.of_sessions (hc : m'.config = m.config) (hs : m'.sessions = m.sessions) :
    Renewed clock m m' :=
  ⟨hc, fun hl => .inl ⟨_, hs ▸ hl, rfl⟩⟩

theorem Renewed.trans (h : Renewed clock m m') (h' : Renewed clock m' m'') :
    Renewed clock m m'' := by
  refine ⟨h'.config.trans h.config, fun hl => ?_⟩
  rcases h'.sessions hl with ⟨managed', hl', hsame'⟩ | hnow
  · rcases h.sessions hl' with ⟨managed, hl, hsame⟩ | ⟨now, hclock, hactive, halive⟩
    · exact .inl ⟨managed, hl, hsame'.trans hsame⟩
    · obtain ⟨hexpiry, hlast⟩ := Prod.mk.inj hsame'
      refine .inr ⟨now, hclock, hlast.trans hactive, ?_⟩
      rw [V2Session.is_expired, hexpiry]
      exact halive
  · exact .inr hnow

theorem Renewed.of_idents (hc : m'.config = m.config) (h : m'.idents = m.idents) :
    Renewed clock m m' := by
  refine ⟨hc, fun {id managed'} hl => .inl ?_⟩
  have hsame := congrFun h id
  rw [V2SessionManager.idents, V2SessionManager.idents, hl] at hsame
  obtain ⟨managed, hlookup, hident⟩ := Option.map_eq_some_iff.mp hsame.symm
  refine ⟨managed, hlookup, ?_⟩
  obtain ⟨hticket, hrest⟩ := Prod.mk.inj hident
  obtain ⟨hadmission, -⟩ := Prod.mk.inj hticket
  rw [ManagedSession.deadlines, ManagedSession.deadlines, ← hadmission, (Prod.mk.inj hrest).2]

/-- Path operations leave the age of sessions alone. -/
theorem Keeps.renewed (h : m.Keeps m') : Renewed clock m m' := .of_idents h.config h.idents

theorem remove_session_config (m : V2SessionManager) (session_id : SessionId)
    (reason : SessionRemovalReason) : (m.remove_session session_id reason).1.config = m.config := by
  rw [remove_session]
  split
  · rfl
  · rfl

theorem remove_session_renewed (m : V2SessionManager) (session_id : SessionId)
    (reason : SessionRemovalReason) : Renewed clock m (m.remove_session session_id reason).1 := by
  refine ⟨remove_session_config m session_id reason, fun hl => ?_⟩
  rw [remove_session_lookup] at hl
  split at hl
  · contradiction
  · exact .inl ⟨_, hl, rfl⟩

theorem remove_sessions_renewed (due : List (SessionId × SessionRemovalReason))
    (m : V2SessionManager) : Renewed clock m (m.remove_sessions due).1 := by
  induction due generalizing m with
  | nil => exact .of_sessions rfl rfl
  | cons d due ih => exact (remove_session_renewed m d.1 d.2).trans (ih _)

theorem record_activity_renewed {α : Type} (now_ms : ℕ)
    (usable : ManagedSession → Except V2SessionManagerError α) :
    Renewed (some now_ms) m (m.record_activity session_id now_ms usable).manager := by
  rw [record_activity]
  split
  · exact .of_sessions rfl rfl
  next managed hl =>
  split
  · exact remove_session_renewed m session_id .Expired
  next halive =>
  split
  · exact remove_session_renewed m session_id .Idle
  split
  · exact .of_sessions rfl rfl
  · refine ⟨rfl, fun {id managed'} hafter => ?_⟩
    change (m.sessions.insert session_id { managed with last_activity_ms := now_ms }).lookup
      id = some managed' at hafter
    rw [AList.lookup_insert_of] at hafter
    split at hafter
    · obtain rfl := Option.some.inj hafter
      exact .inr ⟨now_ms, rfl, rfl, by simpa using halive⟩
    · exact .inl ⟨managed', hafter, rfl⟩

theorem activated_session_alive {reservation : AdmissionReservation} {session : V2Session}
    (h : m.activated_session reservation now_ms = .ok session) :
    session.is_expired now_ms = false := by
  have hadmission := activated_session_admission h
  rw [activated_session] at h
  split at h
  · contradiction
  split at h
  · contradiction
  next active hactivate =>
  obtain rfl := Except.ok.inj h
  rw [V2Session.activate] at hactivate
  split at hactivate
  · cases hactivate
  next fresh hnew _ halive =>
  split at hactivate
  · cases hactivate
  · have hfresh : fresh.is_expired now_ms = false := by simpa using halive
    rw [← (Prod.mk.inj hactivate).1]
    exact hfresh

theorem insert_admitted_renewed (m : V2SessionManager) (reservation : AdmissionReservation)
    (now_ms : ℕ) : Renewed (some now_ms) m (m.insert_admitted reservation now_ms).1 := by
  rw [insert_admitted]
  split
  · exact .of_sessions rfl rfl
  split
  · exact .of_sessions rfl rfl
  next session hsession =>
  refine ⟨rfl, fun {id managed'} hl => ?_⟩
  change (m.sessions.insert reservation.session_id
    ⟨session, reservation.organization_id, now_ms⟩).lookup id = some managed' at hl
  rw [AList.lookup_insert_of] at hl
  split at hl
  · obtain rfl := Option.some.inj hl
    exact .inr ⟨now_ms, rfl, rfl, activated_session_alive hsession⟩
  · exact .inl ⟨managed', hl, rfl⟩

theorem bind_authenticated_connection_renewed (m : V2SessionManager) (session_id : SessionId)
    (now_ms : ℕ) : Renewed clock m (m.bind_authenticated_connection session_id now_ms).manager := by
  rw [bind_authenticated_connection]
  split
  · exact .of_sessions rfl rfl
  split
  · exact remove_session_renewed m session_id .Expired
  split
  · exact .of_sessions rfl rfl
  split
  · exact .of_sessions rfl rfl
  · exact (bind_keeps m session_id).1.renewed

theorem reserve_owner_config (m : V2SessionManager) (session_id : SessionId)
    (device_id : DeviceId) (organization_id : OrganizationId) (expires_at_ms : ℕ) :
    (m.reserve_owner session_id device_id organization_id expires_at_ms).1.config = m.config := by
  rw [reserve_owner]
  split
  · dsimp only
    split
    · rfl
    · rfl
  split
  · split
    · rfl
    · rfl
  split
  · rfl
  · rfl

theorem reserve_admission_renewed (m : V2SessionManager) (session_id : SessionId)
    (device_id : DeviceId) (organization_id : OrganizationId) (expires_at_ms now_ms : ℕ) :
    Renewed clock m
      (m.reserve_admission session_id device_id organization_id expires_at_ms now_ms).manager := by
  rw [reserve_admission]
  split
  · exact .of_sessions rfl rfl
  split
  · exact .of_sessions rfl rfl
  have hcleanup : Renewed clock m (m.expire_admitted session_id now_ms).1 := by
    rw [expire_admitted]
    split
    · exact remove_session_renewed m session_id .Expired
    · exact .of_sessions rfl rfl
  exact hcleanup.trans (.of_sessions (reserve_owner_config _ _ _ _ _)
    (reserve_owner_sessions _ _ _ _ _))

theorem begin_draining_renewed (m : V2SessionManager) (session_id : SessionId) :
    Renewed clock m (m.begin_draining session_id).manager := by
  rw [begin_draining]
  split
  · exact .of_sessions rfl rfl
  next managed hl =>
  refine ⟨rfl, fun {id managed'} hafter => .inl ?_⟩
  change (m.sessions.insert session_id
    { managed with session := managed.session.begin_draining.1 }).lookup id = some managed'
    at hafter
  rw [AList.lookup_insert_of] at hafter
  split at hafter
  · next hid =>
    obtain rfl := Option.some.inj hafter
    refine ⟨managed, hid ▸ hl, ?_⟩
    rw [ManagedSession.deadlines, begin_draining_admission]
    rfl
  · exact ⟨managed', hafter, rfl⟩

theorem config_of_foldl_update (now_ms : ℕ) (entries : List (Σ _ : SessionId, ManagedSession))
    (m : V2SessionManager) : (entries.foldl (fun m e => m.update_session e.1
      { e.2 with session := e.2.session.prune_path_tombstones now_ms }) m).config = m.config := by
  refine List.foldlRecOn (motive := fun m' : V2SessionManager => m'.config = m.config) _ _ rfl ?_
  intro m' hbefore e _
  exact hbefore

theorem sweep_prune_renewed (m : V2SessionManager) (now_ms : ℕ) :
    Renewed clock m (m.sweep_prune now_ms) := by
  refine .of_idents ?_ (sweep_prune_idents m now_ms).1
  rw [sweep_prune]
  dsimp only
  rw [config_of_foldl_update]
  exact (prune_pending_attaches_keeps _ now_ms).config

/-- **Every call leaves sessions as old as they were, or active at its clock reading.** -/
theorem call_renewed (m : V2SessionManager) (call : ManagerCall) :
    Renewed call.now_ms m (call.apply m).1 := by
  cases call with
  | reserve_admission session_id device_id organization_id expires_at_ms now_ms =>
    exact reserve_admission_renewed m session_id device_id organization_id expires_at_ms now_ms
  | commit_admission reservation now_ms =>
    rw [ManagerCall.apply, V2SessionManager.commit_admission]
    split
    · exact .of_sessions rfl rfl
    · exact insert_admitted_renewed m reservation now_ms
  | commit_admission_and_bind reservation now_ms =>
    rw [ManagerCall.apply, V2SessionManager.commit_admission_and_bind]
    split
    · exact bind_authenticated_connection_renewed m reservation.session_id now_ms
    -- it is inserted first, and taken out again if it cannot be bound
    have hinsert := insert_admitted_renewed m reservation now_ms
    split
    · next he =>
      rw [he] at hinsert
      exact hinsert
    · next m' he =>
      rw [he] at hinsert
      split
      · exact hinsert.trans (remove_session_renewed m' reservation.session_id .Closed)
      · exact hinsert.trans (bind_keeps m' reservation.session_id).1.renewed
  | abort_admission reservation =>
    rw [ManagerCall.apply, V2SessionManager.abort_admission]
    split
    · exact .of_sessions rfl rfl
    · exact .of_sessions rfl rfl
  | bind_authenticated_connection session_id now_ms =>
    exact bind_authenticated_connection_renewed m session_id now_ms
  | reserve_attach connection path_epoch key_epoch now_ms =>
    exact (reserve_attach_keeps connection path_epoch key_epoch now_ms).1.renewed
  | commit_attach reservation => exact (commit_attach_keeps reservation).1.renewed
  | detach_connection connection path_id path_epoch now_ms =>
    exact (detach_connection_keeps connection path_id path_epoch now_ms).1.renewed
  | close_connection connection => exact (close_connection_keeps connection).1.renewed
  | validate_attached_path connection path_id path_epoch key_epoch now_ms =>
    rw [ManagerCall.apply, V2SessionManager.validate_attached_path]
    split
    · exact .of_sessions rfl rfl
    split
    · exact .of_sessions rfl rfl
    · exact record_activity_renewed now_ms _
  | validate_ingress connection envelope now_ms =>
    rw [ManagerCall.apply, V2SessionManager.validate_ingress]
    split
    · exact .of_sessions rfl rfl
    split
    · exact .of_sessions rfl rfl
    split
    · exact .of_sessions rfl rfl
    split
    · exact .of_sessions rfl rfl
    split
    · exact .of_sessions rfl rfl
    · exact record_activity_renewed now_ms _
  | record_authenticated_activity connection now_ms =>
    rw [ManagerCall.apply, V2SessionManager.record_authenticated_activity]
    split
    · exact .of_sessions rfl rfl
    · exact record_activity_renewed now_ms _
  | begin_draining session_id => exact begin_draining_renewed m session_id
  | close session_id => exact remove_session_renewed m session_id .Closed
  | close_all order => exact remove_sessions_renewed _ m
  | close_session connection =>
    rw [ManagerCall.apply, V2SessionManager.close_session]
    split
    · exact .of_sessions rfl rfl
    · exact remove_session_renewed m connection.session_id .Closed
  | sweep order now_ms =>
    exact (sweep_prune_renewed m now_ms).trans (remove_sessions_renewed _ _)

/-! ## Sessions that are not due -/

/-- No session is due at the time. -/
def Fresh (m : V2SessionManager) (now_ms : ℕ) : Prop :=
  ∀ id managed, m.sessions.lookup id = some managed → m.due now_ms managed = none

theorem due_eq_none {managed : ManagedSession} :
    m.due now_ms managed = none ↔ managed.session.is_expired now_ms = false ∧
      now_ms - managed.last_activity_ms < m.config.idle_ttl_ms := by
  rw [due]
  split
  · next hexpired => simp [hexpired]
  · next halive =>
    rw [Bool.not_eq_true] at halive
    split
    · next hidle => simp [halive, hidle]
    · next hactive => simpa [halive] using hactive

/-- What is not due was not due before. -/
theorem Fresh.mono (h : m.Fresh now_ms) {earlier : ℕ} (hle : earlier ≤ now_ms) :
    m.Fresh earlier := by
  intro id managed hl
  obtain ⟨halive, hactive⟩ := due_eq_none.mp (h id managed hl)
  rw [V2Session.is_expired, decide_eq_false_iff_not] at halive
  refine due_eq_none.mpr ⟨?_, by omega⟩
  rw [V2Session.is_expired, decide_eq_false_iff_not]
  omega

/-- A call at a later reading makes no session due at the time. -/
theorem Fresh.renewed (h : m.Fresh now_ms) (hr : Renewed clock m m')
    (httl : 0 < m.config.idle_ttl_ms) (hclock : ∀ now ∈ clock, now_ms ≤ now) : m'.Fresh now_ms := by
  intro id managed' hl
  rw [due_eq_none, hr.config]
  rcases hr.sessions hl with ⟨managed, hold, hsame⟩ | ⟨now, hnow, hactive, halive⟩
  · obtain ⟨hexpiry, hlast⟩ := Prod.mk.inj hsame
    have hdue := due_eq_none.mp (h id managed hold)
    rw [V2Session.is_expired] at hdue ⊢
    rw [hexpiry, hlast]
    exact hdue
  · have hle := hclock now hnow
    rw [V2Session.is_expired, decide_eq_false_iff_not] at halive ⊢
    rw [hactive]
    omega

theorem new_ttl {config : V2SessionManagerConfig} (h : V2SessionManager.new config = .ok m) :
    0 < m.config.idle_ttl_ms := by
  rw [V2SessionManager.new] at h
  split at h
  · contradiction
  next hvalid =>
  obtain rfl := Except.ok.inj h
  exact Nat.pos_of_ne_zero fun hzero => hvalid (.inr (.inl hzero))

/-- What is left after removals was there, and is not one of those listed. -/
theorem remove_sessions_lookup (due : List (SessionId × SessionRemovalReason))
    (m : V2SessionManager) {id : SessionId} {managed : ManagedSession}
    (hl : (m.remove_sessions due).1.sessions.lookup id = some managed) :
    m.sessions.lookup id = some managed ∧ id ∉ due.map Prod.fst := by
  induction due generalizing m with
  | nil => exact ⟨hl, List.not_mem_nil⟩
  | cons d due ih =>
    obtain ⟨hlater, hnot⟩ := ih _ hl
    rw [remove_session_lookup] at hlater
    split at hlater
    · contradiction
    · next hne =>
      refine ⟨hlater, ?_⟩
      rw [List.map_cons, List.mem_cons, not_or]
      exact ⟨hne, hnot⟩

/-- **A sweep leaves no session that is due.** -/
theorem sweep_fresh (m : V2SessionManager) (order : Traversal SessionId ManagedSession)
    (now_ms : ℕ) : (m.sweep order now_ms).1.Fresh now_ms := by
  intro id managed hl
  obtain ⟨hpruned, hnot⟩ := remove_sessions_lookup _ _ hl
  have hremoved : Renewed none (m.sweep_prune now_ms) (m.sweep order now_ms).1 :=
    remove_sessions_renewed _ _
  rw [due, hremoved.config, ← due]
  by_contra hdue
  obtain ⟨reason, hreason⟩ := Option.ne_none_iff_exists'.mp hdue
  refine hnot (List.mem_map.mpr ⟨(id, reason), List.mem_filterMap.mpr ⟨⟨id, managed⟩, ?_, ?_⟩, rfl⟩)
  · exact order.mem_visit.mpr (AList.mem_entries_iff.mpr hpruned)
  · rw [hreason]
    rfl

end V2SessionManager

end StreamGuard.Gateway
