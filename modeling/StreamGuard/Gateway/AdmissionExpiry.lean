/-
The expiry a client is told and the expiry the gateway enforces.

`AdmissionSystem` is the session manager with any number of admissions in progress.
The `SessionAdmit` frame is made from the ticket of the connection that is being
admitted. The session is expired by the deadline of the reservation that created
it, and `Traced` says which one that is in any run: the last new reservation made
under the session's ID. `advertised_deadline_iff` compares the two.
-/
import StreamGuard.Gateway.Admission
import StreamGuard.Gateway.SessionLedger

set_option autoImplicit false

namespace StreamGuard.Gateway

open StreamGuard StreamGuard.Lib StreamGuard.Session

/-! ## Admissions in progress -/

instance (ticket : VerifiedAdmissionTicket) (now_unix_seconds : ℕ) :
    Decidable (ticket.VerifiedAt now_unix_seconds) :=
  decidable_of_iff (ticket.policy_version ≠ 0 ∧ now_unix_seconds < ticket.expires_at_unix_seconds ∧
      ticket.expires_at_unix_seconds ≤ now_unix_seconds + MAX_TICKET_LIFETIME_SECONDS ∧
      ticket.expires_at_unix_seconds ≤ u64Max)
    ⟨fun h => ⟨h.1, h.2.1, h.2.2.1, h.2.2.2⟩,
      fun h => ⟨h.policy_version, h.unexpired, h.lifetime, h.u64⟩⟩

/-- An admission that has its reservation and no connection yet. -/
structure Admitting where
  admitted : AdmissionAccepted
  now : AdmissionTime

structure AdmissionSystem where
  manager : V2SessionManager
  admitting : Map ℕ Admitting

inductive AdmissionLabel where
  /-- The ticket is consumed and the owner reserved. -/
  | admission (caller : ℕ) (ticket : VerifiedAdmissionTicket) (now : AdmissionTime)
  | commit_and_bind (caller : ℕ)
  | abort (caller : ℕ)
  /-- The admission goes no further and nothing is undone. -/
  | abandon (caller : ℕ)
  /-- Any other call on the manager. -/
  | call (call : ManagerCall)

inductive AdmissionEvent where
  /-- A new reservation, made for this ticket at this time. -/
  | reserved (ticket : VerifiedAdmissionTicket) (now : AdmissionTime)
  | bound (admitted : AdmissionAccepted) (connection : AuthenticatedConnection)

namespace AdmissionSystem

def start (manager : V2SessionManager) : AdmissionSystem := ⟨manager, ∅⟩

def step (s : AdmissionSystem) : AdmissionLabel → Option (AdmissionSystem × List AdmissionEvent)
  | .admission caller ticket now =>
    if caller ∈ s.admitting ∨ ¬ ticket.VerifiedAt now.unix_seconds then none
    else
      match admit_finish s.manager ticket now with
      | (m, .error _, _) => some ({ s with manager := m }, [])
      | (m, .ok admitted, _) =>
        let fresh := admitted.reservation.creates_session ∧ ticket.session_id ∉ s.manager.admissions
        some (⟨m, s.admitting.insert caller ⟨admitted, now⟩⟩,
          if fresh then [.reserved ticket now] else [])
  | .commit_and_bind caller =>
    match s.admitting.lookup caller with
    | none => none
    | some a =>
      match Gateway.commit_and_bind s.manager a.admitted a.now with
      | (m, .error _, _) => some ({ s with manager := m }, [])
      | (m, .ok connection, _) =>
        some (⟨m, s.admitting.erase caller⟩, [.bound a.admitted connection])
  | .abort caller =>
    match s.admitting.lookup caller with
    | none => none
    | some a => some (⟨Gateway.abort s.manager a.admitted, s.admitting.erase caller⟩, [])
  | .abandon caller =>
    if caller ∈ s.admitting then some ({ s with admitting := s.admitting.erase caller }, [])
    else none
  | .call call =>
    if call.admits then none else some ({ s with manager := (call.apply s.manager).1 }, [])

/-! ## Where a deadline comes from -/

/-- The event is a new reservation under this session ID. -/
def reserved_for (session_id : SessionId) :
    AdmissionEvent → Option (VerifiedAdmissionTicket × AdmissionTime)
  | .reserved ticket now => if ticket.session_id = session_id then some (ticket, now) else none
  | .bound _ _ => none

/-- The last new reservation under a session ID. -/
def last_reserved (session_id : SessionId) (events : List AdmissionEvent) :
    Option (VerifiedAdmissionTicket × AdmissionTime) :=
  (events.filterMap (reserved_for session_id)).getLast?

theorem last_reserved_append (session_id : SessionId) (events events' : List AdmissionEvent) :
    last_reserved session_id (events ++ events') =
      (last_reserved session_id events').or (last_reserved session_id events) := by
  rw [last_reserved, List.filterMap_append, List.getLast?_append]
  rfl

theorem last_reserved_self (ticket : VerifiedAdmissionTicket) (now : AdmissionTime) :
    last_reserved ticket.session_id [.reserved ticket now] = some (ticket, now) := by
  simp [last_reserved, reserved_for]

theorem last_reserved_of_ne {session_id : SessionId} {ticket : VerifiedAdmissionTicket}
    (now : AdmissionTime) (h : session_id ≠ ticket.session_id) :
    last_reserved session_id [.reserved ticket now] = none := by
  simp [last_reserved, reserved_for, Ne.symm h]

/-- The deadline is that of the last new reservation under the session ID. -/
def Origin (events : List AdmissionEvent) (session_id : SessionId) (expires_at_ms : ℕ) : Prop :=
  ∃ ticket now, last_reserved session_id events = some (ticket, now) ∧
    ticket.VerifiedAt now.unix_seconds ∧ expires_at_ms = expires_at_monotonic_ms ticket now

theorem Origin.append {events events' : List AdmissionEvent} {session_id : SessionId}
    {expires_at_ms : ℕ} (h : Origin events session_id expires_at_ms)
    (hquiet : last_reserved session_id events' = none) :
    Origin (events ++ events') session_id expires_at_ms := by
  obtain ⟨ticket, now, hlast, hdeadline⟩ := h
  refine ⟨ticket, now, ?_, hdeadline⟩
  rw [last_reserved_append, hquiet]
  exact hlast

/-- Reservations and sessions carry the deadline of the last new reservation. -/
structure Traced (s : AdmissionSystem) (events : List AdmissionEvent) : Prop where
  reservations : ∀ {id r}, s.manager.admissions.lookup id = some r →
    r.session_id = id ∧ Origin events id r.expires_at_ms
  sessions : ∀ {id managed}, s.manager.sessions.lookup id = some managed →
    Origin events id managed.session.admission.expires_at_ms
  owners : ∀ {caller a}, s.admitting.lookup caller = some a →
    a.admitted.reservation.session_id = a.admitted.owner.session_id

variable {s s' : AdmissionSystem} {events events' : List AdmissionEvent}

/-- A call that makes no reservation keeps the trace. -/
theorem Traced.call (h : s.Traced events) (call : ManagerCall)
    (hcall : ∀ session_id device_id organization_id expires_at_ms now_ms,
      call ≠ .reserve_admission session_id device_id organization_id expires_at_ms now_ms)
    (hquiet : ∀ id, last_reserved id events' = none) {admitting : Map ℕ Admitting}
    (howners : ∀ {caller a}, admitting.lookup caller = some a →
      a.admitted.reservation.session_id = a.admitted.owner.session_id) :
    Traced ⟨(call.apply s.manager).1, admitting⟩ (events ++ events') := by
  refine ⟨?_, ?_, howners⟩
  · intro id r hr
    obtain ⟨hid, horigin⟩ := h.reservations (ManagerCall.holds_no_more hcall id r hr)
    exact ⟨hid, horigin.append (hquiet id)⟩
  · intro id managed hm
    rcases (ManagerCall.ledger (m := s.manager) call).kept hm with
      ⟨before, hbefore, hsame⟩ | ⟨reservation, hcreates, hid, hadmission⟩
    · rw [hsame]
      exact (h.sessions hbefore).append (hquiet id)
    · -- a session just created has the deadline of the reservation it was made from
      subst hid
      have hheld : s.manager.admissions.lookup reservation.session_id = some reservation := by
        cases call <;> first | exact hcreates.2.2 | exact hcreates.elim
      rw [hadmission]
      exact (h.reservations hheld).2.append (hquiet _)

theorem admit_finish_ok {m m' : V2SessionManager} {ticket : VerifiedAdmissionTicket}
    {now : AdmissionTime} {admitted : AdmissionAccepted} {removals : List SessionRemoval}
    (h : admit_finish m ticket now = (m', .ok admitted, removals)) :
    (m.reserve_admission ticket.session_id ticket.device_id ticket.organization_id
        (expires_at_monotonic_ms ticket now) now.monotonic_millis).result =
          .ok admitted.reservation ∧
      (m.reserve_admission ticket.session_id ticket.device_id ticket.organization_id
        (expires_at_monotonic_ms ticket now) now.monotonic_millis).manager = m' ∧
      admitted.owner = SessionOwner.from_ticket ticket ∧
      admitted.expires_at_unix_seconds = ticket.expires_at_unix_seconds := by
  unfold admit_finish at h
  dsimp only at h
  split at h
  · cases h
  next reservation hreservation =>
  obtain ⟨rfl, hrest⟩ := Prod.mk.inj h
  obtain ⟨hok, -⟩ := Prod.mk.inj hrest
  obtain rfl := Except.ok.inj hok
  exact ⟨hreservation, rfl, rfl, rfl⟩

theorem admit_finish_error {m m' : V2SessionManager} {ticket : VerifiedAdmissionTicket}
    {now : AdmissionTime} {e : AdmissionError} {removals : List SessionRemoval}
    (h : admit_finish m ticket now = (m', .error e, removals)) :
    m'.admissions = m.admissions ∧
      m' = (m.reserve_admission ticket.session_id ticket.device_id ticket.organization_id
        (expires_at_monotonic_ms ticket now) now.monotonic_millis).manager := by
  unfold admit_finish at h
  dsimp only at h
  split at h
  · next e' he =>
    obtain ⟨rfl, -⟩ := Prod.mk.inj h
    exact ⟨V2SessionManager.reserve_admission_admissions he, rfl⟩
  · cases h

/-- Sessions that survive an admission have the deadline they had. -/
theorem Traced.reserve_sessions (h : s.Traced events) {id : SessionId} {managed : ManagedSession}
    {ticket : VerifiedAdmissionTicket} {now : AdmissionTime}
    (hm : (s.manager.reserve_admission ticket.session_id ticket.device_id ticket.organization_id
      (expires_at_monotonic_ms ticket now) now.monotonic_millis).manager.sessions.lookup id =
        some managed) :
    Origin events id managed.session.admission.expires_at_ms := by
  have hledger : V2SessionManager.Ledger s.manager (s.manager.reserve_admission ticket.session_id
      ticket.device_id ticket.organization_id (expires_at_monotonic_ms ticket now)
      now.monotonic_millis).effect (fun _ => False) :=
    V2SessionManager.reserve_admission_ledger _ _ _ _ _
  rcases hledger.kept hm with ⟨before, hbefore, hsame⟩ | ⟨_, hfalse, _⟩
  · rw [hsame]
    exact h.sessions hbefore
  · exact hfalse.elim

/-- An admission that was refused keeps the trace: an expired session may have made way. -/
theorem Traced.refused (h : s.Traced events) {m : V2SessionManager} {e : AdmissionError}
    {ticket : VerifiedAdmissionTicket} {now : AdmissionTime} {removals : List SessionRemoval}
    (hfinish : admit_finish s.manager ticket now = (m, .error e, removals)) :
    Traced { s with manager := m } events := by
  obtain ⟨hadmissions, rfl⟩ := admit_finish_error hfinish
  refine ⟨?_, fun hm => h.reserve_sessions hm, h.owners⟩
  intro id r hr
  rw [hadmissions] at hr
  exact h.reservations hr

/-- An admission for a live session, or for the holder of a reservation, keeps the trace. -/
theorem Traced.again (h : s.Traced events) {m : V2SessionManager}
    {ticket : VerifiedAdmissionTicket} {now : AdmissionTime}
    (hm : (s.manager.reserve_admission ticket.session_id ticket.device_id ticket.organization_id
      (expires_at_monotonic_ms ticket now) now.monotonic_millis).manager = m)
    (hadmissions : m.admissions = s.manager.admissions) {admitting : Map ℕ Admitting}
    (howners : ∀ {caller a}, admitting.lookup caller = some a →
      a.admitted.reservation.session_id = a.admitted.owner.session_id) :
    Traced ⟨m, admitting⟩ events := by
  subst hm
  refine ⟨?_, fun hm => h.reserve_sessions hm, howners⟩
  intro id r hr
  rw [hadmissions] at hr
  exact h.reservations hr

/-- A new reservation is traced to its own event, if its session ID has no session. -/
theorem Traced.anew (h : s.Traced events) {m : V2SessionManager} {ticket : VerifiedAdmissionTicket}
    {now : AdmissionTime} (hverified : ticket.VerifiedAt now.unix_seconds)
    (hm : (s.manager.reserve_admission ticket.session_id ticket.device_id ticket.organization_id
      (expires_at_monotonic_ms ticket now) now.monotonic_millis).manager = m)
    (hgone : ticket.session_id ∉ m.sessions) {r : AdmissionReservation}
    (hid : r.session_id = ticket.session_id)
    (hdeadline : r.expires_at_ms = expires_at_monotonic_ms ticket now)
    (hadmissions : m.admissions = s.manager.admissions.insert ticket.session_id r)
    {admitting : Map ℕ Admitting}
    (howners : ∀ {caller a}, admitting.lookup caller = some a →
      a.admitted.reservation.session_id = a.admitted.owner.session_id) :
    Traced ⟨m, admitting⟩ (events ++ [.reserved ticket now]) := by
  subst hm
  refine ⟨?_, ?_, howners⟩
  · intro id held hheld
    dsimp only at hheld
    rw [hadmissions, AList.lookup_insert_of] at hheld
    split at hheld
    · next hsame =>
      subst hsame
      obtain rfl := Option.some.inj hheld
      refine ⟨hid, ticket, now, ?_, hverified, hdeadline⟩
      rw [last_reserved_append, last_reserved_self]
      rfl
    · next hne =>
      obtain ⟨hid, horigin⟩ := h.reservations hheld
      exact ⟨hid, horigin.append (last_reserved_of_ne now hne)⟩
  · intro id managed hmanaged
    refine (h.reserve_sessions hmanaged).append (last_reserved_of_ne now ?_)
    rintro rfl
    exact hgone (AList.mem_of_lookup hmanaged)

/-- An admission that was granted keeps the trace. -/
theorem Traced.granted (h : s.Traced events) (caller : ℕ) {m : V2SessionManager}
    {ticket : VerifiedAdmissionTicket} {now : AdmissionTime} {admitted : AdmissionAccepted}
    {removals : List SessionRemoval} (hverified : ticket.VerifiedAt now.unix_seconds)
    (hfinish : admit_finish s.manager ticket now = (m, .ok admitted, removals)) :
    Traced ⟨m, s.admitting.insert caller ⟨admitted, now⟩⟩ (events ++
      if admitted.reservation.creates_session ∧ ticket.session_id ∉ s.manager.admissions then
        [.reserved ticket now] else []) := by
  obtain ⟨hok, hmanager, howner, -⟩ := admit_finish_ok hfinish
  obtain ⟨hreserved, hafter⟩ := V2SessionManager.reserve_admission_ok hok
  rw [hmanager] at hafter
  have hmade := V2SessionManager.expire_admitted_admissions (m := s.manager)
    ticket.session_id now.monotonic_millis
  have howners : admitted.reservation.session_id = ticket.session_id → ∀ {caller' a},
      (s.admitting.insert caller ⟨admitted, now⟩).lookup caller' = some a →
      a.admitted.reservation.session_id = a.admitted.owner.session_id := by
    intro hid caller' a ha
    rw [AList.lookup_insert_of] at ha
    split at ha
    · obtain rfl := Option.some.inj ha
      rw [howner]
      exact hid
    · exact h.owners ha
  rcases V2SessionManager.reserve_owner_ok hreserved with
    ⟨live, -, -, -, hres, hsame⟩ | ⟨-, hheld, -, -, hsame⟩ | ⟨hgone, hnone, hres, hinsert⟩
  · -- the owner's session is live
    have hfresh : ¬ (admitted.reservation.creates_session = true ∧
        ticket.session_id ∉ s.manager.admissions) := by
      rw [hres]
      simp
    rw [if_neg hfresh, List.append_nil]
    refine h.again hmanager ?_ (howners (by rw [hres]))
    rw [hafter, hsame, hmade]
  · -- the owner holds a reservation
    rw [hmade] at hheld
    have hfresh : ¬ (admitted.reservation.creates_session = true ∧
        ticket.session_id ∉ s.manager.admissions) := fun hf => hf.2 (AList.mem_of_lookup hheld)
    rw [if_neg hfresh, List.append_nil]
    refine h.again hmanager ?_ (howners (h.reservations hheld).1)
    rw [hafter, hsame, hmade]
  · -- a new reservation: its ID has no session and had no reservation
    rw [hmade] at hnone
    have hfresh : admitted.reservation.creates_session = true ∧
        ticket.session_id ∉ s.manager.admissions := by
      refine ⟨?_, AList.lookup_eq_none.mp hnone⟩
      rw [hres]
    rw [if_pos hfresh]
    have hid : admitted.reservation.session_id = ticket.session_id := by
      rw [hres]
    refine h.anew hverified hmanager ?_ (r := admitted.reservation) hid ?_ ?_ (howners hid)
    · rw [hafter, V2SessionManager.reserve_owner_sessions]
      exact hgone
    · rw [hres]
    · rw [hafter, hinsert]
      dsimp only
      rw [hmade]

/-- **One step keeps the trace.** -/
theorem step_traced {label : AdmissionLabel} (h : s.Traced events)
    (hs : s.step label = some (s', events')) : s'.Traced (events ++ events') := by
  cases label with
  | admission caller ticket now =>
    rw [step] at hs
    split at hs
    · contradiction
    next hready =>
    split at hs
    · next m e removals hadmit =>
      obtain ⟨rfl, rfl⟩ := step_inj hs
      rw [List.append_nil]
      exact h.refused hadmit
    next m admitted removals hadmit =>
    obtain ⟨rfl, rfl⟩ := step_inj hs
    exact h.granted caller (not_not.mp (not_or.mp hready).2) hadmit
  | commit_and_bind caller =>
    rw [step] at hs
    split at hs
    · contradiction
    next a ha =>
    have hkind : ∀ session_id device_id organization_id expires_at_ms now_ms,
        ManagerCall.commit_admission_and_bind a.admitted.reservation a.now.monotonic_millis ≠
          .reserve_admission session_id device_id organization_id expires_at_ms now_ms := by
      simp
    split at hs
    · next m e removals hbind =>
      obtain ⟨rfl, rfl⟩ := step_inj hs
      obtain ⟨rfl, -⟩ := Prod.mk.inj hbind
      exact h.call _ hkind (fun _ => rfl) h.owners
    · next m connection removals hbind =>
      obtain ⟨rfl, rfl⟩ := step_inj hs
      obtain ⟨rfl, -⟩ := Prod.mk.inj hbind
      exact h.call _ hkind (fun _ => rfl) (fun ha' => h.owners (AList.lookup_of_erase ha'))
  | abort caller =>
    rw [step] at hs
    split at hs
    · contradiction
    next a ha =>
    obtain ⟨rfl, rfl⟩ := step_inj hs
    exact h.call (.abort_admission a.admitted.reservation) (fun _ _ _ _ _ => by simp)
      (fun _ => rfl) (fun ha' => h.owners (AList.lookup_of_erase ha'))
  | abandon caller =>
    rw [step] at hs
    split at hs
    · obtain ⟨rfl, rfl⟩ := step_inj hs
      rw [List.append_nil]
      exact ⟨h.reservations, h.sessions, fun ha => h.owners (AList.lookup_of_erase ha)⟩
    · contradiction
  | call call =>
    rw [step] at hs
    split at hs
    · contradiction
    next hadmits =>
    obtain ⟨rfl, rfl⟩ := step_inj hs
    refine h.call call ?_ (fun _ => rfl) h.owners
    rintro _ _ _ _ _ rfl
    exact hadmits rfl

/-- A new manager has nothing to trace. -/
theorem start_traced {config : V2SessionManagerConfig} {manager : V2SessionManager}
    (h : V2SessionManager.new config = .ok manager) : (start manager).Traced [] := by
  rw [V2SessionManager.new] at h
  split at h
  · contradiction
  obtain rfl := Except.ok.inj h
  refine ⟨?_, ?_, ?_⟩
  · exact fun hr => by contradiction
  · exact fun hm => by contradiction
  · exact fun ha => by contradiction

/-- **Every run is traced.** -/
theorem run_traced {config : V2SessionManagerConfig} {manager : V2SessionManager}
    (h : V2SessionManager.new config = .ok manager) {labels : List AdmissionLabel}
    (hrun : exec step (start manager) labels = some (s, events)) : s.Traced events :=
  exec_along_induct (P := fun s events => s.Traced events) (C := fun _ _ => True) (a := [])
    (fun _ _ _ _ _ htraced _ hs => step_traced htraced hs) (start_traced h)
    (along_true _ labels) hrun

/-! ## The two clocks -/

/-- The monotonic time of a wall second, when the two clocks advance together and
wall second zero was at `epoch`. -/
def monotonic_of_wall (epoch : ℤ) (unix_seconds : ℕ) : ℤ := epoch + 1000 * unix_seconds

/-- How far into its wall second a sample was taken. -/
def AdmissionTime.lag (epoch : ℤ) (now : AdmissionTime) : ℤ :=
  now.monotonic_millis - monotonic_of_wall epoch now.unix_seconds

/-- The advertised expiry is `1000 * u` for the wall second `u` that begins at the
session's deadline: the session is expired from then on and not before. -/
def Enforced (epoch : ℤ) (expires_at_ms : ℕ) (managed : ManagedSession) : Prop :=
  ∃ u, expires_at_ms = 1000 * u ∧
    monotonic_of_wall epoch u = managed.session.admission.expires_at_ms ∧
    ∀ now_ms : ℕ, managed.session.is_expired now_ms = true ↔ monotonic_of_wall epoch u ≤ now_ms

/-- A deadline is the monotonic time of the ticket's expiry, later by the lag of
the sample it was computed from. -/
theorem expires_at_monotonic_ms_eq (epoch : ℤ) {ticket : VerifiedAdmissionTicket}
    {now : AdmissionTime} (h : ticket.VerifiedAt now.unix_seconds) :
    (expires_at_monotonic_ms ticket now : ℤ) =
      min (monotonic_of_wall epoch ticket.expires_at_unix_seconds +
        AdmissionTime.lag epoch now) u64Max := by
  have hlater := h.unexpired
  have hlifetime := h.lifetime
  have hcap : MAX_TICKET_LIFETIME_SECONDS = 900 := rfl
  have hmax : u64Max = 2 ^ 64 - 1 := rfl
  have hmono : expires_at_monotonic_ms ticket now =
      min (now.monotonic_millis +
        min ((ticket.expires_at_unix_seconds - now.unix_seconds) * 1000) u64Max) u64Max := rfl
  rw [hmono, AdmissionTime.lag, monotonic_of_wall, monotonic_of_wall]
  omega

/-- An advertised expiry is the enforced one when it is the deadline. -/
theorem enforced_iff (epoch : ℤ) {unix_seconds : ℕ} {managed : ManagedSession} :
    Enforced epoch (unix_seconds * 1000) managed ↔
      monotonic_of_wall epoch unix_seconds = managed.session.admission.expires_at_ms := by
  constructor
  · rintro ⟨u, hu, hdeadline, -⟩
    have huu : u = unix_seconds := by omega
    rw [← huu]
    exact hdeadline
  · intro hdeadline
    refine ⟨unix_seconds, by omega, hdeadline, ?_⟩
    intro now_ms
    rw [hdeadline, V2Session.is_expired, decide_eq_true_eq]
    exact Nat.cast_le.symm

/-- **The advertised expiry is the enforced one, exactly when this ticket expires
with the one that made the session's reservation, later by that admission's lag.**
In any run of a new manager, whenever an admission succeeds: the session is in the
map, and the frame made from this connection's ticket carries the session's
deadline if and only if the two expiries meet on the monotonic clock. -/
theorem advertised_deadline_iff {config : V2SessionManagerConfig} {manager : V2SessionManager}
    (hnew : V2SessionManager.new config = .ok manager) {labels : List AdmissionLabel}
    (hrun : exec step (start manager) labels = some (s, events)) {caller : ℕ}
    {admitted : AdmissionAccepted} {connection : AuthenticatedConnection}
    (hcommit : s.step (.commit_and_bind caller) = some (s', [.bound admitted connection]))
    {template : SessionAdmitTemplate} {transaction_id : U64} {lease : AssignedAddresses}
    {frame : U64 × SessionAdmit}
    (hframe : template.frame transaction_id admitted lease = .ok frame) (epoch : ℤ) :
    ∃ ticket₀ now₀ managed,
      last_reserved admitted.owner.session_id events = some (ticket₀, now₀) ∧
      s'.manager.sessions.lookup admitted.owner.session_id = some managed ∧
      (Enforced epoch frame.2.expires_at_ms managed ↔
        monotonic_of_wall epoch admitted.expires_at_unix_seconds =
          min (monotonic_of_wall epoch ticket₀.expires_at_unix_seconds +
            AdmissionTime.lag epoch now₀) u64Max) := by
  have htraced := run_traced hnew hrun
  have hafter := step_traced htraced hcommit
  rw [step] at hcommit
  split at hcommit
  · contradiction
  next a ha =>
  split at hcommit
  · cases hcommit
  next m bound removals hbind =>
  obtain ⟨rfl, hevents⟩ := step_inj hcommit
  obtain ⟨rfl, rfl⟩ := AdmissionEvent.bound.inj (List.cons.inj hevents).1
  -- the session the commit has left in the map
  obtain ⟨rfl, hrest⟩ := Prod.mk.inj hbind
  obtain ⟨hresult, -⟩ := Prod.mk.inj hrest
  have hok : (s.manager.commit_admission_and_bind a.admitted.reservation
      a.now.monotonic_millis).result = .ok bound := by
    cases hr : (s.manager.commit_admission_and_bind a.admitted.reservation
        a.now.monotonic_millis).result with
    | error e =>
      rw [hr] at hresult
      cases hresult
    | ok connection =>
      rw [hr] at hresult
      rw [Except.ok.inj hresult]
  obtain ⟨managed, hmanaged⟩ := V2SessionManager.commit_admission_and_bind_session hok
  rw [htraced.owners ha] at hmanaged
  -- and where its deadline comes from
  obtain ⟨ticket₀, now₀, hlast, hverified, hdeadline⟩ := hafter.sessions hmanaged
  rw [last_reserved_append] at hlast
  refine ⟨ticket₀, now₀, managed, hlast, hmanaged, ?_⟩
  have hexpires : frame.2.expires_at_ms = a.admitted.expires_at_unix_seconds * 1000 := by
    rw [SessionAdmitTemplate.frame] at hframe
    split at hframe
    · contradiction
    · rw [← Except.ok.inj hframe]
  rw [hexpires, enforced_iff, hdeadline, expires_at_monotonic_ms_eq epoch hverified]

/-! ## Runs -/

namespace Sample

def config : V2SessionManagerConfig := ⟨4, 120000, 2, 4, 5000, 4, 4, 5000⟩

def started : V2SessionManager := ⟨config, ∅, ∅, ∅, ∅, ∅, 1⟩

theorem started_new : V2SessionManager.new config = .ok started := rfl

/-- Two tickets of one owner for one session, the second valid for a minute longer. -/
def first : VerifiedAdmissionTicket := ⟨⟨1⟩, ⟨2⟩, ⟨3⟩, ⟨4⟩, 1600, 1⟩
def renewed : VerifiedAdmissionTicket := ⟨⟨5⟩, ⟨2⟩, ⟨3⟩, ⟨4⟩, 1660, 1⟩

/-- Wall second 1000 is monotonic time 5000. -/
def now : AdmissionTime := ⟨1000, 5000⟩

def epoch : ℤ := -995000

def template : SessionAdmitTemplate := ⟨[1]⟩

def lease : AssignedAddresses := ⟨0x0a400002, 24, 0, 64⟩

/-- What the frame says, and the deadline of its session, of the admission that ends a run. -/
def advertised (labels : List AdmissionLabel) (caller : ℕ) : Option (ℕ × ℕ) :=
  (exec step (start started) labels).bind fun r =>
    (r.1.step (.commit_and_bind caller)).bind fun r' =>
      match r'.2 with
      | [.bound admitted _] =>
        match template.frame 1 admitted lease,
            r'.1.manager.sessions.lookup admitted.owner.session_id with
        | .ok frame, some managed =>
          some (frame.2.expires_at_ms, managed.session.admission.expires_at_ms)
        | _, _ => none
      | _ => none

theorem advertised_eq_some {labels : List AdmissionLabel} {caller expires_at_ms deadline : ℕ}
    (h : advertised labels caller = some (expires_at_ms, deadline)) :
    ∃ s events s' admitted connection frame managed,
      exec step (start started) labels = some (s, events) ∧
      s.step (.commit_and_bind caller) = some (s', [.bound admitted connection]) ∧
      template.frame 1 admitted lease = .ok frame ∧
      s'.manager.sessions.lookup admitted.owner.session_id = some managed ∧
      frame.2.expires_at_ms = expires_at_ms ∧
      managed.session.admission.expires_at_ms = deadline := by
  obtain ⟨⟨s, events⟩, hrun, hrest⟩ := Option.bind_eq_some_iff.mp h
  obtain ⟨⟨s', events'⟩, hstep, hrest⟩ := Option.bind_eq_some_iff.mp hrest
  dsimp only at hrest
  split at hrest
  · next admitted connection =>
    split at hrest
    · next frame managed hframe hmanaged =>
      obtain ⟨rfl, rfl⟩ := step_inj hrest
      exact ⟨s, events, s', admitted, connection, frame, managed, hrun, hstep, hframe, hmanaged,
        rfl, rfl⟩
    · contradiction
  · contradiction

end Sample

open Sample in
theorem advertised_deadline_sample :
    ∃ s events s' admitted connection frame ticket₀ now₀ managed,
      exec step (start started) [.admission 0 first now] = some (s, events) ∧
      s.step (.commit_and_bind 0) = some (s', [.bound admitted connection]) ∧
      template.frame 1 admitted lease = .ok frame ∧
      last_reserved admitted.owner.session_id events = some (ticket₀, now₀) ∧
      s'.manager.sessions.lookup admitted.owner.session_id = some managed ∧
      Enforced epoch frame.2.expires_at_ms managed ∧
      monotonic_of_wall epoch admitted.expires_at_unix_seconds =
        min (monotonic_of_wall epoch ticket₀.expires_at_unix_seconds +
          AdmissionTime.lag epoch now₀) u64Max := by
  have hadvertised : advertised [.admission 0 first now] 0 = some (1600000, 605000) := by
    decide
  obtain ⟨s, events, s', admitted, connection, frame, managed, hrun, hstep, hframe, hmanaged,
    hexpires, hdeadline⟩ := advertised_eq_some hadvertised
  obtain ⟨ticket₀, now₀, managed', hlast, hmanaged', hiff⟩ :=
    advertised_deadline_iff started_new hrun hstep hframe epoch
  obtain rfl := Option.some.inj (hmanaged.symm.trans hmanaged')
  -- wall second 1600 is monotonic time 605000
  have henforced : Enforced epoch frame.2.expires_at_ms managed := by
    rw [hexpires, show 1600000 = 1600 * 1000 from rfl, enforced_iff, hdeadline]
    rfl
  exact ⟨s, events, s', admitted, connection, frame, ticket₀, now₀, managed, hrun, hstep, hframe,
    hlast, hmanaged, henforced, hiff.mp henforced⟩

open Sample in
/-- The owner comes back with a newer ticket, both clocks on a whole second: the
frame promises a minute that the session does not get. -/
theorem renewed_ticket_overstates_expiry :
    ∃ s events s' admitted connection frame managed,
      V2SessionManager.new config = .ok started ∧ AdmissionTime.lag epoch now = 0 ∧
      exec step (start started)
          [.admission 0 first now, .commit_and_bind 0, .admission 1 renewed now] =
        some (s, events) ∧
      s.step (.commit_and_bind 1) = some (s', [.bound admitted connection]) ∧
      template.frame 1 admitted lease = .ok frame ∧
      s'.manager.sessions.lookup admitted.owner.session_id = some managed ∧
      ¬ Enforced epoch frame.2.expires_at_ms managed := by
  have hadvertised : advertised
      [.admission 0 first now, .commit_and_bind 0, .admission 1 renewed now] 1 =
        some (1660000, 605000) := by
    decide
  obtain ⟨s, events, s', admitted, connection, frame, managed, hrun, hstep, hframe, hmanaged,
    hexpires, hdeadline⟩ := advertised_eq_some hadvertised
  refine ⟨s, events, s', admitted, connection, frame, managed, rfl, by decide, hrun, hstep, hframe,
    hmanaged, ?_⟩
  rintro ⟨u, hu, hmono, -⟩
  rw [hdeadline, monotonic_of_wall, epoch] at hmono
  rw [hexpires] at hu
  omega

end AdmissionSystem

end StreamGuard.Gateway
