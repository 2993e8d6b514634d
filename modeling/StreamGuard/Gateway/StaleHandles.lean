/-
Handles that the manager no longer holds.

A caller keeps the reservation that `reserve_admission` or `reserve_attach` gave it
and presents it later. By then it may have been pruned or taken by another caller,
and a newer one may sit under the same session or connection. The manager takes the
entry out of the map first and compares it afterwards, so that presenting the old
handle fails and the newer entry is gone with it. `Superseded` is that situation,
and in every other state a rejected call leaves the manager as it was.
-/
import StreamGuard.Gateway.SessionCapabilities

set_option autoImplicit false

namespace StreamGuard.Gateway

open StreamGuard StreamGuard.Lib StreamGuard.Session

/-! ## Handles -/

/-- The admission reservation that a call returns. -/
def ManagerCall.granted (m : V2SessionManager) : ManagerCall → List AdmissionReservation
  | .reserve_admission session_id device_id organization_id expires_at_ms now_ms =>
    (m.reserve_admission session_id device_id organization_id expires_at_ms
      now_ms).result.toOption.toList
  | _ => []

namespace V2SessionManager

/-- The admission reservations that the calls of a run return. -/
def granted : V2SessionManager → List ManagerCall → List AdmissionReservation
  | _, [] => []
  | m, call :: calls => call.granted m ++ granted (call.apply m).1 calls

/-- The attach reservations that the calls of a run return. -/
def reserved : V2SessionManager → List ManagerCall → List GatewayAttachReservation
  | _, [] => []
  | m, call :: calls => call.reserved m ++ reserved (call.apply m).1 calls

/-- The reservation that a call presents was returned by a call of the run. -/
def Returned (m : V2SessionManager) (calls : List ManagerCall) : ManagerCall → Prop
  | .commit_admission reservation _ | .commit_admission_and_bind reservation _
  | .abort_admission reservation => reservation ∈ m.granted calls
  | .commit_attach reservation => reservation ∈ m.reserved calls
  | _ => True

variable (m : V2SessionManager)

/-- The call fails because the manager does not hold the reservation presented. -/
def Rejects : ManagerCall → Prop
  | .commit_admission reservation now_ms =>
    (m.commit_admission reservation now_ms).result = .error .UnknownAdmission
  | .commit_admission_and_bind reservation now_ms =>
    (m.commit_admission_and_bind reservation now_ms).result = .error .UnknownAdmission
  | .abort_admission reservation => (m.abort_admission reservation).result = .ok false
  | .commit_attach reservation => (m.commit_attach reservation).result = .error .UnknownAttach
  | _ => False

/-- Another reservation is held where the one presented would be. -/
def Superseded : ManagerCall → Prop
  | .commit_admission reservation _ | .commit_admission_and_bind reservation _
  | .abort_admission reservation => reservation.creates_session = true ∧
    ∃ held, m.admissions.lookup reservation.session_id = some held ∧ held ≠ reservation
  | .commit_attach reservation =>
    ∃ pending, m.pending_connections.lookup reservation.reservation.connection_id = some pending ∧
      pending.reservation ≠ reservation
  | _ => False

variable {m} {reservation : AdmissionReservation} {call : ManagerCall}

/-! ## Taking out an entry that is another -/

/-- An entry that is not the one looked for is either none or another. -/
theorem other_iff {V : Type*} {entry : Option V} {v : V} (h : entry ≠ some v) :
    (∃ held, entry = some held ∧ held ≠ v) ↔ entry ≠ none := by
  constructor
  · rintro ⟨held, rfl, -⟩
    simp
  · intro hsome
    obtain ⟨held, rfl⟩ := Option.ne_none_iff_exists'.mp hsome
    refine ⟨held, rfl, ?_⟩
    rintro rfl
    exact h rfl

theorem erase_eq_iff {K V : Type*} [DecidableEq K] {k : K} {table : Map K V} :
    table.erase k = table ↔ table.lookup k = none := by
  constructor
  · intro h
    rw [← h]
    simp
  · intro h
    exact AList.erase_of_notMem (AList.lookup_eq_none.mp h)

/-- A call that takes the admission out when it is rejected, and is rejected when the
admission is another or none. -/
theorem admission_harmless_iff
    (hrejects : m.Rejects call ↔ reservation.creates_session = true ∧
      m.admissions.lookup reservation.session_id ≠ some reservation)
    (hstate : m.Rejects call →
      (call.apply m).1 = { m with admissions := m.admissions.erase reservation.session_id }) :
    (m.Rejects call → (call.apply m).1 = m) ↔
      ¬ (reservation.creates_session = true ∧
        ∃ held, m.admissions.lookup reservation.session_id = some held ∧ held ≠ reservation) := by
  constructor
  · rintro h ⟨hcreates, held, hheld, hother⟩
    have hnot : m.admissions.lookup reservation.session_id ≠ some reservation := by
      simpa [hheld] using hother
    have hrejected := hrejects.mpr ⟨hcreates, hnot⟩
    have hsame := congrArg admissions ((hstate hrejected).symm.trans (h hrejected))
    have hnone := erase_eq_iff.mp hsame
    simp [hnone] at hheld
  · intro h hrejected
    obtain ⟨hcreates, hnot⟩ := hrejects.mp hrejected
    have hnone : m.admissions.lookup reservation.session_id = none := by
      by_contra hsome
      exact h ⟨hcreates, (other_iff hnot).mpr hsome⟩
    rw [hstate hrejected, erase_eq_iff.mpr hnone]

/-! ## The calls -/

theorem map_lifecycle_ne (e : LifecycleError) :
    map_lifecycle e ≠ .UnknownAdmission ∧ map_lifecycle e ≠ .UnknownAttach := by
  cases e <;> simp [map_lifecycle]

/-- An admission is rejected when its reservation is not held, and taken out in any case. -/
theorem insert_admitted_rejected (now_ms : ℕ) :
    (m.insert_admitted reservation now_ms).2 = .error .UnknownAdmission ↔
      m.admissions.lookup reservation.session_id ≠ some reservation := by
  rw [insert_admitted]
  split
  · next hheld => simp [hheld]
  next hheld =>
  split
  · next e _ => simp [not_not.mp hheld, (map_lifecycle_ne e).1]
  · simp [not_not.mp hheld]

theorem insert_admitted_state {now_ms : ℕ}
    (h : m.admissions.lookup reservation.session_id ≠ some reservation) :
    m.insert_admitted reservation now_ms =
      ({ m with admissions := m.admissions.erase reservation.session_id },
        .error .UnknownAdmission) := by
  rw [insert_admitted]
  exact if_pos h

/-- A bind fails for reasons of its own. -/
theorem bind_authenticated_connection_ne (session_id : SessionId) (now_ms : ℕ) :
    (m.bind_authenticated_connection session_id now_ms).result ≠ .error .UnknownAdmission := by
  rw [bind_authenticated_connection]
  split
  · simp [fails]
  split
  · simp [removes]
  split
  · simp [fails]
  split
  · simp [fails]
  · simp [bind, returns]

theorem commit_admission_rejects (now_ms : ℕ) :
    m.Rejects (.commit_admission reservation now_ms) ↔ reservation.creates_session = true ∧
      m.admissions.lookup reservation.session_id ≠ some reservation := by
  rw [Rejects, commit_admission, ← insert_admitted_rejected now_ms]
  cases reservation.creates_session <;> simp [returns]

theorem commit_admission_and_bind_rejects (now_ms : ℕ) :
    m.Rejects (.commit_admission_and_bind reservation now_ms) ↔
      reservation.creates_session = true ∧
        m.admissions.lookup reservation.session_id ≠ some reservation := by
  rw [Rejects, commit_admission_and_bind, ← insert_admitted_rejected now_ms]
  cases reservation.creates_session with
  | false => simp [bind_authenticated_connection_ne]
  | true =>
    simp only [Bool.not_true, Bool.false_eq_true, if_false, true_and]
    split
    · next e hinsert => simp [fails, hinsert]
    next hinsert =>
    split
    · simp [removes, hinsert]
    · simp [bind, returns, hinsert]

theorem abort_admission_rejects :
    m.Rejects (.abort_admission reservation) ↔ reservation.creates_session = false ∨
      m.admissions.lookup reservation.session_id ≠ some reservation := by
  rw [Rejects, abort_admission]
  cases reservation.creates_session <;> simp [returns]

theorem commit_attach_rejects {reservation : GatewayAttachReservation} :
    m.Rejects (.commit_attach reservation) ↔
      (m.pending_connections.lookup reservation.reservation.connection_id).map (·.reservation) ≠
        some reservation := by
  rw [Rejects, commit_attach]
  dsimp only
  split
  · next hheld => simp [fails, hheld]
  next hheld =>
  rw [not_not.mp hheld]
  split
  · simp [fails]
  split
  · next e _ => simp [fails, (map_lifecycle_ne e).2]
  split
  · next e _ => simp [fails, (map_lifecycle_ne e).2]
  · simp [returns]

theorem commit_attach_harmless_iff {reservation : GatewayAttachReservation} :
    (m.Rejects (.commit_attach reservation) →
      ((ManagerCall.commit_attach reservation).apply m).1 = m) ↔
        ¬ m.Superseded (.commit_attach reservation) := by
  let connection_id := reservation.reservation.connection_id
  have hstate : m.Rejects (.commit_attach reservation) →
      ((ManagerCall.commit_attach reservation).apply m).1 =
        { m with pending_connections := m.pending_connections.erase connection_id } := by
    intro h
    have hnot := commit_attach_rejects.mp h
    rw [ManagerCall.apply, commit_attach]
    dsimp only
    rw [if_pos hnot]
    rfl
  constructor
  · rintro h ⟨pending, hpending, hother⟩
    have hrejected : m.Rejects (.commit_attach reservation) := by
      rw [commit_attach_rejects, hpending]
      simpa using hother
    have hsame := congrArg pending_connections ((hstate hrejected).symm.trans (h hrejected))
    have hnone := erase_eq_iff.mp hsame
    simp [hnone, connection_id] at hpending
  · intro h hrejected
    have hnone : m.pending_connections.lookup connection_id = none := by
      by_contra hsome
      obtain ⟨pending, hpending⟩ := Option.ne_none_iff_exists'.mp hsome
      apply h
      refine ⟨pending, hpending, ?_⟩
      have hnot := commit_attach_rejects.mp hrejected
      rw [hpending] at hnot
      simpa using hnot
    rw [hstate hrejected, erase_eq_iff.mpr hnone]

/-- **When a rejected call changes nothing.** -/
theorem harmless_iff (call : ManagerCall) :
    (m.Rejects call → (call.apply m).1 = m) ↔ ¬ m.Superseded call := by
  cases call with
  | commit_admission reservation now_ms =>
    apply admission_harmless_iff (commit_admission_rejects now_ms)
    intro h
    obtain ⟨hcreates, hnot⟩ := (commit_admission_rejects now_ms).mp h
    rw [ManagerCall.apply, commit_admission, hcreates, insert_admitted_state hnot]
    rfl
  | commit_admission_and_bind reservation now_ms =>
    apply admission_harmless_iff (commit_admission_and_bind_rejects now_ms)
    intro h
    obtain ⟨hcreates, hnot⟩ := (commit_admission_and_bind_rejects now_ms).mp h
    rw [ManagerCall.apply, commit_admission_and_bind, hcreates, insert_admitted_state hnot]
    rfl
  | abort_admission reservation =>
    cases hcreates : reservation.creates_session with
    | false =>
      -- the reservation of a session that was there: there is nothing to take out
      rw [ManagerCall.apply, abort_admission, hcreates]
      simp [Superseded, hcreates, Reply.effect, returns]
    | true =>
      apply admission_harmless_iff (by simp [abort_admission_rejects, hcreates])
      intro h
      rw [ManagerCall.apply, abort_admission, hcreates]
      rfl
  | commit_attach reservation => exact commit_attach_harmless_iff
  | _ => simp [Rejects, Superseded]

/-- **A rejected call changes nothing as long as nothing newer is held.** Along every run
of calls, from every state, each rejected call leaves the manager as it was exactly
when none of them presents a reservation that another has replaced. -/
theorem rejected_calls_harmless_iff (m : V2SessionManager) (calls : List ManagerCall) :
    Along manager_step (fun m call => m.Rejects call → (call.apply m).1 = m) m calls ↔
      Along manager_step (fun m call => ¬ m.Superseded call) m calls :=
  along_iff_along (I := fun _ => True) (fun _ _ _ _ _ _ => trivial)
    (fun _ call _ => harmless_iff call) trivial calls

/-! ## A stale reservation -/

namespace Stale

/-- A reservation that a sweep takes away, and the owner's next one. -/
def admissions : List ManagerCall :=
  [.reserve_admission ⟨1⟩ ⟨1⟩ ⟨1⟩ 10 1, .sweep .stored 10, .reserve_admission ⟨1⟩ ⟨1⟩ ⟨1⟩ 30 11]

def stale_admission : AdmissionReservation := ⟨⟨1⟩, ⟨1⟩, ⟨1⟩, 10, true⟩

def next_admission : AdmissionReservation := ⟨⟨1⟩, ⟨1⟩, ⟨1⟩, 30, true⟩

/-- An attach that runs out, and the connection's next one. -/
def attaches : List ManagerCall :=
  [.reserve_admission ⟨1⟩ ⟨1⟩ ⟨1⟩ 1000 1,
    .commit_admission_and_bind ⟨⟨1⟩, ⟨1⟩, ⟨1⟩, 1000, true⟩ 1,
    .reserve_attach ⟨⟨1⟩, ⟨1⟩⟩ 1 1 2, .reserve_attach ⟨⟨1⟩, ⟨1⟩⟩ 2 2 12]

def attach : GatewayAttachReservation := ⟨⟨1⟩, ⟨⟨1⟩, 1, 1, ⟨1⟩⟩⟩

def next_attach : GatewayAttachReservation := ⟨⟨1⟩, ⟨⟨2⟩, 2, 2, ⟨1⟩⟩⟩

/-- The paths of the first session with what is reserved of them. -/
def slots (m : V2SessionManager) : List (PathId × Bool) :=
  (m.sessions.lookup ⟨1⟩).toList.flatMap (fun managed =>
    managed.session.paths.entries.map (fun e => (e.1, e.2.reserved)))

end Stale

open Stale in
/-- A stale admission takes the next one with it, and a stale attach leaves the next
one's path reserved with nothing pending for it. -/
theorem stale_handles_displace :
    (¬ ∀ (config : V2SessionManagerConfig) (m₀ m : V2SessionManager) (calls : List ManagerCall)
      (events : List SessionEvent) (call : ManagerCall), V2SessionManager.new config = .ok m₀ →
      exec manager_step m₀ calls = some (m, events) → m₀.Returned calls call → m.Rejects call →
      (call.apply m).1 = m) ∧
    (∃ m events, exec manager_step idle_manager Stale.admissions = some (m, events) ∧
      m.admissions.lookup ⟨1⟩ = some next_admission ∧
      m.Rejects (.commit_admission_and_bind stale_admission 12) ∧
      ((m.commit_admission_and_bind stale_admission 12).manager).Rejects
        (.commit_admission_and_bind next_admission 13)) ∧
    ∃ m events, exec manager_step idle_manager attaches = some (m, events) ∧
      idle_manager.Returned attaches (.commit_attach attach) ∧ slots m = [(⟨2⟩, true)] ∧
      m.Rejects (.commit_attach attach) ∧
      (m.commit_attach attach).manager.Rejects (.commit_attach next_attach) ∧
      slots (m.commit_attach attach).manager = [(⟨2⟩, true)] ∧
      (m.commit_attach attach).manager.pending_connections.len = 0 := by
  have hadmission : (exec manager_step idle_manager Stale.admissions).any (fun r => decide
      (stale_admission ∈ idle_manager.granted Stale.admissions ∧
        r.1.admissions.lookup ⟨1⟩ = some next_admission ∧
        (r.1.commit_admission_and_bind stale_admission 12).result = .error .UnknownAdmission ∧
        (r.1.commit_admission_and_bind stale_admission 12).manager.admissions.lookup ⟨1⟩ = none ∧
        ((r.1.commit_admission_and_bind stale_admission 12).manager.commit_admission_and_bind
          next_admission 13).result = .error .UnknownAdmission)) = true := by decide
  have hattach : (exec manager_step idle_manager attaches).any (fun r => decide
      (attach ∈ idle_manager.reserved attaches ∧ slots r.1 = [(⟨2⟩, true)] ∧
        (r.1.commit_attach attach).result = .error .UnknownAttach ∧
        ((r.1.commit_attach attach).manager.commit_attach next_attach).result =
          .error .UnknownAttach ∧
        slots (r.1.commit_attach attach).manager = [(⟨2⟩, true)] ∧
        (r.1.commit_attach attach).manager.pending_connections.len = 0)) = true := by
    decide
  obtain ⟨⟨m, events⟩, hrun, hstate⟩ := (Option.any_eq_true _ _).mp hadmission
  obtain ⟨hreturned, hheld, hrejected, hgone, hnext⟩ := of_decide_eq_true hstate
  obtain ⟨⟨m', events'⟩, hrun', hstate'⟩ := (Option.any_eq_true _ _).mp hattach
  obtain ⟨hreturned', hslots, hrejected', hnext', hleaked⟩ := of_decide_eq_true hstate'
  refine ⟨?_, ⟨m, events, hrun, hheld, hrejected, hnext⟩, m', events', hrun', hreturned', hslots,
    hrejected', hnext', hleaked⟩
  intro hclaim
  have hnew : V2SessionManager.new idle_manager.config = .ok idle_manager := rfl
  have hsame := hclaim _ _ _ _ _ (.commit_admission_and_bind stale_admission 12) hnew hrun hreturned
    hrejected
  -- the newer reservation was held before the call and is not held after it
  have hkept := congrArg (fun m => m.admissions.lookup ⟨1⟩) hsame
  change (m.commit_admission_and_bind stale_admission 12).manager.admissions.lookup ⟨1⟩ =
    m.admissions.lookup ⟨1⟩ at hkept
  rw [hgone, hheld] at hkept
  contradiction

end V2SessionManager

end StreamGuard.Gateway
