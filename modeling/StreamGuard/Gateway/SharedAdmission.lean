/-
Two handshakes of one owner.

A device opens several connections and each of them goes through an admission of its
own. As long as its session is not in the map they share one reservation: the second
`reserve_admission` returns the entry of the first. The entry can be used once, so the
handshake that decides second finds nothing, whether the first committed or aborted.
Once the session is in the map a reservation only names it, and the handshakes do not
meet.
-/
import StreamGuard.Gateway.SessionQuarantine

set_option autoImplicit false

namespace StreamGuard.Gateway

open StreamGuard StreamGuard.Lib StreamGuard.Session

namespace V2SessionManager

/-- How a handshake ends. -/
inductive Decision where
  | commit (now_ms : ℕ)
  | abort
  deriving DecidableEq

/-- The call that a decision makes. -/
def Decision.call (r : AdmissionReservation) : Decision → ManagerCall
  | .commit now_ms => .commit_admission_and_bind r now_ms
  | .abort => .abort_admission r

/-! ## Reached states -/

/-- What holds of every state reached from a manager of this configuration. -/
structure Admitting (config : V2SessionManagerConfig) (m : V2SessionManager) : Prop where
  coherent : m.Coherent
  configured : m.config = config
  keyed : ∀ {id r}, m.admissions.lookup id = some r → r.session_id = id ∧ r.creates_session = true

variable {config : V2SessionManagerConfig} {m m' : V2SessionManager} {call : ManagerCall}
  {calls : List ManagerCall} {events : List SessionEvent}

theorem new_admitting (h : V2SessionManager.new config = .ok m) : Admitting config m := by
  have hcoherent := new_coherent h
  rw [V2SessionManager.new] at h
  split at h
  · contradiction
  · obtain rfl := Except.ok.inj h
    exact ⟨hcoherent, rfl, by simp⟩

/-- A reservation held after a call was held before it, or is a new one under its own
session. -/
theorem apply_keyed (hkeyed : ∀ {id r}, m.admissions.lookup id = some r →
      r.session_id = id ∧ r.creates_session = true) {id : SessionId} {r : AdmissionReservation}
    (hr : (call.apply m).1.admissions.lookup id = some r) :
    r.session_id = id ∧ r.creates_session = true := by
  by_cases hreserve : ∃ session_id device_id organization_id expires_at_ms now_ms,
      call = .reserve_admission session_id device_id organization_id expires_at_ms now_ms
  · obtain ⟨session_id, device_id, organization_id, expires_at_ms, now_ms, rfl⟩ := hreserve
    change (m.reserve_admission session_id device_id organization_id expires_at_ms
      now_ms).manager.admissions.lookup id = some r at hr
    cases hresult : (m.reserve_admission session_id device_id organization_id expires_at_ms
      now_ms).result with
    | error e =>
      rw [reserve_admission_admissions hresult] at hr
      exact hkeyed hr
    | ok reservation =>
      obtain ⟨howner, hmanager⟩ := reserve_admission_ok hresult
      have hold := expire_admitted_admissions (m := m) session_id now_ms
      rw [hmanager] at hr
      rcases reserve_owner_ok howner with ⟨_, _, _, _, _, he⟩ | ⟨_, _, _, _, he⟩ | ⟨_, _, hnew, he⟩
      · rw [he, hold] at hr
        exact hkeyed hr
      · rw [he, hold] at hr
        exact hkeyed hr
      · rw [he] at hr
        rcases AList.of_lookup_insert hr with hr | ⟨rfl, rfl⟩
        · rw [hold] at hr
          exact hkeyed hr
        · simp [hnew]
  · refine hkeyed (ManagerCall.holds_no_more ?_ id r hr)
    intro session_id device_id organization_id expires_at_ms now_ms hcall
    exact hreserve ⟨_, _, _, _, _, hcall⟩

theorem Admitting.step (h : Admitting config m) (hs : manager_step m call = some (m', events)) :
    Admitting config m' := by
  obtain ⟨rfl, rfl⟩ := step_inj hs
  refine ⟨manager_step_coherent h.coherent hs, ?_, fun hr => apply_keyed h.keyed hr⟩
  exact (call.updates h.coherent).invariant (I := fun m => m.config = config)
    (fun hc hu => hu.config_eq.trans hc) h.configured

theorem Admitting.run (h : Admitting config m)
    (hrun : exec manager_step m calls = some (m', events)) :
    Admitting config m' :=
  exec_invariant (fun _ _ _ _ hm hs => hm.step hs) h hrun

/-! ## A reservation that stands -/

variable {session_id : SessionId} {r r' : AdmissionReservation} {now_ms : ℕ}

/-- The admission of the session in the map. -/
def admission (m : V2SessionManager) (session_id : SessionId) : Option Admission :=
  (m.sessions.lookup session_id).map (·.session.admission)

/-- The call of another leaves the session and its reservation where they are. -/
structure Spares (session_id : SessionId) (m : V2SessionManager) (call : ManagerCall) : Prop where
  reservation : (call.apply m).1.admissions.lookup session_id = m.admissions.lookup session_id
  session : (call.apply m).1.admission session_id = m.admission session_id

/-- The reservation is held, or the session that it names is in the map. -/
def Stands (m : V2SessionManager) (r : AdmissionReservation) : Prop :=
  if r.creates_session then m.admissions.lookup r.session_id = some r
  else (m.admission r.session_id).map (·.expires_at_ms) = some r.expires_at_ms

/-- The session is in the map and takes connections. -/
def Active (m : V2SessionManager) (session_id : SessionId) : Prop :=
  ∃ managed, m.sessions.lookup session_id = some managed ∧ managed.session.state = .Active

theorem Stands.run (h : m.Stands r) (hspares : Along manager_step (Spares r.session_id) m calls)
    (hrun : exec manager_step m calls = some (m', events)) : m'.Stands r := by
  refine exec_along_invariant (I := fun m => m.Stands r) ?_ h hspares hrun
  intro m call m' events h hspares hs
  obtain ⟨rfl, rfl⟩ := step_inj hs
  rw [Stands] at h ⊢
  rwa [hspares.reservation, hspares.session]

/-- The session that a standing reservation names has not expired before it. -/
theorem Stands.named (h : m.Stands r) (hexists : r.creates_session = false)
    (hlive : now_ms < r.expires_at_ms) : ∃ managed, m.sessions.lookup r.session_id = some managed ∧
      managed.session.is_expired now_ms = false := by
  rw [Stands, hexists, if_neg (by simp), admission, Option.map_map] at h
  obtain ⟨managed, hlookup, hexpires⟩ := Option.map_eq_some_iff.mp h
  refine ⟨managed, hlookup, ?_⟩
  change managed.session.admission.expires_at_ms = r.expires_at_ms at hexpires
  simp [V2Session.is_expired, hexpires, hlive]

/-- What is not held stays so. -/
theorem unheld_run (h : m.admissions.lookup session_id = none)
    (hspares : Along manager_step (Spares session_id) m calls)
    (hrun : exec manager_step m calls = some (m', events)) :
    m'.admissions.lookup session_id = none := by
  refine exec_along_invariant (I := fun m => m.admissions.lookup session_id = none) ?_ h hspares hrun
  intro m call m' events h hspares hs
  obtain ⟨rfl, rfl⟩ := step_inj hs
  exact hspares.reservation.trans h

/-- A reservation stands when it is returned. -/
theorem reserve_admission_stands (h : Admitting config m) {device_id : DeviceId}
    {organization_id : OrganizationId} {expires_at_ms : ℕ}
    (hok : (m.reserve_admission session_id device_id organization_id expires_at_ms now_ms).result =
      .ok r) :
    (m.reserve_admission session_id device_id organization_id expires_at_ms
      now_ms).manager.Stands r ∧ r.session_id = session_id := by
  obtain ⟨howner, hmanager⟩ := reserve_admission_ok hok
  have hold := expire_admitted_admissions (m := m) session_id now_ms
  rw [hmanager, Stands]
  rcases reserve_owner_ok howner with ⟨managed, hlookup, _, _, rfl, he⟩ | ⟨_, hheld, _, _, he⟩ |
    ⟨_, _, rfl, he⟩
  · rw [he]
    simp [admission, hlookup]
  · rw [hold] at hheld
    obtain ⟨hid, hcreates⟩ := h.keyed hheld
    rw [he, hold, hcreates, hid]
    exact ⟨hheld, rfl⟩
  · rw [he]
    simp

/-! ## What a handshake decides -/

/-- A commit comes before the reservation expires, and there is room for a connection. -/
def Decision.Timely (m : V2SessionManager) (r : AdmissionReservation) : Decision → Prop
  | .commit now_ms => now_ms < r.expires_at_ms ∧
    m.authenticated_connections.len < m.maximum_authenticated_connections
  | .abort => True

/-- A commit gives the handshake an authenticated connection of its session. -/
def Decision.Served (m : V2SessionManager) (r : AdmissionReservation) : Decision → Prop
  | .commit now_ms => ∃ connection,
    (m.commit_admission_and_bind r now_ms).result = .ok connection ∧
      connection.session_id = r.session_id ∧
      (m.commit_admission_and_bind r now_ms).manager.authenticates connection = true
  | .abort => True

variable {d d' : Decision}

/-- A bind hands out a connection of the session. -/
theorem bind_serves (m : V2SessionManager) (session_id : SessionId) : ∃ connection,
    (m.bind session_id).result = .ok connection ∧ connection.session_id = session_id ∧
      (m.bind session_id).manager.authenticates connection = true := by
  obtain ⟨next, hmanager⟩ := bind_manager m session_id
  refine ⟨⟨session_id, ⟨m.next_connection_identity.2⟩⟩, rfl, rfl, ?_⟩
  rw [authenticates_iff, hmanager]
  simp

theorem activated_session_live {m₀ : V2SessionManager} (hnew : V2SessionManager.new config = .ok m₀)
    (hm : m.config = config) (hlive : now_ms < r.expires_at_ms) :
    ∃ session, m.activated_session r now_ms = .ok session := by
  have hvalid : ¬ (config.maximum_sessions = 0 ∨ config.idle_ttl_ms = 0 ∨
      config.maximum_paths_per_session = 0 ∨ config.maximum_pending_attaches = 0 ∨
      config.pending_attach_ttl_ms = 0 ∨
      config.maximum_path_epoch_history < config.maximum_paths_per_session ∨
      u16Max.val < config.maximum_path_epoch_history ∨ config.maximum_path_tombstones = 0 ∨
      config.path_tombstone_ttl_ms = 0) := by
    intro hbad
    rw [V2SessionManager.new, if_pos hbad] at hnew
    contradiction
  have hconfig : ¬ (config.maximum_paths_per_session = 0 ∨
      u16Max.val < config.maximum_paths_per_session ∨
      config.maximum_path_epoch_history < config.maximum_paths_per_session ∨
      u16Max.val < config.maximum_path_epoch_history ∨ config.maximum_path_tombstones = 0 ∨
      config.path_tombstone_ttl_ms = 0 ∨ r.expires_at_ms = 0) := by omega
  rw [activated_session, V2Session.new, hm]
  rw [if_neg hconfig, if_neg (Nat.not_le.mpr hlive)]
  simp [V2Session.activate, V2Session.is_expired, Nat.not_le.mpr hlive]

/-- The first to use a reservation that is held is served. -/
theorem held_served {m₀ : V2SessionManager} (hnew : V2SessionManager.new config = .ok m₀)
    (hm : m.config = config) (hcreates : r.creates_session = true)
    (hheld : m.admissions.lookup r.session_id = some r) (htimely : d.Timely m r) : d.Served m r := by
  cases d with
  | abort => trivial
  | commit now_ms =>
    obtain ⟨hlive, hroom⟩ := htimely
    obtain ⟨session, hsession⟩ := activated_session_live hnew hm hlive
    let inserted := ({ m with admissions := m.admissions.erase r.session_id }).update_session
      r.session_id ⟨session, r.organization_id, now_ms⟩
    have hinsert : m.insert_admitted r now_ms = (inserted, .ok ()) := by
      rw [insert_admitted, if_neg (not_not.mpr hheld)]
      split
      · next e he => cases hsession.symm.trans he
      · next session' he =>
        obtain rfl := Except.ok.inj (hsession.symm.trans he)
        rfl
    have hfull : ¬ inserted.maximum_authenticated_connections ≤
        inserted.authenticated_connections.len := Nat.not_le.mpr hroom
    have hbind : m.commit_admission_and_bind r now_ms = inserted.bind r.session_id := by
      rw [commit_admission_and_bind, hcreates, hinsert]
      exact if_neg hfull
    rw [Decision.Served, hbind]
    exact bind_serves inserted r.session_id

/-- Nobody is served with a reservation that is not held. -/
theorem unheld_unserved (hcreates : r.creates_session = true)
    (hgone : m.admissions.lookup r.session_id = none) : d.Served m r ↔ d = .abort := by
  cases d with
  | abort => simp [Decision.Served]
  | commit now_ms =>
    have hinsert : m.insert_admitted r now_ms =
        ({ m with admissions := m.admissions.erase r.session_id }, .error .UnknownAdmission) := by
      rw [insert_admitted]
      exact if_pos (by simp [hgone])
    rw [Decision.Served, commit_admission_and_bind, hcreates, hinsert]
    simp [fails]

/-- A reservation that names its session is served while the session is Active. -/
theorem named_served_iff (hexists : r.creates_session = false) (hstands : m.Stands r)
    (htimely : d.Timely m r) : d.Served m r ↔ (d ≠ .abort → m.Active r.session_id) := by
  cases d with
  | abort => simp [Decision.Served]
  | commit now_ms =>
    obtain ⟨hlive, hroom⟩ := htimely
    obtain ⟨managed, hlookup, hunexpired⟩ := hstands.named hexists hlive
    have hactive : m.Active r.session_id ↔ managed.session.state = .Active := by
      simp [Active, hlookup]
    rw [Decision.Served, commit_admission_and_bind, hexists, bind_authenticated_connection, hlookup]
    simp only [Bool.not_false, if_true, hunexpired, Bool.false_eq_true, if_false, ne_eq,
      reduceCtorEq, not_false_eq_true, forall_const, hactive]
    by_cases hstate : managed.session.state = .Active
    · rw [if_neg (not_not.mpr hstate), if_neg (Nat.not_le.mpr hroom)]
      simp [hstate, bind_serves]
    · rw [if_pos hstate]
      simp [fails, hstate]

/-- Either decision uses the reservation up. -/
theorem decided_unheld (hcreates : r.creates_session = true) :
    ((d.call r).apply m).1.admissions.lookup r.session_id = none := by
  cases d with
  | abort =>
    rw [Decision.call, ManagerCall.apply, abort_admission, hcreates]
    simp [Reply.effect, returns]
  | commit now_ms =>
    have hinsert := insert_admitted_admissions m r now_ms
    rw [Decision.call, ManagerCall.apply, commit_admission_and_bind, hcreates]
    simp only [Bool.not_true, Bool.false_eq_true, if_false, Reply.effect]
    split
    · next m' e he =>
      rw [he] at hinsert
      dsimp only at hinsert
      simp [fails, hinsert]
    next m' he =>
    rw [he] at hinsert
    split
    · rw [removes_admissions, hinsert]
      simp
    · rw [(bind_keeps m' _).1.admissions, hinsert]
      simp

/-- A decision that only names the session leaves it there. -/
theorem decided_stands (hexists : r.creates_session = false) (hstands : m.Stands r)
    (htimely : d.Timely m r) (hstands' : m.Stands r') : ((d.call r).apply m).1.Stands r' := by
  have hkeeps : ∀ {m' : V2SessionManager}, m'.admissions = m.admissions →
      m'.sessions = m.sessions → m'.Stands r' := by
    intro m' hadmissions hsessions
    rw [Stands, admission] at hstands' ⊢
    rwa [hadmissions, hsessions]
  cases d with
  | abort =>
    rw [Decision.call, ManagerCall.apply, abort_admission, hexists]
    exact hstands'
  | commit now_ms =>
    obtain ⟨managed, hlookup, hunexpired⟩ := hstands.named hexists htimely.1
    rw [Decision.call, ManagerCall.apply, commit_admission_and_bind, hexists,
      bind_authenticated_connection, hlookup]
    simp only [Bool.not_false, if_true, hunexpired, Bool.false_eq_true, if_false, Reply.effect]
    split
    · exact hstands'
    split
    · exact hstands'
    · exact hkeeps (bind_keeps m _).1.admissions (bind_keeps m _).2.2

/-! ## Two handshakes -/

/-- A handshake of the owner was given the reservation on the way to `m`, and the calls
since have spared its session. -/
def Granted (config : V2SessionManagerConfig) (m : V2SessionManager) (session_id : SessionId)
    (device_id : DeviceId) (organization_id : OrganizationId) (r : AdmissionReservation) : Prop :=
  ∃ m₀ m₁ calls events expires_at_ms now_ms others events',
    V2SessionManager.new config = .ok m₀ ∧ exec manager_step m₀ calls = some (m₁, events) ∧
    (m₁.reserve_admission session_id device_id organization_id expires_at_ms now_ms).result = .ok r ∧
    Along manager_step (Spares session_id)
      (m₁.reserve_admission session_id device_id organization_id expires_at_ms now_ms).manager
      others ∧
    exec manager_step
      (m₁.reserve_admission session_id device_id organization_id expires_at_ms now_ms).manager
      others = some (m, events')

variable {device_id : DeviceId} {organization_id : OrganizationId}

theorem Granted.stands (h : Granted config m session_id device_id organization_id r) :
    (∃ m₀, V2SessionManager.new config = .ok m₀) ∧ Admitting config m ∧
      r.session_id = session_id ∧ m.Stands r := by
  obtain ⟨m₀, m₁, calls, events, expires_at_ms, now_ms, others, events', hnew, hrun, hok, hspares,
    hothers⟩ := h
  have hadmitting := (new_admitting hnew).run hrun
  obtain ⟨hstands, hid⟩ := reserve_admission_stands hadmitting hok
  have hreserved : manager_step m₁ (.reserve_admission session_id device_id organization_id
      expires_at_ms now_ms) = some (_, _) := rfl
  subst hid
  exact ⟨⟨m₀, hnew⟩, (hadmitting.step hreserved).run hothers, rfl, hstands.run hspares hothers⟩

/-- Two reservations of one session that stand are one, or both name the session. -/
theorem Stands.same (h : m.Stands r) (h' : m.Stands r') (hcoherent : m.Coherent)
    (hid : r'.session_id = r.session_id) : r'.creates_session = r.creates_session ∧
      (r.creates_session = true → r' = r) := by
  have hapart : ∀ {r r' : AdmissionReservation}, m.Stands r → m.Stands r' →
      r'.session_id = r.session_id → r.creates_session = true → r'.creates_session = true := by
    intro r r' h h' hid hcreates
    by_contra hexists
    rw [Stands, hcreates] at h
    rw [Stands, if_neg hexists, admission, Option.map_map] at h'
    obtain ⟨managed, hlookup, -⟩ := Option.map_eq_some_iff.mp h'
    rw [hid] at hlookup
    exact hcoherent.apart (AList.mem_of_lookup hlookup) (AList.mem_of_lookup h)
  have hsame : r'.creates_session = r.creates_session :=
    Bool.eq_iff_iff.mpr ⟨hapart h' h hid.symm, hapart h h' hid⟩
  refine ⟨hsame, ?_⟩
  intro hcreates
  rw [Stands, hcreates] at h
  rw [Stands, hsame, hcreates, hid] at h'
  exact Option.some.inj (h'.symm.trans h)

/-- **Two handshakes of one owner.** Both end as they should exactly when the one that
decides second does not commit a reservation that creates the session; where the
session is in the map already, it has to be Active for those that commit. -/
theorem handshakes_served_iff {others : List ManagerCall}
    (hfirst : Granted config m session_id device_id organization_id r)
    (hsecond : Granted config m session_id device_id organization_id r') (hd : d.Timely m r)
    (hspares : Along manager_step (Spares session_id) ((d.call r).apply m).1 others)
    (hothers : exec manager_step ((d.call r).apply m).1 others = some (m', events))
    (hd' : d'.Timely m' r') :
    d.Served m r ∧ d'.Served m' r' ↔
      (r.creates_session = true → d' = .abort) ∧
        (r.creates_session = false → (d ≠ .abort → m.Active session_id) ∧
          (d' ≠ .abort → m'.Active session_id)) := by
  obtain ⟨⟨m₀, hnew⟩, hadmitting, rfl, hstands⟩ := hfirst.stands
  obtain ⟨-, -, hid, hstands'⟩ := hsecond.stands
  obtain ⟨hsame, hshared⟩ := hstands.same hstands' hadmitting.coherent hid
  cases hcreates : r.creates_session with
  | true =>
    -- the reservation is one entry, and the first decision takes it out
    obtain rfl := hshared hcreates
    have hheld : m.admissions.lookup r'.session_id = some r' := by
      rwa [Stands, hcreates, if_pos rfl] at hstands
    have hserved := held_served hnew hadmitting.configured hcreates hheld hd
    have hgone := unheld_run (decided_unheld (d := d) hcreates) hspares hothers
    simp [hserved, unheld_unserved hcreates hgone]
  | false =>
    rw [hcreates] at hsame
    rw [← hid] at hspares
    have hnamed := (decided_stands hcreates hstands hd hstands').run hspares hothers
    rw [named_served_iff hcreates hstands hd, named_served_iff hsame hnamed hd', hid]
    simp

namespace Shared

/-- The manager before any call. -/
def idle : V2SessionManager := ⟨⟨2, 100, 2, 1, 10, 2, 1, 5⟩, ∅, ∅, ∅, ∅, ∅, 1⟩

/-- The owner asks for its session. -/
def reserve : ManagerCall := .reserve_admission ⟨1⟩ ⟨1⟩ ⟨1⟩ 1000 0

/-- The reservation that creates the session, and the one that only names it. -/
def reservation (creates_session : Bool) : AdmissionReservation :=
  ⟨⟨1⟩, ⟨1⟩, ⟨1⟩, 1000, creates_session⟩

/-- After two handshakes have reserved. -/
def both : V2SessionManager := (reserve.apply (reserve.apply idle).1).1

/-- The same with the session in the map from a third. -/
def present : V2SessionManager :=
  ((ManagerCall.commit_admission (reservation true) 0).apply (reserve.apply idle).1).1

def both_present : V2SessionManager := (reserve.apply (reserve.apply present).1).1

theorem granted_first : Granted idle.config both ⟨1⟩ ⟨1⟩ ⟨1⟩ (reservation true) :=
  ⟨idle, idle, [], [], 1000, 0, [reserve], _, rfl, rfl, by decide,
    ⟨⟨by decide, by decide⟩, trivial⟩, rfl⟩

theorem granted_second : Granted idle.config both ⟨1⟩ ⟨1⟩ ⟨1⟩ (reservation true) :=
  ⟨idle, (reserve.apply idle).1, [reserve], _, 1000, 0, [], _, rfl, rfl, by decide,
    trivial, rfl⟩

theorem granted_present_first : Granted idle.config both_present ⟨1⟩ ⟨1⟩ ⟨1⟩ (reservation false) :=
  ⟨idle, present, [reserve, .commit_admission (reservation true) 0], _, 1000, 0, [reserve], _, rfl,
    rfl, by decide, ⟨⟨by decide, by decide⟩, trivial⟩, rfl⟩

theorem granted_present_second : Granted idle.config both_present ⟨1⟩ ⟨1⟩ ⟨1⟩ (reservation false) :=
  ⟨idle, (reserve.apply present).1, [reserve, .commit_admission (reservation true) 0, reserve], _,
    1000, 0, [], _, rfl, rfl, by decide, trivial, rfl⟩

theorem active_of_any {m : V2SessionManager} {session_id : SessionId}
    (h : (m.sessions.lookup session_id).any (fun managed =>
      decide (managed.session.state = .Active)) = true) : m.Active session_id := by
  obtain ⟨managed, hlookup, hstate⟩ := (Option.any_eq_true _ _).mp h
  exact ⟨managed, hlookup, of_decide_eq_true hstate⟩

/-- The manager once the first handshake has committed. -/
def committed (m : V2SessionManager) (creates_session : Bool) : V2SessionManager :=
  (((Decision.commit 2).call (reservation creates_session)).apply m).1

end Shared

open Shared in
/-- Both handshakes of an owner whose session is there get their connections. -/
theorem handshakes_served_present :
    (Decision.commit 2).Served both_present (reservation false) ∧
      (Decision.commit 3).Served (committed both_present false) (reservation false) := by
  have htimely : (Decision.commit 2).Timely both_present (reservation false) :=
    ⟨by decide, by decide⟩
  have htimely' : (Decision.commit 3).Timely (committed both_present false) (reservation false) :=
    ⟨by decide, by decide⟩
  have hothers : exec manager_step (committed both_present false) [] =
      some (committed both_present false, []) := rfl
  have hspares : Along manager_step (Spares ⟨1⟩) (committed both_present false) [] := trivial
  refine (handshakes_served_iff granted_present_first granted_present_second htimely hspares hothers
    htimely').mpr ⟨by decide, fun _ => ⟨fun _ => ?_, fun _ => ?_⟩⟩
  · exact active_of_any (by decide)
  · exact active_of_any (by decide)

open Shared in
/-- Of two handshakes that share a reservation the second to commit gets nothing. -/
theorem shared_admission_refused : ¬ ∀ (config : V2SessionManagerConfig) (m m' : V2SessionManager)
    (session_id : SessionId) (device_id : DeviceId) (organization_id : OrganizationId)
    (r r' : AdmissionReservation) (d d' : Decision) (others : List ManagerCall)
    (events : List SessionEvent), Granted config m session_id device_id organization_id r →
    Granted config m session_id device_id organization_id r' → d.Timely m r →
    Along manager_step (Spares session_id) ((d.call r).apply m).1 others →
    exec manager_step ((d.call r).apply m).1 others = some (m', events) → d'.Timely m' r' →
    d.Served m r ∧ d'.Served m' r' := by
  intro hclaim
  have hothers : exec manager_step (committed both true) [] = some (committed both true, []) := rfl
  have hserved := (hclaim _ _ _ _ _ _ _ _ (.commit 2) (.commit 3) [] [] granted_first granted_second
    ⟨by decide, by decide⟩ trivial hothers ⟨by decide, by decide⟩).2
  have hgone : (committed both true).admissions.lookup (reservation true).session_id = none := by
    decide
  cases (unheld_unserved rfl hgone).mp hserved

end V2SessionManager

end StreamGuard.Gateway
