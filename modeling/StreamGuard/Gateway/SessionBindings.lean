/-
Which connection may speak for a path.

A binding is written down twice, in the connection map and in the session's path
table, and an envelope is accepted when both agree with its header. `Coherent`
gives the direction from the map to the session, so two connections that accept
one envelope are bound to one path, which has a single connection. An accepted
envelope stays out once its path is gone because the session remembers the
epochs it gave out: `Retired` says that whatever sits under the number now has a
higher one.
-/
import StreamGuard.Gateway.SessionUpdates

set_option autoImplicit false

namespace StreamGuard.Gateway

open StreamGuard StreamGuard.Lib StreamGuard.Session

namespace V2SessionManager

variable {clock : Option ℕ} {call : ManagerCall} {m m' : V2SessionManager}
    {events seen : List SessionEvent}
  {session_id : SessionId} {path_id : PathId} {path_epoch : U64} {managed managed' : ManagedSession}

/-! ## Runs -/

theorem manager_step_coherent {call : ManagerCall} (h : m.Coherent)
    (hs : manager_step m call = some (m', events)) : m'.Coherent := by
  obtain ⟨rfl, rfl⟩ := step_inj hs
  exact (call.updates h).invariant (fun hm hu => hu.coherent hm) h

theorem run_coherent {calls : List ManagerCall} (h : m.Coherent)
    (hrun : exec manager_step m calls = some (m', events)) : m'.Coherent :=
  exec_invariant (fun _ _ _ _ hm hs => manager_step_coherent hm hs) h hrun

/-- The run rule over the updates of all the calls of a run. -/
theorem run_induct {P : V2SessionManager → List SessionEvent → Prop} {calls : List ManagerCall}
    (hstep : ∀ {call m m' seen events}, m.Coherent → P m seen → Update call m events m' →
      P m' (seen ++ events))
    (h : m.Coherent) (hP : P m seen) (hrun : exec manager_step m calls = some (m', events)) :
    P m' (seen ++ events) := by
  have hall := exec_along_induct (C := fun _ _ => True) (a := seen)
    (P := fun m seen => m.Coherent ∧ P m seen) (by
      rintro m call m' events seen ⟨hm, hp⟩ - hs
      obtain ⟨rfl, rfl⟩ := step_inj hs
      exact (call.updates hm).induct (P := fun m seen => m.Coherent ∧ P m seen)
        (fun hi hu => ⟨hu.coherent hi.1, hstep hi.1 hi.2 hu⟩) ⟨hm, hp⟩)
    ⟨h, hP⟩ (along_true m calls) hrun
  exact hall.2

/-! ## What an update leaves of a session -/

/-- A removal of the session is among the events. -/
def Removes (events : List SessionEvent) (session_id : SessionId) : Prop :=
  ∃ removal, .removed removal ∈ events ∧ removal.session_id = session_id

/-- A detachment from the session is among the events. -/
def Detaches (events : List SessionEvent) (session_id : SessionId) : Prop :=
  ∃ detachment, .detached detachment ∈ events ∧ detachment.session_id = session_id

/-- How a session goes on: its record does not fall, a path is an old one or above
everything on record, and without a detachment the tombstones stay their time. -/
structure Follows (clock : Option ℕ) (detaches : Prop) (s s' : V2Session) : Prop where
  more : s.RecordsMore s'
  above : ∀ {path_id entry'}, s'.paths.lookup path_id = some entry' →
    (∃ entry, s.paths.lookup path_id = some entry ∧
      entry.binding.path_epoch = entry'.binding.path_epoch) ∨
    ∀ path_epoch key_epoch, s.records path_id path_epoch key_epoch →
      path_epoch < entry'.binding.path_epoch
  limits : s'.limits = s.limits
  kept : ¬detaches → ∀ {path_id tombstone}, s.path_tombstones.lookup path_id = some tombstone →
    (∀ now_ms ∈ clock, now_ms < tombstone.expires_at_ms) →
    s'.path_tombstones.lookup path_id = some tombstone

theorem Follows.refl (clock : Option ℕ) (detaches : Prop) (s : V2Session) :
    Follows clock detaches s s :=
  ⟨fun _ _ _ h => h, fun h => .inl ⟨_, h, rfl⟩, rfl, fun _ _ _ h _ => h⟩

theorem Follows.of_rests {detaches : Prop} (h : Rests clock managed managed') :
    Follows clock detaches managed.session managed'.session := by
  refine ⟨.of_eq h.history, ?_, h.limits, fun _ _ _ hl hnow => h.kept hl hnow⟩
  intro path_id entry' hl
  rw [h.paths] at hl
  exact .inl ⟨entry', hl, rfl⟩

theorem Follows.abort (clock : Option ℕ) (detaches : Prop) (s : V2Session)
    (reservation : AttachReservation) :
    Follows clock detaches s (s.abort_attach reservation).1 := by
  rcases s.abort_attach_cases reservation with hr | ⟨entry, hentry, -, hr⟩
  · rw [hr]
    exact .refl clock detaches s
  · rw [hr]
    exact ⟨.of_eq rfl, fun h => .inl ⟨_, AList.lookup_of_erase h, rfl⟩, rfl, fun _ _ _ h _ => h⟩

theorem Follows.enter {detaches : Prop} {s : V2Session} {reservation : AttachReservation}
    {now_ms : ℕ} (next : U16) (hadmits : s.Admits now_ms reservation) :
    Follows (some now_ms) detaches s
      ((s.prune_path_tombstones now_ms).enter_path next reservation) := by
  have heligible := hadmits.eligible
  refine ⟨V2Session.enter_path_records_more (s := s.prune_path_tombstones now_ms) next heligible, ?_,
    rfl, ?_⟩
  · intro path_id entry' hl
    change (s.paths.insert _ _).lookup path_id = some entry' at hl
    rw [AList.lookup_insert_of] at hl
    by_cases hpath : path_id = reservation.path_id
    · rw [if_pos hpath, Option.some.injEq] at hl
      subst hpath hl
      refine .inr ?_
      intro path_epoch key_epoch hrecords
      exact (V2Session.eligible_path_id_above (s := s.prune_path_tombstones now_ms) heligible
        hrecords).1
    · rw [if_neg hpath] at hl
      exact .inl ⟨entry', hl, rfl⟩
  · intro _ path_id tombstone hl hnow
    exact V2Session.prune_tombstone_order_keeps _ _ hl (hnow now_ms rfl)

theorem Follows.commit {detaches : Prop} {s : V2Session} {entry : PathEntry}
    (hentry : s.paths.lookup path_id = some entry) (next : PathState) :
    Follows clock detaches s
      { s with paths := s.paths.insert path_id ⟨{ entry.binding with state := next }, false⟩ } := by
  refine ⟨.of_eq rfl, ?_, rfl, fun _ _ _ h _ => h⟩
  intro other entry' hl
  change (s.paths.insert _ _).lookup other = some entry' at hl
  rw [AList.lookup_insert_of] at hl
  by_cases hpath : other = path_id
  · rw [if_pos hpath, Option.some.injEq] at hl
    subst hpath hl
    exact .inl ⟨entry, hentry, rfl⟩
  · rw [if_neg hpath] at hl
    exact .inl ⟨entry', hl, rfl⟩

theorem Follows.quarantine {s : V2Session} (path_id : PathId) (entry : PathEntry) (now_ms : ℕ) :
    Follows clock True s (s.quarantine_path path_id entry now_ms) :=
  ⟨V2Session.quarantine_path_records_more path_id entry now_ms,
    fun h => .inl ⟨_, AList.lookup_of_erase h, rfl⟩, rfl, fun h => absurd trivial h⟩

/-- A rewritten session follows if its new value does. -/
theorem follows_update {id : SessionId} {other : ManagedSession} {detaches : Prop}
    (hlookup : m.sessions.lookup session_id = some managed)
    (hother : m.sessions.lookup id = some other)
    (h : id = session_id → Follows clock detaches other.session managed'.session) :
    ∃ next, (m.update_session id managed').sessions.lookup session_id = some next ∧
      Follows clock detaches managed.session next.session := by
  rw [update_session_lookup]
  by_cases hid : session_id = id
  · subst hid
    rw [hlookup, Option.some.injEq] at hother
    subst hother
    rw [if_pos rfl]
    exact ⟨managed', rfl, h rfl⟩
  · rw [if_neg hid]
    exact ⟨managed, hlookup, .refl _ _ _⟩

/-- **A session is removed or goes on.** -/
theorem Update.session_follows (h : m.Coherent) (hu : Update call m events m')
    (hlookup : m.sessions.lookup session_id = some managed) :
    Removes events session_id ∨ ∃ managed', m'.sessions.lookup session_id = some managed' ∧
      Follows call.now_ms (Detaches events session_id) managed.session managed'.session := by
  have hsame : ∃ managed', m.sessions.lookup session_id = some managed' ∧
      Follows call.now_ms (Detaches events session_id) managed.session managed'.session :=
    ⟨managed, hlookup, .refl _ _ _⟩
  cases hu with
  | release admissions hsub => exact .inr hsame
  | reserve reservation hsession hfree hroom => exact .inr hsame
  | @insert reservation session now_ms hheld hsession =>
    -- A reserved session ID is not in the map.
    refine .inr ⟨managed, ?_, .refl _ _ _⟩
    have hne : session_id ≠ reservation.session_id := by
      rintro rfl
      exact h.apart (AList.mem_of_lookup hlookup) (AList.mem_of_lookup hheld)
    rw [update_session_lookup, if_neg hne]
    exact hlookup
  | @issue id hsession hroom =>
    refine .inr ?_
    rw [(bind_keeps m id).2.2]
    exact hsame
  | rest hother hrests =>
    exact .inr (follows_update hlookup hother (fun _ => .of_rests hrests))
  | forget connection_id => exact .inr hsame
  | abort connection_id reservation hother =>
    exact .inr (follows_update (m := { m with
      pending_connections := m.pending_connections.erase connection_id }) hlookup hother
      (fun _ => .abort _ _ _ _))
  | attach next expires_at_ms hclock hauth hunbound hidle hroom hother hadmits =>
    rw [hclock]
    exact .inr (follows_update hlookup hother (fun _ => .enter next hadmits))
  | @commit id other reservation entry hpending hother hentry hreserves =>
    exact .inr (follows_update (m := { m with
      pending_connections := m.pending_connections.erase reservation.connection_id }) hlookup hother
      (fun _ => .commit hentry .Healthy))
  | @detach connection_id id path_id path_epoch key_epoch other entry now_ms hbound hother hentry =>
    refine .inr (follows_update (m := { m with
      connections := m.connections.erase connection_id }) hlookup hother ?_)
    intro hid
    have hfollows : Follows call.now_ms True other.session
        (other.session.quarantine_path path_id entry now_ms) :=
      Follows.quarantine path_id entry now_ms
    exact ⟨hfollows.more, hfollows.above, hfollows.limits,
      fun hquiet => absurd ⟨_, List.mem_singleton_self _, hid⟩ hquiet⟩
  | revoke connection hcall hr => exact .inr hsame
  | @remove id other reason hother =>
    by_cases hid : id = session_id
    · exact .inl ⟨_, List.mem_singleton_self _, hid⟩
    · refine .inr ⟨managed, ?_, .refl _ _ _⟩
      rw [remove_session_lookup, if_neg (Ne.symm hid)]
      exact hlookup

/-! ## A path that is gone -/

/-- The session remembers an epoch of this path that every path under its number
is above. -/
def Retired (m : V2SessionManager) (session_id : SessionId) (path_id : PathId)
    (path_epoch : U64) : Prop :=
  ∃ managed, m.sessions.lookup session_id = some managed ∧
    (∃ key_epoch, managed.session.records path_id path_epoch key_epoch) ∧
    ∀ entry, managed.session.paths.lookup path_id = some entry →
      path_epoch < entry.binding.path_epoch

theorem Retired.step (h : m.Coherent) (hretired : m.Retired session_id path_id path_epoch)
    (hu : Update call m events m') (hstays : ¬Removes events session_id) :
    m'.Retired session_id path_id path_epoch := by
  obtain ⟨managed, hlookup, ⟨key_epoch, hrecords⟩, habove⟩ := hretired
  rcases hu.session_follows h hlookup with hremoved | ⟨managed', hlookup', hfollows⟩
  · exact absurd hremoved hstays
  refine ⟨managed', hlookup', ⟨key_epoch, hfollows.more _ _ _ hrecords⟩, ?_⟩
  intro entry' hentry'
  rcases hfollows.above hentry' with ⟨entry, hentry, hsame⟩ | hhigher
  · rw [← hsame]
    exact habove entry hentry
  · exact hhigher path_epoch key_epoch hrecords

/-- Detaching a path retires it. -/
theorem Update.retires (h : m.Coherent) (hu : Update call m events m') {at_ms : ℕ}
    (hdetached : .detached ⟨session_id, path_id, path_epoch, at_ms⟩ ∈ events) :
    m'.Retired session_id path_id path_epoch := by
  cases hu with
  | @detach connection_id _ _ _ key_epoch other entry now_ms hbound hother hentry =>
    simp only [List.mem_singleton, SessionEvent.detached.injEq, Detachment.mk.injEq] at hdetached
    obtain ⟨rfl, rfl, rfl, rfl⟩ := hdetached
    obtain ⟨managed, hlookup, held, hheld, -, -, hepoch, -⟩ := h.bound hbound
    rw [hother, Option.some.injEq] at hlookup
    subst hlookup
    have hrecords := (h.orderly hother).recorded hheld
    rw [hepoch] at hrecords
    refine ⟨_, AList.lookup_insert _,
      ⟨_, V2Session.quarantine_path_records_more _ _ _ _ _ _ hrecords⟩,
      ?_⟩
    intro entry' hentry'
    change (other.session.paths.erase path_id).lookup path_id = some entry' at hentry'
    rw [AList.lookup_erase_of, if_pos rfl] at hentry'
    contradiction
  | _ => simp at hdetached

/-- Once detached, a path stays retired while its session is in the map. -/
theorem run_retires {calls : List ManagerCall} {at_ms : ℕ} (h : m.Coherent)
    (hrun : exec manager_step m calls = some (m', events))
    (hdetached : .detached ⟨session_id, path_id, path_epoch, at_ms⟩ ∈ events)
    (hstays : ¬Removes events session_id) : m'.Retired session_id path_id path_epoch := by
  let P := fun (m : V2SessionManager) (seen : List SessionEvent) =>
    .detached ⟨session_id, path_id, path_epoch, at_ms⟩ ∈ seen → ¬Removes seen session_id →
      m.Retired session_id path_id path_epoch
  have hnone : P m [] := fun hnone => absurd hnone List.not_mem_nil
  refine run_induct (P := P) ?_ h hnone hrun hdetached hstays
  intro call m m' seen events hm hP hu hmem hquiet
  rcases List.mem_append.mp hmem with hold | hnew
  · refine (hP hold ?_).step hm hu ?_
    · rintro ⟨removal, hr, hid⟩
      exact hquiet ⟨removal, List.mem_append_left _ hr, hid⟩
    · rintro ⟨removal, hr, hid⟩
      exact hquiet ⟨removal, List.mem_append_right _ hr, hid⟩
  · exact hu.retires hm hnew

/-! ## Acceptance -/

/-- What an accepted envelope says about the manager. -/
structure Accepts (m : V2SessionManager) (connection : AuthenticatedConnection)
    (header : V2Header) (now_ms : ℕ) : Prop where
  direction : header.direction = .ClientToGateway
  authenticated : m.authenticated_connections.lookup connection.connection_id =
    some connection.session_id
  bound : m.connections.lookup connection.connection_id =
    some (header.session_id, header.path_id, header.path_epoch, header.key_epoch)
  session : ∃ managed, m.sessions.lookup header.session_id = some managed ∧
    managed.session.Binds header.path_id header.path_epoch header.key_epoch
      connection.connection_id ∧
    managed.session.state = .Active ∧ managed.session.is_expired now_ms = false ∧
    now_ms - managed.last_activity_ms < m.config.idle_ttl_ms

theorem record_activity_ok {α : Type} {now_ms : ℕ}
    {usable : ManagedSession → Except V2SessionManagerError α} {a : α}
    (h : (m.record_activity session_id now_ms usable).result = .ok a) :
    ∃ managed, m.sessions.lookup session_id = some managed ∧
      managed.session.is_expired now_ms = false ∧
      now_ms - managed.last_activity_ms < m.config.idle_ttl_ms ∧ usable managed = .ok a := by
  rw [record_activity] at h
  split at h
  · cases h
  next managed hlookup =>
  split at h
  · cases h
  next hlive =>
  split at h
  · cases h
  next hidle =>
  split at h
  · cases h
  next a' husable =>
  obtain rfl : a' = a := Except.ok.inj h
  exact ⟨managed, hlookup, Bool.eq_false_iff.mpr hlive, Nat.not_le.mp hidle, husable⟩

/-- An accepted frame has passed the checks on its header and counts as an activity. -/
theorem validate_ingress_checked {connection : AuthenticatedConnection} {envelope : V2Envelope}
    {now_ms : ℕ} {ingress : ValidatedIngress}
    (h : (m.validate_ingress connection envelope now_ms).result = .ok ingress) :
    envelope.header.direction = .ClientToGateway ∧ m.authenticates connection = true ∧
      m.connections.lookup connection.connection_id = some (envelope.header.session_id,
        envelope.header.path_id, envelope.header.path_epoch, envelope.header.key_epoch) ∧
      m.validate_ingress connection envelope now_ms =
        m.record_activity envelope.header.session_id now_ms (fun managed =>
          if healthy envelope.header.path_id managed then
            .ok ⟨envelope.header.session_id, envelope.header.path_id, envelope.header.path_epoch,
              envelope.header.key_epoch⟩
          else .error .BindingMismatch) := by
  rw [validate_ingress] at h ⊢
  split at h
  · cases h
  next hdirection =>
  split at h
  · cases h
  next hauth =>
  split at h
  · cases h
  next id path_id path_epoch key_epoch hbound =>
  split at h
  · cases h
  next hmatches =>
  split at h
  · cases h
  next hkey =>
  rw [if_neg hdirection, if_neg hauth]
  simp only [if_neg hmatches, if_neg hkey]
  push Not at hmatches hkey hdirection
  obtain ⟨rfl, rfl, rfl⟩ := hmatches
  subst hkey
  exact ⟨hdirection, by simpa using hauth, hbound, rfl⟩

theorem validate_ingress_ok (hm : m.Coherent) {connection : AuthenticatedConnection}
    {envelope : V2Envelope} {now_ms : ℕ} {ingress : ValidatedIngress}
    (h : (m.validate_ingress connection envelope now_ms).result = .ok ingress) :
    m.Accepts connection envelope.header now_ms := by
  obtain ⟨hdirection, hauth, hbound, hactivity⟩ := validate_ingress_checked h
  rw [hactivity] at h
  obtain ⟨managed, hlookup, hlive, hidle, husable⟩ := record_activity_ok h
  obtain ⟨managed', hlookup', hbinds⟩ := hm.bound hbound
  rw [hlookup, Option.some.injEq] at hlookup'
  subst hlookup'
  refine ⟨hdirection, authenticates_iff.mp hauth, hbound, managed, hlookup, hbinds,
    ?_, hlive, hidle⟩
  by_cases hhealthy : healthy envelope.header.path_id managed = true
  · simp only [healthy, decide_eq_true_eq] at hhealthy
    exact hhealthy.1
  · rw [if_neg hhealthy] at husable
    cases husable

/-- A path speaks for one connection. -/
theorem Accepts.unique {connection connection' : AuthenticatedConnection}
    {header : V2Header} {now_ms now_ms' : ℕ} (haccepts : m.Accepts connection header now_ms)
    (haccepts' : m.Accepts connection' header now_ms') : connection = connection' := by
  obtain ⟨managed, hlookup, ⟨entry, hentry, -, hconnection, -⟩, -⟩ := haccepts.session
  obtain ⟨managed', hlookup', ⟨entry', hentry', -, hconnection', -⟩, -⟩ := haccepts'.session
  rw [hlookup, Option.some.injEq] at hlookup'
  subst hlookup'
  rw [hentry, Option.some.injEq] at hentry'
  subst hentry'
  have hid : connection.connection_id = connection'.connection_id :=
    hconnection.symm.trans hconnection'
  have hsession := haccepts.authenticated
  rw [hid, haccepts'.authenticated, Option.some.injEq] at hsession
  cases connection
  cases connection'
  simp_all

/-- A retired path accepts nothing. -/
theorem Retired.rejects {connection : AuthenticatedConnection} {header : V2Header} {now_ms : ℕ}
    (h : m.Retired header.session_id header.path_id header.path_epoch) :
    ¬m.Accepts connection header now_ms := by
  intro haccepts
  obtain ⟨managed, hlookup, -, habove⟩ := h
  obtain ⟨managed', hlookup', ⟨entry, hentry, -, -, hepoch, -⟩, -⟩ := haccepts.session
  rw [hlookup, Option.some.injEq] at hlookup'
  subst hlookup'
  have hhigher := habove entry hentry
  rw [hepoch] at hhigher
  exact lt_irrefl _ hhigher

/-- Closing the connection that an envelope is accepted on detaches its path. -/
theorem Accepts.close_detaches (h : m.Coherent) {connection : AuthenticatedConnection}
    {header : V2Header} {now_ms : ℕ} (haccepts : m.Accepts connection header now_ms) :
    ∃ at_ms, .detached ⟨header.session_id, header.path_id, header.path_epoch, at_ms⟩ ∈
      (ManagerCall.close_connection connection).events m := by
  obtain ⟨managed, hlookup, -⟩ := haccepts.session
  have hidle : connection.connection_id ∉ m.pending_connections :=
    fun hpending => h.exclusive hpending (AList.mem_of_lookup haccepts.bound)
  refine ⟨managed.last_activity_ms, ?_⟩
  simp [ManagerCall.events, ManagerCall.detached, authenticates_iff.mpr haccepts.authenticated,
    hidle, detachment, haccepts.bound, hlookup]

end V2SessionManager

open V2SessionManager

/-- **An envelope has at most one accepting connection.** In every reachable state: two
capabilities that an envelope is accepted on are one; an accepted envelope names
the binding of its connection, in an Active session that is neither expired nor
idle; and after a call that detaches the path the envelope names, or closes the
connection it is accepted on, it is accepted on no connection for as long as the
session stays in the map. -/
theorem envelope_has_one_connection {config : V2SessionManagerConfig} {m₀ m : V2SessionManager}
    {calls : List ManagerCall} {events : List SessionEvent}
    (hnew : V2SessionManager.new config = .ok m₀)
    (hrun : exec manager_step m₀ calls = some (m, events)) (envelope : V2Envelope) :
    (∀ connection connection' now_ms ingress ingress',
      (m.validate_ingress connection envelope now_ms).result = .ok ingress →
      (m.validate_ingress connection' envelope now_ms).result = .ok ingress' →
      connection = connection') ∧
    (∀ connection now_ms ingress,
      (m.validate_ingress connection envelope now_ms).result = .ok ingress →
      m.Accepts connection envelope.header now_ms) ∧
    ∀ call calls' m' events', exec manager_step m (call :: calls') = some (m', events') →
      ((∃ at_ms, .detached ⟨envelope.header.session_id, envelope.header.path_id,
          envelope.header.path_epoch, at_ms⟩ ∈ call.events m) ∨
        ∃ connection now_ms ingress, call = .close_connection connection ∧
          (m.validate_ingress connection envelope now_ms).result = .ok ingress) →
      ¬Removes events' envelope.header.session_id →
      ∀ connection now_ms ingress,
        (m'.validate_ingress connection envelope now_ms).result ≠ .ok ingress := by
  have hm : m.Coherent := run_coherent (new_coherent hnew) hrun
  refine ⟨?_, ?_, ?_⟩
  · intro connection connection' now_ms ingress ingress' hok hok'
    exact (validate_ingress_ok hm hok).unique (validate_ingress_ok hm hok')
  · intro connection now_ms ingress hok
    exact validate_ingress_ok hm hok
  · intro call calls' m' events' hrun' hends hstays connection now_ms ingress hok
    have hdetached : ∃ at_ms, .detached ⟨envelope.header.session_id, envelope.header.path_id,
        envelope.header.path_epoch, at_ms⟩ ∈ call.events m := by
      rcases hends with hdetached | ⟨connection, now_ms, ingress, rfl, hok⟩
      · exact hdetached
      · exact (validate_ingress_ok hm hok).close_detaches hm
    obtain ⟨at_ms, hdetached⟩ := hdetached
    obtain ⟨m₁, o, o', hs, -, rfl⟩ := exec_cons_eq_some.mp hrun'
    obtain ⟨-, rfl⟩ := step_inj hs
    have hretired := run_retires hm hrun' (List.mem_append_left _ hdetached) hstays
    exact hretired.rejects (validate_ingress_ok (run_coherent hm hrun') hok)

/-- One admitted session with one attached path, and an envelope it accepts. -/
theorem envelope_has_one_connection_attached :
    ∃ m₀ m events, V2SessionManager.new ⟨1, 100, 1, 1, 10, 1, 1, 5⟩ = .ok m₀ ∧
      exec manager_step m₀ [.reserve_admission ⟨1⟩ ⟨1⟩ ⟨1⟩ 1000 0,
        .commit_admission_and_bind ⟨⟨1⟩, ⟨1⟩, ⟨1⟩, 1000, true⟩ 0,
        .reserve_attach ⟨⟨1⟩, ⟨1⟩⟩ 1 1 0, .commit_attach ⟨⟨1⟩, ⟨⟨1⟩, 1, 1, ⟨1⟩⟩⟩] =
          some (m, events) ∧
      (m.validate_ingress ⟨⟨1⟩, ⟨1⟩⟩
        ⟨⟨.Control, .ClientToGateway, ⟨1⟩, ⟨1⟩, 1, 1, ⟨0⟩, ⟨0⟩⟩, []⟩ 1).result =
          .ok ⟨⟨1⟩, ⟨1⟩, 1, 1⟩ ∧
      ∀ connection ingress, (m.validate_ingress connection
        ⟨⟨.Control, .ClientToGateway, ⟨1⟩, ⟨1⟩, 1, 1, ⟨0⟩, ⟨0⟩⟩, []⟩ 1).result = .ok ingress →
          connection = ⟨⟨1⟩, ⟨1⟩⟩ := by
  have hnew : V2SessionManager.new ⟨1, 100, 1, 1, 10, 1, 1, 5⟩ =
      .ok ⟨⟨1, 100, 1, 1, 10, 1, 1, 5⟩, ∅, ∅, ∅, ∅, ∅, 1⟩ := rfl
  have hrun : (exec manager_step ⟨⟨1, 100, 1, 1, 10, 1, 1, 5⟩, ∅, ∅, ∅, ∅, ∅, 1⟩
      [.reserve_admission ⟨1⟩ ⟨1⟩ ⟨1⟩ 1000 0,
        .commit_admission_and_bind ⟨⟨1⟩, ⟨1⟩, ⟨1⟩, 1000, true⟩ 0,
        .reserve_attach ⟨⟨1⟩, ⟨1⟩⟩ 1 1 0, .commit_attach ⟨⟨1⟩, ⟨⟨1⟩, 1, 1, ⟨1⟩⟩⟩]).map
      (fun r => (r.1.validate_ingress ⟨⟨1⟩, ⟨1⟩⟩
        ⟨⟨.Control, .ClientToGateway, ⟨1⟩, ⟨1⟩, 1, 1, ⟨0⟩, ⟨0⟩⟩, []⟩ 1).result.toOption) =
      some (some ⟨⟨1⟩, ⟨1⟩, 1, 1⟩) := by decide
  obtain ⟨⟨m, events⟩, hexec, hok⟩ := Option.map_eq_some_iff.mp hrun
  have haccepted : (m.validate_ingress ⟨⟨1⟩, ⟨1⟩⟩
      ⟨⟨.Control, .ClientToGateway, ⟨1⟩, ⟨1⟩, 1, 1, ⟨0⟩, ⟨0⟩⟩, []⟩ 1).result =
        .ok ⟨⟨1⟩, ⟨1⟩, 1, 1⟩ := by
    revert hok
    cases (m.validate_ingress ⟨⟨1⟩, ⟨1⟩⟩
      ⟨⟨.Control, .ClientToGateway, ⟨1⟩, ⟨1⟩, 1, 1, ⟨0⟩, ⟨0⟩⟩, []⟩ 1).result with
    | error e => simp [Except.toOption]
    | ok a => simp [Except.toOption]
  refine ⟨_, m, events, hnew, hexec, haccepted, ?_⟩
  intro connection ingress hingress
  exact (envelope_has_one_connection hnew hexec _).1 _ _ 1 _ _ hingress haccepted

end StreamGuard.Gateway
