/-
The connection map and the sessions, in both directions.

`Coherent` says that a bound connection has its path. The other direction, that a
committed path has its binding, and that a binding has its capability, rests on a
connection number belonging to one session for good. The numbers come from a
64-bit counter that skips zero and nothing else, so that is so until the counter
has gone round: `Linked` carries the list of the capabilities handed out so far,
and holds as long as there are fewer than `2 ^ 64` of them.

A capability is a value that only the manager makes, so a run here presents only
capabilities that it has handed out.
-/
import StreamGuard.Gateway.SessionBindings

set_option autoImplicit false

namespace StreamGuard.Gateway

open StreamGuard StreamGuard.Lib StreamGuard.Session

/-! ## Runs that present what they were given -/

/-- The capability that a call presents. -/
def ManagerCall.presents : ManagerCall → List AuthenticatedConnection
  | .reserve_attach connection _ _ _ | .detach_connection connection _ _ _
  | .validate_attached_path connection _ _ _ _ | .close_connection connection
  | .validate_ingress connection _ _ | .record_authenticated_activity connection _
  | .close_session connection => [connection]
  | .reserve_admission _ _ _ _ _ | .commit_admission _ _ | .commit_admission_and_bind _ _
  | .abort_admission _ | .bind_authenticated_connection _ _ | .commit_attach _ | .begin_draining _
  | .close _ | .close_all _ | .sweep _ _ => []

/-- One call with the capabilities handed out so far; a call that presents any other
is not one that a program can make. -/
def capability_step (t : V2SessionManager × List AuthenticatedConnection) (call : ManagerCall) :
    Option ((V2SessionManager × List AuthenticatedConnection) × List SessionEvent) :=
  if ∀ connection ∈ call.presents, connection ∈ t.2 then
    some (((call.apply t.1).1, t.2 ++ call.issued t.1), call.events t.1)
  else none

namespace V2SessionManager

variable {call : ManagerCall} {m m' : V2SessionManager} {events seen : List SessionEvent}
  {session_id : SessionId} {managed managed' : ManagedSession}
  {issued : List AuthenticatedConnection}

/-! ## The invariant -/

/-- The maps agree with the sessions both ways, and every connection number in use
was handed out, once, for the session that uses it. -/
structure Linked (m : V2SessionManager) (issued : List AuthenticatedConnection) : Prop where
  numbered : issued.map (·.connection_id.get.val) = List.range' 1 issued.length
  counter : m.next_connection_id.val = (issued.length + 1) % 2 ^ 64
  held : ∀ {connection_id session_id},
    m.authenticated_connections.lookup connection_id = some session_id →
    ⟨session_id, connection_id⟩ ∈ issued
  owned : ∀ {session_id managed path_id entry}, m.sessions.lookup session_id = some managed →
    managed.session.paths.lookup path_id = some entry →
    ⟨session_id, entry.binding.connection_id⟩ ∈ issued
  bound : ∀ {session_id managed path_id path_epoch key_epoch connection_id},
    m.sessions.lookup session_id = some managed →
    managed.session.Binds path_id path_epoch key_epoch connection_id →
    m.connections.lookup connection_id = some (session_id, path_id, path_epoch, key_epoch)
  authorized : ∀ {connection_id binding}, m.connections.lookup connection_id = some binding →
    m.authenticated_connections.lookup connection_id = some binding.1
  waiting : ∀ {connection_id pending}, m.pending_connections.lookup connection_id = some pending →
    m.authenticated_connections.lookup connection_id = some pending.reservation.session_id

theorem new_linked {config : V2SessionManagerConfig} (h : V2SessionManager.new config = .ok m) :
    m.Linked [] := by
  rw [V2SessionManager.new] at h
  split at h
  · contradiction
  · obtain rfl := Except.ok.inj h
    refine ⟨rfl, rfl, ?_, ?_, ?_, ?_, ?_⟩ <;> simp

/-- A number is handed out once. -/
theorem Linked.unique (h : m.Linked issued) {connection connection' : AuthenticatedConnection}
    (hmem : connection ∈ issued) (hmem' : connection' ∈ issued)
    (hid : connection.connection_id = connection'.connection_id) : connection = connection' := by
  have hnodup : (issued.map (·.connection_id.get.val)).Nodup := by
    rw [h.numbered]
    exact List.nodup_range'
  refine List.inj_on_of_nodup_map hnodup hmem hmem' ?_
  rw [hid]

/-- Two sessions that use one number are one. -/
theorem Linked.session_unique (h : m.Linked issued) {connection_id : ConnectionId}
    {session_id' : SessionId} (hmem : ⟨session_id, connection_id⟩ ∈ issued)
    (hmem' : ⟨session_id', connection_id⟩ ∈ issued) : session_id = session_id' :=
  congrArg AuthenticatedConnection.session_id (h.unique hmem hmem' rfl)

/-- A session rewritten so that its entries keep their connections and its committed
paths are old ones. -/
theorem Linked.update (h : m.Linked issued) (hlookup : m.sessions.lookup session_id = some managed)
    (howned : ∀ {path_id entry'}, managed'.session.paths.lookup path_id = some entry' →
      ⟨session_id, entry'.binding.connection_id⟩ ∈ issued)
    (hbound : ∀ {path_id path_epoch key_epoch connection_id},
      managed'.session.Binds path_id path_epoch key_epoch connection_id →
      managed.session.Binds path_id path_epoch key_epoch connection_id) :
    (m.update_session session_id managed').Linked issued := by
  refine ⟨h.numbered, h.counter, h.held, ?_, ?_, h.authorized, h.waiting⟩
  · intro id other path_id entry hl hentry
    rw [update_session_lookup] at hl
    by_cases hid : id = session_id
    · rw [if_pos hid, Option.some.injEq] at hl
      subst hid hl
      exact howned hentry
    · rw [if_neg hid] at hl
      exact h.owned hl hentry
  · intro id other path_id path_epoch key_epoch connection_id hl hbinds
    rw [update_session_lookup] at hl
    by_cases hid : id = session_id
    · rw [if_pos hid, Option.some.injEq] at hl
      subst hid hl
      exact h.bound hlookup (hbound hbinds)
    · rw [if_neg hid] at hl
      exact h.bound hl hbinds

/-- Fewer pending attaches. -/
theorem Linked.forget (h : m.Linked issued) (connection_id : ConnectionId) :
    Linked { m with pending_connections := m.pending_connections.erase connection_id } issued :=
  ⟨h.numbered, h.counter, h.held, h.owned, h.bound, h.authorized,
    fun hl => h.waiting (AList.lookup_of_erase hl)⟩

theorem admit_linked (h : m.Linked issued) (hm : m.Coherent) {reservation : AdmissionReservation}
    {session : V2Session} {now_ms : ℕ}
    (hheld : m.admissions.lookup reservation.session_id = some reservation)
    (hsession : m.activated_session reservation now_ms = .ok session) :
    ({ m with admissions := m.admissions.erase reservation.session_id }.update_session
      reservation.session_id ⟨session, reservation.organization_id, now_ms⟩).Linked issued := by
  have hempty : session.paths = ∅ := by rw [activated_session_eq hsession]
  have hfresh : reservation.session_id ∉ m.sessions :=
    fun hmem => hm.apart hmem (AList.mem_of_lookup hheld)
  refine ⟨h.numbered, h.counter, h.held, ?_, ?_, h.authorized, h.waiting⟩
  · intro id other path_id entry hl hentry
    rw [update_session_lookup] at hl
    by_cases hid : id = reservation.session_id
    · rw [if_pos hid, Option.some.injEq] at hl
      rw [← hl] at hentry
      simp [hempty] at hentry
    · rw [if_neg hid] at hl
      exact h.owned hl hentry
  · rintro id other path_id path_epoch key_epoch connection_id hl hbinds
    rw [update_session_lookup] at hl
    by_cases hid : id = reservation.session_id
    · rw [if_pos hid, Option.some.injEq] at hl
      obtain ⟨entry, hentry, -⟩ := hbinds
      rw [← hl] at hentry
      simp [hempty] at hentry
    · rw [if_neg hid] at hl
      exact h.bound hl hbinds

/-- The number handed out next is one more than the last, and no capability has it. -/
theorem Linked.next_identity (h : m.Linked issued) (hroom : issued.length + 1 < 2 ^ 64) :
    m.next_connection_identity.2.val = issued.length + 1 ∧
      m.next_connection_identity.1.next_connection_id.val = (issued.length + 2) % 2 ^ 64 := by
  have hnext : m.next_connection_id.val = issued.length + 1 := by
    rw [h.counter, Nat.mod_eq_of_lt hroom]
  have hzero : m.next_connection_id ≠ 0 := by
    intro hz
    rw [hz] at hnext
    simp at hnext
  rw [next_connection_identity, if_neg hzero]
  refine ⟨hnext, ?_⟩
  simp [Fin.val_add, hnext]

theorem issue_linked (h : m.Linked issued) (hroom : issued.length + 1 < 2 ^ 64) :
    (m.bind session_id).manager.Linked
      (issued ++ [⟨session_id, ⟨m.next_connection_identity.2⟩⟩]) := by
  obtain ⟨hidentity, hcounter⟩ := h.next_identity hroom
  have hbind : (m.bind session_id).manager = { m.next_connection_identity.1 with
      authenticated_connections := m.next_connection_identity.1.authenticated_connections.insert
        ⟨m.next_connection_identity.2⟩ session_id } := rfl
  obtain ⟨next, hnext⟩ := next_connection_identity_fst m
  rw [hbind]
  generalize m.next_connection_identity = r at hidentity hcounter hnext ⊢
  obtain ⟨counted, identity⟩ := r
  dsimp only at hidentity hcounter hnext ⊢
  subst hnext
  dsimp only at hcounter ⊢
  have hfresh : ∀ {id}, ⟨id, ⟨identity⟩⟩ ∉ issued := by
    intro id hmem
    have hnumber := List.mem_map_of_mem (f := fun c => c.connection_id.get.val) hmem
    rw [h.numbered, List.mem_range'_1, hidentity] at hnumber
    omega
  have hother : ∀ {connection_id id}, m.authenticated_connections.lookup connection_id = some id →
      connection_id ≠ ⟨identity⟩ := by
    rintro connection_id id hl rfl
    exact hfresh (h.held hl)
  refine ⟨?_, ?_, ?_, ?_, h.bound, ?_, ?_⟩
  · rw [List.map_append, h.numbered, List.length_append, List.length_singleton,
      List.range'_concat]
    simp [hidentity, Nat.add_comm]
  · rw [hcounter, List.length_append, List.length_singleton]
  · intro connection_id id hl
    rw [AList.lookup_insert_of] at hl
    by_cases hid : connection_id = ⟨identity⟩
    · rw [if_pos hid, Option.some.injEq] at hl
      rw [hid, hl]
      exact List.mem_append_right _ (List.mem_singleton_self _)
    · rw [if_neg hid] at hl
      exact List.mem_append_left _ (h.held hl)
  · intro id managed path_id entry hl hentry
    exact List.mem_append_left _ (h.owned hl hentry)
  · intro connection_id binding hl
    have hauth := h.authorized hl
    rw [AList.lookup_insert_of, if_neg (hother hauth)]
    exact hauth
  · intro connection_id pending hl
    have hauth := h.waiting hl
    rw [AList.lookup_insert_of, if_neg (hother hauth)]
    exact hauth

theorem attach_linked (h : m.Linked issued) {reservation : AttachReservation} {now_ms : ℕ}
    (next : U16) (expires_at_ms : ℕ)
    (hauth : m.authenticated_connections.lookup reservation.connection_id = some session_id)
    (hlookup : m.sessions.lookup session_id = some managed) :
    Linked { m.update_session session_id { managed with
        session := (managed.session.prune_path_tombstones now_ms).enter_path next reservation }
      with
      pending_connections := m.pending_connections.insert reservation.connection_id
        ⟨⟨session_id, reservation⟩, expires_at_ms⟩ } issued := by
  have hpath : ∀ {path_id entry}, (managed.session.paths.insert reservation.path_id
      ⟨⟨reservation.path_id, reservation.path_epoch, reservation.key_epoch,
        reservation.connection_id, .Connecting⟩, true⟩).lookup path_id = some entry →
      managed.session.paths.lookup path_id = some entry ∨
        entry.binding.connection_id = reservation.connection_id ∧ entry.reserved = true := by
    intro path_id entry hl
    rw [AList.lookup_insert_of] at hl
    by_cases hpath : path_id = reservation.path_id
    · rw [if_pos hpath, Option.some.injEq] at hl
      rw [← hl]
      exact .inr ⟨rfl, rfl⟩
    · rw [if_neg hpath] at hl
      exact .inl hl
  have hupdate : (m.update_session session_id { managed with
      session := (managed.session.prune_path_tombstones now_ms).enter_path next reservation
      }).Linked issued :=
    h.update hlookup (by
      intro path_id entry' hl
      rcases hpath hl with hold | ⟨hconnection, -⟩
      · exact h.owned hlookup hold
      · rw [hconnection]
        exact h.held hauth)
    (by
      rintro path_id path_epoch key_epoch connection_id ⟨entry, hl, hcommitted, hrest⟩
      rcases hpath hl with hold | ⟨-, hreserved⟩
      · exact ⟨entry, hold, hcommitted, hrest⟩
      · rw [hreserved] at hcommitted
        contradiction)
  refine ⟨h.numbered, h.counter, h.held, hupdate.owned, hupdate.bound, h.authorized, ?_⟩
  intro connection_id pending hl
  rw [AList.lookup_insert_of] at hl
  by_cases hid : connection_id = reservation.connection_id
  · rw [if_pos hid, Option.some.injEq] at hl
    rw [hid, ← hl]
    exact hauth
  · rw [if_neg hid] at hl
    exact h.waiting hl

theorem commit_linked (h : m.Linked issued) (hm : m.Coherent) {reservation : AttachReservation}
    {entry : PathEntry}
    (hpending : (m.pending_connections.lookup reservation.connection_id).map (·.reservation) =
      some ⟨session_id, reservation⟩)
    (hlookup : m.sessions.lookup session_id = some managed)
    (hentry : managed.session.paths.lookup reservation.path_id = some entry)
    (hreserves : V2Session.reserves entry reservation = true) :
    Linked
      { ({ m with pending_connections :=
            m.pending_connections.erase reservation.connection_id }).update_session session_id
          { managed with session := { managed.session with
              paths := managed.session.paths.insert reservation.path_id
                ⟨{ entry.binding with state := .Healthy }, false⟩ } }
        with
        connections := m.connections.insert reservation.connection_id
          (session_id, reservation.path_id, reservation.path_epoch, reservation.key_epoch) }
      issued := by
  simp only [V2Session.reserves, decide_eq_true_eq] at hreserves
  obtain ⟨-, hconnection, hpath, hkey⟩ := hreserves
  obtain ⟨pending, hwaiting, hsame⟩ := Option.map_eq_some_iff.mp hpending
  have hauth : m.authenticated_connections.lookup reservation.connection_id = some session_id := by
    rw [h.waiting hwaiting, hsame]
  have hissued := h.held hauth
  -- No other committed path has this connection, here or in another session.
  have hsingle : ∀ {id other path_id path_epoch key_epoch},
      m.sessions.lookup id = some other →
      other.session.Binds path_id path_epoch key_epoch reservation.connection_id →
      id = session_id ∧ path_id = reservation.path_id := by
    rintro id other path_id path_epoch key_epoch hl ⟨held, hheld, -, hsame, -⟩
    have howned := h.owned hl hheld
    rw [hsame] at howned
    obtain rfl := h.session_unique hissued howned
    rw [hlookup, Option.some.injEq] at hl
    subst hl
    exact ⟨rfl, (hm.orderly hlookup).distinct.single hheld hentry (by rw [hsame, hconnection])⟩
  refine ⟨h.numbered, h.counter, h.held, ?_, ?_, ?_, (h.forget _).waiting⟩
  · intro id other path_id entry' hl hentry'
    rw [update_session_lookup] at hl
    by_cases hid : id = session_id
    · rw [if_pos hid, Option.some.injEq] at hl
      subst hid hl
      change (managed.session.paths.insert _ _).lookup path_id = some entry' at hentry'
      rw [AList.lookup_insert_of] at hentry'
      by_cases hsame : path_id = reservation.path_id
      · rw [if_pos hsame, Option.some.injEq] at hentry'
        have howned := h.owned hlookup hentry
        rwa [← hentry']
      · rw [if_neg hsame] at hentry'
        exact h.owned hlookup hentry'
    · rw [if_neg hid] at hl
      exact h.owned hl hentry'
  · intro id other path_id path_epoch key_epoch connection_id hl hbinds
    rw [update_session_lookup] at hl
    rw [AList.lookup_insert_of]
    by_cases hid : id = session_id
    · rw [if_pos hid, Option.some.injEq] at hl
      subst hid hl
      obtain ⟨entry', hentry', hcommitted, hother, hepochs⟩ := hbinds
      change (managed.session.paths.insert _ _).lookup path_id = some entry' at hentry'
      rw [AList.lookup_insert_of] at hentry'
      by_cases hsame : path_id = reservation.path_id
      · rw [if_pos hsame, Option.some.injEq] at hentry'
        subst hentry' hsame
        obtain ⟨rfl, rfl⟩ := hepochs
        rw [if_pos (hother.symm.trans hconnection), ← hpath, ← hkey]
      · rw [if_neg hsame] at hentry'
        have hold : managed.session.Binds path_id path_epoch key_epoch connection_id :=
          ⟨entry', hentry', hcommitted, hother, hepochs⟩
        have hne : connection_id ≠ reservation.connection_id := by
          rintro rfl
          exact hsame (hsingle hlookup hold).2
        rw [if_neg hne]
        exact h.bound hlookup hold
    · rw [if_neg hid] at hl
      have hne : connection_id ≠ reservation.connection_id := by
        rintro rfl
        exact hid (hsingle hl hbinds).1
      rw [if_neg hne]
      exact h.bound hl hbinds
  · intro connection_id binding hl
    rw [AList.lookup_insert_of] at hl
    by_cases hid : connection_id = reservation.connection_id
    · rw [if_pos hid, Option.some.injEq] at hl
      rw [hid, ← hl]
      exact hauth
    · rw [if_neg hid] at hl
      exact h.authorized hl

theorem detach_linked (h : m.Linked issued) (hm : m.Coherent) {connection_id : ConnectionId}
    {path_id : PathId} {path_epoch : U64} {key_epoch : U32} {entry : PathEntry} (now_ms : ℕ)
    (hbound : m.connections.lookup connection_id =
      some (session_id, path_id, path_epoch, key_epoch))
    (hlookup : m.sessions.lookup session_id = some managed) :
    ({ m with connections := m.connections.erase connection_id }.update_session session_id
      { managed with
        session := managed.session.quarantine_path path_id entry now_ms }).Linked issued := by
  obtain ⟨managed', hlookup', held, hheld, -, hconnection, -⟩ := hm.bound hbound
  rw [hlookup, Option.some.injEq] at hlookup'
  subst hlookup'
  have hissued := h.owned hlookup hheld
  rw [hconnection] at hissued
  have hupdate : (m.update_session session_id { managed with
      session := managed.session.quarantine_path path_id entry now_ms }).Linked issued :=
    h.update hlookup (fun hl => h.owned hlookup (AList.lookup_of_erase hl))
    (fun ⟨entry, hl, hrest⟩ => ⟨entry, AList.lookup_of_erase hl, hrest⟩)
  refine ⟨h.numbered, h.counter, h.held, hupdate.owned, ?_,
    fun hl => h.authorized (AList.lookup_of_erase hl), h.waiting⟩
  intro id other other_path other_epoch other_key other_connection hl hbinds
  have hold := hupdate.bound hl hbinds
  -- The binding that goes is the one of the path that goes.
  have hne : other_connection ≠ connection_id := by
    rintro rfl
    change m.connections.lookup other_connection = _ at hold
    rw [hbound] at hold
    cases hold
    rw [update_session_lookup, if_pos rfl, Option.some.injEq] at hl
    obtain ⟨entry', hentry', -⟩ := hbinds
    rw [← hl] at hentry'
    change (managed.session.paths.erase path_id).lookup path_id = some entry' at hentry'
    rw [AList.lookup_erase_of, if_pos rfl] at hentry'
    contradiction
  change (m.connections.erase connection_id).lookup other_connection = _
  rw [AList.lookup_erase_of, if_neg hne]
  exact hold

theorem revoke_linked (h : m.Linked issued) {connection : AuthenticatedConnection}
    (hpresented : connection ∈ issued)
    (hloose : m.authenticated_connections.lookup connection.connection_id ≠
        some connection.session_id ∨
      connection.connection_id ∉ m.connections ∧
        connection.connection_id ∉ m.pending_connections) :
    Linked { m with
      authenticated_connections := m.authenticated_connections.erase connection.connection_id }
      issued := by
  -- The number is neither bound nor pending: it would be with this very capability.
  have hfree : connection.connection_id ∉ m.connections ∧
      connection.connection_id ∉ m.pending_connections := by
    rcases hloose with hforeign | hfree
    · have hnone : ∀ {id},
          m.authenticated_connections.lookup connection.connection_id ≠ some id := by
        intro id hauth
        have hsame := h.session_unique hpresented (h.held hauth)
        rw [hauth, hsame] at hforeign
        exact hforeign rfl
      refine ⟨fun hmem => ?_, fun hmem => ?_⟩
      · obtain ⟨binding, hl⟩ := AList.mem_iff_lookup.mp hmem
        exact hnone (h.authorized hl)
      · obtain ⟨pending, hl⟩ := AList.mem_iff_lookup.mp hmem
        exact hnone (h.waiting hl)
    · exact hfree
  refine ⟨h.numbered, h.counter, fun hl => h.held (AList.lookup_of_erase hl), h.owned, h.bound, ?_,
    ?_⟩
  · intro connection_id binding hl
    have hne : connection_id ≠ connection.connection_id := by
      rintro rfl
      exact hfree.1 (AList.mem_of_lookup hl)
    rw [AList.lookup_erase_of, if_neg hne]
    exact h.authorized hl
  · intro connection_id pending hl
    have hne : connection_id ≠ connection.connection_id := by
      rintro rfl
      exact hfree.2 (AList.mem_of_lookup hl)
    rw [AList.lookup_erase_of, if_neg hne]
    exact h.waiting hl

theorem remove_linked (h : m.Linked issued) (reason : SessionRemovalReason)
    (hlookup : m.sessions.lookup session_id = some managed) :
    (m.remove_session session_id reason).1.Linked issued := by
  rw [remove_session_some m reason hlookup]
  refine ⟨h.numbered, h.counter, ?_, ?_, ?_, ?_, ?_⟩
  · intro connection_id id hl
    exact h.held (AList.lookup_retain_eq_some.mp hl).1
  · intro id other path_id entry hl hentry
    exact h.owned (AList.lookup_of_erase hl) hentry
  · intro id other path_id path_epoch key_epoch connection_id hl hbinds
    have hne : id ≠ session_id := (AList.mem_erase.mp (AList.mem_of_lookup hl)).1
    refine AList.lookup_retain_eq_some.mpr ⟨h.bound (AList.lookup_of_erase hl) hbinds, ?_⟩
    simpa using hne
  · intro connection_id binding hl
    obtain ⟨hl, hother⟩ := AList.lookup_retain_eq_some.mp hl
    exact AList.lookup_retain_eq_some.mpr ⟨h.authorized hl, hother⟩
  · intro connection_id pending hl
    obtain ⟨hl, hother⟩ := AList.lookup_retain_eq_some.mp hl
    exact AList.lookup_retain_eq_some.mpr ⟨h.waiting hl, hother⟩

/-- The capabilities that the events hand out. -/
def capabilities (events : List SessionEvent) : List AuthenticatedConnection :=
  events.filterMap fun event =>
    match event with
    | .issued connection => some connection
    | _ => none

/-- **Every update keeps the two directions,** while there are numbers left. -/
theorem Update.linked (h : m.Linked issued) (hm : m.Coherent) (hu : Update call m events m')
    (hpresented : ∀ connection, call = .close_connection connection → connection ∈ issued)
    (hnumbers : (issued ++ capabilities events).length < 2 ^ 64) :
    m'.Linked (issued ++ capabilities events) := by
  have hsilent : ∀ {event : SessionEvent}, (∀ connection, event ≠ .issued connection) →
      issued ++ capabilities [event] = issued := by
    intro event hevent
    cases event with
    | issued connection => exact absurd rfl (hevent connection)
    | _ => simp [capabilities]
  have hnone : issued ++ capabilities [] = issued := List.append_nil issued
  cases hu with
  | release admissions hsub =>
    rw [hnone]
    exact ⟨h.numbered, h.counter, h.held, h.owned, h.bound, h.authorized, h.waiting⟩
  | reserve reservation hsession hfree hroom =>
    rw [hnone]
    exact ⟨h.numbered, h.counter, h.held, h.owned, h.bound, h.authorized, h.waiting⟩
  | insert hheld hsession =>
    rw [hsilent (by simp)]
    exact admit_linked h hm hheld hsession
  | issue hsession hroom =>
    refine issue_linked h ?_
    simpa [capabilities] using hnumbers
  | rest hlookup hrests =>
    rw [hnone]
    refine h.update hlookup ?_ ?_
    · intro path_id entry' hl
      rw [hrests.paths] at hl
      exact h.owned hlookup hl
    · intro path_id path_epoch key_epoch connection_id hbinds
      unfold V2Session.Binds at hbinds
      rwa [hrests.paths] at hbinds
  | forget connection_id =>
    rw [hnone]
    exact h.forget connection_id
  | @abort connection_id reservation managed hlookup =>
    rw [hnone]
    have hold : ∀ {path_id entry'},
        (managed.session.abort_attach reservation.reservation).1.paths.lookup path_id = some entry' →
        managed.session.paths.lookup path_id = some entry' := by
      intro path_id entry' hl
      rcases managed.session.abort_attach_cases reservation.reservation with hr | ⟨_, -, -, hr⟩
      · rwa [hr] at hl
      · rw [hr] at hl
        exact AList.lookup_of_erase hl
    exact (h.forget connection_id).update hlookup (fun hl => h.owned hlookup (hold hl))
      (fun ⟨entry, hl, hrest⟩ => ⟨entry, hold hl, hrest⟩)
  | attach next expires_at_ms hclock hauth hunbound hidle hroom hlookup hadmits =>
    rw [hsilent (by simp)]
    exact attach_linked h next expires_at_ms hauth hlookup
  | commit hpending hlookup hentry hreserves =>
    rw [hnone]
    exact commit_linked h hm hpending hlookup hentry hreserves
  | detach now_ms hbound hlookup hentry =>
    rw [hsilent (by simp)]
    exact detach_linked h hm now_ms hbound hlookup
  | revoke connection hcall hloose =>
    rw [hnone]
    exact revoke_linked h (hpresented connection hcall) hloose
  | remove reason hlookup =>
    rw [hsilent (by simp)]
    exact remove_linked h reason hlookup

/-! ## Runs -/

theorem capabilities_append (events events' : List SessionEvent) :
    capabilities (events ++ events') = capabilities events ++ capabilities events' :=
  List.filterMap_append

/-- The events of a call hand out what its reply hands out. -/
theorem capabilities_events (m : V2SessionManager) (call : ManagerCall) :
    capabilities (call.events m) = call.issued m := by
  simp [capabilities, ManagerCall.events, List.filterMap_append, List.filterMap_map]

theorem capability_step_linked {issued' : List AuthenticatedConnection}
    (hs : capability_step (m, issued) call = some ((m', issued'), events))
    (hm : m.Coherent) (h : m.Linked issued) (hnumbers : issued'.length < 2 ^ 64) :
    m'.Linked issued' := by
  rw [capability_step] at hs
  split at hs
  · next hpresented =>
    obtain ⟨hstate, -⟩ := step_inj hs
    obtain ⟨rfl, rfl⟩ := Prod.mk.inj hstate
    dsimp only at hpresented hnumbers ⊢
    rw [← capabilities_events] at hnumbers ⊢
    let P := fun (m : V2SessionManager) (seen : List SessionEvent) => m.Coherent ∧
      ((issued ++ capabilities seen).length < 2 ^ 64 → m.Linked (issued ++ capabilities seen))
    have hstart : P m [] := ⟨hm, fun _ => by simpa [capabilities] using h⟩
    have hchain := (call.updates hm).induct (P := P) (by
        rintro m m' seen events ⟨hm, hlinked⟩ hu
        refine ⟨hu.coherent hm, ?_⟩
        intro hroom
        rw [capabilities_append, ← List.append_assoc] at hroom ⊢
        have hbefore : (issued ++ capabilities seen).length < 2 ^ 64 := by
          rw [List.length_append] at hroom
          omega
        refine hu.linked (hlinked hbefore) hm ?_ hroom
        rintro connection rfl
        exact List.mem_append_left _ (hpresented connection (List.mem_singleton_self _)))
      hstart
    exact hchain.2 hnumbers
  · cases hs

/-- A run keeps both directions while fewer than `2 ^ 64` capabilities are handed out. -/
theorem capability_run_linked {calls : List ManagerCall} {issued' : List AuthenticatedConnection}
    (hm : m.Coherent) (h : m.Linked issued)
    (hrun : exec capability_step (m, issued) calls = some ((m', issued'), events))
    (hnumbers : issued'.length < 2 ^ 64) : m'.Coherent ∧ m'.Linked issued' := by
  have hall := exec_invariant (I := fun t : V2SessionManager × List AuthenticatedConnection =>
    t.1.Coherent ∧ (t.2.length < 2 ^ 64 → t.1.Linked t.2)) (by
      rintro ⟨m, issued⟩ call ⟨m', issued'⟩ events ⟨hm, hlinked⟩ hs
      have hmore : issued.length ≤ issued'.length ∧ m'.Coherent := by
        have hs' := hs
        rw [capability_step] at hs'
        split at hs'
        · obtain ⟨hstate, -⟩ := step_inj hs'
          obtain ⟨rfl, rfl⟩ := Prod.mk.inj hstate
          refine ⟨?_, (call.updates hm).invariant (fun hm hu => hu.coherent hm) hm⟩
          dsimp only
          rw [List.length_append]
          omega
        · cases hs'
      refine ⟨hmore.2, ?_⟩
      intro hroom
      exact capability_step_linked hs hm (hlinked (lt_of_le_of_lt hmore.1 hroom)) hroom)
    ⟨hm, fun _ => h⟩ hrun
  exact ⟨hall.1, hall.2 hnumbers⟩

/-! ## When the numbers run out -/

theorem capability_step_eq (m : V2SessionManager)
    (h : ∀ connection ∈ call.presents, connection ∈ issued) : capability_step (m, issued) call =
      some (((call.apply m).1, issued ++ call.issued m), call.events m) :=
  if_pos h

/-- Binding a connection for a live session. -/
theorem bind_step (issued : List AuthenticatedConnection) {now_ms : ℕ}
    (hlookup : m.sessions.lookup session_id = some managed)
    (hlive : managed.session.is_expired now_ms = false) (hactive : managed.session.state = .Active)
    (hroom : m.authenticated_connections.len < m.maximum_authenticated_connections) :
    ∃ events, capability_step (m, issued) (.bind_authenticated_connection session_id now_ms) =
      some (((m.bind session_id).manager,
        issued ++ [⟨session_id, ⟨m.next_connection_identity.2⟩⟩]), events) := by
  have hbind : m.bind_authenticated_connection session_id now_ms = m.bind session_id := by
    rw [bind_authenticated_connection, hlookup]
    simp [hlive, hactive, Nat.not_le.mpr hroom]
  have hstep := @capability_step_eq (.bind_authenticated_connection session_id now_ms) issued m
    (by simp [ManagerCall.presents])
  rw [ManagerCall.apply, ManagerCall.issued, hbind] at hstep
  exact ⟨_, hstep⟩

/-- A connection bound under an unused number and closed again leaves the counter one
further. -/
theorem bind_close_run (issued : List AuthenticatedConnection) (now_ms : ℕ)
    (hlookup : m.sessions.lookup session_id = some managed)
    (hlive : managed.session.is_expired now_ms = false) (hactive : managed.session.state = .Active)
    (hroom : m.authenticated_connections.len < m.maximum_authenticated_connections)
    (hnumber : m.next_connection_id ≠ 0)
    (hauth : ⟨m.next_connection_id⟩ ∉ m.authenticated_connections)
    (hbound : ⟨m.next_connection_id⟩ ∉ m.connections)
    (hpending : ⟨m.next_connection_id⟩ ∉ m.pending_connections) :
    ∃ calls issued' events, exec capability_step (m, issued) calls =
      some (({ m with next_connection_id := m.next_connection_id + 1 }, issued'), events) := by
  obtain ⟨events, hbind⟩ := bind_step issued hlookup hlive hactive hroom
  have hidentity : m.next_connection_identity =
      ({ m with next_connection_id := m.next_connection_id + 1 }, m.next_connection_id) := by
    rw [next_connection_identity, if_neg hnumber]
  have hmanager : (m.bind session_id).manager = { m with
      next_connection_id := m.next_connection_id + 1
      authenticated_connections :=
        m.authenticated_connections.insert ⟨m.next_connection_id⟩ session_id } := by
    rw [V2SessionManager.bind, hidentity]
    rfl
  rw [hmanager, hidentity] at hbind
  have hclosed : ManagerCall.apply { m with
      next_connection_id := m.next_connection_id + 1
      authenticated_connections :=
        m.authenticated_connections.insert ⟨m.next_connection_id⟩ session_id }
      (.close_connection ⟨session_id, ⟨m.next_connection_id⟩⟩) =
      ({ m with next_connection_id := m.next_connection_id + 1 }, []) := by
    rw [ManagerCall.apply, close_connection]
    simp only [AList.lookup_insert, ne_eq, not_true_eq_false, ↓reduceIte,
      AList.lookup_eq_none.mpr hpending, AList.lookup_eq_none.mpr hbound, Reply.effect,
      V2SessionManager.returns, AList.erase_insert_of_notMem hauth]
  have hclose := @capability_step_eq (.close_connection ⟨session_id, ⟨m.next_connection_id⟩⟩)
    (issued ++ [⟨session_id, ⟨m.next_connection_id⟩⟩]) { m with
      next_connection_id := m.next_connection_id + 1
      authenticated_connections :=
        m.authenticated_connections.insert ⟨m.next_connection_id⟩ session_id }
    (by simp [ManagerCall.presents])
  rw [hclosed] at hclose
  exact ⟨[.bind_authenticated_connection session_id now_ms,
    .close_connection ⟨session_id, ⟨m.next_connection_id⟩⟩], _, _,
    exec_cons_eq_some.mpr ⟨_, _, _, hbind, exec_singleton hclose, rfl⟩⟩

/-- Connections bound and closed one after another carry the counter to any number. -/
theorem counter_run (issued : List AuthenticatedConnection) {now_ms : ℕ}
    (hlookup : m.sessions.lookup session_id = some managed)
    (hlive : managed.session.is_expired now_ms = false) (hactive : managed.session.state = .Active)
    (hroom : m.authenticated_connections.len < m.maximum_authenticated_connections)
    (hnumber : m.next_connection_id ≠ 0)
    (hunused : ∀ number : U64, m.next_connection_id ≤ number →
      ⟨number⟩ ∉ m.authenticated_connections ∧ ⟨number⟩ ∉ m.connections ∧
        ⟨number⟩ ∉ m.pending_connections)
    (rounds : ℕ) (hrounds : m.next_connection_id.val + rounds ≤ 2 ^ 64) :
    ∃ calls issued' events, exec capability_step (m, issued) calls =
      some (({ m with next_connection_id := Fin.ofNat _ (m.next_connection_id.val + rounds) },
        issued'), events) := by
  induction rounds with
  | zero =>
    refine ⟨[], issued, [], ?_⟩
    simp
  | succ rounds ih =>
    obtain ⟨calls, issued', events, hrun⟩ := ih (by omega)
    have hvalue : (Fin.ofNat (2 ^ 64) (m.next_connection_id.val + rounds)).val =
        m.next_connection_id.val + rounds := Nat.mod_eq_of_lt (by omega)
    have hpositive : 0 < m.next_connection_id.val := Fin.pos_iff_ne_zero.mpr hnumber
    have hfree := hunused (Fin.ofNat _ (m.next_connection_id.val + rounds))
      (Fin.le_def.mpr (by omega))
    obtain ⟨calls', issued'', events', hround⟩ := bind_close_run
      (m := { m with next_connection_id := Fin.ofNat _ (m.next_connection_id.val + rounds) })
      issued' now_ms hlookup hlive hactive hroom
      (Fin.pos_iff_ne_zero.mp (by rw [Fin.lt_def, hvalue]; simpa using by omega))
      hfree.1 hfree.2.1 hfree.2.2
    refine ⟨calls ++ calls', issued'', events ++ events', ?_⟩
    have hnext : (Fin.ofNat (2 ^ 64) (m.next_connection_id.val + rounds) : U64) + 1 =
        Fin.ofNat _ (m.next_connection_id.val + (rounds + 1)) := by
      apply Fin.ext
      simp [Fin.val_add, Nat.add_assoc]
    have hjoined := exec_append hrun hround
    rw [hjoined]
    simp only [hnext]

end V2SessionManager

open V2SessionManager

/-- **The connection map and the sessions agree.** In every state reached by calls that
present only capabilities handed out before, of which there are fewer than
`2 ^ 64`: a connection is bound exactly to the committed path that has it, and is
authenticated for the session of that path; every capability and every pending
attach has its session in the map, and nothing is pending and bound. What is left
after a removal does not refer to the session removed. -/
theorem connections_match_sessions {config : V2SessionManagerConfig} {m₀ m : V2SessionManager}
    {calls : List ManagerCall} {issued : List AuthenticatedConnection}
    {events : List SessionEvent} (hnew : V2SessionManager.new config = .ok m₀)
    (hrun : exec capability_step (m₀, []) calls = some ((m, issued), events))
    (hnumbers : issued.length < 2 ^ 64) :
    (∀ connection_id session_id path_id path_epoch key_epoch,
      m.connections.lookup connection_id = some (session_id, path_id, path_epoch, key_epoch) ↔
        ∃ managed, m.sessions.lookup session_id = some managed ∧
          managed.session.Binds path_id path_epoch key_epoch connection_id) ∧
    (∀ connection_id binding, m.connections.lookup connection_id = some binding →
      m.authenticated_connections.lookup connection_id = some binding.1) ∧
    (∀ connection_id session_id, m.authenticated_connections.lookup connection_id = some session_id →
      session_id ∈ m.sessions) ∧
    (∀ connection_id pending, m.pending_connections.lookup connection_id = some pending →
      pending.reservation.session_id ∈ m.sessions) ∧
    (∀ connection_id, connection_id ∈ m.pending_connections → connection_id ∉ m.connections) ∧
    ∀ session_id reason connection_id,
      let removed := (m.remove_session session_id reason).1
      removed.authenticated_connections.lookup connection_id ≠ some session_id ∧
        (∀ binding, removed.connections.lookup connection_id = some binding →
          binding.1 ≠ session_id) ∧
        ∀ pending, removed.pending_connections.lookup connection_id = some pending →
          pending.reservation.session_id ≠ session_id := by
  obtain ⟨hm, hlinked⟩ := capability_run_linked (new_coherent hnew) (new_linked hnew) hrun hnumbers
  refine ⟨?_, fun _ _ hl => hlinked.authorized hl, fun _ _ hl => hm.authenticated hl,
    fun _ _ hl => hm.pending hl, fun _ hl => hm.exclusive hl, ?_⟩
  · intro connection_id session_id path_id path_epoch key_epoch
    constructor
    · exact hm.bound
    · rintro ⟨managed, hlookup, hbinds⟩
      exact hlinked.bound hlookup hbinds
  · intro session_id reason connection_id
    -- The state after a removal is in agreement too, and the session is not in it.
    have hgone : session_id ∉ (m.remove_session session_id reason).1.sessions := by
      rw [← AList.lookup_eq_none, remove_session_lookup, if_pos rfl]
    have hm' : (m.remove_session session_id reason).1.Coherent :=
      (remove_session_updates (.close session_id) m session_id reason).invariant
        (fun hm hu => hu.coherent hm) hm
    refine ⟨fun hl => hgone (hm'.authenticated hl), ?_, ?_⟩
    · rintro ⟨id, path_id, path_epoch, key_epoch⟩ hl rfl
      obtain ⟨managed, hlookup, -⟩ := hm'.bound hl
      exact hgone (AList.mem_of_lookup hlookup)
    · rintro pending hl rfl
      exact hgone (hm'.pending hl)

/-- Two sessions, of which the first has an attached path. -/
def attached_calls : List ManagerCall :=
  [.reserve_admission ⟨1⟩ ⟨1⟩ ⟨1⟩ 1000 0, .commit_admission_and_bind ⟨⟨1⟩, ⟨1⟩, ⟨1⟩, 1000, true⟩ 0,
    .reserve_attach ⟨⟨1⟩, ⟨1⟩⟩ 1 1 0, .commit_attach ⟨⟨1⟩, ⟨⟨1⟩, 1, 1, ⟨1⟩⟩⟩,
    .reserve_admission ⟨2⟩ ⟨2⟩ ⟨1⟩ 1000 0, .commit_admission ⟨⟨2⟩, ⟨2⟩, ⟨1⟩, 1000, true⟩ 0]

/-- The manager before any call. -/
def idle_manager : V2SessionManager := ⟨⟨2, 100, 2, 1, 10, 2, 1, 5⟩, ∅, ∅, ∅, ∅, ∅, 1⟩

/-- A session as far as a bind looks at it. -/
def bindable (m : V2SessionManager) (session_id : SessionId) : Option (Bool × SessionState) :=
  (m.sessions.lookup session_id).map (fun managed =>
    (managed.session.is_expired 0, managed.session.state))

theorem attached_run : ∃ m issued events,
    exec capability_step (idle_manager, []) attached_calls = some ((m, issued), events) ∧
      (m.config = idle_manager.config ∧ bindable m ⟨1⟩ = some (false, .Active) ∧
        bindable m ⟨2⟩ = some (false, .Active)) ∧
      (m.authenticated_connections.keys = [⟨1⟩] ∧ m.connections.keys = [⟨1⟩] ∧
        m.pending_connections.keys = []) ∧
      m.connections.lookup ⟨1⟩ = some (⟨1⟩, ⟨1⟩, 1, 1) ∧ m.next_connection_id = 2 ∧
      issued = [⟨⟨1⟩, ⟨1⟩⟩] := by
  have hrun : (exec capability_step (idle_manager, []) attached_calls).map (fun r => decide
      ((r.1.1.config = idle_manager.config ∧ bindable r.1.1 ⟨1⟩ = some (false, .Active) ∧
          bindable r.1.1 ⟨2⟩ = some (false, .Active)) ∧
        (r.1.1.authenticated_connections.keys = [⟨1⟩] ∧ r.1.1.connections.keys = [⟨1⟩] ∧
          r.1.1.pending_connections.keys = []) ∧
        r.1.1.connections.lookup ⟨1⟩ = some (⟨1⟩, ⟨1⟩, 1, 1) ∧ r.1.1.next_connection_id = 2 ∧
        r.1.2 = [⟨⟨1⟩, ⟨1⟩⟩])) = some true := by decide
  obtain ⟨⟨⟨m, issued⟩, events⟩, hexec, hstate⟩ := Option.map_eq_some_iff.mp hrun
  exact ⟨m, issued, events, hexec, of_decide_eq_true hstate⟩

/-- What a reached state says about the path of the first session. -/
theorem connections_match_sessions_attached :
    ∃ m issued events,
      exec capability_step (idle_manager, []) attached_calls = some ((m, issued), events) ∧
      issued.length < 2 ^ 64 ∧
      ∃ managed, m.sessions.lookup ⟨1⟩ = some managed ∧ managed.session.Binds ⟨1⟩ 1 1 ⟨1⟩ := by
  obtain ⟨m, issued, events, hexec, -, -, hlookup, -, hissued⟩ := attached_run
  have hnumbers : issued.length < 2 ^ 64 := by simp [hissued]
  exact ⟨m, issued, events, hexec, hnumbers,
    ((@connections_match_sessions ⟨2, 100, 2, 1, 10, 2, 1, 5⟩ _ _ _ _ _ rfl hexec hnumbers).1
      _ _ _ _ _).mp hlookup⟩

/-- Once the counter has gone round, a bound connection's number is handed out for
another session. -/
theorem connection_numbers_wrap : ¬∀ (config : V2SessionManagerConfig) (m₀ m : V2SessionManager)
    (calls : List ManagerCall) (issued : List AuthenticatedConnection) (events : List SessionEvent),
    V2SessionManager.new config = .ok m₀ →
    exec capability_step (m₀, []) calls = some ((m, issued), events) →
    ∀ connection_id binding, m.connections.lookup connection_id = some binding →
      m.authenticated_connections.lookup connection_id = some binding.1 := by
  intro hclaim
  obtain ⟨m, issued, events, hexec, ⟨hconfig, hfirst, hsecond⟩, ⟨hauth, hbound, hpending⟩,
    hfirst_bound, hnext, -⟩ := attached_run
  obtain ⟨managed, hlookup, hlive⟩ := Option.map_eq_some_iff.mp hfirst
  obtain ⟨managed', hlookup', hlive'⟩ := Option.map_eq_some_iff.mp hsecond
  simp only [Prod.mk.injEq] at hlive hlive'
  have hroom : m.authenticated_connections.len < m.maximum_authenticated_connections := by
    have hlen : m.authenticated_connections.len = 1 := by
      have hkeys := congrArg List.length hauth
      simpa [AList.keys, List.keys, AList.len] using hkeys
    rw [hlen, maximum_authenticated_connections, hconfig]
    decide
  -- Only the number 1 is in use.
  have hunused : ∀ number : U64, m.next_connection_id ≤ number →
      ⟨number⟩ ∉ m.authenticated_connections ∧ ⟨number⟩ ∉ m.connections ∧
        ⟨number⟩ ∉ m.pending_connections := by
    intro number hnumber
    have hne : number ≠ 1 := by
      rintro rfl
      rw [hnext] at hnumber
      exact absurd hnumber (by decide)
    simp [AList.mem_keys, hauth, hbound, hpending, hne]
  obtain ⟨calls, issued', events', hcounter⟩ := counter_run issued hlookup hlive.1
    hlive.2 hroom (by rw [hnext]; decide) hunused (2 ^ 64 - 2) (by rw [hnext]; decide)
  have hround : (Fin.ofNat (2 ^ 64) (m.next_connection_id.val + (2 ^ 64 - 2)) : U64) = 0 := by
    rw [hnext]
    decide
  rw [hround] at hcounter
  obtain ⟨events'', hbind⟩ := bind_step (m := { m with next_connection_id := 0 })
    issued' hlookup' hlive'.1 hlive'.2 hroom
  have hrun := exec_append hexec (exec_append hcounter (exec_singleton hbind))
  have hheld := hclaim ⟨2, 100, 2, 1, 10, 2, 1, 5⟩ idle_manager _ _ _ _ rfl hrun ⟨1⟩
    (⟨1⟩, ⟨1⟩, 1, 1) hfirst_bound
  change (m.authenticated_connections.insert ⟨1⟩ ⟨2⟩).lookup ⟨1⟩ = some ⟨1⟩ at hheld
  rw [AList.lookup_insert] at hheld
  cases hheld

end StreamGuard.Gateway
