/-
Capacity, and the cleanup of every session that goes.

A method collects the sessions it removes while it holds the lock and runs their
cleanup after it has let go, so between the two a removal is in progress and
other calls may come in. `CleanupSystem` is the manager with the removals in
progress and the three counters; a step is a call or the cleanup round of one of
those removals, in any order.

What enters and what leaves is counted as multisets of identities: the sessions
inserted are the ones in the map, the ones in progress and the ones cleaned. The
counters are machine words and count the rounds of their reason modulo `2 ^ 64`.
-/
import StreamGuard.Gateway.SessionBindings
import Mathlib.Algebra.Order.Group.Multiset
import Mathlib.Tactic.Abel

set_option autoImplicit false

namespace StreamGuard.Gateway

open StreamGuard StreamGuard.Lib StreamGuard.Session

namespace V2SessionManager

variable {call : ManagerCall} {m m' : V2SessionManager} {events : List SessionEvent}
  {session_id : SessionId} {managed managed' : ManagedSession}

/-! ## Conservation -/

/-- Who one session belongs to. -/
def owner (session_id : SessionId) (managed : ManagedSession) : Multiset SessionIdentity :=
  {⟨session_id, managed.session.admission.device_id, managed.organization_id⟩}

/-- Who the sessions in the map belong to. -/
def identities (m : V2SessionManager) : Multiset SessionIdentity := m.sessions.sum owner

/-- The sessions that the events insert. -/
def insertions (events : List SessionEvent) : List SessionIdentity :=
  events.filterMap fun event =>
    match event with
    | .admitted identity => some identity
    | _ => none

/-- The sessions that the events remove. -/
def removals (events : List SessionEvent) : List SessionRemoval :=
  events.filterMap fun event =>
    match event with
    | .removed removal => some removal
    | _ => none

theorem insertions_append (events events' : List SessionEvent) :
    insertions (events ++ events') = insertions events ++ insertions events' :=
  List.filterMap_append

theorem removals_append (events events' : List SessionEvent) :
    removals (events ++ events') = removals events ++ removals events' :=
  List.filterMap_append

theorem insertions_events (m : V2SessionManager) (call : ManagerCall) :
    insertions (call.events m) = call.admitted m := by
  simp [insertions, ManagerCall.events, List.filterMap_append, List.filterMap_map]

theorem removals_events (m : V2SessionManager) (call : ManagerCall) :
    removals (call.events m) = (call.apply m).2 := by
  simp [removals, ManagerCall.events, List.filterMap_append, List.filterMap_map]

/-- A session rewritten for the same owner. -/
theorem identities_update (hlookup : m.sessions.lookup session_id = some managed)
    (hadmission : managed'.session.admission = managed.session.admission)
    (horganization : managed'.organization_id = managed.organization_id) :
    (m.update_session session_id managed').identities = m.identities := by
  have hsum := AList.sum_insert_add (w := managed') owner hlookup
  have howner : owner session_id managed' = owner session_id managed := by
    rw [owner, owner, hadmission, horganization]
  rw [howner] at hsum
  exact add_left_cancel hsum

/-- **Every update conserves the sessions:** what it leaves and removes is what was
there and what it inserts. -/
theorem Update.conserves (h : m.Coherent) (hu : Update call m events m') :
    m'.identities + ((removals events).map SessionRemoval.identity : Multiset SessionIdentity) =
      m.identities + (insertions events : Multiset SessionIdentity) := by
  have hsame : ∀ {event : SessionEvent}, (∀ identity, event ≠ .admitted identity) →
      (∀ removal, event ≠ .removed removal) → m'.identities = m.identities →
      m'.identities + ((removals [event]).map SessionRemoval.identity : Multiset SessionIdentity) =
        m.identities + (insertions [event] : Multiset SessionIdentity) := by
    intro event hadmitted hremoved hidentities
    cases event with
    | admitted identity => exact absurd rfl (hadmitted identity)
    | removed removal => exact absurd rfl (hremoved removal)
    | _ => simp [removals, insertions, hidentities]
  have hquiet : m'.identities = m.identities →
      m'.identities + ((removals []).map SessionRemoval.identity : Multiset SessionIdentity) =
        m.identities + (insertions [] : Multiset SessionIdentity) := by
    intro hidentities
    simp [removals, insertions, hidentities]
  cases hu with
  | release admissions hsub => exact hquiet rfl
  | reserve reservation hsession hfree hroom => exact hquiet rfl
  | @insert reservation session now_ms hheld hsession =>
    have hfresh : reservation.session_id ∉ m.sessions :=
      fun hmem => h.apart hmem (AList.mem_of_lookup hheld)
    have hsum := AList.sum_insert_of_notMem owner
      ⟨session, reservation.organization_id, now_ms⟩ hfresh
    have howner : owner reservation.session_id
        ⟨session, reservation.organization_id, now_ms⟩ = {reservation.identity} := by
      rw [owner, activated_session_eq hsession]
      rfl
    rw [howner, add_comm] at hsum
    simpa [removals, insertions, identities, update_session] using hsum
  | @issue id hsession hroom =>
    refine hsame (by simp) (by simp) ?_
    rw [identities, (bind_keeps m id).2.2]
    rfl
  | rest hlookup hrests =>
    exact hquiet (identities_update hlookup hrests.admission hrests.organization)
  | forget connection_id => exact hquiet rfl
  | abort connection_id reservation hlookup =>
    refine hquiet (identities_update (m := { m with
      pending_connections := m.pending_connections.erase connection_id }) hlookup ?_ rfl)
    exact congrArg Prod.fst (V2Session.abort_attach_ticket _ _)
  | attach next expires_at_ms hclock hauth hunbound hidle hroom hlookup hadmits =>
    exact hsame (by simp) (by simp) (identities_update hlookup rfl rfl)
  | @commit id other reservation entry hpending hlookup hentry hreserves =>
    exact hquiet (identities_update (m := { m with
      pending_connections := m.pending_connections.erase reservation.connection_id })
      hlookup rfl rfl)
  | @detach connection_id id path_id path_epoch key_epoch other entry now_ms hbound hlookup hentry =>
    exact hsame (by simp) (by simp) (identities_update (m := { m with
      connections := m.connections.erase connection_id }) hlookup rfl rfl)
  | revoke connection hcall hr => exact hquiet rfl
  | @remove id other reason hlookup =>
    have hsum := AList.sum_erase owner hlookup
    rw [remove_session_some m reason hlookup]
    rw [add_comm] at hsum
    simpa [removals, insertions, identities, SessionRemoval.identity, owner] using hsum

/-! ## Capacity -/

/-- The tables are within their configured bounds. -/
structure Bounded (m : V2SessionManager) : Prop where
  sessions : m.sessions.len + m.admissions.len ≤ m.config.maximum_sessions
  connections : m.authenticated_connections.len ≤ m.maximum_authenticated_connections
  pending : m.pending_connections.len ≤ m.config.maximum_pending_attaches

theorem new_bounded {config : V2SessionManagerConfig}
    (h : V2SessionManager.new config = .ok m) : m.Bounded ∧ m.config = config := by
  rw [V2SessionManager.new] at h
  split at h
  · contradiction
  · obtain rfl := Except.ok.inj h
    exact ⟨⟨Nat.zero_le _, Nat.zero_le _, Nat.zero_le _⟩, rfl⟩

theorem update_session_len (hlookup : m.sessions.lookup session_id = some managed) :
    (m.update_session session_id managed').sessions.len = m.sessions.len :=
  AList.len_insert_of_mem (AList.mem_of_lookup hlookup)

/-- A rewritten session takes no more room. -/
theorem Bounded.update (h : m.Bounded) (hlookup : m.sessions.lookup session_id = some managed) :
    (m.update_session session_id managed').Bounded := by
  refine ⟨?_, h.connections, h.pending⟩
  rw [update_session_len hlookup]
  exact h.sessions

/-- Fewer entries in the connection maps. -/
theorem Bounded.restrict (h : m.Bounded) (hconfig : m'.config = m.config)
    (hsessions : m'.sessions.len + m'.admissions.len ≤ m.sessions.len + m.admissions.len)
    (hconnections : m'.authenticated_connections.len ≤ m.authenticated_connections.len)
    (hpending : m'.pending_connections.len ≤ m.pending_connections.len) : m'.Bounded := by
  have hmaximum : m'.maximum_authenticated_connections = m.maximum_authenticated_connections := by
    rw [maximum_authenticated_connections, hconfig]
    rfl
  refine ⟨?_, ?_, ?_⟩
  · rw [hconfig]
    exact hsessions.trans h.sessions
  · rw [hmaximum]
    exact hconnections.trans h.connections
  · rw [hconfig]
    exact hpending.trans h.pending

theorem len_erase_le {K V : Type*} [DecidableEq K] (k : K) (table : Map K V) :
    (table.erase k).len ≤ table.len :=
  AList.len_le (fun _ _ hl => AList.lookup_of_erase hl)

/-- **Every update keeps within the bounds.** -/
theorem Update.bounded (h : m.Bounded) (hm : m.Coherent) (hu : Update call m events m') :
    m'.Bounded ∧ m'.config = m.config := by
  cases hu with
  | release admissions hsub =>
    have hlen := AList.len_le hsub
    exact ⟨h.restrict rfl (Nat.add_le_add_left hlen _) le_rfl le_rfl, rfl⟩
  | reserve reservation hsession hfree hroom =>
    refine ⟨⟨?_, h.connections, h.pending⟩, rfl⟩
    change m.sessions.len + (m.admissions.insert _ _).len ≤ m.config.maximum_sessions
    rw [AList.len_insert_of_notMem hfree]
    omega
  | @insert reservation session now_ms hheld hsession =>
    have hfresh : reservation.session_id ∉ m.sessions :=
      fun hmem => hm.apart hmem (AList.mem_of_lookup hheld)
    refine ⟨h.restrict rfl ?_ le_rfl le_rfl, rfl⟩
    -- The session takes the room of its reservation.
    have hinsert : (m.sessions.insert reservation.session_id
        ⟨session, reservation.organization_id, now_ms⟩).len = m.sessions.len + 1 :=
      AList.len_insert_of_notMem hfresh
    have herase := AList.len_erase (AList.mem_of_lookup hheld)
    change (m.sessions.insert _ _).len + (m.admissions.erase _).len ≤ _
    omega
  | @issue id hsession hroom =>
    obtain ⟨next, hbind⟩ := bind_manager m id
    rw [hbind]
    refine ⟨⟨h.sessions, ?_, h.pending⟩, rfl⟩
    exact (AList.len_insert_le _ _ _).trans hroom
  | rest hlookup hrests => exact ⟨h.update hlookup, rfl⟩
  | forget connection_id => exact ⟨h.restrict rfl le_rfl le_rfl (len_erase_le _ _), rfl⟩
  | @abort connection_id reservation managed hlookup =>
    have hforget : Bounded { m with
        pending_connections := m.pending_connections.erase connection_id } :=
      h.restrict rfl le_rfl le_rfl (len_erase_le _ _)
    exact ⟨hforget.update hlookup, rfl⟩
  | @attach id managed reservation now_ms next expires_at_ms hclock hauth hunbound hidle hroom
      hlookup hadmits =>
    have hupdate : Bounded (m.update_session id { managed with
        session := (managed.session.prune_path_tombstones now_ms).enter_path next reservation }) :=
      h.update hlookup
    refine ⟨⟨hupdate.sessions, hupdate.connections, ?_⟩, rfl⟩
    exact (AList.len_insert_le _ _ _).trans hroom
  | @commit id managed reservation entry hpending hlookup hentry hreserves =>
    have hforget : Bounded { m with
        pending_connections := m.pending_connections.erase reservation.connection_id } :=
      h.restrict rfl le_rfl le_rfl (len_erase_le _ _)
    have hupdate : Bounded ({ m with
        pending_connections := m.pending_connections.erase reservation.connection_id
        }.update_session id { managed with session := { managed.session with
          paths := managed.session.paths.insert reservation.path_id
            ⟨{ entry.binding with state := .Healthy }, false⟩ } }) :=
      hforget.update hlookup
    exact ⟨⟨hupdate.sessions, hupdate.connections, hupdate.pending⟩, rfl⟩
  | @detach connection_id id path_id path_epoch key_epoch managed entry now_ms hbound hlookup
      hentry =>
    have hforget : Bounded { m with connections := m.connections.erase connection_id } :=
      h.restrict rfl le_rfl le_rfl le_rfl
    exact ⟨hforget.update hlookup, rfl⟩
  | revoke connection hcall hr => exact ⟨h.restrict rfl le_rfl (len_erase_le _ _) le_rfl, rfl⟩
  | remove reason hlookup =>
    rw [remove_session_some m reason hlookup]
    exact ⟨h.restrict rfl (Nat.add_le_add_right (len_erase_le _ _) _) AList.len_retain_le
      AList.len_retain_le, rfl⟩

end V2SessionManager

/-! ## Cleanup in progress -/

/-- The manager, the removals whose cleanup has not run yet, and the counters. -/
structure CleanupSystem where
  manager : V2SessionManager
  in_progress : List SessionRemoval
  sessions_expired : U64
  sessions_idle : U64
  sessions_closed : U64

/-- A call, or the cleanup round of a removal in progress. -/
inductive CleanupInput where
  | call (call : ManagerCall)
  | cleanup (index : ℕ)

/-- What a step shows: a session inserted, or a removal cleaned. -/
inductive CleanupEvent where
  | inserted (identity : SessionIdentity)
  | cleaned (removal : SessionRemoval)

namespace CleanupSystem

/-- `record_removal`. -/
def record_removal (s : CleanupSystem) : SessionRemovalReason → CleanupSystem
  | .Expired => { s with sessions_expired := s.sessions_expired + 1 }
  | .Idle => { s with sessions_idle := s.sessions_idle + 1 }
  | .Closed => { s with sessions_closed := s.sessions_closed + 1 }

/-- A call runs its critical section and leaves its removals in progress; a round
records one of them and runs the hooks for it. -/
def step (s : CleanupSystem) : CleanupInput → Option (CleanupSystem × List CleanupEvent)
  | .call call =>
    let r := call.apply s.manager
    some ({ s with manager := r.1, in_progress := s.in_progress ++ r.2 },
      (call.admitted s.manager).map .inserted)
  | .cleanup index =>
    match s.in_progress[index]? with
    | none => none
    | some removal =>
      some ({ s with in_progress := s.in_progress.eraseIdx index }.record_removal removal.reason,
        [.cleaned removal])

/-- Before any call. -/
def start (m : V2SessionManager) : CleanupSystem := ⟨m, [], 0, 0, 0⟩

/-- The sessions inserted so far. -/
def inserted (events : List CleanupEvent) : List SessionIdentity :=
  events.filterMap fun event =>
    match event with
    | .inserted identity => some identity
    | .cleaned _ => none

/-- The removals cleaned so far. -/
def cleaned (events : List CleanupEvent) : List SessionRemoval :=
  events.filterMap fun event =>
    match event with
    | .inserted _ => none
    | .cleaned removal => some removal

/-- How many of the rounds had this reason. -/
def rounds (reason : SessionRemovalReason) (events : List CleanupEvent) : ℕ :=
  (cleaned events).countP (·.reason = reason)

/-! ## The invariant -/

/-- The sessions inserted are in the map, in progress or cleaned, and the counters
count the rounds. -/
structure Accounted (config : V2SessionManagerConfig) (s : CleanupSystem)
    (events : List CleanupEvent) : Prop where
  coherent : s.manager.Coherent
  bounded : s.manager.Bounded
  configured : s.manager.config = config
  conserved : s.manager.identities + (s.in_progress.map SessionRemoval.identity : Multiset _) +
    ((cleaned events).map SessionRemoval.identity : Multiset _) = (inserted events : Multiset _)
  expired : s.sessions_expired.val = rounds .Expired events % 2 ^ 64
  idle : s.sessions_idle.val = rounds .Idle events % 2 ^ 64
  closed : s.sessions_closed.val = rounds .Closed events % 2 ^ 64

variable {config : V2SessionManagerConfig} {s s' : CleanupSystem} {events out : List CleanupEvent}

/-- Two changes that conserve, one after the other. -/
theorem add_conserved {M : Type*} [AddCommMonoid M] {before middle after gone gone' come come' : M}
    (h : middle + gone = before + come) (h' : after + gone' = middle + come') :
    after + (gone + gone') = before + (come + come') := by
  calc after + (gone + gone') = after + gone' + gone := by abel
    _ = middle + gone + come' := by rw [h', add_right_comm]
    _ = before + (come + come') := by rw [h, add_assoc]

/-- A call keeps the manager well formed and conserves the sessions. -/
theorem call_conserves {m : V2SessionManager} (hm : m.Coherent) (hbounded : m.Bounded)
    (call : ManagerCall) :
    (call.apply m).1.Coherent ∧ (call.apply m).1.Bounded ∧ (call.apply m).1.config = m.config ∧
      (call.apply m).1.identities +
          ((call.apply m).2.map SessionRemoval.identity : Multiset SessionIdentity) =
        m.identities + (call.admitted m : Multiset SessionIdentity) := by
  let P := fun (m' : V2SessionManager) (seen : List SessionEvent) =>
    m'.Coherent ∧ m'.Bounded ∧ m'.config = m.config ∧
      m'.identities + ((V2SessionManager.removals seen).map SessionRemoval.identity :
          Multiset SessionIdentity) =
        m.identities + (V2SessionManager.insertions seen : Multiset SessionIdentity)
  have hstart : P m [] :=
    ⟨hm, hbounded, rfl, by simp [V2SessionManager.removals, V2SessionManager.insertions]⟩
  have hchain := (call.updates hm).induct (P := P) (by
      rintro m₁ m₂ seen events ⟨hm₁, hb₁, hc₁, hconserved⟩ hu
      obtain ⟨hb₂, hc₂⟩ := hu.bounded hb₁ hm₁
      refine ⟨hu.coherent hm₁, hb₂, hc₂.trans hc₁, ?_⟩
      rw [V2SessionManager.removals_append, V2SessionManager.insertions_append, List.map_append,
        ← Multiset.coe_add, ← Multiset.coe_add]
      exact add_conserved hconserved (hu.conserves hm₁))
    hstart
  dsimp only [P] at hchain
  rwa [List.nil_append, V2SessionManager.removals_events, V2SessionManager.insertions_events]
    at hchain

theorem record_removal_manager (s : CleanupSystem) (reason : SessionRemovalReason) :
    (s.record_removal reason).manager = s.manager ∧
      (s.record_removal reason).in_progress = s.in_progress := by
  cases reason with
  | Expired => exact ⟨rfl, rfl⟩
  | Idle => exact ⟨rfl, rfl⟩
  | Closed => exact ⟨rfl, rfl⟩

/-- One more round of a word-sized counter. -/
theorem counter_succ {counter : U64} {n : ℕ} (h : counter.val = n % 2 ^ 64) :
    (counter + 1).val = (n + 1) % 2 ^ 64 := by
  simp [Fin.val_add, h]

theorem step_accounted {input : CleanupInput} (h : Accounted config s events)
    (hs : s.step input = some (s', out)) : Accounted config s' (events ++ out) := by
  cases input with
  | call call =>
    obtain ⟨rfl, rfl⟩ := step_inj hs
    obtain ⟨hcoherent, hbounded, hconfig, hconserved⟩ := call_conserves h.coherent h.bounded call
    have hcleaned : cleaned (events ++ (call.admitted s.manager).map .inserted) = cleaned events := by
      simp [cleaned, List.filterMap_append, List.filterMap_map]
    have hinserted : inserted (events ++ (call.admitted s.manager).map .inserted) =
        inserted events ++ call.admitted s.manager := by
      simp [inserted, List.filterMap_append, List.filterMap_map]
    refine ⟨hcoherent, hbounded, hconfig.trans h.configured, ?_, ?_, ?_, ?_⟩
    · have hbefore := h.conserved
      rw [add_assoc, ← zero_add (inserted events : Multiset SessionIdentity)] at hbefore
      have hafter := add_conserved hbefore hconserved
      rw [zero_add] at hafter
      rw [hcleaned, hinserted, ← Multiset.coe_add, ← hafter, List.map_append, ← Multiset.coe_add]
      abel
    · rw [rounds, hcleaned]
      exact h.expired
    · rw [rounds, hcleaned]
      exact h.idle
    · rw [rounds, hcleaned]
      exact h.closed
  | cleanup index =>
    rw [step] at hs
    cases hindex : s.in_progress[index]? with
    | none =>
      rw [hindex] at hs
      cases hs
    | some removal =>
      rw [hindex] at hs
      obtain ⟨rfl, rfl⟩ := step_inj hs
      obtain ⟨hlt, rfl⟩ := List.getElem?_eq_some_iff.mp hindex
      obtain ⟨hmanager, hprogress⟩ := record_removal_manager
        { s with in_progress := s.in_progress.eraseIdx index } s.in_progress[index].reason
      have hcleaned : cleaned (events ++ [.cleaned s.in_progress[index]]) =
          cleaned events ++ [s.in_progress[index]] := by
        simp [cleaned, List.filterMap_append]
      have hinserted : inserted (events ++ [.cleaned s.in_progress[index]]) = inserted events := by
        simp [inserted, List.filterMap_append]
      have hrounds : ∀ reason, rounds reason (events ++ [.cleaned s.in_progress[index]]) =
          rounds reason events + if s.in_progress[index].reason = reason then 1 else 0 := by
        intro reason
        rw [rounds, hcleaned, List.countP_append, rounds]
        simp [List.countP_cons]
      refine ⟨?_, ?_, ?_, ?_, ?_, ?_, ?_⟩
      · rw [hmanager]
        exact h.coherent
      · rw [hmanager]
        exact h.bounded
      · rw [hmanager]
        exact h.configured
      · -- The removal moves from the ones in progress to the ones cleaned.
        have hmoved : (s.in_progress.map SessionRemoval.identity : Multiset SessionIdentity) =
            ((s.in_progress.eraseIdx index).map SessionRemoval.identity : Multiset _) +
              {s.in_progress[index].identity} := by
          have hperm := (List.getElem_cons_eraseIdx_perm hlt).map SessionRemoval.identity
          rw [← Multiset.coe_eq_coe.mpr hperm, List.map_cons, add_comm]
          rfl
        have hbefore := h.conserved
        rw [hmanager, hprogress, hcleaned, hinserted, ← hbefore, hmoved, List.map_append,
          ← Multiset.coe_add]
        simp only [List.map_cons, List.map_nil, Multiset.coe_singleton]
        abel
      all_goals
        rw [hrounds]
        cases s.in_progress[index].reason
      · exact counter_succ h.expired
      · exact h.expired
      · exact h.expired
      · exact h.idle
      · exact counter_succ h.idle
      · exact h.idle
      · exact h.closed
      · exact h.closed
      · exact counter_succ h.closed

/-- The number of sessions in the map. -/
theorem card_identities (m : V2SessionManager) : m.identities.card = m.sessions.len := by
  have hcard := AList.map_sum_hom Multiset.cardHom V2SessionManager.owner m.sessions
  simp only [Multiset.cardHom_apply] at hcard
  rw [V2SessionManager.identities, hcard]
  simp [AList.sum, AList.len, V2SessionManager.owner]

theorem run_accounted {m : V2SessionManager} {inputs : List CleanupInput}
    (hnew : V2SessionManager.new config = .ok m)
    (hrun : exec step (start m) inputs = some (s, events)) : Accounted config s events := by
  obtain ⟨hbounded, hconfig⟩ := V2SessionManager.new_bounded hnew
  have hempty : m.identities = 0 := by
    rw [← Multiset.card_eq_zero, card_identities]
    rw [V2SessionManager.new] at hnew
    split at hnew
    · contradiction
    · rw [← Except.ok.inj hnew]
      rfl
  refine exec_along_induct (C := fun _ _ => True) (P := Accounted config) (a := [])
    (fun s input s' out events h _ hs => step_accounted h hs)
    ⟨V2SessionManager.new_coherent hnew, hbounded, hconfig, ?_, rfl, rfl, rfl⟩
    (along_true _ inputs) hrun
  simp [start, hempty, cleaned, inserted]

/-- Every round has one of the three reasons. -/
theorem length_cleaned (events : List CleanupEvent) : (cleaned events).length =
    rounds .Expired events + rounds .Idle events + rounds .Closed events := by
  unfold rounds
  generalize cleaned events = removals
  induction removals with
  | nil => rfl
  | cons removal removals ih =>
    obtain ⟨session_id, device_id, organization_id, reason⟩ := removal
    cases reason with
    | Expired => simp [ih]; omega
    | Idle => simp [ih]; omega
    | Closed => simp [ih]; omega

/-- One session admitted, closed and cleaned. -/
def life : List CleanupInput :=
  [.call (.reserve_admission ⟨1⟩ ⟨1⟩ ⟨1⟩ 1000 0),
    .call (.commit_admission ⟨⟨1⟩, ⟨1⟩, ⟨1⟩, 1000, true⟩ 0), .call (.close ⟨1⟩), .cleanup 0]

/-- A manager for one session, before any call. -/
def single : V2SessionManager := ⟨⟨1, 100, 1, 1, 10, 1, 1, 5⟩, ∅, ∅, ∅, ∅, ∅, 1⟩

theorem life_run (closed : U64) : exec step ⟨single, [], 0, 0, closed⟩ life =
    some (⟨single, [], 0, 0, closed + 1⟩,
      [.inserted ⟨⟨1⟩, ⟨1⟩, ⟨1⟩⟩, .cleaned ⟨⟨1⟩, ⟨1⟩, ⟨1⟩, .Closed⟩]) := rfl

theorem lives_run (n : ℕ) : ∃ inputs events,
    exec step (start single) inputs = some (⟨single, [], 0, 0, Fin.ofNat _ n⟩, events) ∧
      (cleaned events).length = n := by
  induction n with
  | zero => exact ⟨[], [], rfl, rfl⟩
  | succ n ih =>
    obtain ⟨inputs, events, hrun, hlength⟩ := ih
    have hnext : (Fin.ofNat (2 ^ 64) n : U64) + 1 = Fin.ofNat _ (n + 1) := by
      apply Fin.ext
      simp [Fin.val_add]
    have hlife := life_run (Fin.ofNat _ n)
    rw [hnext] at hlife
    refine ⟨inputs ++ life, _, exec_append hrun hlife, ?_⟩
    simp only [cleaned, List.filterMap_append, List.length_append] at hlength ⊢
    simp [hlength]

end CleanupSystem

open CleanupSystem

/-- **Capacity and cleanup conservation.** At every moment of every run: no session is
admitted and reserved, the tables are within their bounds, and the sessions ever
inserted are the ones in the map, the ones removed whose cleanup is in progress
and the ones cleaned, each with its own identity. The counters hold the numbers
of rounds of their reason modulo `2 ^ 64`. -/
theorem session_capacity_and_cleanup {config : V2SessionManagerConfig} {m₀ : V2SessionManager}
    {inputs : List CleanupInput} {s : CleanupSystem} {events : List CleanupEvent}
    (hnew : V2SessionManager.new config = .ok m₀)
    (hrun : exec CleanupSystem.step (start m₀) inputs = some (s, events)) :
    (∀ session_id ∈ s.manager.sessions, session_id ∉ s.manager.admissions) ∧
    s.manager.sessions.len + s.manager.admissions.len ≤ config.maximum_sessions ∧
    s.manager.authenticated_connections.len ≤
      config.maximum_sessions * config.maximum_paths_per_session ∧
    s.manager.pending_connections.len ≤ config.maximum_pending_attaches ∧
    (inserted events : Multiset SessionIdentity) = s.manager.identities +
      (s.in_progress.map SessionRemoval.identity : Multiset SessionIdentity) +
      ((cleaned events).map SessionRemoval.identity : Multiset SessionIdentity) ∧
    (inserted events).length =
      s.manager.sessions.len + s.in_progress.length + (cleaned events).length ∧
    (cleaned events).length = rounds .Expired events + rounds .Idle events + rounds .Closed events ∧
    s.sessions_expired.val = rounds .Expired events % 2 ^ 64 ∧
    s.sessions_idle.val = rounds .Idle events % 2 ^ 64 ∧
    s.sessions_closed.val = rounds .Closed events % 2 ^ 64 := by
  have h := run_accounted hnew hrun
  have hsessions := h.bounded.sessions
  have hconnections := h.bounded.connections
  have hpending := h.bounded.pending
  rw [V2SessionManager.maximum_authenticated_connections] at hconnections
  rw [h.configured] at hsessions hconnections hpending
  refine ⟨fun id hid => h.coherent.apart hid, hsessions, hconnections.trans (Nat.min_le_left _ _),
    hpending, h.conserved.symm, ?_, length_cleaned events, h.expired, h.idle, h.closed⟩
  have hcard := congrArg Multiset.card h.conserved
  simp only [Multiset.card_add, Multiset.coe_card, List.length_map, card_identities] at hcard
  exact hcard.symm

/-- A session admitted and closed, its cleanup still to run. -/
theorem session_capacity_and_cleanup_closed :
    ∃ s events, exec CleanupSystem.step (start single) (life.take 3) = some (s, events) ∧
      (inserted events).length =
        s.manager.sessions.len + s.in_progress.length + (cleaned events).length := by
  refine ⟨_, _, rfl, ?_⟩
  exact (@session_capacity_and_cleanup ⟨1, 100, 1, 1, 10, 1, 1, 5⟩ single (life.take 3) _ _
    rfl rfl).2.2.2.2.2.1

/-- While a cleanup is in progress the session is neither in the map nor cleaned; and
with none in progress the counters have gone round after `2 ^ 64` rounds. -/
theorem cleanup_in_progress_not_counted :
    (∃ inputs s events, exec CleanupSystem.step (start single) inputs = some (s, events) ∧
      (inserted events).length ≠ s.manager.sessions.len + (cleaned events).length) ∧
    ∃ inputs s events, exec CleanupSystem.step (start single) inputs = some (s, events) ∧
      s.in_progress = [] ∧ (cleaned events).length ≠
        s.sessions_expired.val + s.sessions_idle.val + s.sessions_closed.val := by
  refine ⟨⟨life.take 3, _, _, rfl, by decide⟩, ?_⟩
  obtain ⟨inputs, events, hrun, hlength⟩ := lives_run (2 ^ 64)
  refine ⟨inputs, _, events, hrun, rfl, ?_⟩
  rw [hlength]
  decide

end StreamGuard.Gateway
