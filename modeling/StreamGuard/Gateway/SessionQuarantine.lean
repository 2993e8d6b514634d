/-
The quarantine of detached path numbers.

A detached path leaves a tombstone in its session, and while the tombstone stands
the allocator passes its number over. `Watched` runs the manager beside a record of
what should be in quarantine, kept from the calls alone: the largest clock reading so
far, and for each detachment the time its number may come back.

The two routes to a detachment date the tombstone differently. `detach_connection` has
a clock reading; `close_connection` has none and takes the session's last activity,
which may lie far behind the clock, so that its tombstone can be up before its time or
at once. `Timely` says when this does no harm.
-/
import StreamGuard.Gateway.SessionBindings

set_option autoImplicit false

namespace StreamGuard.Gateway

open StreamGuard StreamGuard.Lib StreamGuard.Session

/-! ## The record -/

/-- A detached path number, and the time before which it must not come back. -/
structure Quarantine where
  session_id : SessionId
  path_id : PathId
  until_ms : ℕ
  deriving DecidableEq

/-- The manager, the largest clock reading so far, and what is in quarantine. -/
structure Watched where
  manager : V2SessionManager
  latest_ms : ℕ
  quarantines : List Quarantine

/-- The session has a tombstone of this path. -/
def V2SessionManager.entombs (m : V2SessionManager) (q : Quarantine) : Bool :=
  (m.sessions.lookup q.session_id).any fun managed =>
    decide (q.path_id ∈ managed.session.path_tombstones)

/-- The tombstone went when a detachment from its session made room for another one. -/
def ManagerCall.evicts (call : ManagerCall) (m : V2SessionManager) (q : Quarantine) : Bool :=
  (call.detached m).any (fun d => decide (d.session_id = q.session_id)) && m.entombs q &&
    !(call.apply m).1.entombs q

namespace Watched

variable (t : Watched) (call : ManagerCall)

/-- The largest clock reading once the call is made. -/
def clock : ℕ := call.now_ms.getD t.latest_ms

def quarantine (d : Detachment) : Quarantine :=
  ⟨d.session_id, d.path_id, t.clock call + t.manager.config.path_tombstone_ttl_ms⟩

/-- One call at a clock reading that does not go back. -/
def step : Option (Watched × List SessionEvent) :=
  if ∀ now_ms ∈ call.now_ms, t.latest_ms ≤ now_ms then
    some (⟨(call.apply t.manager).1, t.clock call,
      t.quarantines.filter (fun q => !call.evicts t.manager q) ++
        (call.detached t.manager).map (t.quarantine call)⟩, call.events t.manager)
  else none

/-- No attach that the call reserves gets a number in quarantine. -/
def Respects : Prop :=
  ∀ now_ms ∈ call.now_ms, t.latest_ms ≤ now_ms → ∀ r ∈ call.reserved t.manager,
    ∀ q ∈ t.quarantines, r.session_id = q.session_id → r.reservation.path_id = q.path_id →
      q.until_ms ≤ now_ms

/-- The calls that keep the quarantine. -/
structure Timely : Prop where
  /-- A detachment without a clock reading, which is the closing of a connection, finds its
  session last active at the largest reading. -/
  active : call.now_ms = none → ∀ d ∈ call.detached t.manager, t.latest_ms ≤ d.at_ms
  /-- The clock has not reached its end, where expiry times saturate. -/
  unsaturated : ∀ now_ms ∈ call.now_ms, now_ms < u64Max
  /-- No session is admitted under the ID of one that still has a path in quarantine. -/
  apart : ∀ identity ∈ call.admitted t.manager, ∀ q ∈ t.quarantines,
    q.session_id = identity.session_id → q.until_ms ≤ t.clock call

instance : Decidable (t.Timely call) :=
  decidable_of_iff ((call.now_ms = none → ∀ d ∈ call.detached t.manager, t.latest_ms ≤ d.at_ms) ∧
      (∀ now_ms ∈ call.now_ms, now_ms < u64Max) ∧
      ∀ identity ∈ call.admitted t.manager, ∀ q ∈ t.quarantines,
        q.session_id = identity.session_id → q.until_ms ≤ t.clock call)
    ⟨fun h => ⟨h.1, h.2.1, h.2.2⟩, fun h => ⟨h.active, h.unsaturated, h.apart⟩⟩

end Watched

namespace V2SessionManager

variable {call : ManagerCall} {m m' : V2SessionManager} {events : List SessionEvent}
  {session_id : SessionId} {managed managed' : ManagedSession} {q : Quarantine} {clock ttl : ℕ}

/-! ## Where sessions come from -/

theorem Update.config_eq (hu : Update call m events m') : m'.config = m.config := by
  cases hu with
  | issue hsession hroom => exact (bind_keeps _ _).1.config
  | remove reason hlookup =>
    rw [remove_session_some m reason hlookup]
  | _ => rfl

/-- A session in the map was there, or is the one just admitted. -/
theorem Update.session_came (hu : Update call m events m') (h : session_id ∈ m'.sessions) :
    session_id ∈ m.sessions ∨ ∃ identity, .admitted identity ∈ events ∧
      identity.session_id = session_id := by
  -- what is written back under its own key was there
  have hback : ∀ {id : SessionId} {other written : ManagedSession},
      m.sessions.lookup id = some other → session_id ∈ m.sessions.insert id written →
        session_id ∈ m.sessions := by
    intro id other written hother hmem
    rcases (AList.mem_insert _).mp hmem with rfl | hmem
    · exact AList.mem_of_lookup hother
    · exact hmem
  cases hu with
  | release | reserve | forget | revoke => exact .inl h
  | issue hsession hroom =>
    rw [(bind_keeps _ _).2.2] at h
    exact .inl h
  | @insert reservation session now_ms hheld hsession =>
    rcases (AList.mem_insert _).mp h with hnew | hold
    · exact .inr ⟨_, List.mem_singleton_self _, hnew.symm⟩
    · exact .inl hold
  | rest hother _ | abort _ _ hother => exact .inl (hback hother h)
  | attach _ _ _ _ _ _ _ hother _ => exact .inl (hback hother h)
  | commit _ hother _ _ => exact .inl (hback hother h)
  | detach _ _ hother _ => exact .inl (hback hother h)
  | remove reason hother =>
    rw [remove_session_some m reason hother] at h
    exact .inl (AList.mem_erase.mp h).2

/-- A removed session is out of the map. -/
theorem Update.removed_gone (hu : Update call m events m') (h : Removes events session_id) :
    session_id ∉ m'.sessions := by
  obtain ⟨removal, hremoval, hid⟩ := h
  cases hu with
  | remove reason hother =>
    obtain rfl := SessionEvent.removed.inj (List.mem_singleton.mp hremoval)
    obtain rfl := hid
    rw [remove_session_some m reason hother]
    exact fun hmem => (AList.mem_erase.mp hmem).1 rfl
  | _ => simp at hremoval

/-- The tombstones of every session last as long as the manager is configured to. -/
structure Configured (m : V2SessionManager) (ttl : ℕ) : Prop where
  config : m.config.path_tombstone_ttl_ms = ttl
  sessions : ∀ {session_id managed}, m.sessions.lookup session_id = some managed →
    managed.session.path_tombstone_ttl_ms = ttl

theorem Update.configured (h : m.Coherent) (hc : m.Configured ttl) (hu : Update call m events m') :
    m'.Configured ttl := by
  refine ⟨hu.config_eq ▸ hc.config, ?_⟩
  intro session_id managed' hl'
  rcases hu.session_came (AList.mem_of_lookup hl') with hold | ⟨identity, hadmitted, -⟩
  · obtain ⟨managed, hl⟩ := AList.mem_iff_lookup.mp hold
    rcases hu.session_follows h hl with hremoved | ⟨next, hnext, hfollows⟩
    · exact absurd (AList.mem_of_lookup hl') (hu.removed_gone hremoved)
    · rw [hnext, Option.some.injEq] at hl'
      rw [← hl', ← hc.sessions hl]
      exact congrArg (fun limits => limits.2.2.2) hfollows.limits
  · cases hu with
    | @insert reservation session now_ms hheld hsession =>
      rw [update_session_lookup] at hl'
      by_cases hid : session_id = reservation.session_id
      · rw [if_pos hid, Option.some.injEq] at hl'
        rw [← hl', activated_session_eq hsession]
        exact hc.config
      · rw [if_neg hid] at hl'
        exact hc.sessions hl'
    | _ => simp at hadmitted

/-! ## The tombstone behind an entry -/

/-- The time of the entry is up, or its session has a tombstone that lasts as long. -/
def Quarantines (m : V2SessionManager) (clock : ℕ) (q : Quarantine) : Prop :=
  q.until_ms ≤ clock ∨ ∀ managed, m.sessions.lookup q.session_id = some managed →
    ∃ tombstone, managed.session.path_tombstones.lookup q.path_id = some tombstone ∧
      min q.until_ms u64Max ≤ tombstone.expires_at_ms

theorem Quarantines.later {clock' : ℕ} (h : m.Quarantines clock q) (hclock : clock ≤ clock') :
    m.Quarantines clock' q := by
  rcases h with hover | hheld
  · exact .inl (hover.trans hclock)
  · exact .inr hheld

/-- An update that detaches nothing keeps the tombstone until its time is up. -/
theorem Update.quarantines (h : m.Coherent) (hq : m.Quarantines clock q)
    (hu : Update call m events m') (hclock : ∀ now_ms ∈ call.now_ms, now_ms = clock ∧ now_ms < u64Max)
    (hquiet : ∀ d, .detached d ∉ events)
    (hadmits : ∀ identity, .admitted identity ∈ events → identity.session_id = q.session_id →
      q.until_ms ≤ clock) : m'.Quarantines clock q := by
  by_cases hover : q.until_ms ≤ clock
  · exact .inl hover
  refine .inr fun managed' hl' => ?_
  have hheld := hq.resolve_left hover
  have hold : q.session_id ∈ m.sessions := by
    rcases hu.session_came (AList.mem_of_lookup hl') with hold | ⟨identity, hadmitted, hid⟩
    · exact hold
    · exact absurd (hadmits identity hadmitted hid) hover
  obtain ⟨managed, hl⟩ := AList.mem_iff_lookup.mp hold
  obtain ⟨tombstone, htomb, hlasts⟩ := hheld managed hl
  rcases hu.session_follows h hl with hremoved | ⟨next, hnext, hfollows⟩
  · exact absurd (AList.mem_of_lookup hl') (hu.removed_gone hremoved)
  rw [hnext, Option.some.injEq] at hl'
  subst hl'
  refine ⟨tombstone, hfollows.kept ?_ htomb ?_, hlasts⟩
  · rintro ⟨d, hd, -⟩
    exact hquiet d hd
  · intro now_ms hnow
    obtain ⟨rfl, hmax⟩ := hclock now_ms hnow
    omega

/-- A number that an attach reserves has no tombstone, so its entry's time is up. -/
theorem Update.reserved_over (hq : m.Quarantines clock q) (hu : Update call m events m')
    (hclock : ∀ now_ms ∈ call.now_ms, now_ms = clock ∧ now_ms < u64Max)
    {r : GatewayAttachReservation} (hr : .reserved r ∈ events)
    (hsession : r.session_id = q.session_id)
    (hpath : r.reservation.path_id = q.path_id) : q.until_ms ≤ clock := by
  by_contra hover
  have hheld := hq.resolve_left hover
  cases hu with
  | @attach session_id managed reservation now_ms next expires_at_ms hnow _ _ _ _ hlookup hadmits =>
    obtain rfl := SessionEvent.reserved.inj (List.mem_singleton.mp hr)
    obtain ⟨rfl, hmax⟩ := hclock now_ms hnow
    dsimp only at hsession hpath
    rw [hsession] at hlookup
    obtain ⟨tombstone, htomb, hlasts⟩ := hheld managed hlookup
    refine (V2Session.eligible_path_id_free hadmits.eligible).2 ?_
    rw [hpath]
    -- what pruning at this reading leaves
    exact AList.mem_of_lookup (V2Session.prune_tombstone_order_keeps _ _ htomb (by omega))
  | _ => simp at hr

/-- **A call that detaches nothing** keeps the tombstones, and reserves no number in
quarantine. -/
theorem Updates.quarantines (h : m.Coherent) (hq : m.Quarantines clock q)
    (hu : Updates call m events m')
    (hclock : ∀ now_ms ∈ call.now_ms, now_ms = clock ∧ now_ms < u64Max)
    (hquiet : ∀ d, .detached d ∉ events)
    (hadmits : ∀ identity, .admitted identity ∈ events → identity.session_id = q.session_id →
      q.until_ms ≤ clock) :
    m'.Quarantines clock q ∧ ∀ r, .reserved r ∈ events → r.session_id = q.session_id →
      r.reservation.path_id = q.path_id → q.until_ms ≤ clock := by
  induction hu with
  | nil m =>
    refine ⟨hq, ?_⟩
    intro r hr
    simp at hr
  | cons hfirst _ ih =>
    have hkept := hfirst.quarantines h hq hclock (fun d hd => hquiet d (List.mem_append_left _ hd))
      (fun identity hi => hadmits identity (List.mem_append_left _ hi))
    obtain ⟨hrest, hlater⟩ := ih (hfirst.coherent h) hkept
      (fun d hd => hquiet d (List.mem_append_right _ hd))
      (fun identity hi => hadmits identity (List.mem_append_right _ hi))
    refine ⟨hrest, ?_⟩
    intro r hr
    rcases List.mem_append.mp hr with hr | hr
    · exact hfirst.reserved_over hq hclock hr
    · exact hlater r hr

/-! ## Detachments -/

/-- What a detachment leaves: the path of its session is out, with a tombstone of its date. -/
structure TakesOff (m m' : V2SessionManager) (d : Detachment) (managed : ManagedSession)
    (entry : PathEntry) : Prop where
  session : m.sessions.lookup d.session_id = some managed
  path : managed.session.paths.lookup d.path_id = some entry
  sessions : m'.sessions = m.sessions.insert d.session_id
    { managed with session := managed.session.quarantine_path d.path_id entry d.at_ms }

theorem detach_connection_detached (h : m.Coherent) (connection : AuthenticatedConnection)
    (path_id : PathId) (path_epoch : U64) (now_ms : ℕ) {d : Detachment}
    (hd : d ∈ (ManagerCall.detach_connection connection path_id path_epoch now_ms).detached m) :
    d.at_ms = now_ms ∧ ∃ managed entry,
      m.TakesOff (m.detach_connection connection path_id path_epoch now_ms).manager
        d managed entry := by
  rw [ManagerCall.detached] at hd
  rcases detach_connection_cases h connection path_id path_epoch now_ms with
    ⟨result, hresult, hr⟩ | ⟨key_epoch, managed, entry, hbound, hlookup, hentry, hr⟩
  · rw [hr, if_neg hresult] at hd
    simp at hd
  · rw [hr] at hd ⊢
    simp only [Except.toOption, ↓reduceIte, detachment, hbound, hlookup, Option.toList_some,
      List.map_cons, List.map_nil, List.mem_singleton] at hd
    subst hd
    exact ⟨rfl, managed, entry, hlookup, hentry, rfl⟩

theorem close_connection_detached (h : m.Coherent) (connection : AuthenticatedConnection)
    {d : Detachment} (hd : d ∈ (ManagerCall.close_connection connection).detached m) :
    ∃ managed entry, m.TakesOff (m.close_connection connection).manager d managed entry := by
  rw [ManagerCall.detached] at hd
  by_cases hidle : m.authenticates connection = true ∧
      connection.connection_id ∉ m.pending_connections
  · rw [if_pos hidle, detachment] at hd
    cases hbound : m.connections.lookup connection.connection_id with
    | none =>
      rw [hbound] at hd
      simp at hd
    | some binding =>
      obtain ⟨session_id, path_id, path_epoch, key_epoch⟩ := binding
      obtain ⟨managed, hlookup, entry, hentry, hcommitted, hconnection, hepoch, -⟩ := h.bound hbound
      simp only [hbound, hlookup, Option.toList_some, List.map_cons, List.map_nil,
        List.mem_singleton] at hd
      subst hd
      have hdetach := V2Session.detach_bound hentry hcommitted managed.last_activity_ms
      rw [hconnection, hepoch] at hdetach
      refine ⟨managed, entry, hlookup, hentry, ?_⟩
      rw [close_connection]
      dsimp only
      rw [if_neg (not_not.mpr (authenticates_iff.mp hidle.1)), AList.lookup_eq_none.mpr hidle.2,
        hbound]
      dsimp only
      rw [hlookup]
      dsimp only
      rw [hdetach]
      rfl
  · rw [if_neg hidle] at hd
    simp at hd

/-- A detachment keeps the tombstones it does not evict. -/
theorem TakesOff.quarantines {d : Detachment} {entry : PathEntry} (h : m.Coherent)
    (ht : m.TakesOff m' d managed entry) (hq : m.Quarantines clock q)
    (hkept : d.session_id = q.session_id → m.entombs q = true → m'.entombs q = true) :
    m'.Quarantines clock q := by
  by_cases hover : q.until_ms ≤ clock
  · exact .inl hover
  refine .inr fun managed' hl' => ?_
  have hheld := hq.resolve_left hover
  rw [ht.sessions, AList.lookup_insert_of] at hl'
  by_cases hsession : q.session_id = d.session_id
  · rw [if_pos hsession, Option.some.injEq] at hl'
    subst hl'
    obtain ⟨tombstone, htomb, hlasts⟩ := hheld managed (hsession ▸ ht.session)
    refine ⟨tombstone, ?_, hlasts⟩
    have hbefore : m.entombs q = true := by
      rw [entombs, hsession, ht.session]
      simpa using AList.mem_of_lookup htomb
    have hafter := hkept hsession.symm hbefore
    rw [entombs, ht.sessions, hsession, AList.lookup_insert] at hafter
    have hmem : q.path_id ∈
        (managed.session.quarantine_path d.path_id entry d.at_ms).path_tombstones := by
      simpa using hafter
    -- the path taken off had no tombstone of its own
    have hne : q.path_id ≠ d.path_id := by
      intro hpath
      rw [hpath] at htomb
      exact (h.orderly ht.session).untombed d.path_id (AList.mem_of_lookup ht.path)
        (AList.mem_of_lookup htomb)
    obtain ⟨left, hleft⟩ := AList.mem_iff_lookup.mp hmem
    have hevicted := hleft
    change ((V2Session.evict_tombstones _ _ _).2.insert _ _).lookup _ = _ at hevicted
    rw [AList.lookup_insert_of, if_neg hne] at hevicted
    have hsame := V2Session.evict_tombstones_lookup _ _ _ hevicted
    rw [htomb, Option.some.injEq] at hsame
    rw [hsame]
    exact hleft
  · rw [if_neg hsession] at hl'
    exact hheld managed' hl'

/-- The entry of a detachment dated no earlier than the clock. -/
theorem TakesOff.enters {d : Detachment} {entry : PathEntry} (hc : m.Configured ttl)
    (ht : m.TakesOff m' d managed entry) (hdated : clock ≤ d.at_ms) :
    m'.Quarantines clock ⟨d.session_id, d.path_id, clock + ttl⟩ := by
  refine .inr fun managed' hl' => ?_
  rw [ht.sessions, AList.lookup_insert, Option.some.injEq] at hl'
  subst hl'
  refine ⟨_, AList.lookup_insert _, ?_⟩
  rw [hc.sessions ht.session, saturatingAdd]
  dsimp only
  omega

end V2SessionManager

namespace Watched

variable {t t' : Watched} {call : ManagerCall} {events : List SessionEvent} {ttl : ℕ}

/-- What a run keeps: every entry has its tombstone, as long as its time is not up. -/
structure Sound (t : Watched) (ttl : ℕ) : Prop where
  coherent : t.manager.Coherent
  configured : t.manager.Configured ttl
  held : ∀ q ∈ t.quarantines, t.manager.Quarantines t.latest_ms q

theorem latest_le_clock (hforward : ∀ now_ms ∈ call.now_ms, t.latest_ms ≤ now_ms) :
    t.latest_ms ≤ t.clock call := by
  rw [clock]
  cases hnow : call.now_ms with
  | none => simp
  | some now_ms => exact hforward now_ms hnow

theorem Timely.reading (h : t.Timely call) :
    ∀ now_ms ∈ call.now_ms, now_ms = t.clock call ∧ now_ms < u64Max := by
  intro now_ms hnow
  refine ⟨?_, h.unsaturated now_ms hnow⟩
  rw [clock, Option.mem_def.mp hnow]
  rfl

/-- A detachment is dated at the clock or later. -/
theorem Timely.dated (h : t.Timely call) (hm : t.manager.Coherent)
    (hforward : ∀ now_ms ∈ call.now_ms, t.latest_ms ≤ now_ms) {d : Detachment}
    (hd : d ∈ call.detached t.manager) : t.clock call ≤ d.at_ms ∧
      ∃ managed entry, t.manager.TakesOff (call.apply t.manager).1 d managed entry := by
  cases call with
  | detach_connection connection path_id path_epoch now_ms =>
    obtain ⟨hat, htakes⟩ := V2SessionManager.detach_connection_detached hm connection path_id
      path_epoch now_ms hd
    exact ⟨le_of_eq hat.symm, htakes⟩
  | close_connection connection =>
    exact ⟨h.active rfl d hd,
      V2SessionManager.close_connection_detached hm connection hd⟩
  | _ => simp [ManagerCall.detached] at hd

/-- The entries of a call that detaches nothing, and what it reserves. -/
theorem Sound.quiet (h : t.Sound ttl) (ht : t.Timely call)
    (hforward : ∀ now_ms ∈ call.now_ms, t.latest_ms ≤ now_ms) (hnone : call.detached t.manager = [])
    {q : Quarantine} (hq : q ∈ t.quarantines) :
    (call.apply t.manager).1.Quarantines (t.clock call) q ∧
      ∀ r ∈ call.reserved t.manager, r.session_id = q.session_id →
        r.reservation.path_id = q.path_id → q.until_ms ≤ t.clock call := by
  have hchain := (call.updates h.coherent).quarantines h.coherent
    ((h.held q hq).later (latest_le_clock hforward)) ht.reading
    (fun d hd => by simp [ManagerCall.events, hnone] at hd)
    (fun identity hi hid => ht.apart identity (by simpa [ManagerCall.events] using hi) q hq hid.symm)
  refine ⟨hchain.1, ?_⟩
  intro r hr
  exact hchain.2 r (by simpa [ManagerCall.events] using hr)

/-- **Step lemma.** A timely call keeps every entry's tombstone. -/
theorem Sound.step (h : t.Sound ttl) (ht : t.Timely call) (hs : t.step call = some (t', events)) :
    t'.Sound ttl := by
  rw [Watched.step] at hs
  split at hs
  · next hforward =>
    obtain ⟨rfl, rfl⟩ := step_inj hs
    have hinvariant := (call.updates h.coherent).invariant
      (I := fun m => m.Coherent ∧ m.Configured ttl)
      (fun hm hu => ⟨hu.coherent hm.1, hu.configured hm.1 hm.2⟩) ⟨h.coherent, h.configured⟩
    refine ⟨hinvariant.1, hinvariant.2, ?_⟩
    intro q hq
    show (call.apply t.manager).1.Quarantines (t.clock call) q
    rcases List.mem_append.mp hq with hold | hnew
    · obtain ⟨hold, hkept⟩ := List.mem_filter.mp hold
      by_cases hnone : call.detached t.manager = []
      · exact (h.quiet ht hforward hnone hold).1
      · obtain ⟨d, hd⟩ := List.exists_mem_of_ne_nil _ hnone
        obtain ⟨_, managed, entry, htakes⟩ := ht.dated h.coherent hforward hd
        refine htakes.quarantines h.coherent
          ((h.held q hold).later (latest_le_clock hforward)) ?_
        intro hsession hbefore
        have hany : (call.detached t.manager).any
            (fun d => decide (d.session_id = q.session_id)) = true :=
          List.any_eq_true.mpr ⟨d, hd, by simpa using hsession⟩
        simpa [ManagerCall.evicts, hany, hbefore] using hkept
    · obtain ⟨d, hd, rfl⟩ := List.mem_map.mp hnew
      obtain ⟨hdated, managed, entry, htakes⟩ := ht.dated h.coherent hforward hd
      rw [quarantine, h.configured.config]
      exact htakes.enters h.configured hdated
  · contradiction

theorem Sound.respects (h : t.Sound ttl) (ht : t.Timely call) : t.Respects call := by
  intro now_ms hnow hforward r hr q hq hsession hpath
  have hnone : call.detached t.manager = [] := by
    cases call with
    | detach_connection | close_connection => simp [ManagerCall.reserved] at hr
    | _ => rfl
  have hclock := (ht.reading now_ms hnow).1
  rw [hclock]
  refine (h.quiet ht ?_ hnone hq).2 r hr hsession hpath
  intro now_ms' hnow'
  rw [Option.mem_unique hnow' hnow]
  exact hforward

/-- **Detached path numbers stay in quarantine.** In a run of a new manager whose clock does not
go back and whose calls are all timely, no attach is reserved under a path number that was
detached from the session less than the configured time before, unless its tombstone was
evicted. -/
theorem detached_paths_quarantined {config : V2SessionManagerConfig} {m₀ : V2SessionManager}
    {calls : List ManagerCall} (hnew : V2SessionManager.new config = .ok m₀)
    (htimely : Along Watched.step Timely ⟨m₀, 0, []⟩ calls) :
    Along Watched.step Respects ⟨m₀, 0, []⟩ calls := by
  have hsound : Sound ⟨m₀, 0, []⟩ m₀.config.path_tombstone_ttl_ms := by
    refine ⟨V2SessionManager.new_coherent hnew, ⟨rfl, ?_⟩, ?_⟩
    · intro session_id managed hl
      rw [V2SessionManager.new] at hnew
      split at hnew
      · contradiction
      · obtain rfl := Except.ok.inj hnew
        simp at hl
    · intro q hq
      simp at hq
  exact along_of_invariant (I := fun t => t.Sound m₀.config.path_tombstone_ttl_ms)
    (fun t call t' events h ht hs => h.step ht hs) (fun t call h ht => h.respects ht) hsound htimely

/-- A path is detached at three milliseconds; one later its number is still passed over. -/
theorem detached_paths_quarantined_detached :
    ∃ m₀ calls t events, V2SessionManager.new ⟨2, 100, 1, 1, 10, 2, 1, 5⟩ = .ok m₀ ∧
      exec Watched.step ⟨m₀, 0, []⟩ calls = some (t, events) ∧
      t.quarantines = [⟨⟨1⟩, ⟨1⟩, 8⟩] ∧ .reserved ⟨⟨1⟩, ⟨⟨2⟩, 2, 2, ⟨1⟩⟩⟩ ∈ events ∧
      Along Watched.step Respects ⟨m₀, 0, []⟩ calls := by
  let m₀ : V2SessionManager := ⟨⟨2, 100, 1, 1, 10, 2, 1, 5⟩, ∅, ∅, ∅, ∅, ∅, 1⟩
  let calls : List ManagerCall :=
    [.reserve_admission ⟨1⟩ ⟨1⟩ ⟨1⟩ 1000 0,
      .commit_admission_and_bind ⟨⟨1⟩, ⟨1⟩, ⟨1⟩, 1000, true⟩ 0,
      .reserve_attach ⟨⟨1⟩, ⟨1⟩⟩ 1 1 0, .commit_attach ⟨⟨1⟩, ⟨⟨1⟩, 1, 1, ⟨1⟩⟩⟩,
      .detach_connection ⟨⟨1⟩, ⟨1⟩⟩ ⟨1⟩ 1 3, .reserve_attach ⟨⟨1⟩, ⟨1⟩⟩ 2 2 4]
  have hnew : V2SessionManager.new ⟨2, 100, 1, 1, 10, 2, 1, 5⟩ = .ok m₀ := rfl
  have htimely : Along Watched.step Timely ⟨m₀, 0, []⟩ calls := by decide
  have hrun : (exec Watched.step ⟨m₀, 0, []⟩ calls).map (fun r => decide
      (r.1.quarantines = [⟨⟨1⟩, ⟨1⟩, 8⟩] ∧ .reserved ⟨⟨1⟩, ⟨⟨2⟩, 2, 2, ⟨1⟩⟩⟩ ∈ r.2)) =
        some true := by
    decide
  obtain ⟨⟨t, events⟩, hexec, hstate⟩ := Option.map_eq_some_iff.mp hrun
  obtain ⟨hquarantines, hreserved⟩ := of_decide_eq_true hstate
  exact ⟨m₀, calls, t, events, hnew, hexec, hquarantines, hreserved,
    detached_paths_quarantined hnew htimely⟩

/-! ### A path closed while the clock is ahead of its session -/

/-- Where no number but the first one may be given out, the allocator goes round to it. -/
theorem scan_path_id_round {s : V2Session} {path_epoch : U64} {key_epoch : U32}
    (hfirst : s.eligible_path_id path_epoch key_epoch ⟨1⟩ = true)
    (hother : ∀ id : U16, id ≠ 1 → s.eligible_path_id path_epoch key_epoch ⟨id⟩ = false)
    (rounds : ℕ) (next : U16) (hnext : 2 ≤ next.val) (hrounds : 2 ^ 16 - next.val < rounds) :
    (s.scan_path_id path_epoch key_epoch rounds next).2 = some ⟨1⟩ := by
  induction rounds generalizing next with
  | zero => omega
  | succ rounds ih =>
    have hne : next ≠ 1 := by
      rintro rfl
      contradiction
    rw [V2Session.scan_path_id, if_neg (by simp [hother next hne])]
    by_cases hlast : next = u16Max
    · rw [V2Session.following_path_id, if_pos hlast]
      cases rounds with
      | zero =>
        have := next.isLt
        omega
      | succ rounds => rw [V2Session.scan_path_id, if_pos hfirst]
    · have hlt : next.val < 65535 := by
        have hval : next.val ≠ 65535 := fun hval => hlast (Fin.ext hval)
        have := next.isLt
        omega
      have hsucc : (next + 1).val = next.val + 1 := by
        rw [Fin.val_add_eq_of_add_lt]
        · rfl
        · show next.val + 1 < 65536
          omega
      rw [V2Session.following_path_id, if_neg hlast]
      exact ih (next + 1) (by omega) (by omega)

/-- An attach that the session accepts is handed out. -/
theorem reserve_attach_ok {m : V2SessionManager} {connection : AuthenticatedConnection}
    {managed : ManagedSession} {session : V2Session} {reservation : AttachReservation}
    {path_epoch : U64} {key_epoch : U32} {now_ms : ℕ} (hprune : m.prune_pending_attaches now_ms = m)
    (hauth : m.authenticates connection = true)
    (hidle : ¬ (connection.connection_id ∈ m.connections ∨
      connection.connection_id ∈ m.pending_connections))
    (hroom : m.pending_connections.len < m.config.maximum_pending_attaches)
    (hlookup : m.sessions.lookup connection.session_id = some managed)
    (hsession : managed.session.reserve_attach connection.connection_id path_epoch key_epoch now_ms =
      (session, .ok reservation)) :
    (m.reserve_attach connection path_epoch key_epoch now_ms).result =
      .ok ⟨connection.session_id, reservation⟩ := by
  rw [V2SessionManager.reserve_attach, hprune]
  dsimp only
  rw [if_neg (by simp [hauth]), if_neg hidle, if_neg (Nat.not_le.mpr hroom), hlookup]
  dsimp only
  rw [hsession]
  rfl

namespace Sample

/-- Room for one path and one number at a time, and five milliseconds of quarantine. -/
def config : V2SessionManagerConfig := ⟨2, 100, 1, 1, 10, 1, 1, 5⟩

def started : V2SessionManager := ⟨config, ∅, ∅, ∅, ∅, ∅, 1⟩

/-- A session with path 1, and a second connection that comes ten milliseconds later. -/
def attached : List ManagerCall :=
  [.reserve_admission ⟨1⟩ ⟨1⟩ ⟨1⟩ 1000 0, .commit_admission_and_bind ⟨⟨1⟩, ⟨1⟩, ⟨1⟩, 1000, true⟩ 0,
    .reserve_attach ⟨⟨1⟩, ⟨1⟩⟩ 1 1 0, .commit_attach ⟨⟨1⟩, ⟨⟨1⟩, 1, 1, ⟨1⟩⟩⟩,
    .bind_authenticated_connection ⟨1⟩ 10]

/-- The session after the first connection is closed: its tombstone is dated 0. -/
def closed : V2Session :=
  ⟨⟨⟨1⟩, ⟨1⟩, 1000⟩, .Active, 1, ∅, 2, (∅ : Map PathId PathEpochs).insert ⟨1⟩ ⟨1, 1⟩,
    (∅ : Map PathId PathTombstone).insert ⟨1⟩ ⟨5⟩, [⟨1⟩], 1, 1, 5⟩

def watched : Watched :=
  ⟨⟨config, (∅ : Map SessionId ManagedSession).insert ⟨1⟩ ⟨closed, ⟨1⟩, 0⟩, ∅, ∅, ∅,
    (∅ : Map ConnectionId SessionId).insert ⟨2⟩ ⟨1⟩, 3⟩, 10, [⟨⟨1⟩, ⟨1⟩, 15⟩]⟩

theorem closed_run : ∃ events, exec Watched.step ⟨started, 0, []⟩
    (attached ++ [.close_connection ⟨⟨1⟩, ⟨1⟩⟩]) = some (watched, events) := ⟨_, rfl⟩

/-- The same session ten milliseconds in: the tombstone is up. -/
def pruned : V2Session :=
  ⟨⟨⟨1⟩, ⟨1⟩, 1000⟩, .Active, 1, ∅, 2, (∅ : Map PathId PathEpochs).insert ⟨1⟩ ⟨1, 1⟩, ∅, [], 1, 1, 5⟩

theorem pruned_allocates : ∃ next,
    pruned.allocate_path_id 2 2 = ({ pruned with next_path_id := next }, some ⟨1⟩) := by
  have hother : ∀ id : U16, id ≠ 1 → pruned.eligible_path_id 2 2 ⟨id⟩ = false := by
    intro id hid
    -- the history is full, and knows no other number
    have hunknown : pruned.path_epoch_history.lookup ⟨id⟩ = none := by
      show ((∅ : Map PathId PathEpochs).insert ⟨1⟩ ⟨1, 1⟩).lookup ⟨id⟩ = none
      rw [AList.lookup_insert_of, if_neg fun h => hid (congrArg PathId.get h)]
      rfl
    rw [V2Session.eligible_path_id, hunknown]
    split
    · rfl
    · rfl
  have hscan : (pruned.scan_path_id 2 2 u16Max.val pruned.next_path_id).2 = some ⟨1⟩ :=
    scan_path_id_round rfl hother _ pruned.next_path_id (by decide) (by decide)
  rw [V2Session.allocate_path_id]
  generalize pruned.scan_path_id 2 2 u16Max.val pruned.next_path_id = r at hscan
  obtain ⟨next, found⟩ := r
  obtain rfl : found = _ := hscan
  exact ⟨next, rfl⟩

theorem closed_reserves : ∃ session, closed.reserve_attach ⟨2⟩ 2 2 10 =
    (session, .ok ⟨⟨1⟩, 2, 2, ⟨2⟩⟩) := by
  have hprune : closed.prune_path_tombstones 10 = pruned := rfl
  obtain ⟨next, hallocate⟩ := pruned_allocates
  rw [V2Session.reserve_attach, hprune]
  rw [if_neg (by decide), if_neg (by decide), if_neg (by decide), if_neg (by decide),
    if_neg (by decide), if_neg (by decide), hallocate]
  exact ⟨_, rfl⟩

theorem watched_reserves : ⟨⟨1⟩, ⟨⟨1⟩, 2, 2, ⟨2⟩⟩⟩ ∈
    (ManagerCall.reserve_attach ⟨⟨1⟩, ⟨2⟩⟩ 2 2 10).reserved watched.manager := by
  obtain ⟨session, hsession⟩ := closed_reserves
  have hresult : (watched.manager.reserve_attach ⟨⟨1⟩, ⟨2⟩⟩ 2 2 10).result =
      .ok ⟨⟨1⟩, ⟨⟨1⟩, 2, 2, ⟨2⟩⟩⟩ :=
    reserve_attach_ok rfl (by decide) (by decide) (by decide) rfl hsession
  rw [ManagerCall.reserved, hresult]
  exact List.mem_singleton_self _

end Sample

open Sample in
/-- The first connection is closed at ten milliseconds, when its session was last active at
zero. The second one gets the same path number in the same millisecond. -/
theorem closed_path_reused_at_once :
    V2SessionManager.new config = .ok started ∧
    ¬ Along Watched.step Respects ⟨started, 0, []⟩ (attached ++ [.close_connection ⟨⟨1⟩, ⟨1⟩⟩] ++
      [.reserve_attach ⟨⟨1⟩, ⟨2⟩⟩ 2 2 10]) := by
  refine ⟨rfl, ?_⟩
  obtain ⟨events, hrun⟩ := closed_run
  rw [along_append hrun]
  rintro ⟨-, hrespects, -⟩
  have huntil : 15 ≤ 10 := hrespects 10 rfl (le_refl _) _ watched_reserves ⟨⟨1⟩, ⟨1⟩, 15⟩
    (List.mem_singleton_self _) rfl rfl
  omega

end Watched

end StreamGuard.Gateway
