/-
Only committed leases authorize payload.

The uplink source check reads `lookup_active`, so an entry of the active map must
come from a commit that succeeded, or from a durable record that was Active.
`Authorized` is this as an invariant: it holds of the map, and of the leases that
a release or a sweep has taken from it and may put back.

Whether a parked release took its lease from the active map or from the
reservations is remembered by nothing in the source: when the quarantine is full
the lease is put back as Active either way. A ghost component remembers it here,
to say which steps turn a reservation into an Active lease.
-/
import StreamGuard.Gateway.PoolRecords

set_option autoImplicit false

namespace StreamGuard.Gateway

open StreamGuard StreamGuard.Lib

namespace AddressPool

variable {c : AddressPoolConfig} {inner : Inner} {id : SessionId} {lease : Lease}

/-! ## What the sections report and park -/

/-- The first section of a release parks the session's reservation, or its Active
lease when it has no reservation. -/
theorem begin_releases (durable : Bool) (call : PoolCall) {taken : Lease} {now_ms : ℕ}
    (h : (begin_ c durable inner call).plan = some (.release id taken now_ms)) :
    call = .release_at id now_ms ∧
      (id ∉ inner.pending → inner.active.lookup id = some taken) := by
  obtain rfl : call = .release_at id now_ms := begin_starts durable call h
  refine ⟨rfl, ?_⟩
  rw [begin_, release_begin] at h
  split at h
  · contradiction
  split at h
  · contradiction
  split at h
  · contradiction
  next inner' taken' ht =>
  obtain ⟨-, rfl, -⟩ := Plan.release.inj (Option.some.inj h)
  intro hpending
  rw [take, AList.lookup_eq_none.mpr hpending] at ht
  dsimp only at ht
  split at ht
  · next active hl =>
    obtain ⟨-, rfl⟩ := step_inj ht
    exact hl
  · contradiction

/-- A release is parked by a first section only. -/
theorem resume_plan_not_release (durable : Bool) (plan : Plan) (outcomes : List Bool)
    {taken : Lease} {now_ms : ℕ} :
    (resume c durable inner outcomes plan).plan ≠ some (.release id taken now_ms) := by
  intro h
  rcases resume_parks durable h with ⟨_, _, _, _, he⟩ | ⟨_, _, _, _, _, _, he⟩ <;> simp at he

/-- A promotion that makes a lease Active reports the commit. -/
theorem promote_reports {pending : ReservedLease} {mono : ℕ} {ok : Bool} {subject : SessionId}
    (h : (promote_finish inner subject pending mono ok).inner.active.lookup id = some lease) :
    inner.active.lookup id = some lease ∨
      id = subject ∧ pending.addresses = lease.addresses ∧
        .committed id (.ok lease.addresses) ∈
          (promote_finish inner subject pending mono ok).events := by
  rw [promote_finish] at h ⊢
  dsimp only at h ⊢
  by_cases hok : ok
  · rw [if_neg (by simp [hok])] at h ⊢
    split at h
    · exact .inl h
    next habsent =>
    rw [Section.returns, AList.lookup_insert_of] at h
    split at h
    · next hid =>
      subst hid
      right
      rw [← Option.some.inj h, if_neg habsent]
      exact ⟨rfl, rfl, List.mem_singleton_self _⟩
    · exact .inl h
  · rw [if_pos (by simp [hok])] at h
    exact .inl h

/-! ## What startup makes Active -/

theorem recover_lease_active {now : PoolTime} {r : Recovery} {record : PersistedLease}
    (h : (recover_lease c now r record).inner.active.lookup id = some lease) :
    r.inner.active.lookup id = some lease ∨
      record.session_id = id ∧ record.state = .Active ∧ record.addresses = lease.addresses := by
  unfold recover_lease at h
  split at h
  · exact .inl h
  split at h
  · exact .inl h
  dsimp only at h
  cases hstate : record.state with
  | Reserved =>
    rw [hstate] at h
    dsimp only at h
    split at h <;> exact .inl h
  | ReleasePending =>
    rw [hstate] at h
    dsimp only at h
    split at h <;> exact .inl h
  | Active =>
    rw [hstate] at h
    dsimp only at h
    split at h
    · exact .inl h
    rw [AList.lookup_insert_of] at h
    split at h
    · next hid => exact .inr ⟨hid.symm, rfl, by rw [← Option.some.inj h]⟩
    · exact .inl h

theorem quarantine_stale_active {now : PoolTime} {deletes : List (PersistedLease × Bool)}
    {inner' : Inner} (h : quarantine_stale c now inner deletes = .ok inner') :
    inner'.active = inner.active :=
  quarantine_stale_invariant (P := fun inner₁ => inner₁.active = inner.active)
    (fun hsame he => (enqueue_active he).trans hsame) rfl h

/-- **Recovery makes nothing Active** but the sessions of Active records. -/
theorem with_store_active {records : List PersistedLease} {store : LeaseStore} {now : PoolTime}
    {outcomes : List Bool} {pool : AddressPool}
    (h : with_store_at_time c (some records) store now outcomes = .ok pool)
    (hl : pool.inner.active.lookup id = some lease) :
    ∃ record ∈ records, record.session_id = id ∧ record.state = .Active ∧
      record.addresses = lease.addresses := by
  obtain ⟨deletes, inner, -, hq, rfl⟩ := with_store_eq_ok h
  have hl : inner.active.lookup id = some lease := hl
  rw [quarantine_stale_active hq, recover_records] at hl
  refine List.foldlRecOn (motive := fun r : Recovery => r.inner.active.lookup id = some lease →
    ∃ record ∈ records, record.session_id = id ∧ record.state = .Active ∧
      record.addresses = lease.addresses) _ _ (fun hnone => by contradiction) ?_ hl
  intro r hbefore record hmem hl
  rcases recover_lease_active hl with hold | hrecord
  · exact hbefore hold
  · refine ⟨record, ?_, hrecord⟩
    exact (List.perm_insertionSort _ records).mem_iff.mp (List.mem_of_mem_take hmem)

end AddressPool

namespace PoolSystem

variable {s s' : PoolSystem} {session_id : SessionId} {label : PoolLabel} {events : List PoolEvent}

/-! ## Releases of reservations -/

/-- The callers whose release has taken a reservation; the pool itself does not
keep track of it. -/
def takes_reserved (s : PoolSystem) (callers : Finset ℕ) : PoolLabel → Finset ℕ
  | .begin_ caller (.release_at session_id _) =>
    if session_id ∈ s.pool.inner.pending then insert caller callers else callers.erase caller
  | _ => callers

/-- The step cannot quarantine a reservation that is to be released, and puts it
back as Active. -/
def activates_reserved (t : PoolSystem × Finset ℕ) (label : PoolLabel) : Prop :=
  (t.1.restores label).isSome ∧
    match label with
    | .resume caller => caller ∈ t.2
    | .release_deferred session_id => session_id ∈ t.1.pool.inner.pending
    | _ => False

instance (t : PoolSystem × Finset ℕ) : DecidablePred (activates_reserved t)
  | .resume _ | .release_deferred _ => inferInstanceAs (Decidable (_ ∧ _))
  | .begin_ _ _ | .store _ _ => inferInstanceAs (Decidable (_ ∧ False))

/-! ## The invariant -/

/-- What is Active is authorized, and so is what a parked call has taken from the
active map and may put back. -/
structure Authorized (auth : SessionId → AssignedAddresses → Prop) (t : PoolSystem × Finset ℕ) :
    Prop where
  active : ∀ {session_id lease}, t.1.pool.inner.active.lookup session_id = some lease →
    auth session_id lease.addresses
  releasing : ∀ {caller session_id taken now_ms outcomes},
    t.1.running.lookup caller = some ⟨.release session_id taken now_ms, outcomes⟩ →
    caller ∉ t.2 → auth session_id taken.addresses
  sweeping : ∀ {caller batch now_ms outcomes e},
    t.1.running.lookup caller = some ⟨.sweep batch now_ms, outcomes⟩ → e ∈ batch →
    e.was_pending = false → auth e.id e.lease.addresses

variable {auth auth' : SessionId → AssignedAddresses → Prop} {callers : Finset ℕ}

theorem Authorized.mono {t : PoolSystem × Finset ℕ} (h : Authorized auth t)
    (hauth : ∀ id a, auth id a → auth' id a) : Authorized auth' t :=
  ⟨fun hl => hauth _ _ (h.active hl), fun hr hc => hauth _ _ (h.releasing hr hc),
    fun hr he hw => hauth _ _ (h.sweeping hr he hw)⟩

/-- A lock section keeps the invariant if what it leaves Active and what it parks
are authorized, and the other callers' ghosts stay. -/
theorem Authorized.enter {caller : ℕ} {sec : Section} {callers' : Finset ℕ}
    (h : Authorized auth (s, callers))
    (hcallers : ∀ caller' ≠ caller, caller' ∈ callers ↔ caller' ∈ callers')
    (hactive : ∀ id lease, sec.inner.active.lookup id = some lease → auth id lease.addresses)
    (hrelease : ∀ id taken now_ms, sec.plan = some (.release id taken now_ms) →
      caller ∉ callers' → auth id taken.addresses)
    (hsweep : ∀ batch now_ms, sec.plan = some (.sweep batch now_ms) → ∀ e ∈ batch,
      e.was_pending = false → auth e.id e.lease.addresses) :
    Authorized auth (s.enter caller sec, callers') := by
  refine ⟨fun hl => hactive _ _ hl, ?_, ?_⟩
  · intro caller' id taken now_ms outcomes hr hout
    rw [enter_lookup] at hr
    split at hr
    · next he =>
      obtain ⟨plan, hplan, hr⟩ := Option.map_eq_some_iff.mp hr
      obtain ⟨rfl, -⟩ := Running.mk.inj hr
      exact hrelease id taken now_ms hplan (he ▸ hout)
    · next hne => exact h.releasing hr (fun hc => hout ((hcallers caller' hne).mp hc))
  · intro caller' batch now_ms outcomes e hr he hw
    rw [enter_lookup] at hr
    split at hr
    · obtain ⟨plan, hplan, hr⟩ := Option.map_eq_some_iff.mp hr
      obtain ⟨rfl, -⟩ := Running.mk.inj hr
      exact hsweep batch now_ms hplan e he hw
    · exact h.sweeping hr he hw

theorem takes_reserved_of_ne {caller caller' : ℕ} {call : PoolCall} (h : caller' ≠ caller) :
    caller' ∈ callers ↔ caller' ∈ s.takes_reserved callers (.begin_ caller call) := by
  cases call with
  | release_at id now_ms =>
    rw [takes_reserved]
    split
    · simp [h]
    · simp [h]
  | _ => exact Iff.rfl

/-- The lease put back by a step that releases no reservation is authorized. -/
theorem Authorized.restored (h : Authorized auth (s, callers))
    (hkeeps : ¬ activates_reserved (s, callers) label) {lease : Lease}
    (hr : s.restores label = some (session_id, lease)) : auth session_id lease.addresses := by
  have hsome : (s.restores label).isSome := by
    rw [hr]
    rfl
  cases label with
  | begin_ caller call => contradiction
  | store caller ok => contradiction
  | resume caller =>
    have hout : caller ∉ callers := fun hc => hkeeps ⟨hsome, hc⟩
    rw [restores] at hr
    split at hr
    · next id taken now_ms hl =>
      split at hr
      · obtain ⟨rfl, rfl⟩ := step_inj hr
        exact h.releasing hl hout
      · contradiction
    · contradiction
  | release_deferred subject =>
    have hpending : subject ∉ s.pool.inner.pending := fun hp => hkeeps ⟨hsome, hp⟩
    rw [restores] at hr
    split at hr
    · obtain ⟨⟨taken_out, taken⟩, ht, he⟩ := Option.map_eq_some_iff.mp hr
      obtain ⟨rfl, rfl⟩ := Prod.mk.inj he
      rw [AddressPool.take, AList.lookup_eq_none.mpr hpending] at ht
      dsimp only at ht
      split at ht
      · next active hl =>
        obtain ⟨-, rfl⟩ := step_inj ht
        exact h.active hl
      · contradiction
    · contradiction

/-- **Step lemma.** A step that puts no reservation back as Active keeps every
Active lease authorized, once its own reports count as commits. -/
theorem Authorized.step (h : Authorized auth (s, callers))
    (hauth : ∀ id a, auth id a → auth' id a)
    (hcommits : ∀ id a, .committed id (.ok a) ∈ events → auth' id a)
    (hkeeps : ¬ activates_reserved (s, callers) label)
    (hs : s.step label = some (s', events)) :
    Authorized auth' (s', s.takes_reserved callers label) := by
  have h' := h.mono hauth
  cases step_steps hs with
  | begin_ call hidle =>
    refine h'.enter (fun caller' hne => takes_reserved_of_ne hne) ?_ ?_ ?_
    · intro id lease hl
      exact h'.active (AddressPool.begin_active s.durable call hl)
    · intro id taken now_ms hplan hout
      obtain ⟨rfl, htaken⟩ := AddressPool.begin_releases s.durable call hplan
      refine h'.active (htaken ?_)
      intro hpending
      apply hout
      rw [takes_reserved, if_pos hpending]
      exact Finset.mem_insert_self _ _
    · intro batch now_ms hplan e he hw
      exact h'.active (AddressPool.begin_sweeps s.durable call hplan he hw)
  | store ok hr hop =>
    -- every running call has the plan it had
    refine ⟨h'.active, ?_, ?_⟩
    · intro caller' id taken now_ms outcomes hr' hout
      obtain ⟨past, hr₀⟩ := after_store_lookup hr hr'
      exact h'.releasing hr₀ hout
    · intro caller' batch now_ms outcomes e hr' he hw
      obtain ⟨past, hr₀⟩ := after_store_lookup hr hr'
      exact h'.sweeping hr₀ he hw
  | @resume caller r hr hlen =>
    refine h'.enter (fun _ _ => Iff.rfl) ?_ ?_ ?_
    · intro id lease hl
      obtain ⟨plan, outcomes⟩ := r
      rcases AddressPool.resume_active s.durable plan outcomes hl with ⟨old, hold, ha⟩ |
        ⟨pending, mono, wall, rfl, -, -⟩ | ⟨now_ms, rfl, hok, hfull⟩ |
        ⟨batch, now_ms, e, rfl, he, hw, rfl, ha⟩
      · rw [← ha]
        exact h'.active hold
      · rcases AddressPool.promote_reports hl with hold | ⟨-, -, hreport⟩
        · exact h'.active hold
        · exact hcommits _ _ hreport
      · obtain ⟨ok, rfl⟩ := List.length_eq_one_iff.mp hlen
        obtain rfl : ok = false := hok
        refine h'.restored hkeeps ?_
        rw [restores, hr]
        exact if_pos hfull
      · rw [← ha]
        exact h'.sweeping hr (List.of_mem_zip he).1 hw
    · intro id taken now_ms hplan
      exact absurd hplan (AddressPool.resume_plan_not_release s.durable r.plan r.outcomes)
    · intro batch now_ms hplan
      exact absurd hplan (AddressPool.resume_plan_not_sweep s.durable r.plan r.outcomes)
  | release_deferred subject =>
    refine ⟨?_, h'.releasing, h'.sweeping⟩
    intro id lease hl
    rcases AddressPool.release_deferred_active hl with hold | ⟨hidle, hfull, htake, rfl⟩
    · exact h'.active hold
    · refine h'.restored hkeeps ?_
      obtain ⟨taken, ht, rfl⟩ := Option.map_eq_some_iff.mp htake
      rw [restores, if_pos ⟨hidle, hfull⟩, ht]
      rfl

/-! ## Over a run -/

/-- The ways a pool starts, with the records its store has loaded. -/
inductive StartsFrom (c : AddressPoolConfig) : List PersistedLease → AddressPool → Prop where
  | ephemeral : StartsFrom c [] (AddressPool.new c)
  | recovered {records : List PersistedLease} {store : LeaseStore} {now : PoolTime}
      {outcomes : List Bool} {pool : AddressPool}
      (h : AddressPool.with_store_at_time c (some records) store now outcomes = .ok pool) :
      StartsFrom c records pool

/-- The session has an Active record with these addresses. -/
def RecoveredActive (records : List PersistedLease) (session_id : SessionId)
    (a : AssignedAddresses) : Prop :=
  ∃ record ∈ records, record.session_id = session_id ∧ record.state = .Active ∧
    record.addresses = a

theorem StartsFrom.authorized {c : AddressPoolConfig} {records : List PersistedLease}
    {pool : AddressPool} (h : StartsFrom c records pool) :
    Authorized (RecoveredActive records) (start pool, ∅) := by
  refine ⟨?_, fun hr => by contradiction, fun hr => by contradiction⟩
  intro id lease hl
  cases h with
  | ephemeral => contradiction
  | recovered h => exact AddressPool.with_store_active h hl

/-- **Only committed leases authorize payload.** In every run of a pool, however it
started and whatever its store operations return, in which no reservation is put
back as Active for want of room in the quarantine: a session found by
`lookup_active` was committed with these addresses earlier in the run, or has been
recovered with them from an Active record. -/
theorem active_only_committed {c : AddressPoolConfig} {records : List PersistedLease}
    {pool : AddressPool} {labels : List PoolLabel} {a : AssignedAddresses}
    (hstart : StartsFrom c records pool)
    (hkeeps : Along (withGhost takes_reserved PoolSystem.step)
      (fun t label => ¬ activates_reserved t label) (start pool, ∅) labels)
    (hrun : exec PoolSystem.step (start pool) labels = some (s, events))
    (ha : AddressPool.lookup_active s.pool.inner session_id = some a) :
    .committed session_id (.ok a) ∈ events ∨ RecoveredActive records session_id a := by
  obtain ⟨callers, hghost⟩ := exec_withGhost takes_reserved ∅ hrun
  have hend : Authorized (fun id a => .committed id (.ok a) ∈ [] ++ events ∨
      RecoveredActive records id a) (s, callers) := by
    refine exec_along_induct
      (P := fun t past => Authorized (fun id a => .committed id (.ok a) ∈ past ∨
        RecoveredActive records id a) t) ?_
      (hstart.authorized.mono (fun _ _ h => .inr h)) hkeeps hghost
    rintro ⟨s, callers⟩ label ⟨s', callers'⟩ reports past h hkeep hs
    obtain ⟨hs, rfl⟩ := withGhost_eq_some.mp hs
    refine h.step ?_ ?_ hkeep hs
    · rintro id a (hpast | hrecord)
      · exact .inl (List.mem_append_left _ hpast)
      · exact .inr hrecord
    · exact fun id a hreport => .inl (List.mem_append_right _ hreport)
  obtain ⟨lease, hl, rfl⟩ := Option.map_eq_some_iff.mp ha
  simpa using hend.active hl

/-! ### A reservation put back as Active -/

namespace Sample

/-- The same pool with room for one quarantined lease. -/
def narrow : AddressPoolConfig := { config with maximum_pending_releases := 1 }

def narrow_recovered : AddressPool := ⟨narrow, .empty, some ∅⟩

theorem narrow_eq :
    AddressPool.with_store_at_time narrow (some []) ∅ ⟨0, 0⟩ [] = .ok narrow_recovered := rfl

/-- Session 2 fills the quarantine; session 1 is reserved, and its connection is
closed before the commit. -/
def closed_before_commit : List PoolLabel :=
  whole (reserve ⟨2⟩) ++ [.release_deferred ⟨2⟩] ++ whole (reserve ⟨1⟩) ++ [.release_deferred ⟨1⟩]

/-- The same, released by a call whose delete fails. -/
def released_before_commit : List PoolLabel :=
  whole (reserve ⟨2⟩) ++ [.release_deferred ⟨2⟩] ++ whole (reserve ⟨1⟩) ++
    [.begin_ 0 (.release_at ⟨1⟩ 2000), .store 0 false, .resume 0]

end Sample

open Sample in
/-- No commit was ever called, and both releases leave session 1 Active. -/
theorem reservation_becomes_active :
    AddressPoolConfig.new narrow = .ok narrow ∧ StartsFrom narrow [] narrow_recovered ∧
    ∀ labels ∈ [closed_before_commit, released_before_commit], ∃ s events a,
      exec PoolSystem.step (start narrow_recovered) labels = some (s, events) ∧
      AddressPool.lookup_active s.pool.inner ⟨1⟩ = some a ∧
      (∀ e ∈ events, ∀ id result, e ≠ .committed id result) := by
  have hruns : ∀ labels ∈ [closed_before_commit, released_before_commit],
      ∃ r, exec PoolSystem.step (start narrow_recovered) labels = some r ∧
        (AddressPool.lookup_active r.1.pool.inner ⟨1⟩).isSome ∧
        r.2.all (fun e => match e with | .committed _ _ => false | _ => true) := by
    have hrun : ∀ labels ∈ [closed_before_commit, released_before_commit],
        (exec PoolSystem.step (start narrow_recovered) labels).any (fun r =>
          (AddressPool.lookup_active r.1.pool.inner ⟨1⟩).isSome &&
          r.2.all (fun e => match e with | .committed _ _ => false | _ => true)) = true := by
      decide
    intro labels hlabels
    obtain ⟨r, hr, hboth⟩ := (Option.any_eq_true _ _).mp (hrun labels hlabels)
    exact ⟨r, hr, Bool.and_eq_true_iff.mp hboth⟩
  refine ⟨by decide, .recovered narrow_eq, ?_⟩
  intro labels hlabels
  obtain ⟨r, hr, hactive, hnone⟩ := hruns labels hlabels
  obtain ⟨a, ha⟩ := Option.isSome_iff_exists.mp hactive
  refine ⟨r.1, r.2, a, hr, ha, ?_⟩
  rintro e he id result rfl
  exact absurd (List.all_eq_true.mp hnone _ he) (by simp)

open Sample in
/-- Two admissions. -/
theorem active_only_committed_sample :
    ∃ s events, exec PoolSystem.step (start recovered) admissions = some (s, events) ∧
      AddressPool.lookup_active s.pool.inner ⟨1⟩ = some first ∧
      (.committed ⟨1⟩ (.ok first) ∈ events ∨ RecoveredActive [] ⟨1⟩ first) := by
  have hkeeps : Along (withGhost takes_reserved PoolSystem.step)
      (fun t label => ¬ activates_reserved t label) (start recovered, ∅) admissions := by
    decide
  have hlast : (exec PoolSystem.step (start recovered) admissions).map
      (fun r => AddressPool.lookup_active r.1.pool.inner ⟨1⟩) = some (some first) := by
    decide
  obtain ⟨⟨s, events⟩, hrun, ha⟩ := Option.map_eq_some_iff.mp hlast
  exact ⟨s, events, hrun, ha, active_only_committed (.recovered recovered_eq) hkeeps hrun ha⟩

end PoolSystem

end StreamGuard.Gateway
