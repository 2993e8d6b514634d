/-
Exclusive addresses: no two sessions of a pool hold addresses in common.

`Exclusive` is that fact as an invariant of the system, together with what keeps
it: a lease that a parked call took out of the maps is in the parked sets. A step
keeps it because the only new addresses are the allocator's, and the allocator
avoids what is held or blocked.

What a committed session keeps over a run is then read off its lease cycle. The
one way to lose it is a commit answered from the quarantine: the lease is not
made Active again, and the retry that follows frees its addresses.
-/
import StreamGuard.Gateway.PoolAddresses
import StreamGuard.Gateway.PoolStart
import StreamGuard.Gateway.PoolSystem

set_option autoImplicit false

namespace StreamGuard.Gateway

open StreamGuard StreamGuard.Lib

/-! ## What a section reports -/

/-- The section reports at most one event, and a commit only of these sessions. -/
def Section.Reports (sec : Section) (commits : SessionId → Prop) : Prop :=
  sec.events = [] ∨ ∃ e, sec.events = [e] ∧
    ∀ session_id result, e = .committed session_id result → commits session_id

section Reports

variable {c : AddressPoolConfig} {inner : Inner} {commits : SessionId → Prop}

theorem Section.reports_parks {plan : Plan} : (Section.parks inner plan).Reports commits :=
  .inl rfl

theorem Section.reports_committed {id : SessionId}
    {result : Except AddressPoolError AssignedAddresses} (h : commits id) :
    (Section.returns inner (.committed id result)).Reports commits := by
  refine .inr ⟨_, rfl, ?_⟩
  intro session_id result' he
  cases he
  exact h

theorem Section.reports_other {e : PoolEvent} (h : ∀ id result, e ≠ .committed id result) :
    (Section.returns inner e).Reports commits :=
  .inr ⟨e, rfl, fun id result he => absurd he (h id result)⟩

theorem AddressPool.retry_begin_reports (durable : Bool) (now_ms max_batch : ℕ)
    (expired_ids : Option (List SessionId)) :
    (AddressPool.retry_begin durable inner now_ms max_batch expired_ids).Reports commits := by
  rcases AddressPool.retry_begin_cases durable inner now_ms max_batch expired_ids with
    ⟨e, _, hnone, order, he⟩ | ⟨batch, order, _, _, he⟩
  · rw [he]
    refine Section.reports_other ?_
    rintro id result rfl
    exact hnone id rfl
  · rw [he]
    exact .inl rfl

/-- The first section of a call reports a commit only if the call is one. -/
theorem AddressPool.begin_reports (c : AddressPoolConfig) (inner : Inner) (durable : Bool)
    (call : PoolCall) :
    (AddressPool.begin_ c durable inner call).Reports
      (fun session_id => ∃ now, call = .commit session_id now) := by
  cases call with
  | reserve id device_id now =>
    have hreturns : ∀ (inner : Inner) result {commits : SessionId → Prop},
        (Section.returns inner (.reserved id result)).Reports commits :=
      fun _ _ => Section.reports_other (by simp)
    have hnew : ∀ (inner : Inner) {commits : SessionId → Prop},
        (AddressPool.reserve_new c inner id device_id now).Reports commits := by
      intro inner commits
      rw [AddressPool.reserve_new]
      split
      · exact hreturns _ _
      split
      · exact hreturns _ _
      · exact Section.reports_parks
    rw [AddressPool.begin_, AddressPool.reserve_begin]
    dsimp only
    split
    · exact hreturns _ _
    split
    · exact hreturns _ _
    split
    · split <;> exact hreturns _ _
    split
    · split <;> exact hreturns _ _
    split
    · exact hnew _
    split
    · exact hreturns _ _
    split
    · exact hreturns _ _
    · exact hnew _
  | commit id now =>
    have hreturns : ∀ (inner : Inner) result, (Section.returns inner (.committed id result)).Reports
        (fun session_id => ∃ now', PoolCall.commit id now = .commit session_id now') :=
      fun _ _ => Section.reports_committed ⟨now, rfl⟩
    rw [AddressPool.begin_, AddressPool.commit_begin]
    split
    · exact hreturns _ _
    split
    · exact hreturns _ _
    split
    · exact hreturns _ _
    split
    · exact hreturns _ _
    dsimp only
    split
    · exact Section.reports_parks
    · exact Section.reports_parks
  | release_at id now_ms =>
    rw [AddressPool.begin_, AddressPool.release_begin]
    split
    · exact Section.reports_other (by simp)
    split
    · exact Section.reports_other (by simp)
    split
    · exact Section.reports_other (by simp)
    · exact Section.reports_parks
  | renew id now =>
    rw [AddressPool.begin_, AddressPool.renew_begin]
    split
    · exact Section.reports_other (by simp)
    split
    · exact Section.reports_other (by simp)
    split
    · exact Section.reports_other (by simp)
    · exact Section.reports_parks
  | sweep now_ms => exact Section.reports_parks
  | retry_pending_releases_bounded now_ms max_batch =>
    exact AddressPool.retry_begin_reports durable now_ms max_batch none

/-- A later section reports a commit only of the session its plan has parked. -/
theorem AddressPool.resume_reports (c : AddressPoolConfig) (inner : Inner) (durable : Bool)
    (plan : Plan) (outcomes : List Bool) :
    (AddressPool.resume c durable inner outcomes plan).Reports
      (fun session_id => ∃ k, plan.parked session_id = some k) := by
  cases plan with
  | reserve id lease wall =>
    rw [AddressPool.resume, AddressPool.reserve_finish]
    split
    · exact Section.reports_other (by simp)
    split
    · exact Section.reports_other (by simp)
    · exact Section.reports_other (by simp)
  | promote id pending mono wall =>
    rw [AddressPool.resume, AddressPool.promote_finish]
    split
    · exact Section.reports_committed ⟨_, if_pos rfl⟩
    split
    · exact Section.reports_committed ⟨_, if_pos rfl⟩
    · exact Section.reports_committed ⟨_, if_pos rfl⟩
  | expire id pending now_ms =>
    rw [AddressPool.resume, AddressPool.expire_finish]
    split
    · exact Section.reports_committed ⟨_, if_pos rfl⟩
    split
    · exact Section.reports_committed ⟨_, if_pos rfl⟩
    · exact Section.reports_committed ⟨_, if_pos rfl⟩
  | release id taken now_ms =>
    rw [AddressPool.resume, AddressPool.release_finish]
    split
    · exact Section.reports_other (by simp)
    split
    · exact Section.reports_other (by simp)
    · exact Section.reports_other (by simp)
  | renew id active mono wall =>
    rw [AddressPool.resume, AddressPool.renew_finish]
    split
    · exact Section.reports_other (by simp)
    split
    · split
      · exact Section.reports_other (by simp)
      · exact Section.reports_other (by simp)
    · exact Section.reports_other (by simp)
  | sweep batch now_ms => exact .inr ⟨_, rfl, by simp⟩
  | swept expired_ids now_ms =>
    exact AddressPool.retry_begin_reports durable now_ms MAX_RETRY_BATCH (some expired_ids)
  | retry batch now_ms expired_ids =>
    rw [AddressPool.resume, AddressPool.retry_finish]
    cases expired_ids with
    | none => exact Section.reports_other (by simp)
    | some ids => exact Section.reports_other (by simp)

end Reports

namespace PoolSystem

variable {s s' : PoolSystem} {session_id : SessionId} {p q : Place}

theorem At.unique (hp : s.At session_id p) (hq : s.At session_id q) : p = q := by
  refine Place.eq_of_slot_parked (hp.slot.symm.trans hq.slot) ?_
  apply Option.ext
  intro k
  rw [← hp.parks k, ← hq.parks k]

/-! ## The invariant -/

/-- Sessions hold aligned addresses apart from each other, and what is out of the
maps is blocked. -/
structure Exclusive (s : PoolSystem) : Prop where
  aligned : ∀ {session_id p a}, s.At session_id p → p.addresses = some a →
    ipv6_is_64_aligned a.ipv6_prefix_addr = true
  blocked : ∀ {session_id by_ lease}, s.At session_id (.out by_ lease) →
    s.pool.inner.Blocks lease.addresses
  apart : ∀ {session_id other p q a b}, session_id ≠ other → s.At session_id p →
    s.At other q → p.addresses = some a → q.addresses = some b → ¬ a.Shares b

/-- What is out of the maps is blocked, and no two leases that are out meet. -/
structure Guarded (s : PoolSystem) : Prop where
  blocked : ∀ {session_id by_ lease}, s.At session_id (.out by_ lease) →
    s.pool.inner.Blocks lease.addresses
  apart : ∀ {session_id other by_ by' lease taken}, session_id ≠ other →
    s.At session_id (.out by_ lease) → s.At other (.out by' taken) →
    ¬ taken.addresses.Shares lease.addresses

theorem Exclusive.guarded (h : s.Exclusive) : s.Guarded :=
  ⟨h.blocked, fun hne hp hq => h.apart hne.symm hq hp rfl rfl⟩

/-- What a lock section leaves blocked. The sessions the section's own call had
taken out are apart from every other session that is out. -/
theorem Guarded.enter {caller : ℕ} {old : Option Running} {sec : Section} {by_ : TakenBy}
    {lease : Lease} (h : s.Coherent) (hg : s.Guarded) (hold : s.running.lookup caller = old)
    (hguards : sec.Guards s.pool.inner (own old))
    (hp : (s.enter caller sec).At session_id (.out by_ lease)) :
    sec.inner.Blocks lease.addresses := by
  have hparks := (hp.parks (.out by_ lease)).mpr rfl
  rw [parks_enter_iff] at hparks
  rcases hparks with hk | ⟨caller', r, hne, hr, hk⟩
  · exact hguards.parks session_id by_ lease hk
  -- another caller has taken it out already
  obtain ⟨p, hat⟩ := h.places session_id
  obtain rfl := Place.eq_out ((hat.parks _).mp ⟨caller', r, hr, hk⟩)
  refine hguards.keeps _ (hg.blocked hat) ?_
  intro other by' taken hown
  obtain ⟨r', hr', hk'⟩ := Option.bind_eq_some_iff.mp hown
  obtain ⟨q, hq⟩ := h.places other
  obtain rfl := Place.eq_out ((hq.parks _).mp ⟨caller, r', hold.trans hr', hk'⟩)
  refine hg.apart ?_ hat hq
  rintro rfl
  exact hne (h.single hr (hold.trans hr') (by rw [hk]; rfl) (by rw [hk']; rfl))

theorem release_deferred_blocks {c : AddressPoolConfig} {inner : Inner} {b : AssignedAddresses}
    (hb : inner.Blocks b) : (AddressPool.release_deferred c inner session_id).1.Blocks b := by
  rw [AddressPool.release_deferred]
  split
  · exact hb
  split
  · exact hb
  next taken_out lease ht =>
  obtain ⟨h4, h6⟩ := AddressPool.take_blocks ht
  split
  · next he => exact (hb.congr h4 h6).enqueue he
  · exact hb.congr h4 h6

/-- A step leaves blocked what is out of the maps after it. -/
theorem Guarded.blocked_step {label : PoolLabel} {events : List PoolEvent} {by_ : TakenBy}
    {lease : Lease} (h : s.Coherent) (hg : s.Guarded) (hs : s.step label = some (s', events))
    (hp : s'.At session_id (.out by_ lease)) : s'.pool.inner.Blocks lease.addresses := by
  cases step_steps hs with
  | begin_ call hidle =>
    exact hg.enter h hidle (AddressPool.begin_guards s.durable call) hp
  | store ok hr hop => exact hg.blocked ((at_after_store_iff hr).mp hp)
  | @resume caller r hr hlen =>
    exact hg.enter h hr (AddressPool.resume_guards s.durable (h.distinct hr) r.outcomes) hp
  | release_deferred subject =>
    obtain ⟨q, hq⟩ := h.places session_id
    obtain rfl := Place.eq_out ((hq.parks _).mp ((hp.parks _).mpr rfl))
    exact release_deferred_blocks (hg.blocked hq)

/-- Only the session a reserve call names is given addresses by a step. -/
theorem Allocates.subject {label : PoolLabel} {other : SessionId} {a b : AssignedAddresses}
    (h : s.Allocates label session_id a) (h' : s.Allocates label other b) :
    session_id = other := by
  obtain ⟨caller, call, rfl, ⟨device_id, now, rfl⟩, -⟩ := h
  obtain ⟨caller', call', he, ⟨device_id', now', rfl⟩, -⟩ := h'
  cases he
  rfl

/-- **Every step keeps the addresses of the sessions apart.** -/
theorem Exclusive.step {label : PoolLabel} {events : List PoolEvent} (h : s.Coherent)
    (hex : s.Exclusive) (hs : s.step label = some (s', events)) : s'.Exclusive := by
  obtain ⟨hcoherent, hcycle⟩ := step_refines h hs
  -- what a session holds after the step it held before, or the allocator picked it
  have hkept : ∀ {session_id p' a}, s'.At session_id p' → p'.addresses = some a →
      (∃ p, s.At session_id p ∧ p.addresses = some a) ∨ s.Allocates label session_id a := by
    intro session_id p' a hp' ha
    obtain ⟨p, hp⟩ := h.places session_id
    obtain ⟨p'', hp'', hc⟩ := hcycle session_id p hp
    obtain rfl := hp'.unique hp''
    rcases hc.addresses_kept ha with hold | hfresh
    · exact .inl ⟨p, hp, hold⟩
    · exact .inr hfresh
  -- and what it picked is apart from what another session holds
  have hfresh : ∀ {session_id other p a b}, session_id ≠ other → s.At session_id p →
      p.addresses = some a → s.Allocates label other b → ¬ a.Shares b := by
    rintro session_id other p a b hne hp ha ⟨caller, call, -, hb⟩
    refine (AddressPool.allocates_fresh hne hp.slot ha (hex.aligned hp ha) ?_ hb).2
    rintro by_ lease rfl
    exact hex.blocked hp
  refine ⟨?_, fun hp' => hex.guarded.blocked_step h hs hp', ?_⟩
  · intro session_id p' a hp' ha
    rcases hkept hp' ha with ⟨p, hp, hold⟩ | ⟨caller, call, -, -, inner', -, halloc⟩
    · exact hex.aligned hp hold
    · exact (AddressPool.allocate_unused halloc).2.2
  · intro session_id other p' q' a b hne hp' hq' ha hb
    rcases hkept hp' ha with ⟨p, hp, hpa⟩ | hpa
    · rcases hkept hq' hb with ⟨q, hq, hqb⟩ | hqb
      · exact hex.apart hne hp hq hpa hqb
      · exact hfresh hne hp hpa hqb
    · rcases hkept hq' hb with ⟨q, hq, hqb⟩ | hqb
      · intro hshares
        exact hfresh hne.symm hq hqb hpa hshares.symm
      · exact absurd (hpa.subject hqb) hne

/-! ## Startup -/

theorem at_start {pool : AddressPool} :
    (start pool).At session_id p ↔ pool.inner.slot session_id = p.slot ∧ p.parked = none := by
  have hidle : ∀ k, ¬ (start pool).Parks session_id k := by
    rintro k ⟨caller, r, hr, _⟩
    contradiction
  constructor
  · intro h
    refine ⟨h.slot, Option.eq_none_iff_forall_ne_some.mpr ?_⟩
    intro k hk
    exact hidle k ((h.parks k).mpr hk)
  · rintro ⟨hslot, hp⟩
    refine ⟨hslot, fun k => ⟨fun hk => absurd hk (hidle k), ?_⟩⟩
    rw [hp]
    intro hk
    contradiction

theorem start_coherent {pool : AddressPool} (h : pool.inner.AtRest) : (start pool).Coherent := by
  refine ⟨?_, ?_, ?_⟩
  · intro session_id
    obtain ⟨p, hp⟩ := h session_id
    exact ⟨p, at_start.mpr hp⟩
  · intro caller caller' r r' session_id hr
    contradiction
  · intro caller r hr
    contradiction

theorem start_exclusive {pool : AddressPool} (h : pool.inner.Separate) :
    (start pool).Exclusive := by
  refine ⟨?_, ?_, ?_⟩
  · intro session_id p a hp ha
    obtain ⟨hslot, hrest⟩ := at_start.mp hp
    exact h.aligned hslot hrest ha
  · intro session_id by_ lease hp
    have hrest := (at_start.mp hp).2
    contradiction
  · intro session_id other p q a b hne hp hq ha hb
    obtain ⟨hslot, hrest⟩ := at_start.mp hp
    obtain ⟨hslot', hrest'⟩ := at_start.mp hq
    exact h.apart hne hslot hrest ha hslot' hrest' hb

/-! ## Which steps report a commit -/

/-- The step is a commit call that finds its session neither in flight nor Active
but in the quarantine, and is answered from there. -/
def commits_quarantined (s : PoolSystem) : PoolLabel → Prop
  | .begin_ _ (.commit session_id _) =>
    session_id ∉ s.pool.inner.inflight ∧ session_id ∉ s.pool.inner.active ∧
      session_id ∈ s.pool.inner.release_pending
  | _ => False

instance (s : PoolSystem) : DecidablePred s.commits_quarantined
  | .begin_ _ (.commit _ _) => inferInstanceAs (Decidable (_ ∧ _))
  | .begin_ _ (.reserve _ _ _) | .begin_ _ (.release_at _ _) | .begin_ _ (.renew _ _)
  | .begin_ _ (.sweep _) | .begin_ _ (.retry_pending_releases_bounded _ _)
  | .store _ _ | .resume _ | .release_deferred _ => inferInstanceAs (Decidable False)

/-- A step reports at most one event, and a commit only if it is the call itself
or resumes the session's parked call. -/
theorem step_reports {label : PoolLabel} {events : List PoolEvent}
    (hs : s.step label = some (s', events)) :
    events = [] ∨ ∃ e, events = [e] ∧ ∀ session_id result, e = .committed session_id result →
      (∃ caller now, label = .begin_ caller (.commit session_id now)) ∨
        ∃ k, s.Parks session_id k := by
  cases step_steps hs with
  | @begin_ caller call hidle =>
    rcases AddressPool.begin_reports s.pool.config s.pool.inner s.durable call with
      hnone | ⟨e, he, hcommits⟩
    · exact .inl hnone
    · refine .inr ⟨e, he, ?_⟩
      intro session_id result heq
      obtain ⟨now, rfl⟩ := hcommits session_id result heq
      exact .inl ⟨caller, now, rfl⟩
  | store ok hr hop => exact .inl rfl
  | @resume caller r hr hlen =>
    rcases AddressPool.resume_reports s.pool.config s.pool.inner s.durable
      r.plan r.outcomes with hnone | ⟨e, he, hcommits⟩
    · exact .inl hnone
    · refine .inr ⟨e, he, ?_⟩
      intro session_id result heq
      obtain ⟨k, hk⟩ := hcommits session_id result heq
      exact .inr ⟨k, caller, r, hr, hk⟩
  | release_deferred subject => exact .inr ⟨_, rfl, by simp⟩

/-- **Outside the quarantine a commit leaves the lease Active.** -/
theorem committed_active {label : PoolLabel} {events : List PoolEvent} {a : AssignedAddresses}
    (h : s.Coherent) (hs : s.step label = some (s', events))
    (hfast : ¬ s.commits_quarantined label) (he : .committed session_id (.ok a) ∈ events) :
    ∃ lease, s'.At session_id (.active lease) ∧ lease.addresses = a := by
  obtain ⟨p, hp⟩ := h.places session_id
  obtain ⟨p', hp', hcycle⟩ := (step_refines h hs).2 session_id p hp
  have hplace : ∀ lease, p ≠ .quarantined lease := by
    rintro lease rfl
    rcases step_reports hs with rfl | ⟨e, rfl, hcommits⟩
    · contradiction
    rcases hcommits session_id _ (List.mem_singleton.mp he).symm with ⟨caller, now, rfl⟩ | ⟨k, hk⟩
    · apply hfast
      refine ⟨?_, ?_, ?_⟩
      · exact of_decide_eq_false (congrArg Slot.inflight hp.slot)
      · exact AList.lookup_eq_none.mp (congrArg Slot.active hp.slot)
      · exact AList.mem_of_lookup (congrArg Slot.quarantined hp.slot)
    · have hnone := (hp.parks k).mp hk
      contradiction
  obtain ⟨lease, rfl, ha⟩ := hcycle.committed_active he hplace
  exact ⟨lease, hp', ha⟩

/-! ## Over a run -/

/-- The last report of a commit of the session gave out these addresses, and its
lease has not been reported ended since. -/
def Committed (events : List PoolEvent) (session_id : SessionId) (a : AssignedAddresses) : Prop :=
  ∃ before since, events = before ++ .committed session_id (.ok a) :: since ∧
    ∀ e ∈ since, ¬ e.ends session_id

theorem Committed.snoc {events : List PoolEvent} {e : PoolEvent} {a : AssignedAddresses}
    (h : Committed (events ++ [e]) session_id a) :
    e = .committed session_id (.ok a) ∨ Committed events session_id a ∧ ¬ e.ends session_id := by
  obtain ⟨before, since, he, hlasting⟩ := h
  rcases List.eq_nil_or_concat since with rfl | ⟨since, last, rfl⟩
  · left
    exact (List.append_inj' he rfl).2 |> List.singleton_inj.mp
  · rw [List.concat_eq_append] at he hlasting
    rw [← List.cons_append, ← List.append_assoc] at he
    obtain ⟨hevents, hlast⟩ := List.append_inj' he rfl
    obtain rfl := List.singleton_inj.mp hlast
    refine .inr ⟨⟨before, since, hevents, ?_⟩, ?_⟩
    · exact fun e' he' => hlasting e' (List.mem_append_left _ he')
    · exact hlasting e (List.mem_append_right _ (List.mem_singleton_self e))

/-- No reserve or commit of another session is answered with addresses that meet
those of a committed session. -/
def ExclusiveAfterCommit (events : List PoolEvent) : Prop :=
  ∀ before e after session_id other a b, events = before ++ e :: after →
    Committed before session_id a → e.hands other b → session_id ≠ other → ¬ a.Shares b

/-- What a run keeps: the invariants, the leases of the committed sessions, and
the exclusiveness of what was handed out. -/
structure Kept (s : PoolSystem) (past : List PoolEvent) : Prop where
  coherent : s.Coherent
  exclusive : s.Exclusive
  firm : ∀ session_id a, Committed past session_id a → ∃ p, s.At session_id p ∧ p.Firm a
  apart : ExclusiveAfterCommit past

theorem firm_addresses {a : AssignedAddresses} (h : p.Firm a) : p.addresses = some a := by
  cases p with
  | active lease => exact congrArg some h
  | renewing lease mono => exact congrArg some h
  | out by_ lease =>
    cases by_ with
    | releasing => exact congrArg some h
    | sweeping was_pending =>
      cases was_pending with
      | false => exact congrArg some h
      | true => exact h.elim
    | _ => exact h.elim
  | _ => exact h.elim

/-- **Step lemma.** -/
theorem Kept.step {label : PoolLabel} {past events : List PoolEvent} (h : s.Kept past)
    (hfast : ¬ s.commits_quarantined label) (hs : s.step label = some (s', events)) :
    s'.Kept (past ++ events) := by
  obtain ⟨hcoherent, hcycle⟩ := step_refines h.coherent hs
  have hexclusive := h.exclusive.step h.coherent hs
  rcases step_reports hs with rfl | ⟨e, rfl, -⟩
  · rw [List.append_nil]
    refine ⟨hcoherent, hexclusive, ?_, h.apart⟩
    intro session_id a hcommitted
    obtain ⟨p, hp, hfirm⟩ := h.firm session_id a hcommitted
    obtain ⟨p', hp', hc⟩ := hcycle session_id p hp
    exact ⟨p', hp', hc.firm_kept hfirm (by simp)⟩
  -- a lease committed before this step, and not ended by it, is still firm
  have hkept : ∀ {session_id a}, Committed past session_id a → ¬ e.ends session_id →
      ∃ p, s'.At session_id p ∧ p.Firm a := by
    intro session_id a hcommitted hlasting
    obtain ⟨p, hp, hfirm⟩ := h.firm session_id a hcommitted
    obtain ⟨p', hp', hc⟩ := hcycle session_id p hp
    refine ⟨p', hp', hc.firm_kept hfirm ?_⟩
    intro e' he'
    rwa [List.mem_singleton.mp he']
  refine ⟨hcoherent, hexclusive, ?_, ?_⟩
  · intro session_id a hcommitted
    rcases hcommitted.snoc with rfl | ⟨hold, hlasting⟩
    · obtain ⟨lease, hp, ha⟩ := committed_active h.coherent hs hfast (List.mem_singleton_self _)
      exact ⟨_, hp, ha⟩
    · exact hkept hold hlasting
  · intro before e' after session_id other a b heq hcommitted hhands hne
    rcases List.eq_nil_or_concat after with rfl | ⟨after, last, rfl⟩
    · -- the answer is that of this step
      obtain ⟨rfl, hlast⟩ := List.append_inj' heq rfl
      obtain rfl := List.singleton_inj.mp hlast
      have hlasting : ¬ e.ends session_id := by
        rcases hhands with rfl | rfl <;> exact id
      obtain ⟨p, hp, hfirm⟩ := hkept hcommitted hlasting
      obtain ⟨q, hq⟩ := h.coherent.places other
      obtain ⟨q', hq', hc⟩ := hcycle other q hq
      have hheld := hc.hands_held (List.mem_singleton_self e) hhands
      exact hexclusive.apart hne hp hq' (firm_addresses hfirm) hheld
    · rw [List.concat_eq_append, ← List.cons_append, ← List.append_assoc] at heq
      obtain ⟨hpast, -⟩ := List.append_inj' heq rfl
      exact h.apart before e' after session_id other a b hpast hcommitted hhands hne

/-- **Exclusive addresses after commit.** In every run of a pool whose leases are
apart at startup, and in which no commit is answered from the quarantine, the
addresses of a committed session are handed to no other session until its lease
is reported released or expired: whatever the store operations return, and in
every interleaving of the calls. -/
theorem committed_addresses_exclusive {pool : AddressPool} {labels : List PoolLabel}
    {events : List PoolEvent} (hstart : pool.inner.Separate)
    (hfast : Along PoolSystem.step (fun s label => ¬ s.commits_quarantined label) (start pool) labels)
    (hrun : exec PoolSystem.step (start pool) labels = some (s, events)) :
    ExclusiveAfterCommit events := by
  have hkept : (start pool).Kept [] := by
    refine ⟨start_coherent hstart.at_rest, start_exclusive hstart, ?_, ?_⟩
    · rintro session_id a ⟨before, since, he, _⟩
      simp at he
    · intro before e after session_id other a b he
      simp at he
  have hend := exec_along_induct (P := Kept) (a := [])
    (fun s label s' events past h hc hs => h.step hc hs) hkept hfast hrun
  exact hend.apart

/-! ### A commit answered from the quarantine -/

namespace Sample

def config : AddressPoolConfig :=
  ⟨0x0a400000, 24, 0x0a400001, [], 0xfd000000000000000000000000000000, 48, 4, 30000, 60000, 8⟩

/-- A durable pool over an empty store. -/
def recovered : AddressPool := ⟨config, .empty, some ∅⟩

theorem recovered_eq :
    AddressPool.with_store_at_time config (some []) ∅ ⟨0, 0⟩ [] = .ok recovered := rfl

def first : AssignedAddresses := ⟨0x0a400002, 24, 0xfd000000000000010000000000000000, 64⟩

/-- A call with one store operation, which succeeds. -/
def whole (call : PoolCall) : List PoolLabel := [.begin_ 0 call, .store 0 true, .resume 0]

def reserve (session_id : SessionId) : PoolCall := .reserve session_id ⟨7⟩ ⟨1000, 1000⟩

def commit (session_id : SessionId) : PoolCall := .commit session_id ⟨1000, 1000⟩

/-- Session 1 is admitted, closed, and admitted again while its lease waits for
its delete; then the delete is retried and session 2 is admitted. -/
def reconnect : List PoolLabel :=
  whole (reserve ⟨1⟩) ++ whole (commit ⟨1⟩) ++ [.release_deferred ⟨1⟩, .begin_ 0 (reserve ⟨1⟩),
    .begin_ 0 (commit ⟨1⟩)] ++ whole .retry_pending_releases ++ whole (reserve ⟨2⟩)

/-- Two sessions are admitted. -/
def admissions : List PoolLabel :=
  whole (reserve ⟨1⟩) ++ whole (commit ⟨1⟩) ++ whole (reserve ⟨2⟩)

end Sample

open Sample in
/-- The pool answers the second commit of session 1 from the quarantine, deletes
its lease, and hands its addresses to session 2. -/
theorem addresses_shared_after_quarantined_commit :
    AddressPoolConfig.new config = .ok config ∧
    AddressPool.with_store_at_time config (some []) ∅ ⟨0, 0⟩ [] = .ok recovered ∧
    ∃ s events, exec PoolSystem.step (start recovered) reconnect = some (s, events) ∧
      ¬ ExclusiveAfterCommit events := by
  have hevents : (exec PoolSystem.step (start recovered) reconnect).map (·.2) =
      some [.reserved ⟨1⟩ (.ok first), .committed ⟨1⟩ (.ok first), .deferred ⟨1⟩ true,
        .reserved ⟨1⟩ (.ok first), .committed ⟨1⟩ (.ok first), .retried 0,
        .reserved ⟨2⟩ (.ok first)] := by
    decide
  refine ⟨by decide, recovered_eq, ?_⟩
  cases hrun : exec PoolSystem.step (start recovered) reconnect with
  | none =>
    rw [hrun] at hevents
    contradiction
  | some r =>
    rw [hrun] at hevents
    refine ⟨r.1, r.2, rfl, ?_⟩
    intro hexclusive
    have hlist : r.2 = [.reserved ⟨1⟩ (.ok first), .committed ⟨1⟩ (.ok first), .deferred ⟨1⟩ true,
        .reserved ⟨1⟩ (.ok first), .committed ⟨1⟩ (.ok first), .retried 0] ++
          .reserved ⟨2⟩ (.ok first) :: [] := Option.some.inj hevents
    refine hexclusive _ _ _ ⟨1⟩ ⟨2⟩ first first hlist ?_ (.inl rfl) (by decide) (.inl rfl)
    exact ⟨[.reserved ⟨1⟩ (.ok first), .committed ⟨1⟩ (.ok first), .deferred ⟨1⟩ true,
      .reserved ⟨1⟩ (.ok first)], [.retried 0], rfl, by decide⟩

open Sample in
/-- Two admissions of a durable pool. -/
theorem committed_addresses_exclusive_sample :
    ∃ s events, exec PoolSystem.step (start recovered) admissions = some (s, events) ∧
      Committed events ⟨1⟩ first ∧ ExclusiveAfterCommit events := by
  have hstart : recovered.inner.Separate := AddressPool.new_separate config
  have hfast : Along PoolSystem.step (fun s label => ¬ s.commits_quarantined label) (start recovered)
      admissions := by
    decide
  have hevents : (exec PoolSystem.step (start recovered) admissions).map (·.2) =
        some [.reserved ⟨1⟩ (.ok first), .committed ⟨1⟩ (.ok first),
          .reserved ⟨2⟩ (.ok ⟨0x0a400003, 24, 0xfd000000000000020000000000000000, 64⟩)] := by
    decide
  cases hrun : exec PoolSystem.step (start recovered) admissions with
  | none =>
    rw [hrun] at hevents
    contradiction
  | some r =>
    rw [hrun] at hevents
    refine ⟨r.1, r.2, rfl, ?_, committed_addresses_exclusive hstart hfast hrun⟩
    exact ⟨[.reserved ⟨1⟩ (.ok first)], _, Option.some.inj hevents, by decide⟩

end PoolSystem

end StreamGuard.Gateway
