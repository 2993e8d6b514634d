/-
What is unique in a pool at every moment: addresses, maps, places in the order.

The pool starts empty and any number of callers run its lock sections in any
interleaving, with every store operation free to fail. `Unique` lists what holds
of each state on the way. The addresses come from `Exclusive`, the maps from
`Coherent`, the retry order from `Inner.Queue`; what is left is the bound on the
leases, which counts the sessions that hold a lease or are parked with one. Only
a reserve that parks a new session adds to that count, and it has checked the
bound first.
-/
import StreamGuard.Gateway.PoolExclusive
import StreamGuard.Gateway.PoolQueue

set_option autoImplicit false

namespace StreamGuard.Gateway

open StreamGuard StreamGuard.Lib

/-! ## Counting leases -/

/-- The sessions that count against `maximum_leases`: with an entry in the active or
the pending map, or parked by a call that may put one back. -/
def Inner.leased_sessions (inner : Inner) : Finset SessionId :=
  inner.active.keys.toFinset ∪ inner.pending.keys.toFinset ∪
    inner.inflight.filter (· ∉ inner.release_pending)

/-- The places that count. -/
def Place.Leased : Place → Prop
  | .reserved _ | .active _ | .out _ _ | .renewing _ _ => True
  | .free | .quarantined _ | .retrying _ => False

section Leased

variable {c : AddressPoolConfig} {inner : Inner} {id : SessionId} {p p' : Place}

theorem mem_leased_sessions (h : inner.slot id = p.slot) :
    id ∈ inner.leased_sessions ↔ p.Leased := by
  have hactive : id ∈ inner.active ↔ p.slot.active.isSome := by
    rw [← AList.lookup_isSome, ← h, Inner.slot]
  have hpending : id ∈ inner.pending ↔ p.slot.pending.isSome := by
    rw [← AList.lookup_isSome, ← h, Inner.slot]
  have hquarantined : id ∈ inner.release_pending ↔ p.slot.quarantined.isSome := by
    rw [← AList.lookup_isSome, ← h, Inner.slot]
  have hinflight : id ∈ inner.inflight ↔ p.slot.inflight = true := by
    rw [← h, Inner.slot, decide_eq_true_eq]
  rw [Inner.leased_sessions, Finset.mem_union, Finset.mem_union, List.mem_toFinset,
    List.mem_toFinset, ← AList.mem_keys, ← AList.mem_keys, Finset.mem_filter, hactive, hpending,
    hquarantined, hinflight]
  cases p <;> simp [Place.slot, Place.Leased]

/-- Two maps without a common session have no more entries than there are leased
sessions. -/
theorem len_le_leased (h : AddressPool.Apart inner) :
    inner.active.len + inner.pending.len ≤ inner.leased_sessions.card := by
  have hdisjoint : Disjoint inner.active.keys.toFinset inner.pending.keys.toFinset := by
    rw [Finset.disjoint_left]
    intro id ha hp
    rw [List.mem_toFinset, ← AList.mem_keys] at ha hp
    rcases h id with hnone | hnone
    · exact AList.lookup_eq_none.mp hnone hp
    · exact AList.lookup_eq_none.mp hnone ha
  have hkeys : ∀ m : Map SessionId Lease, m.keys.toFinset.card = m.len := by
    intro m
    rw [List.toFinset_card_of_nodup m.keys_nodup, AList.len, AList.keys, List.keys, List.length_map]
  calc inner.active.len + inner.pending.len
      = (inner.active.keys.toFinset ∪ inner.pending.keys.toFinset).card := by
        rw [Finset.card_union_of_disjoint hdisjoint, hkeys, hkeys]
    _ ≤ inner.leased_sessions.card := Finset.card_le_card Finset.subset_union_left

/-- The count a reserve checks is at least the number of leased sessions. -/
theorem leased_le_count (inner : Inner) :
    inner.leased_sessions.card ≤ inner.active.len + inner.pending.len + inner.inflight.card := by
  have hkeys : ∀ m : Map SessionId Lease, m.keys.toFinset.card ≤ m.len := by
    intro m
    refine (List.toFinset_card_le _).trans ?_
    rw [AList.len, AList.keys, List.keys, List.length_map]
  have hparked : (inner.inflight.filter (· ∉ inner.release_pending)).card ≤ inner.inflight.card :=
    Finset.card_filter_le _ _
  have hmaps := Finset.card_union_le inner.active.keys.toFinset inner.pending.keys.toFinset
  have hall := Finset.card_union_le (inner.active.keys.toFinset ∪ inner.pending.keys.toFinset)
    (inner.inflight.filter (· ∉ inner.release_pending))
  have ha := hkeys inner.active
  have hp := hkeys inner.pending
  rw [Inner.leased_sessions]
  omega

/-- **One step up.** A session that starts to count was free, and a reserve has
parked it with fresh addresses. -/
theorem LeaseCycle.leased_new {fresh : AssignedAddresses → Prop} {events : List PoolEvent}
    (h : LeaseCycle fresh id p events p') (hnew : p'.Leased) (hold : ¬ p.Leased) :
    p = .free ∧ ∃ lease, p' = .out .reserving lease ∧ fresh lease.addresses := by
  cases h with
  | reserve_parks lease hp hf =>
    rcases hp with rfl | ⟨old, rfl⟩
    · exact ⟨rfl, lease, rfl, hf⟩
    · exact absurd trivial hold
  | release_takes lease hp | defer_restores lease hp =>
    rcases hp with rfl | rfl <;> exact absurd trivial hold
  | sweep_takes lease was_pending hp =>
    cases was_pending <;> (subst hp; exact absurd trivial hold)
  | stay => exact absurd hnew hold
  | _ => first
    | exact absurd trivial hold
    | exact hnew.elim

/-- A reserve that parks a session without a reservation has found room for it. -/
theorem reserve_begin_room {device_id : DeviceId} {now : PoolTime}
    (h : inner.pending.lookup id = none)
    (hplan : (AddressPool.reserve_begin c inner id device_id now).plan ≠ none) :
    inner.active.len + inner.pending.len + inner.inflight.card < c.maximum_leases := by
  by_contra hfull
  apply hplan
  rw [AddressPool.reserve_begin]
  dsimp only
  split
  · rfl
  split
  · rfl
  split
  · split <;> rfl
  split
  · split <;> rfl
  rw [h, AddressPool.reserve_new, if_pos (by omega)]
  rfl

end Leased

namespace PoolSystem

variable {s s' : PoolSystem} {session_id : SessionId} {p : Place} {label : PoolLabel}
  {events : List PoolEvent}

theorem step_config (hs : s.step label = some (s', events)) : s'.pool.config = s.pool.config := by
  cases step_steps hs <;> rfl

/-- A step that starts to count a session has room for it. -/
theorem room_of_leased (hs : s.step label = some (s', events)) {a : AssignedAddresses}
    {lease : ReservedLease} (hfree : s.At session_id .free)
    (hout : s'.At session_id (.out .reserving lease)) (halloc : s.Allocates label session_id a) :
    s.pool.inner.active.len + s.pool.inner.pending.len + s.pool.inner.inflight.card <
      s.pool.config.maximum_leases := by
  obtain ⟨caller, call, rfl, ⟨device_id, now, rfl⟩, -⟩ := halloc
  cases step_steps hs
  apply reserve_begin_room (congrArg Slot.pending hfree.slot)
  show (AddressPool.reserve_begin _ _ session_id device_id now).plan ≠ none
  intro hplan
  rcases (parks_enter_iff _).mp ((hout.parks _).mpr rfl) with hk | ⟨caller', r, _, hr, hk⟩
  · rw [Section.parked, AddressPool.begin_, hplan] at hk
    contradiction
  · have hparked := (hfree.parks _).mp ⟨caller', r, hr, hk⟩
    contradiction

/-- **Step lemma.** The leased sessions stay within the bound. -/
theorem leased_step (h : s.Coherent)
    (hbound : s.pool.inner.leased_sessions.card ≤ s.pool.config.maximum_leases)
    (hs : s.step label = some (s', events)) :
    s'.pool.inner.leased_sessions.card ≤ s'.pool.config.maximum_leases := by
  obtain ⟨hcoherent, hcycle⟩ := step_refines h hs
  rw [step_config hs]
  -- a session that counts now counted before, or is the one a reserve has parked
  have hkept : ∀ id ∈ s'.pool.inner.leased_sessions, id ∈ s.pool.inner.leased_sessions ∨
      s.At id .free ∧ ∃ lease : ReservedLease, s'.At id (.out .reserving lease) ∧
        s.Allocates label id lease.addresses := by
    intro id hid
    obtain ⟨p, hp⟩ := h.places id
    obtain ⟨p', hp', hc⟩ := hcycle id p hp
    by_cases hold : p.Leased
    · exact .inl ((mem_leased_sessions hp.slot).mpr hold)
    · obtain ⟨rfl, lease, rfl, hf⟩ := hc.leased_new ((mem_leased_sessions hp'.slot).mp hid) hold
      exact .inr ⟨hp, lease, hp', hf⟩
  by_cases hnew : ∃ id ∈ s'.pool.inner.leased_sessions, id ∉ s.pool.inner.leased_sessions
  · obtain ⟨id, hid, hout⟩ := hnew
    obtain ⟨hfree, lease, hp', halloc⟩ := (hkept id hid).resolve_left hout
    have hroom := room_of_leased hs hfree hp' halloc
    have hcount := leased_le_count s.pool.inner
    have hsubset : s'.pool.inner.leased_sessions ⊆ insert id s.pool.inner.leased_sessions := by
      intro id' hid'
      rw [Finset.mem_insert]
      rcases hkept id' hid' with hold | ⟨_, lease', _, halloc'⟩
      · exact .inr hold
      · exact .inl (halloc'.subject halloc)
    have hcard := (Finset.card_le_card hsubset).trans (Finset.card_insert_le _ _)
    omega
  · have hsubset : s'.pool.inner.leased_sessions ⊆ s.pool.inner.leased_sessions := by
      intro id hid
      by_contra hout
      exact hnew ⟨id, hid, hout⟩
    exact (Finset.card_le_card hsubset).trans hbound

/-! ## What a session holds -/

/-- The addresses a parked call carries for a session. -/
def parked_addresses : Parked → Option AssignedAddresses
  | .out _ lease => some lease.addresses
  | .renewing active _ => some active.addresses
  | .retrying => none

/-- The session holds the addresses: in one of the three maps, or in a parked call. -/
def Holds (s : PoolSystem) (session_id : SessionId) (a : AssignedAddresses) : Prop :=
  (∃ lease, s.pool.inner.active.lookup session_id = some lease ∧ lease.addresses = a) ∨
  (∃ lease, s.pool.inner.pending.lookup session_id = some lease ∧ lease.addresses = a) ∨
  (∃ lease, s.pool.inner.release_pending.lookup session_id = some lease ∧ lease.addresses = a) ∨
  ∃ k, s.Parks session_id k ∧ parked_addresses k = some a

/-- What is held is what the place of the session says. -/
theorem Holds.addresses {a : AssignedAddresses} (h : s.Holds session_id a) (hp : s.At session_id p) :
    p.addresses = some a := by
  rcases h with ⟨lease, hl, rfl⟩ | ⟨lease, hl, rfl⟩ | ⟨lease, hl, rfl⟩ | ⟨k, hk, ha⟩
  · have hslot : p.slot.active = some lease := (congrArg Slot.active hp.slot).symm.trans hl
    cases p <;> simp_all [Place.slot, Place.addresses]
  · have hslot : p.slot.pending = some lease := (congrArg Slot.pending hp.slot).symm.trans hl
    cases p <;> simp_all [Place.slot, Place.addresses]
  · have hslot : p.slot.quarantined = some lease :=
      (congrArg Slot.quarantined hp.slot).symm.trans hl
    cases p <;> simp_all [Place.slot, Place.addresses]
  · have hparked : p.parked = some k := (hp.parks k).mp hk
    cases k with
    | out by_ lease =>
      obtain rfl := Place.eq_out hparked
      exact ha
    | renewing lease mono =>
      obtain rfl := Place.eq_renewing hparked
      exact ha
    | retrying => contradiction

/-! ## The uniqueness invariant -/

/-- The uniqueness invariant of the pool. -/
structure Unique (s : PoolSystem) : Prop where
  /-- Sessions in the maps or in flight have no IPv4 address and no `/64` in common. -/
  addresses : ∀ {session_id other a b}, session_id ≠ other → s.Holds session_id a →
    s.Holds other b → ¬ a.Shares b
  /-- A session is in at most one of the three maps. -/
  one_map : ∀ session_id,
    ¬ (session_id ∈ s.pool.inner.active ∧ session_id ∈ s.pool.inner.pending) ∧
    ¬ (session_id ∈ s.pool.inner.active ∧ session_id ∈ s.pool.inner.release_pending) ∧
    ¬ (session_id ∈ s.pool.inner.pending ∧ session_id ∈ s.pool.inner.release_pending)
  leases : s.pool.inner.active.len + s.pool.inner.pending.len ≤ s.pool.config.maximum_leases
  quarantine : s.pool.inner.release_pending.len ≤ s.pool.config.maximum_pending_releases
  /-- The retry order lists a quarantined session once, unless a retry is running it. -/
  order : ∀ session_id ∈ s.pool.inner.release_pending, ¬ s.Parks session_id .retrying →
    s.pool.inner.release_order.count session_id = 1
  /-- What a parked session holds is handed to no other session. -/
  hands : ∀ {label s' events e session_id k other a b}, s.step label = some (s', events) →
    e ∈ events → s.Parks session_id k → s.Holds session_id a → session_id ≠ other →
    e.hands other b → ¬ a.Shares b

/-- What a run keeps. -/
structure Counted (s : PoolSystem) : Prop where
  coherent : s.Coherent
  exclusive : s.Exclusive
  queue : s.pool.inner.Queue s.pool.config
  leased : s.pool.inner.leased_sessions.card ≤ s.pool.config.maximum_leases

/-- Addresses given out by a step meet nothing another session held before it. -/
theorem Counted.hands_apart (h : s.Counted) (hs : s.step label = some (s', events)) {e : PoolEvent}
    (he : e ∈ events) {other : SessionId} {a b : AssignedAddresses} (hheld : s.Holds session_id a)
    (hne : session_id ≠ other) (hhands : e.hands other b) : ¬ a.Shares b := by
  obtain ⟨p, hp⟩ := h.coherent.places session_id
  obtain ⟨q, hq⟩ := h.coherent.places other
  obtain ⟨q', _, hcycle⟩ := (step_refines h.coherent hs).2 other q hq
  have ha : p.addresses = some a := hheld.addresses hp
  rcases hcycle.addresses_kept (hcycle.hands_held he hhands) with hb | hfresh
  · exact h.exclusive.apart hne hp hq ha hb
  · obtain ⟨caller, call, _, halloc⟩ := hfresh
    refine (AddressPool.allocates_fresh hne hp.slot ha (h.exclusive.aligned hp ha) ?_ halloc).2
    rintro by_ lease rfl
    exact h.exclusive.blocked hp

theorem Counted.unique (h : s.Counted) : s.Unique := by
  refine ⟨?_, ?_, ?_, h.queue.room, ?_, ?_⟩
  · intro session_id other a b hne ha hb
    obtain ⟨p, hp⟩ := h.coherent.places session_id
    obtain ⟨q, hq⟩ := h.coherent.places other
    exact h.exclusive.apart hne hp hq (ha.addresses hp) (hb.addresses hq)
  · intro session_id
    obtain ⟨p, hp⟩ := h.coherent.places session_id
    have hactive : s.pool.inner.active.lookup session_id = p.slot.active :=
      congrArg Slot.active hp.slot
    have hpending : s.pool.inner.pending.lookup session_id = p.slot.pending :=
      congrArg Slot.pending hp.slot
    have hquarantined : s.pool.inner.release_pending.lookup session_id = p.slot.quarantined :=
      congrArg Slot.quarantined hp.slot
    rw [← AList.lookup_isSome, ← AList.lookup_isSome, ← AList.lookup_isSome, hactive, hpending,
      hquarantined]
    cases p <;> simp [Place.slot]
  · exact (len_le_leased h.coherent.apart).trans h.leased
  · intro session_id hid hidle
    obtain ⟨p, hp⟩ := h.coherent.places session_id
    refine List.count_eq_one_of_mem h.queue.nodup (h.queue.listed.mpr ⟨hid, ?_⟩)
    -- a quarantined session is parked by nothing but a retry
    intro hparked
    obtain ⟨quarantined, hl⟩ := AList.mem_iff_lookup.mp hid
    have hslot : p.slot.quarantined = some quarantined :=
      (congrArg Slot.quarantined hp.slot).symm.trans hl
    have hflag : p.slot.inflight = true := by
      rw [← hp.slot, Inner.slot, decide_eq_true_eq]
      exact hparked
    apply hidle
    rw [hp.parks]
    cases p <;> simp_all [Place.slot, Place.parked]
  · intro label s' events e session_id k other a b hs he _ hheld hne hhands
    exact h.hands_apart hs he hheld hne hhands

/-! ## The invariant over a run -/

/-- What parks a session tells whether it is quarantined. -/
theorem Coherent.parked_quarantined (h : s.Coherent) {caller : ℕ} {r : Running}
    (hr : s.running.lookup caller = some r) {k : Parked} (hk : r.plan.parked session_id = some k) :
    (session_id ∈ s.pool.inner.release_pending ↔ k = .retrying) ∧
      session_id ∈ s.pool.inner.inflight := by
  obtain ⟨p, hp⟩ := h.places session_id
  have hparked : p.parked = some k := (hp.parks k).mp ⟨caller, r, hr, hk⟩
  refine ⟨?_, AddressPool.inflight_of_parked hp.slot (by simp [hparked])⟩
  have hquarantined : s.pool.inner.release_pending.lookup session_id = p.slot.quarantined :=
    congrArg Slot.quarantined hp.slot
  rw [← AList.lookup_isSome, hquarantined]
  cases p <;> simp_all [Place.slot, Place.parked]
  all_goals (subst hparked; simp)

theorem Coherent.leased_not_quarantined (h : s.Coherent) (session_id : SessionId)
    (hl : session_id ∈ s.pool.inner.active ∨ session_id ∈ s.pool.inner.pending) :
    session_id ∉ s.pool.inner.release_pending := by
  obtain ⟨p, hp⟩ := h.places session_id
  have hactive : s.pool.inner.active.lookup session_id = p.slot.active :=
    congrArg Slot.active hp.slot
  have hpending : s.pool.inner.pending.lookup session_id = p.slot.pending :=
    congrArg Slot.pending hp.slot
  have hquarantined : s.pool.inner.release_pending.lookup session_id = p.slot.quarantined :=
    congrArg Slot.quarantined hp.slot
  rw [← AList.lookup_isSome, ← AList.lookup_isSome, hactive, hpending] at hl
  rw [← AList.lookup_isSome, hquarantined]
  cases p <;> simp_all [Place.slot]

theorem queue_step (h : s.Coherent) (hq : s.pool.inner.Queue s.pool.config)
    (hs : s.step label = some (s', events)) : s'.pool.inner.Queue s'.pool.config := by
  rw [step_config hs]
  cases step_steps hs with
  | begin_ call hidle => exact AddressPool.begin_queue s.durable call hq h.leased_not_quarantined
  | store ok hr hop => exact hq
  | resume hr hlen =>
    exact AddressPool.resume_queue s.durable (h.distinct hr) hlen hq
      (fun id k hk => h.parked_quarantined hr hk)
  | release_deferred subject => exact AddressPool.release_deferred_queue hq

theorem Counted.step (h : s.Counted) (hs : s.step label = some (s', events)) : s'.Counted :=
  ⟨(step_refines h.coherent hs).1, h.exclusive.step h.coherent hs,
    queue_step h.coherent h.queue hs, leased_step h.coherent h.leased hs⟩

/-- The pools that hold no lease yet: a new ephemeral pool, and a durable pool over
an empty store. -/
inductive StartsEmpty (c : AddressPoolConfig) : AddressPool → Prop where
  | ephemeral : StartsEmpty c (AddressPool.new c)
  | durable {now : PoolTime} {outcomes : List Bool} {pool : AddressPool}
      (h : AddressPool.with_store_at_time c (some []) ∅ now outcomes = .ok pool) :
      StartsEmpty c pool

theorem with_store_empty (c : AddressPoolConfig) (now : PoolTime) (outcomes : List Bool) :
    AddressPool.with_store_at_time c (some []) ∅ now outcomes = .ok ⟨c, .empty, some ∅⟩ := by
  simp [AddressPool.with_store_at_time, AddressPool.recover_records, AddressPool.quarantine_stale]

theorem StartsEmpty.inner_eq {c : AddressPoolConfig} {pool : AddressPool} (h : StartsEmpty c pool) :
    pool.inner = .empty ∧ pool.config = c := by
  cases h with
  | ephemeral => exact ⟨rfl, rfl⟩
  | durable h =>
    rw [with_store_empty] at h
    obtain rfl := Except.ok.inj h
    exact ⟨rfl, rfl⟩

theorem StartsEmpty.counted {c : AddressPoolConfig} {pool : AddressPool} (h : StartsEmpty c pool) :
    (start pool).Counted := by
  have hinner := h.inner_eq.1
  have hseparate : pool.inner.Separate := hinner ▸ AddressPool.new_separate c
  refine ⟨start_coherent hseparate.at_rest, start_exclusive hseparate, ?_, ?_⟩
  · change pool.inner.Queue _
    rw [hinner]
    exact Inner.queue_empty _
  · change pool.inner.leased_sessions.card ≤ _
    rw [hinner]
    exact Nat.zero_le _

/-- **Uniqueness under concurrency.** Every state of every run of a pool that
started without leases is `Unique`: whatever its configuration, in every
interleaving of the calls of any number of callers, and whatever the store
operations return. -/
theorem pool_unique {c : AddressPoolConfig} {pool : AddressPool} {labels : List PoolLabel}
    (hstart : StartsEmpty c pool)
    (hrun : exec PoolSystem.step (start pool) labels = some (s, events)) : s.Unique :=
  (exec_invariant (fun _ _ _ _ h hs => Counted.step h hs) hstart.counted hrun).unique

open Sample in
/-- Two sessions admitted one after the other. -/
theorem pool_unique_sample :
    StartsEmpty config recovered ∧ ∃ s events,
      exec PoolSystem.step (start recovered) admissions = some (s, events) ∧ s.Unique ∧
        s.pool.inner.active.len + s.pool.inner.pending.len = 2 := by
  have hstart : StartsEmpty config recovered := .durable recovered_eq
  have hlen : (exec PoolSystem.step (start recovered) admissions).map
      (fun r => r.1.pool.inner.active.len + r.1.pool.inner.pending.len) = some 2 := by
    decide
  obtain ⟨⟨s, events⟩, hrun, hlen⟩ := Option.map_eq_some_iff.mp hlen
  exact ⟨hstart, s, events, hrun, pool_unique hstart hrun, hlen⟩

end PoolSystem

end StreamGuard.Gateway
