/-
What one lock section of the pool does to one session.

A `Slot` is what the maps hold for a session, and a `Place` of the lease cycle has
a slot. For every section there are two lemmas: it moves the session it is about
along the cycle (`_moves`), and it leaves every other session alone (`_leaves`).
The batches of sweeps and retries go through the fold lemmas of `Lib/Fold.lean`,
one round for each session.
-/
import StreamGuard.Gateway.LeaseCycle
import StreamGuard.Lib.Fold

set_option autoImplicit false

namespace StreamGuard.Gateway

open StreamGuard StreamGuard.Lib

/-! ## What the pool says about one session -/

/-- The entries of one session in the pool. -/
structure Slot where
  active : Option ActiveLease
  pending : Option ReservedLease
  quarantined : Option ReleasePendingLease
  inflight : Bool

def Inner.slot (inner : Inner) (session_id : SessionId) : Slot :=
  ⟨inner.active.lookup session_id, inner.pending.lookup session_id,
    inner.release_pending.lookup session_id, decide (session_id ∈ inner.inflight)⟩

/-- The entries of a lease in a place. -/
def Place.slot : Place → Slot
  | .free => ⟨none, none, none, false⟩
  | .reserved lease => ⟨none, some lease, none, false⟩
  | .active lease => ⟨some lease, none, none, false⟩
  | .quarantined lease => ⟨none, none, some lease, false⟩
  | .out _ _ => ⟨none, none, none, true⟩
  | .renewing lease _ => ⟨some lease, none, none, true⟩
  | .retrying lease => ⟨none, none, some lease, true⟩

/-- What a parked call does with a session. -/
def Plan.parked (session_id : SessionId) : Plan → Option Parked
  | .reserve id lease _ => if session_id = id then some (.out .reserving lease) else none
  | .promote id pending mono _ =>
    if session_id = id then some (.out (.promoting mono) pending) else none
  | .expire id pending _ => if session_id = id then some (.out .expiring pending) else none
  | .release id taken _ => if session_id = id then some (.out .releasing taken) else none
  | .renew id active mono _ => if session_id = id then some (.renewing active mono) else none
  | .sweep batch _ =>
    (batch.find? (fun e => e.id = session_id)).map
      (fun e => .out (.sweeping e.was_pending) e.lease)
  | .swept _ _ => none
  | .retry batch _ _ => if session_id ∈ batch then some .retrying else none

def Section.parked (session_id : SessionId) (sec : Section) : Option Parked :=
  sec.plan.bind (Plan.parked session_id)

/-- The event is about the session. -/
def PoolEvent.Concerns (session_id : SessionId) : PoolEvent → Prop
  | .reserved id _ | .committed id _ | .released id _ | .deferred id _ | .renewed id _ =>
    id = session_id
  | .expired ids => session_id ∈ ids
  | .swept _ | .retried _ => False

theorem Quiet.of_unconcerned {session_id : SessionId} {p : Place} {events : List PoolEvent}
    (h : ∀ e ∈ events, ¬ e.Concerns session_id) : Quiet session_id p events := by
  refine ⟨?_, ?_, ?_⟩
  · intro e he hends
    apply h e he
    cases e with
    | released id result => exact hends.1
    | deferred id result => exact hends.1
    | expired ids => exact hends
    | _ => exact hends.elim
  · intro a he
    exact absurd rfl (h _ he)
  · intro a he
    exact absurd rfl (h _ he)

/-- A reply that reports nothing but failure, or is about no lease. -/
def PoolEvent.Idle : PoolEvent → Prop
  | .reserved _ result | .committed _ result => ∃ e, result = .error e
  | .released _ result => result ≠ .ok true
  | .deferred _ result => result = false
  | .renewed _ _ | .swept _ | .retried _ => True
  | .expired _ => False

theorem PoolEvent.idle_reserved (id : SessionId) (e : AddressPoolError) :
    (PoolEvent.reserved id (.error e)).Idle := ⟨e, rfl⟩

theorem PoolEvent.idle_committed (id : SessionId) (e : AddressPoolError) :
    (PoolEvent.committed id (.error e)).Idle := ⟨e, rfl⟩

theorem Quiet.of_idle {session_id : SessionId} {p : Place} {e : PoolEvent} (h : e.Idle) :
    Quiet session_id p [e] := by
  refine ⟨?_, ?_, ?_⟩
  · intro e' he hends
    rw [List.mem_singleton] at he
    subst he
    cases e' with
    | released id result => exact h hends.2
    | deferred id result =>
      have hfalse : result = false := h
      rw [hends.2] at hfalse
      contradiction
    | expired ids => exact h
    | _ => exact hends
  · intro a he
    rw [List.mem_singleton] at he
    subst he
    obtain ⟨e, he⟩ := h
    contradiction
  · intro a he
    rw [List.mem_singleton] at he
    subst he
    obtain ⟨e, he⟩ := h
    contradiction

theorem Quiet.reserved_at_rest {session_id : SessionId} {p : Place} {a : AssignedAddresses}
    (ha : p.addresses = some a) (hp : p.parked = none) :
    Quiet session_id p [.reserved session_id (.ok a)] := by
  refine ⟨?_, ?_, ?_⟩
  · intro e he hends
    rw [List.mem_singleton] at he
    subst he
    exact hends
  · intro b he
    obtain rfl : b = a := by simpa using he
    exact ⟨ha, hp⟩
  · intro b he
    simp at he

theorem Quiet.committed_at_rest {session_id : SessionId} {p : Place} {a : AssignedAddresses}
    (h : (∃ lease, p = .active lease ∧ lease.addresses = a) ∨
      ∃ lease, p = .quarantined lease ∧ lease.addresses = a) :
    Quiet session_id p [.committed session_id (.ok a)] := by
  refine ⟨?_, ?_, ?_⟩
  · intro e he hends
    rw [List.mem_singleton] at he
    subst he
    exact hends
  · intro b he
    simp at he
  · intro b he
    obtain rfl : b = a := by simpa using he
    exact h

/-- One section moves the session from place `p` along its cycle. -/
def Section.Moves (sec : Section) (fresh : AssignedAddresses → Prop) (session_id : SessionId)
    (p : Place) : Prop :=
  ∃ p', sec.inner.slot session_id = p'.slot ∧ sec.parked session_id = p'.parked ∧
    LeaseCycle fresh session_id p sec.events p'

/-- One section leaves the entries of the session alone and is quiet about it. -/
structure Section.Leaves (sec : Section) (inner : Inner) (session_id : SessionId) (p : Place) :
    Prop where
  slot : sec.inner.slot session_id = inner.slot session_id
  parked : sec.parked session_id = none
  quiet : Quiet session_id p sec.events

section Sections

variable {sec : Section} {inner : Inner} {session_id : SessionId} {p : Place}
  {fresh : AssignedAddresses → Prop}

theorem Section.Leaves.moves (h : sec.Leaves inner session_id p)
    (hslot : inner.slot session_id = p.slot) (hp : p.parked = none) :
    sec.Moves fresh session_id p :=
  ⟨p, h.slot.trans hslot, h.parked.trans hp.symm, .stay h.quiet⟩

/-- A reply about another session, from a section that left this one alone. -/
theorem Section.leaves_of_unconcerned {inner' : Inner} {e : PoolEvent}
    (hslot : inner'.slot session_id = inner.slot session_id) (he : ¬ e.Concerns session_id) :
    (Section.returns inner' e).Leaves inner session_id p := by
  refine ⟨hslot, rfl, .of_unconcerned ?_⟩
  intro e' he'
  rw [List.mem_singleton.mp he']
  exact he

/-- A failing reply leaves everything alone. -/
theorem Section.leaves_of_idle {e : PoolEvent} (h : e.Idle) :
    (Section.returns inner e).Leaves inner session_id p :=
  ⟨rfl, rfl, .of_idle h⟩

end Sections

/-! ## Slots under the updates of the pool -/

section Slots

variable {c : AddressPoolConfig} {inner inner' : Inner} {id session_id : SessionId}
  {a : AssignedAddresses} {lease : Lease} {p : Place} {now_ms : ℕ}

theorem slot_park_self {by_ : TakenBy} {taken : Lease} (h : inner.slot id = Place.free.slot) :
    (inner.park id a).slot id = (Place.out by_ taken).slot := by
  simp_all [Inner.slot, Inner.park, Place.slot]

theorem slot_park_of_ne (h : session_id ≠ id) :
    (inner.park id a).slot session_id = inner.slot session_id := by
  simp [Inner.slot, Inner.park, h]

theorem slot_unpark_self {by_ : TakenBy} (h : inner.slot id = (Place.out by_ lease).slot) :
    (inner.unpark id a).slot id = Place.free.slot := by
  simp_all [Inner.slot, Inner.unpark, Place.slot]

theorem slot_unpark_of_ne (h : session_id ≠ id) :
    (inner.unpark id a).slot session_id = inner.slot session_id := by
  simp [Inner.slot, Inner.unpark, h]

theorem slot_erase_pending (h : inner.slot id = (Place.reserved lease).slot) :
    ({ inner with pending := inner.pending.erase id } : Inner).slot id = Place.free.slot := by
  simp_all [Inner.slot, Place.slot]

theorem slot_erase_pending_of_ne (h : session_id ≠ id) :
    ({ inner with pending := inner.pending.erase id } : Inner).slot session_id =
      inner.slot session_id := by
  simp [Inner.slot, AList.lookup_erase_ne h]

theorem slot_erase_active (h : inner.slot id = (Place.active lease).slot) :
    ({ inner with active := inner.active.erase id } : Inner).slot id = Place.free.slot := by
  simp_all [Inner.slot, Place.slot]

theorem slot_erase_active_of_ne (h : session_id ≠ id) :
    ({ inner with active := inner.active.erase id } : Inner).slot session_id =
      inner.slot session_id := by
  simp [Inner.slot, AList.lookup_erase_ne h]

theorem slot_insert_pending (h : inner.slot id = Place.free.slot) :
    ({ inner with pending := inner.pending.insert id lease } : Inner).slot id =
      (Place.reserved lease).slot := by
  simp_all [Inner.slot, Place.slot]

theorem slot_insert_pending_of_ne (h : session_id ≠ id) :
    ({ inner with pending := inner.pending.insert id lease } : Inner).slot session_id =
      inner.slot session_id := by
  simp [Inner.slot, AList.lookup_insert_ne h]

theorem slot_insert_active (h : inner.slot id = Place.free.slot) :
    ({ inner with active := inner.active.insert id lease } : Inner).slot id =
      (Place.active lease).slot := by
  simp_all [Inner.slot, Place.slot]

theorem slot_insert_active_of_ne (h : session_id ≠ id) :
    ({ inner with active := inner.active.insert id lease } : Inner).slot session_id =
      inner.slot session_id := by
  simp [Inner.slot, AList.lookup_insert_ne h]

theorem slot_enqueue (h : inner.slot id = Place.free.slot)
    (he : inner.enqueue_release_locked c id lease now_ms = .ok inner') :
    inner'.slot id = (Place.quarantined ⟨lease, 0, next_retry_deadline now_ms 0⟩).slot := by
  have hq : id ∉ inner.release_pending := by
    rw [← AList.lookup_eq_none]
    exact congrArg Slot.quarantined h
  rw [Inner.enqueue_release_locked, if_neg hq] at he
  split at he
  · contradiction
  · obtain rfl := Except.ok.inj he
    simp_all [Inner.slot, Place.slot]

theorem slot_enqueue_of_ne (h : session_id ≠ id)
    (he : inner.enqueue_release_locked c id lease now_ms = .ok inner') :
    inner'.slot session_id = inner.slot session_id := by
  rw [Inner.enqueue_release_locked] at he
  split at he
  · rw [Except.ok.inj he]
  split at he
  · contradiction
  · obtain rfl := Except.ok.inj he
    simp [Inner.slot, AList.lookup_insert_ne h]

/-! A lease at rest is where its entry is. -/

theorem Place.eq_active (hp : p.parked = none) (h : p.slot.active = some lease) :
    p = .active lease := by
  cases p <;> simp_all [Place.slot, Place.parked]

theorem Place.eq_reserved (h : p.slot.pending = some lease) : p = .reserved lease := by
  cases p <;> simp_all [Place.slot]

theorem Place.eq_quarantined {lease : ReleasePendingLease} (hp : p.parked = none)
    (h : p.slot.quarantined = some lease) : p = .quarantined lease := by
  cases p <;> simp_all [Place.slot, Place.parked]

theorem Place.eq_free (hp : p.parked = none) (ha : p.slot.active = none)
    (hr : p.slot.pending = none) (hq : p.slot.quarantined = none) : p = .free := by
  cases p <;> simp_all [Place.slot, Place.parked]

theorem Place.eq_out {by_ : TakenBy} (hp : p.parked = some (.out by_ lease)) :
    p = .out by_ lease := by
  cases p <;> simp_all [Place.parked]

theorem Place.eq_renewing {mono : ℕ} (hp : p.parked = some (.renewing lease mono)) :
    p = .renewing lease mono := by
  cases p <;> simp_all [Place.parked]

theorem Place.eq_retrying (hp : p.parked = some .retrying) : ∃ lease, p = .retrying lease := by
  cases p <;> simp_all [Place.parked]

theorem Place.parked_isSome : p.parked.isSome = p.slot.inflight := by
  cases p <;> rfl

end Slots

namespace AddressPool

variable {c : AddressPoolConfig} {inner : Inner} {id session_id : SessionId} {p : Place}
  {fresh : AssignedAddresses → Prop}

/-! ## First sections -/

theorem reserve_new_leaves (c : AddressPoolConfig) (inner : Inner) (p : Place)
    (device_id : DeviceId) (now : PoolTime) (h : session_id ≠ id) :
    (reserve_new c inner id device_id now).Leaves inner session_id p := by
  rw [reserve_new]
  split
  · exact Section.leaves_of_unconcerned rfl h.symm
  split
  · exact Section.leaves_of_unconcerned rfl h.symm
  · exact ⟨slot_park_of_ne h, if_neg h, .of_unconcerned (by simp [Section.parks])⟩

theorem reserve_begin_leaves (device_id : DeviceId) (now : PoolTime) (h : session_id ≠ id) :
    (reserve_begin c inner id device_id now).Leaves inner session_id p := by
  have hreturns : ∀ result, (Section.returns inner (.reserved id result)).Leaves inner session_id p :=
    fun _ => Section.leaves_of_unconcerned rfl h.symm
  rw [reserve_begin]
  dsimp only
  split
  · exact hreturns _
  split
  · exact hreturns _
  split
  · split <;> exact hreturns _
  split
  · split <;> exact hreturns _
  split
  · exact reserve_new_leaves c inner p device_id now h
  split
  · exact hreturns _
  split
  · exact hreturns _
  · obtain ⟨hslot, hparked, hq⟩ :=
      reserve_new_leaves c { inner with pending := inner.pending.erase id } p device_id now h
    exact ⟨hslot.trans (slot_erase_pending_of_ne h), hparked, hq⟩

theorem commit_begin_leaves (now : PoolTime) (h : session_id ≠ id) :
    (commit_begin c inner id now).Leaves inner session_id p := by
  have hreturns : ∀ result,
      (Section.returns inner (.committed id result)).Leaves inner session_id p :=
    fun _ => Section.leaves_of_unconcerned rfl h.symm
  rw [commit_begin]
  split
  · exact hreturns _
  split
  · exact hreturns _
  split
  · exact hreturns _
  split
  · exact hreturns _
  next pending _ =>
  have hslot : (({ inner with pending := inner.pending.erase id } : Inner).park id
      pending.addresses).slot session_id = inner.slot session_id :=
    (slot_park_of_ne h).trans (slot_erase_pending_of_ne h)
  dsimp only
  split
  · exact ⟨hslot, if_neg h, .of_unconcerned (by simp [Section.parks])⟩
  · exact ⟨hslot, if_neg h, .of_unconcerned (by simp [Section.parks])⟩

theorem commit_begin_moves (now : PoolTime) (h : inner.slot id = p.slot) (hp : p.parked = none) :
    (commit_begin c inner id now).Moves fresh id p := by
  rw [commit_begin]
  split
  · exact (Section.leaves_of_idle (PoolEvent.idle_committed _ _)).moves h hp
  split
  · next active hl =>
    have hactive := Place.eq_active hp ((congrArg Slot.active h).symm.trans hl)
    exact Section.Leaves.moves ⟨rfl, rfl, .committed_at_rest (.inl ⟨active, hactive, rfl⟩)⟩ h hp
  split
  · next quarantined hl =>
    have hq := Place.eq_quarantined hp ((congrArg Slot.quarantined h).symm.trans hl)
    exact Section.Leaves.moves ⟨rfl, rfl, .committed_at_rest (.inr ⟨quarantined, hq, rfl⟩)⟩ h hp
  split
  · exact (Section.leaves_of_idle (PoolEvent.idle_committed _ _)).moves h hp
  next pending hl =>
  obtain rfl := Place.eq_reserved ((congrArg Slot.pending h).symm.trans hl)
  have hfree := slot_erase_pending h
  dsimp only
  split
  · exact ⟨_, slot_park_self hfree, if_pos rfl, .commit_expires pending⟩
  · exact ⟨_, slot_park_self hfree, if_pos rfl, .commit_promotes pending _⟩

/-- Fresh addresses are those that the two scans have found. -/
theorem allocate_ok {a : AssignedAddresses} (h : inner.allocate_locked c = .ok a) :
    ∃ v4 v6, inner.find_free_ipv4 c = some v4 ∧ inner.find_free_ipv6 c = some v6 ∧
      a = ⟨v4, c.ipv4_prefix_len, v6, IPV6_LEASE_PREFIX_LEN⟩ := by
  rw [Inner.allocate_locked] at h
  split at h
  · contradiction
  next v4 h4 =>
  split at h
  · contradiction
  next v6 h6 => exact ⟨v4, v6, h4, h6, (Except.ok.inj h).symm⟩

theorem allocate_error {e : AddressPoolError} (h : inner.allocate_locked c = .error e) :
    e = .Exhausted ∧ (inner.find_free_ipv4 c = none ∨ inner.find_free_ipv6 c = none) := by
  rw [Inner.allocate_locked] at h
  split at h
  · next h4 => exact ⟨(Except.error.inj h).symm, .inl h4⟩
  split at h
  · next h6 => exact ⟨(Except.error.inj h).symm, .inr h6⟩
  · contradiction

/-- A reserve without a fast path: the session is free in memory, or was until its
expired reservation was dropped. -/
theorem reserve_new_moves (inner : Inner) (device_id : DeviceId) (now : PoolTime)
    (h : inner.slot id = Place.free.slot) (hp : p = .free ∨ ∃ old, p = .reserved old)
    (hfresh : ∀ a, inner.allocate_locked c = .ok a → fresh a) :
    (reserve_new c inner id device_id now).Moves fresh id p := by
  have hexhausted : LeaseCycle fresh id p [.reserved id (.error .Exhausted)] .free := by
    rcases hp with rfl | ⟨old, rfl⟩
    · exact .stay (.of_idle (PoolEvent.idle_reserved _ _))
    · exact .reserve_drops old
  rw [reserve_new]
  split
  · exact ⟨.free, h, rfl, hexhausted⟩
  split
  · next e he =>
    rw [(allocate_error he).1]
    exact ⟨.free, h, rfl, hexhausted⟩
  · next a ha => exact ⟨_, slot_park_self h, if_pos rfl, .reserve_parks _ hp (hfresh a ha)⟩

theorem reserve_begin_moves (device_id : DeviceId) (now : PoolTime) (h : inner.slot id = p.slot)
    (hp : p.parked = none)
    (hfresh : ∀ inner' a, inner'.slot id = Place.free.slot →
      (inner' = inner ∨ inner' = { inner with pending := inner.pending.erase id }) →
      inner'.allocate_locked c = .ok a → fresh a) :
    (reserve_begin c inner id device_id now).Moves fresh id p := by
  have hfails : ∀ e, (Section.returns inner (.reserved id (.error e))).Moves fresh id p :=
    fun e => (Section.leaves_of_idle (PoolEvent.idle_reserved _ _)).moves h hp
  have hheld : ∀ a, p.addresses = some a →
      (Section.returns inner (.reserved id (.ok a))).Moves fresh id p :=
    fun a ha => Section.Leaves.moves ⟨rfl, rfl, .reserved_at_rest ha hp⟩ h hp
  rw [reserve_begin]
  dsimp only
  split
  · exact hfails _
  split
  · exact hfails _
  split
  · next quarantined hl =>
    have hq := Place.eq_quarantined hp ((congrArg Slot.quarantined h).symm.trans hl)
    split
    · exact hfails _
    · exact hheld _ (hq ▸ rfl)
  next hq =>
  split
  · next active hl =>
    have hactive := Place.eq_active hp ((congrArg Slot.active h).symm.trans hl)
    split
    · exact hfails _
    · exact hheld _ (hactive ▸ rfl)
  next ha =>
  split
  · next hl =>
    obtain rfl := Place.eq_free hp ((congrArg Slot.active h).symm.trans ha)
      ((congrArg Slot.pending h).symm.trans hl) ((congrArg Slot.quarantined h).symm.trans hq)
    exact reserve_new_moves inner device_id now h (.inl rfl) (fun a => hfresh inner a h (.inl rfl))
  · next pending hl =>
    obtain rfl := Place.eq_reserved ((congrArg Slot.pending h).symm.trans hl)
    split
    · exact hfails _
    split
    · exact hheld _ rfl
    have hfree := slot_erase_pending h
    exact reserve_new_moves _ device_id now hfree (.inr ⟨pending, rfl⟩)
      (fun a => hfresh _ a hfree (.inr rfl))

/-- What `take` does: the lease leaves the map it is in. -/
theorem take_cases {inner' : Inner} {lease : Lease} (ht : take inner id = some (inner', lease))
    (h : inner.slot id = p.slot) (hp : p.parked = none) :
    (p = .reserved lease ∨ p = .active lease) ∧ inner'.slot id = Place.free.slot ∧
      ∀ session_id, session_id ≠ id → inner'.slot session_id = inner.slot session_id := by
  rw [take] at ht
  split at ht
  · next pending hl =>
    obtain ⟨rfl, rfl⟩ := Prod.mk.inj (Option.some.inj ht)
    obtain rfl := Place.eq_reserved ((congrArg Slot.pending h).symm.trans hl)
    exact ⟨.inl rfl, slot_erase_pending h, fun _ hne => slot_erase_pending_of_ne hne⟩
  split at ht
  · next active hl =>
    obtain ⟨rfl, rfl⟩ := Prod.mk.inj (Option.some.inj ht)
    obtain rfl := Place.eq_active hp ((congrArg Slot.active h).symm.trans hl)
    exact ⟨.inr rfl, slot_erase_active h, fun _ hne => slot_erase_active_of_ne hne⟩
  · contradiction

theorem take_of_ne {inner' : Inner} {lease : Lease} (ht : take inner id = some (inner', lease))
    (h : session_id ≠ id) : inner'.slot session_id = inner.slot session_id := by
  rw [take] at ht
  split at ht
  · obtain ⟨rfl, rfl⟩ := Prod.mk.inj (Option.some.inj ht)
    exact slot_erase_pending_of_ne h
  split at ht
  · obtain ⟨rfl, rfl⟩ := Prod.mk.inj (Option.some.inj ht)
    exact slot_erase_active_of_ne h
  · contradiction

theorem release_begin_leaves (now_ms : ℕ) (h : session_id ≠ id) :
    (release_begin inner id now_ms).Leaves inner session_id p := by
  have hreturns : ∀ result, (Section.returns inner (.released id result)).Leaves inner session_id p :=
    fun _ => Section.leaves_of_unconcerned rfl h.symm
  rw [release_begin]
  split
  · exact hreturns _
  split
  · exact hreturns _
  split
  · exact hreturns _
  · next inner' taken ht =>
    refine ⟨(slot_park_of_ne h).trans (take_of_ne ht h), if_neg h, .of_unconcerned ?_⟩
    simp [Section.parks]

theorem release_begin_moves (now_ms : ℕ) (h : inner.slot id = p.slot) (hp : p.parked = none) :
    (release_begin inner id now_ms).Moves fresh id p := by
  have hidle : ∀ result, result ≠ .ok true →
      (Section.returns inner (.released id result)).Moves fresh id p := by
    intro result hr
    have hi : (PoolEvent.released id result).Idle := hr
    exact (Section.leaves_of_idle hi).moves h hp
  rw [release_begin]
  split
  · exact hidle _ (by simp)
  split
  · exact hidle _ (by simp)
  split
  · exact hidle _ (by simp)
  · next inner' taken ht =>
    obtain ⟨hfrom, hfree, _⟩ := take_cases ht h hp
    exact ⟨_, slot_park_self hfree, if_pos rfl, .release_takes taken hfrom⟩

theorem renew_begin_leaves (now : PoolTime) (h : session_id ≠ id) :
    (renew_begin c inner id now).Leaves inner session_id p := by
  have hreturns : ∀ result, (Section.returns inner (.renewed id result)).Leaves inner session_id p :=
    fun _ => Section.leaves_of_unconcerned rfl h.symm
  rw [renew_begin]
  split
  · exact hreturns _
  split
  · exact hreturns _
  split
  · exact hreturns _
  · refine ⟨?_, if_neg h, .of_unconcerned (by simp [Section.parks])⟩
    simp [Section.parks, Inner.slot, h]

theorem renew_begin_moves (now : PoolTime) (h : inner.slot id = p.slot) (hp : p.parked = none) :
    (renew_begin c inner id now).Moves fresh id p := by
  have hidle : ∀ result, (Section.returns inner (.renewed id result)).Moves fresh id p := by
    intro result
    have hi : (PoolEvent.renewed id result).Idle := trivial
    exact (Section.leaves_of_idle hi).moves h hp
  rw [renew_begin]
  split
  · exact hidle _
  split
  · exact hidle _
  next active hl =>
  split
  · exact hidle _
  · obtain rfl := Place.eq_active hp ((congrArg Slot.active h).symm.trans hl)
    refine ⟨.renewing active _, ?_, if_pos rfl, .renew_parks active _⟩
    simp_all [Section.parks, Inner.slot, Place.slot]

/-- A call on a session that another call has parked fails at once. -/
theorem begin_inflight (h : id ∈ inner.inflight) (device_id : DeviceId) (now : PoolTime)
    (now_ms : ℕ) :
    (reserve_begin c inner id device_id now).Leaves inner id p ∧
      (commit_begin c inner id now).Leaves inner id p ∧
      (release_begin inner id now_ms).Leaves inner id p ∧
      (renew_begin c inner id now).Leaves inner id p := by
  refine ⟨?_, ?_, ?_, ?_⟩
  · rw [reserve_begin]
    dsimp only
    split
    · exact Section.leaves_of_idle (PoolEvent.idle_reserved _ _)
    · exact Section.leaves_of_idle (PoolEvent.idle_reserved _ _)
  · rw [commit_begin, if_pos h]
    exact Section.leaves_of_idle (PoolEvent.idle_committed _ _)
  · rw [release_begin, if_pos h]
    exact ⟨rfl, rfl,
      .of_idle (show (PoolEvent.released id (.error .Store)).Idle by simp [PoolEvent.Idle])⟩
  · rw [renew_begin, if_pos h]
    exact ⟨rfl, rfl, .of_idle (show (PoolEvent.renewed id (.error .Store)).Idle from trivial)⟩

/-! ## Later sections of calls on one session -/

theorem reserve_finish_leaves (lease : ReservedLease) (ok : Bool) (h : session_id ≠ id) :
    (reserve_finish inner id lease ok).Leaves inner session_id p := by
  rw [reserve_finish]
  split
  · exact Section.leaves_of_unconcerned (slot_unpark_of_ne h) h.symm
  split
  · exact Section.leaves_of_unconcerned (slot_unpark_of_ne h) h.symm
  · exact Section.leaves_of_unconcerned ((slot_insert_pending_of_ne h).trans (slot_unpark_of_ne h))
      h.symm

/-- An unparked session is in none of the maps, so the defensive check of the
later sections never fires. -/
theorem unparked_absent {by_ : TakenBy} {lease : Lease} {a : AssignedAddresses}
    (h : inner.slot id = (Place.out by_ lease).slot) :
    ¬ (id ∈ (inner.unpark id a).release_pending ∨ id ∈ (inner.unpark id a).active) := by
  have hfree : (inner.unpark id a).slot id = Place.free.slot := slot_unpark_self h
  rw [not_or, ← AList.lookup_eq_none, ← AList.lookup_eq_none]
  exact ⟨congrArg Slot.quarantined hfree, congrArg Slot.active hfree⟩

theorem reserve_finish_moves (lease : ReservedLease) (ok : Bool)
    (h : inner.slot id = (Place.out .reserving lease).slot) :
    (reserve_finish inner id lease ok).Moves fresh id (.out .reserving lease) := by
  have hfree : (inner.unpark id lease.addresses).slot id = Place.free.slot := slot_unpark_self h
  rw [reserve_finish]
  split
  · exact ⟨.free, hfree, rfl, .reserve_fails lease⟩
  rw [if_neg (unparked_absent h)]
  exact ⟨.reserved lease, slot_insert_pending hfree, rfl, .reserve_ok lease⟩

theorem promote_finish_leaves (pending : ReservedLease) (mono : ℕ) (ok : Bool)
    (h : session_id ≠ id) :
    (promote_finish inner id pending mono ok).Leaves inner session_id p := by
  rw [promote_finish]
  dsimp only
  split
  · exact Section.leaves_of_unconcerned ((slot_insert_pending_of_ne h).trans (slot_unpark_of_ne h))
      h.symm
  split
  · exact Section.leaves_of_unconcerned (slot_unpark_of_ne h) h.symm
  · exact Section.leaves_of_unconcerned ((slot_insert_active_of_ne h).trans (slot_unpark_of_ne h))
      h.symm

theorem promote_finish_moves (pending : ReservedLease) (mono : ℕ) (ok : Bool)
    (h : inner.slot id = (Place.out (.promoting mono) pending).slot) :
    (promote_finish inner id pending mono ok).Moves fresh id (.out (.promoting mono) pending) := by
  have hfree : (inner.unpark id pending.addresses).slot id = Place.free.slot := slot_unpark_self h
  rw [promote_finish]
  dsimp only
  split
  · exact ⟨.reserved pending, slot_insert_pending hfree, rfl, .promote_fails pending mono⟩
  rw [if_neg (unparked_absent h)]
  exact ⟨.active _, slot_insert_active hfree, rfl, .promote_ok pending mono⟩

theorem expire_finish_leaves (pending : ReservedLease) (now_ms : ℕ) (ok : Bool)
    (h : session_id ≠ id) :
    (expire_finish c inner id pending now_ms ok).Leaves inner session_id p := by
  rw [expire_finish]
  split
  · exact Section.leaves_of_unconcerned (slot_unpark_of_ne h) h.symm
  split
  · exact Section.leaves_of_unconcerned ((slot_insert_pending_of_ne h).trans (slot_unpark_of_ne h))
      h.symm
  · next he =>
    exact Section.leaves_of_unconcerned ((slot_enqueue_of_ne h he).trans (slot_unpark_of_ne h))
      h.symm

theorem expire_finish_moves (pending : ReservedLease) (now_ms : ℕ) (ok : Bool)
    (h : inner.slot id = (Place.out .expiring pending).slot) :
    (expire_finish c inner id pending now_ms ok).Moves fresh id (.out .expiring pending) := by
  have hfree : (inner.unpark id pending.addresses).slot id = Place.free.slot := slot_unpark_self h
  rw [expire_finish]
  split
  · exact ⟨.free, hfree, rfl, .expire_frees pending⟩
  split
  · exact ⟨.reserved pending, slot_insert_pending hfree, rfl, .expire_restores pending⟩
  · next he => exact ⟨.quarantined _, slot_enqueue hfree he, rfl, .expire_quarantines pending _ _⟩

theorem release_finish_leaves (taken : Lease) (now_ms : ℕ) (ok : Bool) (h : session_id ≠ id) :
    (release_finish c inner id taken now_ms ok).Leaves inner session_id p := by
  rw [release_finish]
  split
  · exact Section.leaves_of_unconcerned (slot_unpark_of_ne h) h.symm
  split
  · exact Section.leaves_of_unconcerned ((slot_insert_active_of_ne h).trans (slot_unpark_of_ne h))
      h.symm
  · next he =>
    exact Section.leaves_of_unconcerned ((slot_enqueue_of_ne h he).trans (slot_unpark_of_ne h))
      h.symm

theorem release_finish_moves (taken : Lease) (now_ms : ℕ) (ok : Bool)
    (h : inner.slot id = (Place.out .releasing taken).slot) :
    (release_finish c inner id taken now_ms ok).Moves fresh id (.out .releasing taken) := by
  have hfree : (inner.unpark id taken.addresses).slot id = Place.free.slot := slot_unpark_self h
  rw [release_finish]
  split
  · exact ⟨.free, hfree, rfl, .release_frees taken⟩
  split
  · exact ⟨.active taken, slot_insert_active hfree, rfl, .release_restores taken⟩
  · next he => exact ⟨.quarantined _, slot_enqueue hfree he, rfl, .release_quarantines taken _ _⟩

theorem renew_finish_leaves (plan : ActiveLease) (mono : ℕ) (ok : Bool) (h : session_id ≠ id) :
    (renew_finish inner id plan mono ok).Leaves inner session_id p := by
  have hslot : ({ inner with inflight := inner.inflight.erase id } : Inner).slot session_id =
      inner.slot session_id := by
    simp [Inner.slot, h]
  rw [renew_finish]
  dsimp only
  split
  · exact Section.leaves_of_unconcerned hslot h.symm
  split
  · split
    · exact Section.leaves_of_unconcerned ((slot_insert_active_of_ne h).trans hslot) h.symm
    · exact Section.leaves_of_unconcerned hslot h.symm
  · exact Section.leaves_of_unconcerned hslot h.symm

/-- The renewed entry is still the one that was parked. -/
theorem renew_finish_moves (plan : ActiveLease) (mono : ℕ) (ok : Bool)
    (h : inner.slot id = (Place.renewing plan mono).slot) :
    (renew_finish inner id plan mono ok).Moves fresh id (.renewing plan mono) := by
  have hl : inner.active.lookup id = some plan := congrArg Slot.active h
  have hslot : ({ inner with inflight := inner.inflight.erase id } : Inner).slot id =
      (Place.active plan).slot := by
    simp_all [Inner.slot, Place.slot]
  rw [renew_finish]
  dsimp only
  split
  · exact ⟨.active plan, hslot, rfl, .renew_fails plan mono⟩
  simp only [hl, and_self, if_true]
  refine ⟨.active { plan with expires_at_ms := mono }, ?_, rfl, .renew_ok plan mono⟩
  simp_all [Section.returns, Inner.slot, Place.slot]

/-! ## Sweeps -/

/-- No session is both reserved and active, so a sweep batch names it once. -/
def Apart (inner : Inner) : Prop :=
  ∀ session_id, inner.pending.lookup session_id = none ∨ inner.active.lookup session_id = none

/-- The leases a sweep takes out, in map order. -/
def sweep_batch (inner : Inner) (now_ms : ℕ) : List Expired :=
  expired_in inner inner.pending true now_ms ++ expired_in inner inner.active false now_ms

theorem mem_expired_in {leases : Map SessionId Lease} {was_pending : Bool} {now_ms : ℕ}
    {e : Expired} (h : e ∈ expired_in inner leases was_pending now_ms) :
    leases.lookup e.id = some e.lease ∧ e.was_pending = was_pending ∧ e.id ∉ inner.inflight := by
  rw [expired_in, List.mem_map] at h
  obtain ⟨entry, hentry, rfl⟩ := h
  obtain ⟨hmem, hcond⟩ := List.mem_filter.mp hentry
  have hcond := of_decide_eq_true hcond
  exact ⟨AList.mem_entries_iff.mp hmem, rfl, hcond.1⟩

theorem expired_in_nodup (leases : Map SessionId Lease) (was_pending : Bool) (now_ms : ℕ) :
    ((expired_in inner leases was_pending now_ms).map (·.id)).Nodup := by
  rw [expired_in, List.map_map]
  have hkeys : (leases.entries.map (·.1)).Nodup := leases.nodupKeys
  exact List.Nodup.sublist (List.Sublist.map _ List.filter_sublist) hkeys

/-- Where a lease of the batch was taken from. -/
theorem mem_sweep_batch {now_ms : ℕ} {e : Expired} (h : e ∈ sweep_batch inner now_ms) :
    (if e.was_pending then inner.pending else inner.active).lookup e.id = some e.lease ∧
      e.id ∉ inner.inflight := by
  rcases List.mem_append.mp h with h | h
  · obtain ⟨hl, hw, hi⟩ := mem_expired_in h
    rw [hw]
    exact ⟨hl, hi⟩
  · obtain ⟨hl, hw, hi⟩ := mem_expired_in h
    rw [hw]
    exact ⟨hl, hi⟩

theorem sweep_batch_nodup (h : Apart inner) (now_ms : ℕ) :
    ((sweep_batch inner now_ms).map (·.id)).Nodup := by
  rw [sweep_batch, List.map_append, List.nodup_append]
  refine ⟨expired_in_nodup _ _ _, expired_in_nodup _ _ _, ?_⟩
  intro a ha b hb
  obtain ⟨e, he, rfl⟩ := List.mem_map.mp ha
  obtain ⟨e', he', rfl⟩ := List.mem_map.mp hb
  intro heq
  have hp := (mem_expired_in he).1
  have ha := (mem_expired_in he').1
  rcases h e.id with hnone | hnone
  · rw [hnone] at hp
    contradiction
  · rw [heq, ha] at hnone
    contradiction

theorem slot_take_expired_of_ne (e : Expired) (h : e.id ≠ session_id) :
    (take_expired inner e).slot session_id = inner.slot session_id := by
  rw [take_expired]
  split
  · exact (slot_park_of_ne h.symm).trans (slot_erase_pending_of_ne h.symm)
  · exact (slot_park_of_ne h.symm).trans (slot_erase_active_of_ne h.symm)

theorem slot_take_expired_self {e : Expired} {by_ : TakenBy} {lease : Lease}
    (h : inner.slot e.id = (if e.was_pending then Place.reserved e.lease
      else .active e.lease).slot) :
    (take_expired inner e).slot e.id = (Place.out by_ lease).slot := by
  rw [take_expired]
  split
  · next hw =>
    rw [if_pos hw] at h
    exact slot_park_self (slot_erase_pending h)
  · next hw =>
    rw [if_neg hw] at h
    exact slot_park_self (slot_erase_active h)

/-- The plan of a sweep over a batch without repeated sessions. -/
theorem parked_sweep_of_mem {batch : List Expired} (now_ms : ℕ) {e : Expired}
    (hnodup : (batch.map (·.id)).Nodup) (h : e ∈ batch) :
    (Plan.sweep batch now_ms).parked e.id = some (.out (.sweeping e.was_pending) e.lease) := by
  rw [Plan.parked, find?_key_eq_some hnodup h]
  rfl

theorem parked_sweep_of_notMem {batch : List Expired} (now_ms : ℕ)
    (h : session_id ∉ batch.map (·.id)) : (Plan.sweep batch now_ms).parked session_id = none := by
  rw [Plan.parked, List.find?_eq_none.mpr]
  · rfl
  · intro e he hid
    exact h (List.mem_map.mpr ⟨e, he, of_decide_eq_true hid⟩)

theorem sweep_sorted_perm (batch : List Expired) :
    (batch.insertionSort (fun a b => a.id.bytes.toNat ≤ b.id.bytes.toNat)).Perm batch :=
  List.perm_insertionSort _ _

theorem sweep_begin_moves (now_ms : ℕ) (hapart : Apart inner) (h : inner.slot id = p.slot)
    (hp : p.parked = none) : (sweep_begin inner now_ms).Moves fresh id p := by
  have hother : ∀ (inner : Inner) (e : Expired), e.id ≠ id →
      (take_expired inner e).slot id = inner.slot id := fun _ e he => slot_take_expired_of_ne e he
  have hnodup := sweep_batch_nodup hapart now_ms
  have hsorted := (sweep_sorted_perm (sweep_batch inner now_ms)).map (·.id)
  by_cases hmem : id ∈ (sweep_batch inner now_ms).map (·.id)
  · obtain ⟨e, he, rfl⟩ := List.mem_map.mp hmem
    obtain ⟨hl, hi⟩ := mem_sweep_batch he
    have hfrom : p = if e.was_pending then .reserved e.lease else .active e.lease := by
      cases hw : e.was_pending with
      | true =>
        rw [hw, if_pos rfl] at hl
        rw [if_pos rfl]
        exact Place.eq_reserved ((congrArg Slot.pending h).symm.trans hl)
      | false =>
        rw [hw] at hl
        exact Place.eq_active hp ((congrArg Slot.active h).symm.trans hl)
    obtain ⟨inner₀, hslot₀, hfold⟩ := foldl_view_of_mem Expired.id
      (fun inner : Inner => inner.slot e.id) hother inner hnodup he rfl
    refine ⟨.out (.sweeping e.was_pending) e.lease, ?_, ?_, .sweep_takes e.lease _ hfrom⟩
    · refine hfold.trans (slot_take_expired_self ?_)
      rw [hslot₀, h, hfrom]
    · exact parked_sweep_of_mem now_ms (hsorted.nodup_iff.mpr hnodup)
        ((sweep_sorted_perm _).mem_iff.mpr he)
  · refine ⟨p, ?_, ?_, .stay (.of_unconcerned (by simp [sweep_begin, Section.parks]))⟩
    · exact (foldl_view_of_notMem Expired.id (fun inner : Inner => inner.slot id) hother _ inner
        hmem).trans h
    · rw [hp]
      exact parked_sweep_of_notMem now_ms (fun hs => hmem (hsorted.mem_iff.mp hs))

/-- A session that another call has parked is not swept. -/
theorem sweep_begin_inflight (now_ms : ℕ) (h : id ∈ inner.inflight) :
    (sweep_begin inner now_ms).Leaves inner id p := by
  have hmem : id ∉ (sweep_batch inner now_ms).map (·.id) := by
    intro hmem
    obtain ⟨e, he, rfl⟩ := List.mem_map.mp hmem
    exact (mem_sweep_batch he).2 h
  have hsorted := (sweep_sorted_perm (sweep_batch inner now_ms)).map (·.id)
  refine ⟨?_, ?_, .of_unconcerned (by simp [sweep_begin, Section.parks])⟩
  · exact foldl_view_of_notMem Expired.id (fun inner : Inner => inner.slot id)
      (fun _ e he => slot_take_expired_of_ne e he) _ inner hmem
  · exact parked_sweep_of_notMem now_ms (fun hs => hmem (hsorted.mem_iff.mp hs))

theorem slot_settle_expired_of_ne (now_ms : ℕ) (e : Expired) (ok : Bool)
    (h : e.id ≠ session_id) :
    (settle_expired c now_ms inner e ok).slot session_id = inner.slot session_id := by
  have hunpark : (inner.unpark e.id e.lease.addresses).slot session_id = inner.slot session_id :=
    slot_unpark_of_ne h.symm
  rw [settle_expired]
  split
  · exact hunpark
  split
  · next he => exact (slot_enqueue_of_ne h.symm he).trans hunpark
  split
  · exact (slot_insert_pending_of_ne h.symm).trans hunpark
  · exact (slot_insert_active_of_ne h.symm).trans hunpark

/-- Where a swept lease ends up. -/
theorem settle_expired_cycle (now_ms : ℕ) (e : Expired) (ok : Bool) {by_ : TakenBy}
    (h : inner.slot e.id = (Place.out by_ e.lease).slot) {ids : List SessionId}
    (hids : e.id ∈ ids) :
    ∃ p' : Place, (settle_expired c now_ms inner e ok).slot e.id = p'.slot ∧ p'.parked = none ∧
      LeaseCycle fresh e.id (.out (.sweeping e.was_pending) e.lease) [.expired ids] p' := by
  have hfree : (inner.unpark e.id e.lease.addresses).slot e.id = Place.free.slot :=
    slot_unpark_self h
  rw [settle_expired]
  split
  · exact ⟨.free, hfree, rfl, .sweep_frees _ _ hids⟩
  split
  · next he => exact ⟨.quarantined _, slot_enqueue hfree he, rfl, .sweep_quarantines _ _ _ _ hids⟩
  have hrestores : LeaseCycle fresh e.id (.out (.sweeping e.was_pending) e.lease) [.expired ids]
      (if e.was_pending then .reserved e.lease else .active e.lease) :=
    .sweep_restores e.lease e.was_pending hids
  split
  · next hw =>
    rw [if_pos hw] at hrestores
    exact ⟨.reserved e.lease, slot_insert_pending hfree, rfl, hrestores⟩
  · next hw =>
    rw [if_neg hw] at hrestores
    exact ⟨.active e.lease, slot_insert_active hfree, rfl, hrestores⟩

theorem zip_map_id {batch : List Expired} {outcomes : List Bool}
    (hlen : outcomes.length = batch.length) :
    (batch.zip outcomes).map (fun e => e.1.id) = batch.map (·.id) := by
  have hfst : (batch.zip outcomes).map Prod.fst = batch :=
    List.map_fst_zip (Nat.le_of_eq hlen.symm)
  calc (batch.zip outcomes).map (fun e => e.1.id)
      = ((batch.zip outcomes).map Prod.fst).map (·.id) := by rw [List.map_map]; rfl
    _ = batch.map (·.id) := by rw [hfst]

theorem sweep_finish_leaves (batch : List Expired) (now_ms : ℕ) {outcomes : List Bool}
    (hlen : outcomes.length = batch.length) (h : session_id ∉ batch.map (·.id)) :
    (sweep_finish c inner batch now_ms outcomes).Leaves inner session_id p := by
  have hother : ∀ (inner : Inner) (e : Expired × Bool), e.1.id ≠ session_id →
      (settle_expired c now_ms inner e.1 e.2).slot session_id = inner.slot session_id :=
    fun _ e he => slot_settle_expired_of_ne now_ms e.1 e.2 he
  refine ⟨?_, rfl, .of_unconcerned ?_⟩
  · refine foldl_view_of_notMem (fun e : Expired × Bool => e.1.id)
      (fun inner : Inner => inner.slot session_id) hother _ inner ?_
    rw [zip_map_id hlen]
    exact h
  · intro e he
    rw [sweep_finish, List.mem_singleton] at he
    subst he
    exact h

theorem sweep_finish_moves (batch : List Expired) (now_ms : ℕ) {outcomes : List Bool}
    (hlen : outcomes.length = batch.length) (hnodup : (batch.map (·.id)).Nodup) {e : Expired}
    (he : e ∈ batch) (h : inner.slot e.id = (Place.out (.sweeping e.was_pending) e.lease).slot) :
    (sweep_finish c inner batch now_ms outcomes).Moves fresh e.id
      (.out (.sweeping e.was_pending) e.lease) := by
  obtain ⟨ok, hok⟩ : ∃ ok, (e, ok) ∈ batch.zip outcomes := by
    have hfst : e ∈ (batch.zip outcomes).map Prod.fst := by
      rwa [List.map_fst_zip (Nat.le_of_eq hlen.symm)]
    obtain ⟨⟨e', ok⟩, hmem, rfl⟩ := List.mem_map.mp hfst
    exact ⟨ok, hmem⟩
  rw [← zip_map_id hlen] at hnodup
  obtain ⟨inner₀, hslot₀, hfold⟩ := foldl_view_of_mem (fun e : Expired × Bool => e.1.id)
    (fun inner : Inner => inner.slot e.id)
    (fun _ e' he' => slot_settle_expired_of_ne (c := c) now_ms e'.1 e'.2 he') inner hnodup hok rfl
  have hids : e.id ∈ batch.map (·.id) := List.mem_map_of_mem he
  obtain ⟨p', hslot, hparked, hcycle⟩ :=
    settle_expired_cycle (c := c) now_ms e ok (hslot₀.trans h) hids
  exact ⟨p', hfold.trans hslot, hparked.symm, hcycle⟩

/-! ## Retries -/

/-- The selected batch names quarantined sessions that no call has parked, each
once. The induction is on the retry order; the set of parked sessions grows with
the batch. -/
theorem retry_select_batch (quarantine : Map SessionId ReleasePendingLease) (now_ms max_batch : ℕ)
    (order : List SessionId) (inflight : Finset SessionId) (taken : ℕ) :
    (retry_select quarantine now_ms max_batch order inflight taken).1.Nodup ∧
      ∀ id ∈ (retry_select quarantine now_ms max_batch order inflight taken).1,
        id ∈ quarantine ∧ id ∉ inflight := by
  induction order generalizing inflight taken with
  | nil => exact ⟨List.nodup_nil, fun _ h => absurd h List.not_mem_nil⟩
  | cons id order ih =>
    rw [retry_select]
    split
    · exact ih inflight taken
    next quarantined hl =>
    split
    · exact ih inflight taken
    next hskip =>
    split
    · exact ⟨List.nodup_nil, fun _ h => absurd h List.not_mem_nil⟩
    obtain ⟨hnodup, hmem⟩ := ih (insert id inflight) (taken + 1)
    refine ⟨List.nodup_cons.mpr ⟨?_, hnodup⟩, ?_⟩
    · intro hid
      exact (hmem id hid).2 (Finset.mem_insert_self _ _)
    · intro id' hid'
      rcases List.mem_cons.mp hid' with rfl | hid'
      · exact ⟨AList.mem_of_lookup hl, fun hi => hskip (.inl hi)⟩
      · obtain ⟨hq, hi⟩ := hmem id' hid'
        exact ⟨hq, fun h => hi (Finset.mem_insert_of_mem h)⟩

theorem retry_returns_idle (inner : Inner) (expired_ids : Option (List SessionId)) :
    ∃ e : PoolEvent, retry_returns inner expired_ids = .returns inner e ∧ e.Idle ∧
      ∀ session_id, ¬ e.Concerns session_id := by
  cases expired_ids with
  | some ids => exact ⟨.swept ids, rfl, trivial, fun _ => id⟩
  | none => exact ⟨.retried _, rfl, trivial, fun _ => id⟩

/-- A session of the selected batch is parked where it is; every other session is
left alone. -/
theorem retry_begin_cases (durable : Bool) (inner : Inner) (now_ms max_batch : ℕ)
    (expired_ids : Option (List SessionId)) :
    (∃ e : PoolEvent, e.Idle ∧ (∀ session_id, ¬ e.Concerns session_id) ∧ ∃ order,
      retry_begin durable inner now_ms max_batch expired_ids =
        .returns { inner with release_order := order } e) ∨
    ∃ batch order, batch.Nodup ∧ (∀ id ∈ batch, id ∈ inner.release_pending ∧ id ∉ inner.inflight) ∧
      retry_begin durable inner now_ms max_batch expired_ids =
        .parks { inner with release_order := order, inflight := inner.inflight ∪ batch.toFinset }
          (.retry batch now_ms expired_ids) := by
  unfold retry_begin
  split
  · left
    cases expired_ids with
    | some ids => exact ⟨.swept ids, trivial, fun _ => id, inner.release_order, rfl⟩
    | none => exact ⟨.retried 0, trivial, fun _ => id, inner.release_order, rfl⟩
  · obtain ⟨hnodup, hmem⟩ :=
      retry_select_batch inner.release_pending now_ms max_batch inner.release_order inner.inflight 0
    generalize retry_select inner.release_pending now_ms max_batch inner.release_order
      inner.inflight 0 = r at hnodup hmem
    obtain ⟨batch, remaining⟩ := r
    dsimp only at hnodup hmem ⊢
    split
    · next hnil =>
      left
      subst hnil
      obtain ⟨e, he, hidle, hcon⟩ := retry_returns_idle
        { inner with
          release_order := remaining
          inflight := inner.inflight ∪ ([] : List SessionId).toFinset } expired_ids
      refine ⟨e, hidle, hcon, remaining, ?_⟩
      rw [he]
      simp
    · exact .inr ⟨batch, remaining, hnodup, hmem, rfl⟩

theorem retry_begin_moves (durable : Bool) (now_ms max_batch : ℕ)
    (expired_ids : Option (List SessionId)) (h : inner.slot id = p.slot) (hp : p.parked = none) :
    (retry_begin durable inner now_ms max_batch expired_ids).Moves fresh id p := by
  rcases retry_begin_cases durable inner now_ms max_batch expired_ids with
    ⟨e, hidle, _, order, he⟩ | ⟨batch, order, _, hmem, he⟩
  · rw [he]
    exact ⟨p, h, hp.symm, .stay (.of_idle hidle)⟩
  · rw [he]
    by_cases hid : id ∈ batch
    · obtain ⟨quarantined, hl⟩ := AList.mem_iff_lookup.mp (hmem id hid).1
      obtain rfl := Place.eq_quarantined hp ((congrArg Slot.quarantined h).symm.trans hl)
      refine ⟨.retrying quarantined, ?_, if_pos hid, .retry_parks quarantined rfl⟩
      simp_all [Section.parks, Inner.slot, Place.slot]
    · refine ⟨p, ?_, (if_neg hid).trans hp.symm, .stay (.of_unconcerned (by simp [Section.parks]))⟩
      rw [← h]
      simp [Section.parks, Inner.slot, hid]

theorem retry_begin_inflight (durable : Bool) (now_ms max_batch : ℕ)
    (expired_ids : Option (List SessionId)) (h : id ∈ inner.inflight) :
    (retry_begin durable inner now_ms max_batch expired_ids).Leaves inner id p := by
  rcases retry_begin_cases durable inner now_ms max_batch expired_ids with
    ⟨e, hidle, _, order, he⟩ | ⟨batch, order, _, hmem, he⟩
  · rw [he]
    exact ⟨rfl, rfl, .of_idle hidle⟩
  · have hid : id ∉ batch := fun hid => (hmem id hid).2 h
    rw [he]
    refine ⟨?_, if_neg hid, .of_unconcerned (by simp [Section.parks])⟩
    simp [Section.parks, Inner.slot, hid]

theorem slot_settle_retry_of_ne (now_ms : ℕ) (ok : Bool) (h : id ≠ session_id) :
    (settle_retry now_ms inner id ok).slot session_id = inner.slot session_id := by
  rw [settle_retry]
  split
  · simp [Inner.slot, AList.lookup_erase_ne h.symm, Ne.symm h]
  split
  · simp [Inner.slot, AList.lookup_insert_ne h.symm, Ne.symm h]
  · simp [Inner.slot, Ne.symm h]

/-- Where a retried lease ends up. -/
theorem settle_retry_cycle (now_ms : ℕ) (ok : Bool) {lease : ReleasePendingLease}
    {events : List PoolEvent} (h : inner.slot id = (Place.retrying lease).slot)
    (hquiet : Quiet id .free events) :
    ∃ p' : Place, (settle_retry now_ms inner id ok).slot id = p'.slot ∧ p'.parked = none ∧
      LeaseCycle fresh id (.retrying lease) events p' := by
  have hl : inner.release_pending.lookup id = some lease := congrArg Slot.quarantined h
  rw [settle_retry]
  split
  · refine ⟨.free, ?_, rfl, .retry_frees lease hquiet⟩
    simp_all [Inner.slot, Place.slot]
  · simp only [hl]
    refine ⟨_, ?_, rfl, .retry_fails lease (saturatingAdd lease.attempts 1)
      (next_retry_deadline now_ms (saturatingAdd lease.attempts 1)) hquiet⟩
    simp_all [Inner.slot, Place.slot]

theorem retry_finish_leaves {batch : List SessionId} (now_ms : ℕ)
    (expired_ids : Option (List SessionId)) {outcomes : List Bool}
    (hlen : outcomes.length = batch.length) (h : session_id ∉ batch) :
    (retry_finish inner batch now_ms expired_ids outcomes).Leaves inner session_id p := by
  have hother : ∀ (inner : Inner) (e : SessionId × Bool), e.1 ≠ session_id →
      (settle_retry now_ms inner e.1 e.2).slot session_id = inner.slot session_id :=
    fun _ e he => slot_settle_retry_of_ne now_ms e.2 he
  rw [retry_finish]
  obtain ⟨e, he, hidle, _⟩ := retry_returns_idle ((batch.zip outcomes).foldl
    (fun inner e => settle_retry now_ms inner e.1 e.2) inner) expired_ids
  rw [he]
  refine ⟨?_, rfl, .of_idle hidle⟩
  refine foldl_view_of_notMem Prod.fst (fun inner : Inner => inner.slot session_id) hother _ inner ?_
  rw [List.map_fst_zip (Nat.le_of_eq hlen.symm)]
  exact h

theorem retry_finish_moves {batch : List SessionId} (now_ms : ℕ)
    (expired_ids : Option (List SessionId)) {outcomes : List Bool}
    (hlen : outcomes.length = batch.length) (hnodup : batch.Nodup) (hid : id ∈ batch)
    {lease : ReleasePendingLease} (h : inner.slot id = (Place.retrying lease).slot) :
    (retry_finish inner batch now_ms expired_ids outcomes).Moves fresh id (.retrying lease) := by
  have hother : ∀ (inner : Inner) (e : SessionId × Bool), e.1 ≠ id →
      (settle_retry now_ms inner e.1 e.2).slot id = inner.slot id :=
    fun _ e he => slot_settle_retry_of_ne now_ms e.2 he
  have hfst : (batch.zip outcomes).map Prod.fst = batch :=
    List.map_fst_zip (Nat.le_of_eq hlen.symm)
  obtain ⟨⟨id', ok⟩, hok, rfl⟩ := List.mem_map.mp (hfst.symm ▸ hid)
  rw [← hfst] at hnodup
  obtain ⟨inner₀, hslot₀, hfold⟩ := foldl_view_of_mem Prod.fst
    (fun inner : Inner => inner.slot id') hother inner hnodup hok rfl
  rw [retry_finish]
  obtain ⟨e, he, hidle, _⟩ := retry_returns_idle ((batch.zip outcomes).foldl
    (fun inner e => settle_retry now_ms inner e.1 e.2) inner) expired_ids
  rw [he]
  obtain ⟨p', hslot, hparked, hcycle⟩ :=
    settle_retry_cycle now_ms ok (hslot₀.trans h) (Quiet.of_idle hidle)
  exact ⟨p', hfold.trans hslot, hparked.symm, hcycle⟩

/-! ## Deferred release -/

theorem release_deferred_of_ne (h : session_id ≠ id) :
    (release_deferred c inner id).1.slot session_id = inner.slot session_id := by
  rw [release_deferred]
  split
  · rfl
  split
  · rfl
  next inner' lease ht =>
  split
  · next he => exact (slot_enqueue_of_ne h he).trans (take_of_ne ht h)
  · exact (slot_insert_active_of_ne h).trans (take_of_ne ht h)

theorem release_deferred_inflight (h : id ∈ inner.inflight) :
    release_deferred c inner id = (inner, false) := by
  rw [release_deferred, if_pos (.inl h)]

theorem release_deferred_moves (h : inner.slot id = p.slot) (hp : p.parked = none) :
    ∃ p' : Place, (release_deferred c inner id).1.slot id = p'.slot ∧ p'.parked = none ∧
      LeaseCycle fresh id p [.deferred id (release_deferred c inner id).2] p' := by
  have hidle : (PoolEvent.deferred id false).Idle := rfl
  rw [release_deferred]
  split
  · exact ⟨p, h, hp, .stay (.of_idle hidle)⟩
  split
  · exact ⟨p, h, hp, .stay (.of_idle hidle)⟩
  next inner' lease ht =>
  obtain ⟨hfrom, hfree, _⟩ := take_cases ht h hp
  split
  · next he => exact ⟨.quarantined _, slot_enqueue hfree he, rfl, .defer_quarantines lease _ _ hfrom⟩
  · exact ⟨.active lease, slot_insert_active hfree, rfl, .defer_restores lease hfrom⟩

/-! ## Whole sections -/

/-- The addresses a call may pick for a session: a reserve of that session takes
what the allocator finds free, its own expired reservation being dropped first. -/
def Allocates (c : AddressPoolConfig) (inner : Inner) (call : PoolCall) (session_id : SessionId)
    (a : AssignedAddresses) : Prop :=
  (∃ device_id now, call = .reserve session_id device_id now) ∧
    ∃ inner' : Inner,
      (inner' = inner ∨ inner' = { inner with pending := inner.pending.erase session_id }) ∧
        inner'.allocate_locked c = .ok a

theorem inflight_of_parked (h : inner.slot id = p.slot) (hp : p.parked.isSome) :
    id ∈ inner.inflight := by
  have hi : decide (id ∈ inner.inflight) = p.parked.isSome := by
    rw [Place.parked_isSome, ← h]
    rfl
  rw [hp] at hi
  exact of_decide_eq_true hi

/-- The first section of a call moves every session that no call has parked. -/
theorem begin_moves (durable : Bool) (call : PoolCall) (hapart : Apart inner)
    (h : inner.slot id = p.slot) (hp : p.parked = none) :
    (begin_ c durable inner call).Moves (Allocates c inner call id) id p := by
  cases call with
  | reserve subject device_id now =>
    by_cases hs : id = subject
    · subst hs
      exact reserve_begin_moves device_id now h hp
        (fun inner' a _ hi ha => ⟨⟨device_id, now, rfl⟩, inner', hi, ha⟩)
    · exact (reserve_begin_leaves device_id now hs).moves h hp
  | commit subject now =>
    by_cases hs : id = subject
    · subst hs
      exact commit_begin_moves now h hp
    · exact (commit_begin_leaves now hs).moves h hp
  | release_at subject now_ms =>
    by_cases hs : id = subject
    · subst hs
      exact release_begin_moves now_ms h hp
    · exact (release_begin_leaves now_ms hs).moves h hp
  | renew subject now =>
    by_cases hs : id = subject
    · subst hs
      exact renew_begin_moves now h hp
    · exact (renew_begin_leaves now hs).moves h hp
  | sweep now_ms => exact sweep_begin_moves now_ms hapart h hp
  | retry_pending_releases_bounded now_ms max_batch =>
    exact retry_begin_moves durable now_ms max_batch none h hp

/-- The first section of a call leaves a parked session alone. -/
theorem begin_leaves (durable : Bool) (call : PoolCall) (h : id ∈ inner.inflight) :
    (begin_ c durable inner call).Leaves inner id p := by
  cases call with
  | reserve subject device_id now =>
    by_cases hs : id = subject
    · subst hs
      exact (begin_inflight h device_id now 0).1
    · exact reserve_begin_leaves device_id now hs
  | commit subject now =>
    by_cases hs : id = subject
    · subst hs
      exact (begin_inflight h ⟨0⟩ now 0).2.1
    · exact commit_begin_leaves now hs
  | release_at subject now_ms =>
    by_cases hs : id = subject
    · subst hs
      exact (begin_inflight (c := c) h ⟨0⟩ ⟨0, 0⟩ now_ms).2.2.1
    · exact release_begin_leaves now_ms hs
  | renew subject now =>
    by_cases hs : id = subject
    · subst hs
      exact (begin_inflight h ⟨0⟩ now 0).2.2.2
    · exact renew_begin_leaves now hs
  | sweep now_ms => exact sweep_begin_inflight now_ms h
  | retry_pending_releases_bounded now_ms max_batch =>
    exact retry_begin_inflight durable now_ms max_batch none h

end AddressPool

/-- The batch of a plan names every session once. -/
def Plan.Distinct : Plan → Prop
  | .sweep batch _ => (batch.map (·.id)).Nodup
  | .retry batch _ _ => batch.Nodup
  | _ => True

namespace AddressPool

variable {c : AddressPoolConfig} {inner : Inner} {id session_id : SessionId} {p : Place}
  {fresh : AssignedAddresses → Prop}

/-- A later section moves the sessions of its plan, and every session at rest. -/
theorem resume_moves (durable : Bool) {plan : Plan} (hdistinct : plan.Distinct)
    {outcomes : List Bool} (hlen : outcomes.length = plan.store_ops.length)
    (h : inner.slot id = p.slot) (hp : p.parked = plan.parked id) :
    (resume c durable inner outcomes plan).Moves fresh id p := by
  have hnone : ∀ k, p.parked = some k → p.parked ≠ none := fun k hk => by simp [hk]
  cases plan with
  | reserve subject lease wall =>
    by_cases hs : id = subject
    · subst hs
      rw [Plan.parked, if_pos rfl] at hp
      obtain rfl := Place.eq_out hp
      exact reserve_finish_moves lease _ h
    · rw [Plan.parked, if_neg hs] at hp
      exact (reserve_finish_leaves lease _ hs).moves h hp
  | promote subject pending mono wall =>
    by_cases hs : id = subject
    · subst hs
      rw [Plan.parked, if_pos rfl] at hp
      obtain rfl := Place.eq_out hp
      exact promote_finish_moves pending mono _ h
    · rw [Plan.parked, if_neg hs] at hp
      exact (promote_finish_leaves pending mono _ hs).moves h hp
  | expire subject pending now_ms =>
    by_cases hs : id = subject
    · subst hs
      rw [Plan.parked, if_pos rfl] at hp
      obtain rfl := Place.eq_out hp
      exact expire_finish_moves pending now_ms _ h
    · rw [Plan.parked, if_neg hs] at hp
      exact (expire_finish_leaves pending now_ms _ hs).moves h hp
  | release subject taken now_ms =>
    by_cases hs : id = subject
    · subst hs
      rw [Plan.parked, if_pos rfl] at hp
      obtain rfl := Place.eq_out hp
      exact release_finish_moves taken now_ms _ h
    · rw [Plan.parked, if_neg hs] at hp
      exact (release_finish_leaves taken now_ms _ hs).moves h hp
  | renew subject active mono wall =>
    by_cases hs : id = subject
    · subst hs
      rw [Plan.parked, if_pos rfl] at hp
      obtain rfl := Place.eq_renewing hp
      exact renew_finish_moves active mono _ h
    · rw [Plan.parked, if_neg hs] at hp
      exact (renew_finish_leaves active mono _ hs).moves h hp
  | sweep batch now_ms =>
    have hlen' : outcomes.length = batch.length := by
      rw [hlen, Plan.store_ops, List.length_map]
    by_cases hs : id ∈ batch.map (·.id)
    · obtain ⟨e, he, rfl⟩ := List.mem_map.mp hs
      rw [parked_sweep_of_mem now_ms hdistinct he] at hp
      obtain rfl := Place.eq_out hp
      exact sweep_finish_moves batch now_ms hlen' hdistinct he h
    · rw [parked_sweep_of_notMem now_ms hs] at hp
      exact (sweep_finish_leaves batch now_ms hlen' hs).moves h hp
  | swept expired_ids now_ms =>
    exact retry_begin_moves durable now_ms MAX_RETRY_BATCH (some expired_ids) h hp
  | retry batch now_ms expired_ids =>
    have hlen' : outcomes.length = batch.length := by
      rw [hlen, Plan.store_ops, List.length_map]
    by_cases hs : id ∈ batch
    · rw [Plan.parked, if_pos hs] at hp
      obtain ⟨lease, rfl⟩ := Place.eq_retrying hp
      exact retry_finish_moves now_ms expired_ids hlen' hdistinct hs h
    · rw [Plan.parked, if_neg hs] at hp
      exact (retry_finish_leaves now_ms expired_ids hlen' hs).moves h hp

/-- A later section leaves the sessions of other plans alone. -/
theorem resume_leaves (durable : Bool) {plan : Plan} {outcomes : List Bool}
    (hlen : outcomes.length = plan.store_ops.length) (h : id ∈ inner.inflight)
    (hp : plan.parked id = none) : (resume c durable inner outcomes plan).Leaves inner id p := by
  have hne : ∀ {subject : SessionId} {k : Parked},
      (if id = subject then some k else none) = none → id ≠ subject := by
    intro subject k hk hs
    rw [if_pos hs] at hk
    contradiction
  cases plan with
  | reserve subject lease wall => exact reserve_finish_leaves lease _ (hne hp)
  | promote subject pending mono wall => exact promote_finish_leaves pending mono _ (hne hp)
  | expire subject pending now_ms => exact expire_finish_leaves pending now_ms _ (hne hp)
  | release subject taken now_ms => exact release_finish_leaves taken now_ms _ (hne hp)
  | renew subject active mono wall => exact renew_finish_leaves active mono _ (hne hp)
  | sweep batch now_ms =>
    refine sweep_finish_leaves batch now_ms ?_ ?_
    · rw [hlen, Plan.store_ops, List.length_map]
    · intro hs
      obtain ⟨e, he, rfl⟩ := List.mem_map.mp hs
      rw [Plan.parked, Option.map_eq_none_iff, List.find?_eq_none] at hp
      exact hp e he (decide_eq_true rfl)
  | swept expired_ids now_ms =>
    exact retry_begin_inflight durable now_ms MAX_RETRY_BATCH (some expired_ids) h
  | retry batch now_ms expired_ids =>
    refine retry_finish_leaves now_ms expired_ids ?_ ?_
    · rw [hlen, Plan.store_ops, List.length_map]
    · intro hs
      rw [Plan.parked, if_pos hs] at hp
      contradiction

/-! ## What the sections park -/

/-- The calls that park a plan in their first section. -/
def starts (call : PoolCall) : Plan → Prop
  | .reserve session_id _ _ => ∃ device_id now, call = .reserve session_id device_id now
  | .promote session_id _ _ _ | .expire session_id _ _ => ∃ now, call = .commit session_id now
  | .release session_id _ now_ms => call = .release_at session_id now_ms
  | .renew session_id _ _ _ => ∃ now, call = .renew session_id now
  | .sweep _ now_ms => call = .sweep now_ms
  -- the end of a sweep is parked by its later sections
  | .swept _ _ => False
  | .retry _ now_ms expired_ids =>
    expired_ids = none ∧ ∃ max_batch, call = .retry_pending_releases_bounded now_ms max_batch

theorem begin_starts (durable : Bool) (call : PoolCall) {plan : Plan}
    (h : (begin_ c durable inner call).plan = some plan) : starts call plan := by
  cases call with
  | sweep now_ms =>
    cases h
    rfl
  | retry_pending_releases_bounded now_ms max_batch =>
    rcases retry_begin_cases durable inner now_ms max_batch none with
      ⟨e, _, _, order, he⟩ | ⟨batch, order, _, _, he⟩
    · rw [begin_, he] at h
      cases h
    · rw [begin_, he] at h
      cases h
      exact ⟨rfl, max_batch, rfl⟩
  | reserve session_id device_id now =>
    simp only [begin_, reserve_begin, reserve_new] at h
    repeat' split at h
    all_goals cases h
    all_goals exact ⟨device_id, now, rfl⟩
  | commit session_id now =>
    simp only [begin_, commit_begin] at h
    repeat' split at h
    all_goals cases h
    all_goals exact ⟨now, rfl⟩
  | release_at session_id now_ms =>
    simp only [begin_, release_begin] at h
    repeat' split at h
    all_goals cases h
    rfl
  | renew session_id now =>
    simp only [begin_, renew_begin] at h
    repeat' split at h
    all_goals cases h
    exact ⟨now, rfl⟩

/-- A pool without a store parks no retry. -/
theorem retry_begin_ephemeral (inner : Inner) (now_ms max_batch : ℕ)
    (expired_ids : Option (List SessionId)) :
    (retry_begin false inner now_ms max_batch expired_ids).plan = none := by
  cases expired_ids <;> rfl

/-- A later section parks nothing but the next part of a sweep. -/
theorem resume_parks (durable : Bool) {plan plan' : Plan} {outcomes : List Bool}
    (h : (resume c durable inner outcomes plan).plan = some plan') :
    (∃ batch now_ms expired_ids, plan = .sweep batch now_ms ∧
        plan' = .swept expired_ids now_ms) ∨
      ∃ expired_ids now_ms batch, durable = true ∧ plan = .swept expired_ids now_ms ∧
        batch.Nodup ∧ plan' = .retry batch now_ms (some expired_ids) := by
  cases plan with
  | swept expired_ids now_ms =>
    right
    rw [resume] at h
    cases durable with
    | false =>
      rw [retry_begin_ephemeral] at h
      contradiction
    | true =>
      rcases retry_begin_cases true inner now_ms MAX_RETRY_BATCH (some expired_ids) with
        ⟨e, _, _, order, he⟩ | ⟨batch, order, hnodup, _, he⟩
      · rw [he] at h
        cases h
      · rw [he] at h
        cases h
        exact ⟨expired_ids, now_ms, batch, rfl, rfl, hnodup, rfl⟩
  | sweep batch now_ms =>
    cases h
    exact .inl ⟨batch, now_ms, _, rfl, rfl⟩
  | retry batch now_ms expired_ids =>
    rw [resume, retry_finish] at h
    cases expired_ids <;> cases h
  | reserve _ _ _ =>
    simp only [resume, reserve_finish] at h
    repeat' split at h
    all_goals cases h
  | promote _ _ _ _ =>
    simp only [resume, promote_finish] at h
    repeat' split at h
    all_goals cases h
  | expire _ _ _ =>
    simp only [resume, expire_finish] at h
    repeat' split at h
    all_goals cases h
  | release _ _ _ =>
    simp only [resume, release_finish] at h
    repeat' split at h
    all_goals cases h
  | renew _ _ _ _ =>
    simp only [resume, renew_finish] at h
    repeat' split at h
    all_goals cases h

/-- Only a sweep call parks a sweep, of the leases that are expired. -/
theorem begin_plan_sweep (durable : Bool) (call : PoolCall) {batch : List Expired} {now_ms : ℕ}
    (h : (begin_ c durable inner call).plan = some (.sweep batch now_ms)) :
    batch.Perm (sweep_batch inner now_ms) := by
  obtain rfl : call = .sweep now_ms := begin_starts durable call h
  obtain ⟨rfl, -⟩ := Plan.sweep.inj (Option.some.inj h)
  exact sweep_sorted_perm _

theorem begin_plan_retry (durable : Bool) (call : PoolCall) {batch : List SessionId} {now_ms : ℕ}
    {expired_ids : Option (List SessionId)}
    (h : (begin_ c durable inner call).plan = some (.retry batch now_ms expired_ids)) :
    batch.Nodup := by
  obtain ⟨-, max_batch, rfl⟩ := begin_starts durable call h
  rcases retry_begin_cases durable inner now_ms max_batch none with
    ⟨e, _, _, order, he⟩ | ⟨batch', order, hnodup, _, he⟩
  · rw [begin_, he] at h
    cases h
  · rw [begin_, he] at h
    cases h
    exact hnodup

/-- The plans a first section parks name every session once. -/
theorem begin_distinct (durable : Bool) (call : PoolCall) (hapart : Apart inner) {plan : Plan}
    (h : (begin_ c durable inner call).plan = some plan) : plan.Distinct := by
  cases plan with
  | sweep batch now_ms =>
    exact ((begin_plan_sweep durable call h).map _).nodup_iff.mpr (sweep_batch_nodup hapart now_ms)
  | retry batch now_ms expired_ids => exact begin_plan_retry durable call h
  | _ => trivial

theorem resume_distinct (durable : Bool) {plan plan' : Plan} {outcomes : List Bool}
    (h : (resume c durable inner outcomes plan).plan = some plan') : plan'.Distinct := by
  rcases resume_parks durable h with ⟨_, _, _, _, rfl⟩ | ⟨_, _, _, _, _, hnodup, rfl⟩
  · trivial
  · exact hnodup

end AddressPool

end StreamGuard.Gateway
