/-
The life cycle of one session's lease, as an abstract machine.

`Place` says where a lease is: free, at rest in one of the three maps of the
pool, or parked by a call that dropped the lock. `LeaseCycle` lists every
transition a lock section can make on it, with what the section reports. The
pool of `AddressPool.lean` refines this machine session by session
(`PoolSystem.lean`); what holds of a lease over a whole run is read off here.
-/
import StreamGuard.Gateway.AddressPool

set_option autoImplicit false

namespace StreamGuard.Gateway

open StreamGuard StreamGuard.Lib

/-! ## Events -/

namespace PoolEvent

/-- A reserve or commit call of `session_id` returned these addresses. -/
def hands (session_id : SessionId) (addresses : AssignedAddresses) (e : PoolEvent) : Prop :=
  e = .reserved session_id (.ok addresses) ∨ e = .committed session_id (.ok addresses)

/-- The event ends the lease of a session: a release returned true, or a sweep
reports it expired. -/
def ends (session_id : SessionId) : PoolEvent → Prop
  | .released id result => id = session_id ∧ result = .ok true
  | .deferred id result => id = session_id ∧ result = true
  | .expired ids => session_id ∈ ids
  | _ => False

instance (session_id : SessionId) : DecidablePred (ends session_id)
  | .reserved _ _ | .committed _ _ | .renewed _ _ | .swept _ | .retried _ =>
    inferInstanceAs (Decidable False)
  | .released id result => inferInstanceAs (Decidable (id = session_id ∧ result = .ok true))
  | .deferred id result => inferInstanceAs (Decidable (id = session_id ∧ result = true))
  | .expired ids => inferInstanceAs (Decidable (session_id ∈ ids))

end PoolEvent

/-! ## Places -/

/-- Why a lease is out of the maps. -/
inductive TakenBy where
  | reserving
  | promoting (active_expires_at_ms : ℕ)
  | expiring
  | releasing
  | sweeping (was_pending : Bool)

/-- What a parked call does with one of its sessions. -/
inductive Parked where
  | out (by_ : TakenBy) (lease : Lease)
  | renewing (active : ActiveLease) (renewed_expires_at_ms : ℕ)
  | retrying

/-- Where the lease of a session is. -/
inductive Place where
  | free
  | reserved (lease : ReservedLease)
  | active (lease : ActiveLease)
  | quarantined (lease : ReleasePendingLease)
  /-- Taken out of the maps by a parked call. -/
  | out (by_ : TakenBy) (lease : Lease)
  /-- Parked by a renewal, still in the active map. -/
  | renewing (lease : ActiveLease) (renewed_expires_at_ms : ℕ)
  /-- Parked by a retry, still in the quarantine. -/
  | retrying (lease : ReleasePendingLease)

namespace Place

/-- The addresses the lease blocks. -/
def addresses : Place → Option AssignedAddresses
  | .free => none
  | .reserved lease | .active lease | .out _ lease | .renewing lease _ => some lease.addresses
  | .quarantined lease | .retrying lease => some lease.addresses

/-- The call that parks the session, if any. -/
def parked : Place → Option Parked
  | .free | .reserved _ | .active _ | .quarantined _ => none
  | .out by_ lease => some (.out by_ lease)
  | .renewing lease mono => some (.renewing lease mono)
  | .retrying _ => some .retrying

/-- A committed lease: Active, or taken from Active by a call that has not
reported yet. A release that fails puts the lease back. -/
def Firm (addresses : AssignedAddresses) : Place → Prop
  | .active lease | .renewing lease _ => lease.addresses = addresses
  | .out .releasing lease | .out (.sweeping false) lease => lease.addresses = addresses
  | _ => False

end Place

/-! ## Transitions -/

/-- The replies a section may give about a session whose place it leaves alone. -/
structure Quiet (session_id : SessionId) (p : Place) (events : List PoolEvent) : Prop where
  lasting : ∀ e ∈ events, ¬ e.ends session_id
  reserved : ∀ a, .reserved session_id (.ok a) ∈ events → p.addresses = some a ∧ p.parked = none
  committed : ∀ a, .committed session_id (.ok a) ∈ events →
    (∃ lease, p = .active lease ∧ lease.addresses = a) ∨
      ∃ lease, p = .quarantined lease ∧ lease.addresses = a

/-- What one lock section does to the lease of `session_id`. `fresh` are the
addresses the allocator may hand out in that section. -/
inductive LeaseCycle (fresh : AssignedAddresses → Prop) (session_id : SessionId) :
    Place → List PoolEvent → Place → Prop where
  | stay {p events} (h : Quiet session_id p events) : LeaseCycle fresh session_id p events p
  /-- A new candidate; an expired reservation of the session is replaced. -/
  | reserve_parks {p} (lease : ReservedLease) (hp : p = .free ∨ ∃ old, p = .reserved old)
      (h : fresh lease.addresses) :
      LeaseCycle fresh session_id p [] (.out .reserving lease)
  /-- An expired reservation is dropped and no address is free. -/
  | reserve_drops (old : ReservedLease) :
      LeaseCycle fresh session_id (.reserved old)
        [.reserved session_id (.error .Exhausted)] .free
  | reserve_ok (lease : ReservedLease) :
      LeaseCycle fresh session_id (.out .reserving lease)
        [.reserved session_id (.ok lease.addresses)] (.reserved lease)
  | reserve_fails (lease : ReservedLease) :
      LeaseCycle fresh session_id (.out .reserving lease)
        [.reserved session_id (.error .Store)] .free
  | commit_promotes (lease : ReservedLease) (mono : ℕ) :
      LeaseCycle fresh session_id (.reserved lease) [] (.out (.promoting mono) lease)
  | promote_ok (lease : ReservedLease) (mono : ℕ) :
      LeaseCycle fresh session_id (.out (.promoting mono) lease)
        [.committed session_id (.ok lease.addresses)]
        (.active { lease with expires_at_ms := mono })
  | promote_fails (lease : ReservedLease) (mono : ℕ) :
      LeaseCycle fresh session_id (.out (.promoting mono) lease)
        [.committed session_id (.error .Store)] (.reserved lease)
  | commit_expires (lease : ReservedLease) :
      LeaseCycle fresh session_id (.reserved lease) [] (.out .expiring lease)
  | expire_frees (lease : ReservedLease) :
      LeaseCycle fresh session_id (.out .expiring lease)
        [.committed session_id (.error .Expired)] .free
  | expire_quarantines (lease : ReservedLease) (attempts next_retry_ms : ℕ) :
      LeaseCycle fresh session_id (.out .expiring lease)
        [.committed session_id (.error .Expired)] (.quarantined ⟨lease, attempts, next_retry_ms⟩)
  | expire_restores (lease : ReservedLease) :
      LeaseCycle fresh session_id (.out .expiring lease)
        [.committed session_id (.error .Store)] (.reserved lease)
  | release_takes {p} (lease : Lease) (hp : p = .reserved lease ∨ p = .active lease) :
      LeaseCycle fresh session_id p [] (.out .releasing lease)
  | release_frees (lease : Lease) :
      LeaseCycle fresh session_id (.out .releasing lease)
        [.released session_id (.ok true)] .free
  | release_quarantines (lease : Lease) (attempts next_retry_ms : ℕ) :
      LeaseCycle fresh session_id (.out .releasing lease)
        [.released session_id (.ok true)] (.quarantined ⟨lease, attempts, next_retry_ms⟩)
  /-- The quarantine is full: the lease is put back, as Active. -/
  | release_restores (lease : Lease) :
      LeaseCycle fresh session_id (.out .releasing lease)
        [.released session_id (.error .Store)] (.active lease)
  | defer_quarantines {p} (lease : Lease) (attempts next_retry_ms : ℕ)
      (hp : p = .reserved lease ∨ p = .active lease) :
      LeaseCycle fresh session_id p [.deferred session_id true]
        (.quarantined ⟨lease, attempts, next_retry_ms⟩)
  /-- The same for a deferred release. -/
  | defer_restores {p} (lease : Lease) (hp : p = .reserved lease ∨ p = .active lease) :
      LeaseCycle fresh session_id p [.deferred session_id false] (.active lease)
  | renew_parks (lease : ActiveLease) (mono : ℕ) :
      LeaseCycle fresh session_id (.active lease) [] (.renewing lease mono)
  | renew_ok (lease : ActiveLease) (mono : ℕ) :
      LeaseCycle fresh session_id (.renewing lease mono) [.renewed session_id (.ok ())]
        (.active { lease with expires_at_ms := mono })
  | renew_fails (lease : ActiveLease) (mono : ℕ) :
      LeaseCycle fresh session_id (.renewing lease mono)
        [.renewed session_id (.error .Store)] (.active lease)
  | sweep_takes {p} (lease : Lease) (was_pending : Bool)
      (hp : p = if was_pending then .reserved lease else .active lease) :
      LeaseCycle fresh session_id p [] (.out (.sweeping was_pending) lease)
  | sweep_frees (lease : Lease) (was_pending : Bool) {ids : List SessionId}
      (h : session_id ∈ ids) :
      LeaseCycle fresh session_id (.out (.sweeping was_pending) lease) [.expired ids] .free
  | sweep_quarantines (lease : Lease) (was_pending : Bool) (attempts next_retry_ms : ℕ)
      {ids : List SessionId} (h : session_id ∈ ids) :
      LeaseCycle fresh session_id (.out (.sweeping was_pending) lease) [.expired ids]
        (.quarantined ⟨lease, attempts, next_retry_ms⟩)
  | sweep_restores (lease : Lease) (was_pending : Bool) {ids : List SessionId}
      (h : session_id ∈ ids) :
      LeaseCycle fresh session_id (.out (.sweeping was_pending) lease) [.expired ids]
        (if was_pending then .reserved lease else .active lease)
  | retry_parks (lease : ReleasePendingLease) {events : List PoolEvent} (h : events = []) :
      LeaseCycle fresh session_id (.quarantined lease) events (.retrying lease)
  | retry_frees (lease : ReleasePendingLease) {events : List PoolEvent}
      (h : Quiet session_id .free events) :
      LeaseCycle fresh session_id (.retrying lease) events .free
  | retry_fails (lease : ReleasePendingLease) (attempts next_retry_ms : ℕ)
      {events : List PoolEvent} (h : Quiet session_id .free events) :
      LeaseCycle fresh session_id (.retrying lease) events
        (.quarantined { lease with attempts := attempts, next_retry_ms := next_retry_ms })

namespace LeaseCycle

variable {fresh : AssignedAddresses → Prop} {session_id : SessionId} {p p' : Place}
  {events : List PoolEvent} {a : AssignedAddresses}

theorem mono {fresh' : AssignedAddresses → Prop} (h : LeaseCycle fresh session_id p events p')
    (hf : ∀ a, fresh a → fresh' a) : LeaseCycle fresh' session_id p events p' := by
  cases h with
  | reserve_parks lease hp h => exact .reserve_parks lease hp (hf _ h)
  | _ => constructor <;> assumption

/-- **Addresses never change hands inside a life cycle.** What a lease blocks
after a section it blocked before, unless the allocator just handed it out. -/
theorem addresses_kept (h : LeaseCycle fresh session_id p events p')
    (ha : p'.addresses = some a) : p.addresses = some a ∨ fresh a := by
  cases h with
  | reserve_parks lease hp hf =>
    right
    obtain rfl := Option.some.inj ha
    exact hf
  | release_takes lease hp | defer_quarantines lease _ _ hp | defer_restores lease hp =>
    left
    rcases hp with rfl | rfl <;> exact ha
  | sweep_takes lease was_pending hp =>
    left
    cases was_pending <;> exact hp ▸ ha
  | sweep_restores lease was_pending _ =>
    left
    cases was_pending <;> exact ha
  | _ => first
    | exact .inl ha
    | exact absurd ha (by simp [Place.addresses])

/-- What a call hands out, the session holds after the section. -/
theorem hands_held (h : LeaseCycle fresh session_id p events p')
    {e : PoolEvent} (he : e ∈ events) (ha : e.hands session_id a) : p'.addresses = some a := by
  cases h with
  | stay h =>
    rcases ha with rfl | rfl
    · exact (h.reserved a he).1
    · rcases h.committed a he with ⟨lease, rfl, rfl⟩ | ⟨lease, rfl, rfl⟩ <;> rfl
  | retry_parks lease h =>
    rw [h] at he
    exact absurd he List.not_mem_nil
  | retry_frees lease h | retry_fails lease _ _ h =>
    -- a retry that unparks the session hands nothing to it
    rcases ha with rfl | rfl
    · exact absurd (h.reserved a he).1 (by simp [Place.addresses])
    · rcases h.committed a he with ⟨lease, hl, _⟩ | ⟨lease, hl, _⟩ <;> cases hl
  | _ =>
    rcases ha with rfl | rfl <;> simp_all [Place.addresses]

/-- **A commit not answered from the quarantine leaves the lease Active.** -/
theorem committed_active (h : LeaseCycle fresh session_id p events p')
    (he : .committed session_id (.ok a) ∈ events) (hq : ∀ lease, p ≠ .quarantined lease) :
    ∃ lease, p' = .active lease ∧ lease.addresses = a := by
  cases h with
  | stay h =>
    rcases h.committed a he with hactive | ⟨lease, hl, _⟩
    · exact hactive
    · exact absurd hl (hq lease)
  | promote_ok lease mono =>
    obtain rfl : a = lease.addresses := by simpa using he
    exact ⟨_, rfl, rfl⟩
  | retry_parks lease h => exact absurd rfl (hq lease)
  | retry_frees lease h | retry_fails lease _ _ h =>
    rcases h.committed a he with ⟨lease, hl, _⟩ | ⟨lease, hl, _⟩ <;> cases hl
  | _ => simp at he

/-- **A committed lease lasts until it is reported released or expired.** -/
theorem firm_kept (h : LeaseCycle fresh session_id p events p') (hp : p.Firm a)
    (hl : ∀ e ∈ events, ¬ e.ends session_id) : p'.Firm a := by
  cases h with
  | stay _ => exact hp
  | reserve_parks lease hfree _ =>
    rcases hfree with rfl | ⟨old, rfl⟩ <;> exact hp.elim
  | release_takes lease hfrom =>
    rcases hfrom with rfl | rfl
    · exact hp.elim
    · exact hp
  | release_restores lease | renew_parks lease mono | renew_ok lease mono
  | renew_fails lease mono => exact hp
  | release_frees lease => exact absurd ⟨rfl, rfl⟩ (hl _ (List.mem_singleton_self _))
  | release_quarantines lease _ _ => exact absurd ⟨rfl, rfl⟩ (hl _ (List.mem_singleton_self _))
  | defer_quarantines lease _ _ _ => exact absurd ⟨rfl, rfl⟩ (hl _ (List.mem_singleton_self _))
  | defer_restores lease hfrom =>
    rcases hfrom with rfl | rfl
    · exact hp.elim
    · exact hp
  | sweep_takes lease was_pending hfrom =>
    cases was_pending with
    | true =>
      subst hfrom
      exact hp.elim
    | false =>
      subst hfrom
      exact hp
  | sweep_frees lease _ h => exact absurd h (hl _ (List.mem_singleton_self _))
  | sweep_quarantines lease _ _ _ h => exact absurd h (hl _ (List.mem_singleton_self _))
  | sweep_restores lease _ h => exact absurd h (hl _ (List.mem_singleton_self _))
  | _ => exact hp.elim

end LeaseCycle

end StreamGuard.Gateway
