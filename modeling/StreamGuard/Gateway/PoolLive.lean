/-
Live leases never meet.

`Exclusive` needs records that do not collide. What recovery restores it has
checked against what it restored before, so leases outside the quarantine are
apart from each other whatever the records were (`LiveApart`): only a record that
was dropped and could not be deleted may collide with another lease, and it stays
in the quarantine. So what a parked call took out is blocked from every start, and
an address that the allocator does not avoid is held by no session.
-/
import StreamGuard.Gateway.PoolInflight

set_option autoImplicit false

namespace StreamGuard.Gateway

open StreamGuard StreamGuard.Lib

/-- In the quarantine, whether its delete is being retried or not. -/
def Place.Quarantined : Place → Prop
  | .quarantined _ | .retrying _ => True
  | _ => False

/-- A lease leaves the quarantine only by being freed. -/
theorem LeaseCycle.quarantined_kept {fresh : AssignedAddresses → Prop} {id : SessionId}
    {p p' : Place} {events : List PoolEvent} (h : LeaseCycle fresh id p events p')
    (hp : p.Quarantined) : p' = .free ∨ p'.Quarantined := by
  cases h with
  | stay _ => exact .inr hp
  | reserve_parks lease hfrom _ =>
    rcases hfrom with rfl | ⟨old, rfl⟩ <;> exact hp.elim
  | release_takes lease hfrom | defer_quarantines lease _ _ hfrom | defer_restores lease hfrom =>
    rcases hfrom with rfl | rfl <;> exact hp.elim
  | sweep_takes lease was_pending hfrom =>
    cases was_pending <;> (subst hfrom; exact hp.elim)
  | retry_parks lease _ | retry_fails lease _ _ _ => exact .inr trivial
  | retry_frees lease _ => exact .inl rfl
  | _ => exact hp.elim

/-! ## What recovery restores -/

namespace AddressPool

variable {c : AddressPoolConfig} {now : PoolTime}

/-- The leases restored so far are aligned and apart from each other. -/
structure RestoredApart (inner : Inner) : Prop where
  aligned : ∀ id lease, inner.active.lookup id = some lease ∨ inner.pending.lookup id = some lease →
    ipv6_is_64_aligned lease.addresses.ipv6_prefix_addr = true
  apart : ∀ id lease other taken, id ≠ other →
    (inner.active.lookup id = some lease ∨ inner.pending.lookup id = some lease) →
    (inner.active.lookup other = some taken ∨ inner.pending.lookup other = some taken) →
    ¬ lease.addresses.Shares taken.addresses

theorem RestoredApart.congr {inner inner' : Inner} (h : RestoredApart inner)
    (ha : inner'.active = inner.active) (hp : inner'.pending = inner.pending) :
    RestoredApart inner' := by
  refine ⟨?_, ?_⟩
  · rw [ha, hp]
    exact h.aligned
  · rw [ha, hp]
    exact h.apart

/-- A lease in neither map yet, aligned and apart from those that are. -/
theorem RestoredApart.insert {inner inner' : Inner} (id : SessionId) (lease : Lease)
    (h : RestoredApart inner)
    (hinner : ∀ other taken, inner'.active.lookup other = some taken ∨
      inner'.pending.lookup other = some taken →
        (inner.active.lookup other = some taken ∨ inner.pending.lookup other = some taken) ∨
          other = id ∧ taken = lease)
    (haligned : ipv6_is_64_aligned lease.addresses.ipv6_prefix_addr = true)
    (hapart : ∀ other taken, inner.active.lookup other = some taken ∨
      inner.pending.lookup other = some taken → ¬ taken.addresses.Shares lease.addresses) :
    RestoredApart inner' := by
  refine ⟨?_, ?_⟩
  · intro other taken hl
    rcases hinner other taken hl with hold | ⟨-, rfl⟩
    · exact h.aligned other taken hold
    · exact haligned
  · intro id₁ lease₁ id₂ lease₂ hne h₁ h₂
    rcases hinner id₁ lease₁ h₁ with hold₁ | ⟨rfl, rfl⟩
    · rcases hinner id₂ lease₂ h₂ with hold₂ | ⟨rfl, rfl⟩
      · exact h.apart id₁ lease₁ id₂ lease₂ hne hold₁ hold₂
      · exact hapart id₁ lease₁ hold₁
    · rcases hinner id₂ lease₂ h₂ with hold₂ | ⟨rfl, -⟩
      · intro hshares
        exact hapart id₂ lease₂ hold₂ hshares.symm
      · exact absurd rfl hne

theorem recover_lease_apart {r : Recovery} (record : PersistedLease) (h : RestoredApart r.inner) :
    RestoredApart (recover_lease c now r record).inner := by
  unfold recover_lease
  split
  · exact h
  split
  · exact h
  next hvalid =>
  have hvalid : valid_persisted_locked c r record = true := by simpa using hvalid
  have haligned : ipv6_is_64_aligned record.addresses.ipv6_prefix_addr = true := by
    have husable := (usable_of_valid hvalid).ipv6
    rw [AddressPoolConfig.ipv6_usable, decide_eq_true_eq] at husable
    exact husable.2.1
  -- the record has been checked against every lease of the maps
  have hapart : ∀ other taken, r.inner.active.lookup other = some taken ∨
      r.inner.pending.lookup other = some taken →
        ¬ taken.addresses.Shares record.addresses := by
    intro other taken hl
    have hmem : taken.addresses ∈ r.inner.leased := by
      rcases hl with hl | hl
      · exact mem_leased_iff.mpr (.inl ⟨other, taken, hl, rfl⟩)
      · exact mem_leased_iff.mpr (.inr (.inl ⟨other, taken, hl, rfl⟩))
    simp only [valid_persisted_locked, Bool.and_eq_true, Bool.not_eq_true', List.any_eq_false,
      decide_eq_true_eq, not_or] at hvalid
    obtain ⟨h4, h6⟩ := hvalid.2 _ hmem
    exact not_shares_of_ne (h.aligned other taken hl) haligned h4 h6
  dsimp only
  split
  · split
    · exact h
    · refine RestoredApart.insert record.session_id ⟨record.device_id, record.addresses,
        monotonic_expiry_from_wall record.expires_at_ms now.wall_ms now.monotonic_ms⟩ h
        ?_ haligned hapart
      intro other taken hl
      rcases hl with hl | hl
      · exact .inl (.inl hl)
      · rcases AList.of_lookup_insert hl with hold | hnew
        · exact .inl (.inr hold)
        · exact .inr hnew
  · split
    · exact h
    · refine RestoredApart.insert record.session_id ⟨record.device_id, record.addresses,
        monotonic_expiry_from_wall record.expires_at_ms now.wall_ms now.monotonic_ms⟩ h
        ?_ haligned hapart
      intro other taken hl
      rcases hl with hl | hl
      · rcases AList.of_lookup_insert hl with hold | hnew
        · exact .inl (.inl hold)
        · exact .inr hnew
      · exact .inl (.inr hl)
  · split
    · exact h
    · exact h.congr rfl rfl

theorem recover_records_apart (c : AddressPoolConfig) (now : PoolTime)
    (records : List PersistedLease) : RestoredApart (recover_records c now records).inner := by
  have hempty : RestoredApart Inner.empty := by
    refine ⟨?_, ?_⟩
    · rintro id lease (hl | hl) <;> contradiction
    · rintro id lease other taken _ (hl | hl) <;> contradiction
  rw [recover_records]
  exact List.foldlRecOn (motive := fun r : Recovery => RestoredApart r.inner) _ _ hempty
    (fun _ h record _ => recover_lease_apart record h)

theorem quarantine_stale_apart {inner inner' : Inner} {deletes : List (PersistedLease × Bool)}
    (h : RestoredApart inner) (hq : quarantine_stale c now inner deletes = .ok inner') :
    RestoredApart inner' := by
  refine quarantine_stale_invariant (fun h he => ?_) h hq
  rw [Inner.enqueue_release_locked] at he
  split at he
  · rwa [← Except.ok.inj he]
  split at he
  · contradiction
  · rw [← Except.ok.inj he]
    exact h.congr rfl rfl

end AddressPool

namespace PoolSystem

variable {c : AddressPoolConfig} {s s' : PoolSystem} {label : PoolLabel} {events : List PoolEvent}

/-! ## Over a run -/

/-- Leases outside the quarantine are aligned and apart from each other, and what
is out of the maps is blocked. -/
structure LiveApart (s : PoolSystem) : Prop where
  aligned : ∀ {id p a}, s.At id p → ¬ p.Quarantined → p.addresses = some a →
    ipv6_is_64_aligned a.ipv6_prefix_addr = true
  blocked : ∀ {id by_ lease}, s.At id (.out by_ lease) → s.pool.inner.Blocks lease.addresses
  apart : ∀ {id other p q a b}, id ≠ other → s.At id p → s.At other q → ¬ p.Quarantined →
    ¬ q.Quarantined → p.addresses = some a → q.addresses = some b → ¬ a.Shares b

theorem LiveApart.guarded (h : s.LiveApart) : s.Guarded := by
  refine ⟨h.blocked, ?_⟩
  intro id other by_ by' lease taken hne hp hq
  exact h.apart hne.symm hq hp (fun hq => hq) (fun hq => hq) rfl rfl

/-- **Step lemma.** -/
theorem LiveApart.step (h : s.Coherent) (hlive : s.LiveApart)
    (hs : s.step label = some (s', events)) : s'.LiveApart := by
  obtain ⟨hcoherent, hcycle⟩ := step_refines h hs
  -- a live lease was live before the step, or the allocator has just picked it
  have hkept : ∀ {id p' a}, s'.At id p' → ¬ p'.Quarantined → p'.addresses = some a →
      (∃ p, s.At id p ∧ ¬ p.Quarantined ∧ p.addresses = some a) ∨ s.Allocates label id a := by
    intro id p' a hp' hnot ha
    obtain ⟨p, hp⟩ := h.places id
    obtain ⟨p'', hp'', hc⟩ := hcycle id p hp
    obtain rfl := hp'.unique hp''
    rcases hc.addresses_kept ha with hold | hfresh
    · refine .inl ⟨p, hp, ?_, hold⟩
      intro hq
      rcases hc.quarantined_kept hq with rfl | hq'
      · contradiction
      · exact hnot hq'
    · exact .inr hfresh
  have hfresh : ∀ {id other p a b}, id ≠ other → s.At id p → ¬ p.Quarantined →
      p.addresses = some a → s.Allocates label other b → ¬ a.Shares b := by
    rintro id other p a b hne hp hnot ha ⟨caller, call, -, hb⟩
    refine (AddressPool.allocates_fresh hne hp.slot ha (hlive.aligned hp hnot ha) ?_ hb).2
    rintro by_ lease rfl
    exact hlive.blocked hp
  refine ⟨?_, fun hp' => hlive.guarded.blocked_step h hs hp', ?_⟩
  · intro id p' a hp' hnot ha
    rcases hkept hp' hnot ha with ⟨p, hp, hp₀, hold⟩ | ⟨caller, call, -, -, inner', -, halloc⟩
    · exact hlive.aligned hp hp₀ hold
    · exact (AddressPool.allocate_unused halloc).2.2
  · intro id other p' q' a b hne hp' hq' hnp hnq ha hb
    rcases hkept hp' hnp ha with ⟨p, hp, hp₀, hpa⟩ | hpa
    · rcases hkept hq' hnq hb with ⟨q, hq, hq₀, hqb⟩ | hqb
      · exact hlive.apart hne hp hq hp₀ hq₀ hpa hqb
      · exact hfresh hne hp hp₀ hpa hqb
    · rcases hkept hq' hnq hb with ⟨q, hq, hq₀, hqb⟩ | hqb
      · intro hshares
        exact hfresh hne.symm hq hq₀ hqb hpa hshares.symm
      · exact absurd (hpa.subject hqb) hne

/-- A pool that has just started, with what recovery has restored. -/
theorem start_live {pool : AddressPool} (h : AddressPool.RestoredApart pool.inner) :
    (start pool).LiveApart := by
  have hlive : ∀ {id p a}, (start pool).At id p → ¬ p.Quarantined → p.addresses = some a →
      ∃ lease, (pool.inner.active.lookup id = some lease ∨
        pool.inner.pending.lookup id = some lease) ∧ lease.addresses = a := by
    intro id p a hp hnot ha
    obtain ⟨hslot, hrest⟩ := at_start.mp hp
    have hactive : pool.inner.active.lookup id = p.slot.active := congrArg Slot.active hslot
    have hpending : pool.inner.pending.lookup id = p.slot.pending := congrArg Slot.pending hslot
    cases p with
    | reserved lease => exact ⟨lease, .inr hpending, Option.some.inj ha⟩
    | active lease => exact ⟨lease, .inl hactive, Option.some.inj ha⟩
    | quarantined lease | retrying lease => exact absurd trivial hnot
    | _ => contradiction
  refine ⟨?_, ?_, ?_⟩
  · intro id p a hp hnot ha
    obtain ⟨lease, hl, rfl⟩ := hlive hp hnot ha
    exact h.aligned id lease hl
  · intro id by_ lease hp
    have hrest := (at_start.mp hp).2
    contradiction
  · intro id other p q a b hne hp hq hnp hnq ha hb
    obtain ⟨lease, hl, rfl⟩ := hlive hp hnp ha
    obtain ⟨taken, ht, rfl⟩ := hlive hq hnq hb
    exact h.apart id lease other taken hne hl ht

theorem Started.live {pool : AddressPool} (h : Started c pool) : (start pool).LiveApart := by
  refine start_live ?_
  cases h with
  | ephemeral =>
    refine ⟨?_, ?_⟩
    · rintro id lease (hl | hl) <;> contradiction
    · rintro id lease other taken _ (hl | hl) <;> contradiction
  | recovered _ _ h =>
    exact AddressPool.quarantine_stale_apart (AddressPool.recover_records_apart c _ _)
      (AddressPool.with_store_inner h).1

/-- **Live leases never meet**, from every start and in every interleaving. -/
theorem Started.live_run {pool : AddressPool} {labels : List PoolLabel} (h : Started c pool)
    (hrun : exec PoolSystem.step (start pool) labels = some (s, events)) : s.LiveApart :=
  (exec_invariant (I := fun s : PoolSystem => s.Coherent ∧ s.LiveApart)
    (fun _ _ _ _ h hs => ⟨(step_refines h.1 hs).1, h.2.step h.1 hs⟩)
    ⟨start_coherent h.at_rest, h.live⟩ hrun).2

/-- **What is held the allocator avoids.** -/
theorem used_of_held {x : Address} (h : s.LiveApart) (hx : s.Held x) : s.pool.inner.Used x := by
  obtain ⟨id, p, a, hp, ha, hhas⟩ := hx
  rw [Inner.used_iff]
  by_cases hout : ∃ by_ lease, p = .out by_ lease
  · obtain ⟨by_, lease, rfl⟩ := hout
    obtain rfl := Option.some.inj ha
    right
    have hblocks := h.blocked hp
    cases x with
    | ipv4 addr => exact hhas ▸ hblocks.v4
    | ipv6 prefix_ => exact hhas ▸ hblocks.v6
  · left
    exact ⟨a, AddressPool.leased_of_slot hp.slot ha (fun by_ lease he => hout ⟨by_, lease, he⟩),
      hhas⟩

end PoolSystem

end StreamGuard.Gateway
