/-
What a pool holds right after startup.

Recovery walks the loaded records once and restores a record or drops it; the
deletes of the dropped records follow, and a failed one is quarantined. Each
record therefore ends in one place (`with_store_places`), whatever the store's
other records are, as long as no two of them name the same session.
-/
import StreamGuard.Gateway.PoolSections

set_option autoImplicit false

namespace StreamGuard.Gateway

open StreamGuard StreamGuard.Lib

/-- Every session is at rest in one place. -/
def Inner.AtRest (inner : Inner) : Prop :=
  ∀ session_id, ∃ p : Place, inner.slot session_id = p.slot ∧ p.parked = none

/-- Every session is at rest, with an aligned prefix, and no two sessions hold
addresses that meet. -/
structure Inner.Separate (inner : Inner) : Prop where
  at_rest : inner.AtRest
  aligned : ∀ {session_id p a}, inner.slot session_id = Place.slot p → p.parked = none →
    p.addresses = some a → ipv6_is_64_aligned a.ipv6_prefix_addr = true
  apart : ∀ {session_id other p q a b}, session_id ≠ other →
    inner.slot session_id = Place.slot p → p.parked = none → p.addresses = some a →
    inner.slot other = Place.slot q → q.parked = none → q.addresses = some b → ¬ a.Shares b

/-- The maps' entries of a session and the call that parks it determine its place. -/
theorem Place.eq_of_slot_parked {p q : Place} (hslot : p.slot = q.slot)
    (hparked : p.parked = q.parked) : p = q := by
  cases p <;> cases q <;> simp_all [Place.slot, Place.parked]

theorem Inner.slot_empty (session_id : SessionId) : Inner.empty.slot session_id = Place.free.slot :=
  rfl

namespace AddressPool

variable {c : AddressPoolConfig} {now : PoolTime} {session_id : SessionId}

/-! ## One record -/

/-- Where a restored record goes. -/
def restored_place (now : PoolTime) (lease : PersistedLease) : Place :=
  let restored : Lease := ⟨lease.device_id, lease.addresses,
    monotonic_expiry_from_wall lease.expires_at_ms now.wall_ms now.monotonic_ms⟩
  match lease.state with
  | .Reserved => .reserved restored
  | .Active => .active restored
  | .ReleasePending => .quarantined ⟨restored, 0, next_retry_deadline now.monotonic_ms 0⟩

theorem restored_place_at_rest (now : PoolTime) (lease : PersistedLease) :
    (restored_place now lease).parked = none := by
  rw [restored_place]
  cases lease.state <;> rfl

/-- What recovery has done about one session so far: its entries, and its records
among the dropped ones. -/
def Recovery.view (session_id : SessionId) (r : Recovery) : Slot × List PersistedLease :=
  (r.inner.slot session_id, r.stale.filter (·.session_id = session_id))

theorem slot_insert_quarantined {inner : Inner} {lease : ReleasePendingLease}
    {order : List SessionId} (h : inner.slot session_id = Place.free.slot) :
    ({ inner with release_order := order, release_pending :=
      inner.release_pending.insert session_id lease } : Inner).slot session_id =
        (Place.quarantined lease).slot := by
  simp_all [Inner.slot, Place.slot]

theorem slot_insert_quarantined_of_ne {inner : Inner} {lease : ReleasePendingLease}
    {order : List SessionId} {id : SessionId} (h : session_id ≠ id) :
    ({ inner with release_order := order, release_pending :=
      inner.release_pending.insert id lease } : Inner).slot session_id = inner.slot session_id := by
  simp [Inner.slot, AList.lookup_insert_ne h]

/-- A record is dropped, or restored into the maps. -/
theorem recover_lease_cases (c : AddressPoolConfig) (now : PoolTime) (r : Recovery)
    (lease : PersistedLease) :
    ((recover_lease c now r lease).inner = r.inner ∧
        (recover_lease c now r lease).stale = r.stale ++ [lease]) ∨
      ((recover_lease c now r lease).stale = r.stale ∧
        (r.inner.slot lease.session_id = Place.free.slot →
          (recover_lease c now r lease).inner.slot lease.session_id =
            (restored_place now lease).slot) ∧
        ∀ id, id ≠ lease.session_id →
          (recover_lease c now r lease).inner.slot id = r.inner.slot id) := by
  unfold recover_lease
  split
  · exact .inl ⟨rfl, rfl⟩
  split
  · exact .inl ⟨rfl, rfl⟩
  dsimp only
  rw [restored_place]
  cases hstate : lease.state with
  | Reserved =>
    dsimp only
    split
    · exact .inl ⟨rfl, rfl⟩
    · exact .inr ⟨rfl, fun h => slot_insert_pending h, fun id h => slot_insert_pending_of_ne h⟩
  | Active =>
    dsimp only
    split
    · exact .inl ⟨rfl, rfl⟩
    · exact .inr ⟨rfl, fun h => slot_insert_active h, fun id h => slot_insert_active_of_ne h⟩
  | ReleasePending =>
    dsimp only
    split
    · exact .inl ⟨rfl, rfl⟩
    · exact .inr ⟨rfl, fun h => slot_insert_quarantined h,
        fun id h => slot_insert_quarantined_of_ne h⟩

/-- A record of another session is not seen. -/
theorem recover_lease_view_of_ne (r : Recovery) (lease : PersistedLease)
    (h : lease.session_id ≠ session_id) :
    (recover_lease c now r lease).view session_id = r.view session_id := by
  rcases recover_lease_cases c now r lease with ⟨hinner, hstale⟩ | ⟨hstale, -, hslot⟩
  · simp [Recovery.view, hinner, hstale, h]
  · simp [Recovery.view, hstale, hslot session_id h.symm]

/-- What recovery makes of the one record of a session. -/
theorem recover_lease_view_self (r : Recovery) (lease : PersistedLease)
    (h : r.view lease.session_id = (Place.free.slot, [])) :
    (recover_lease c now r lease).view lease.session_id = (Place.free.slot, [lease]) ∨
      (recover_lease c now r lease).view lease.session_id =
        ((restored_place now lease).slot, []) := by
  obtain ⟨hslot, hnone⟩ := Prod.mk.inj h
  rcases recover_lease_cases c now r lease with ⟨hinner, hstale⟩ | ⟨hstale, hself, -⟩
  · left
    rw [Recovery.view, hinner, hstale, List.filter_append, hslot, hnone]
    simp
  · right
    rw [Recovery.view, hself hslot, hstale, hnone]

/-! ## All records -/

theorem filter_session_of_notMem {records : List PersistedLease}
    (h : session_id ∉ records.map (·.session_id)) :
    records.filter (·.session_id = session_id) = [] := by
  rw [List.filter_eq_nil_iff]
  intro lease hl he
  exact h (List.mem_map.mpr ⟨lease, hl, of_decide_eq_true he⟩)

theorem filter_session_of_mem {records : List PersistedLease}
    (hnodup : (records.map (·.session_id)).Nodup) {lease : PersistedLease} (h : lease ∈ records) :
    records.filter (·.session_id = lease.session_id) = [lease] := by
  induction records with
  | nil => contradiction
  | cons b records ih =>
    rw [List.map_cons, List.nodup_cons] at hnodup
    rcases List.mem_cons.mp h with rfl | hmem
    · rw [List.filter_cons_of_pos (by simp), filter_session_of_notMem hnodup.1]
    · have hb : b.session_id ≠ lease.session_id := by
        intro he
        exact hnodup.1 (he ▸ List.mem_map_of_mem hmem)
      rw [List.filter_cons_of_neg (by simpa using hb), ih hnodup.2 hmem]

/-- **After the loop** a session without a record is free, and one with a record
is restored or dropped. -/
theorem recover_records_view (c : AddressPoolConfig) (now : PoolTime)
    {persisted : List PersistedLease}
    (hnodup : (persisted.map (·.session_id)).Nodup) (session_id : SessionId) :
    (recover_records c now persisted).view session_id = (Place.free.slot, []) ∨
      ∃ lease ∈ persisted, lease.session_id = session_id ∧
        ((recover_records c now persisted).view session_id = (Place.free.slot, [lease]) ∨
          (recover_records c now persisted).view session_id =
            ((restored_place now lease).slot, [])) := by
  have hperm := List.perm_insertionSort (fun a b => recovery_le a b = true) persisted
  rw [recover_records]
  generalize persisted.insertionSort (fun a b => recovery_le a b = true) = ordered at hperm ⊢
  generalize min (c.maximum_leases + c.maximum_pending_releases) MAX_LEASES_HARD_CAP = bound
  have hordered : (ordered.map (·.session_id)).Nodup := (hperm.map _).nodup_iff.mpr hnodup
  have hsplit : (ordered.take bound ++ ordered.drop bound).map (·.session_id) =
      ordered.map (·.session_id) := by rw [List.take_append_drop]
  rw [List.map_append] at hsplit
  rw [← hsplit, List.nodup_append] at hordered
  obtain ⟨htake, hdrop, hdisjoint⟩ := hordered
  have hother : ∀ (r : Recovery) (lease : PersistedLease), lease.session_id ≠ session_id →
      (recover_lease c now r lease).view session_id = r.view session_id :=
    fun r lease h => recover_lease_view_of_ne r lease h
  by_cases hmem : session_id ∈ (ordered.take bound).map (·.session_id)
  · obtain ⟨lease, hl, rfl⟩ := List.mem_map.mp hmem
    obtain ⟨r, hr, hfold⟩ := foldl_view_of_mem (fun lease : PersistedLease => lease.session_id)
      (Recovery.view lease.session_id) hother
      ⟨.empty, [], [], [], ordered.drop bound⟩ htake hl rfl
    refine .inr ⟨lease, hperm.mem_iff.mp (List.mem_of_mem_take hl), rfl, ?_⟩
    rw [hfold]
    apply recover_lease_view_self
    rw [hr, Recovery.view, filter_session_of_notMem, Inner.slot_empty]
    intro hdropped
    exact hdisjoint _ hmem _ hdropped rfl
  · rw [foldl_view_of_notMem (fun lease : PersistedLease => lease.session_id)
      (Recovery.view session_id) hother _ _ hmem]
    by_cases hdropped : session_id ∈ (ordered.drop bound).map (·.session_id)
    · obtain ⟨lease, hl, rfl⟩ := List.mem_map.mp hdropped
      refine .inr ⟨lease, hperm.mem_iff.mp (List.mem_of_mem_drop hl), rfl, .inl ?_⟩
      rw [Recovery.view, filter_session_of_mem hdrop hl, Inner.slot_empty]
    · left
      rw [Recovery.view, filter_session_of_notMem hdropped, Inner.slot_empty]

theorem recover_records_stale_nodup (c : AddressPoolConfig) (now : PoolTime)
    {persisted : List PersistedLease}
    (hnodup : (persisted.map (·.session_id)).Nodup) :
    ((recover_records c now persisted).stale.map (·.session_id)).Nodup := by
  rw [List.nodup_iff_count_le_one]
  intro id
  have hcount : ((recover_records c now persisted).stale.map (·.session_id)).count id =
      ((recover_records c now persisted).stale.filter (·.session_id = id)).length := by
    rw [List.count, List.countP_map, List.countP_eq_length_filter]
    rfl
  rw [hcount]
  rcases recover_records_view c now hnodup id with hv | ⟨lease, _, _, hv | hv⟩
  · rw [(Prod.mk.inj hv).2]
    exact Nat.zero_le 1
  · rw [(Prod.mk.inj hv).2]
    exact Nat.le_refl 1
  · rw [(Prod.mk.inj hv).2]
    exact Nat.zero_le 1

/-! ## The dropped records -/

/-- A dropped record whose delete failed is quarantined; nothing else changes. -/
theorem quarantine_stale_slot {deletes : List (PersistedLease × Bool)} {inner inner' : Inner}
    (h : quarantine_stale c now inner deletes = .ok inner')
    (hnodup : (deletes.map (·.1.session_id)).Nodup) (session_id : SessionId) :
    (session_id ∉ deletes.map (·.1.session_id) →
        inner'.slot session_id = inner.slot session_id) ∧
      ∀ d ∈ deletes, d.1.session_id = session_id → inner.slot session_id = Place.free.slot →
        inner'.slot session_id = Place.free.slot ∨ ∃ lease : ReleasePendingLease,
          lease.addresses = d.1.addresses ∧
            inner'.slot session_id = (Place.quarantined lease).slot := by
  induction deletes generalizing inner with
  | nil =>
    obtain rfl := Except.ok.inj h
    exact ⟨fun _ => rfl, fun d hd => absurd hd List.not_mem_nil⟩
  | cons d deletes ih =>
    obtain ⟨lease, ok⟩ := d
    rw [List.map_cons, List.nodup_cons] at hnodup
    rw [quarantine_stale] at h
    split at h
    · -- the delete succeeded: this record is gone
      obtain ⟨hother, hself⟩ := ih h hnodup.2
      refine ⟨fun hn => hother (fun hm => hn (List.mem_cons_of_mem _ hm)), ?_⟩
      intro d hd hid hfree
      rcases List.mem_cons.mp hd with rfl | hd
      · left
        rw [hother (hid ▸ hnodup.1), hfree]
      · exact hself d hd hid hfree
    split at h
    · contradiction
    next inner₁ he =>
    obtain ⟨hother, hself⟩ := ih h hnodup.2
    refine ⟨?_, ?_⟩
    · intro hn
      rw [List.map_cons, List.mem_cons, not_or] at hn
      rw [hother hn.2, slot_enqueue_of_ne hn.1 he]
    · intro d hd hid hfree
      rcases List.mem_cons.mp hd with rfl | hd
      · right
        have hid : lease.session_id = session_id := hid
        subst hid
        refine ⟨_, ?_, (hother hnodup.1).trans (slot_enqueue hfree he)⟩
        rfl
      · refine hself d hd hid ?_
        rw [← hfree]
        refine slot_enqueue_of_ne ?_ he
        rintro rfl
        exact hnodup.1 (List.mem_map.mpr ⟨d, hd, hid⟩)

/-- Deleting dropped records does not touch the record of another session. -/
theorem delete_stale_lookup (deletes : List (PersistedLease × Bool)) (store : LeaseStore)
    (h : session_id ∉ deletes.map (·.1.session_id)) :
    (deletes.foldl (fun store d => (StoreOp.release d.1.session_id).apply d.2 store)
      store).lookup session_id = store.lookup session_id := by
  refine foldl_view_of_notMem (fun d : PersistedLease × Bool => d.1.session_id)
    (fun store : LeaseStore => store.lookup session_id) ?_ deletes store h
  intro store d hne
  rw [StoreOp.apply]
  split
  · exact AList.lookup_erase_ne hne.symm
  · rfl

/-- **Where startup leaves a session**: free; restored from its one record, which
the store still has; or quarantined with the addresses of that record. -/
theorem with_store_places {records : List PersistedLease} {store : LeaseStore}
    {outcomes : List Bool} {pool : AddressPool}
    (h : with_store_at_time c (some records) store now outcomes = .ok pool)
    (hnodup : (records.map (·.session_id)).Nodup) (session_id : SessionId) :
    pool.inner.slot session_id = Place.free.slot ∨ ∃ lease ∈ records,
      lease.session_id = session_id ∧
        ((pool.inner.slot session_id = (restored_place now lease).slot ∧
            ∃ store', pool.store = some store' ∧
              store'.lookup session_id = store.lookup session_id) ∨
          ∃ quarantined : ReleasePendingLease, quarantined.addresses = lease.addresses ∧
            pool.inner.slot session_id = (Place.quarantined quarantined).slot) := by
  obtain ⟨deletes, inner, hdeletes, hq, rfl⟩ := with_store_eq_ok h
  have hview := recover_records_view c now hnodup
  have hstale := recover_records_stale_nodup c now hnodup
  generalize recover_records c now records = r at hq hview hstale hdeletes
  have hids : deletes.map (·.1.session_id) = r.stale.map (·.session_id) := by
    have hfst : deletes.map Prod.fst = r.stale := by
      rw [hdeletes]
      apply List.map_fst_zip
      rw [List.length_append, List.length_replicate]
      omega
    rw [← hfst, List.map_map]
    rfl
  obtain ⟨hother, hself⟩ := quarantine_stale_slot hq (hids ▸ hstale) session_id
  have hnone : r.stale.filter (·.session_id = session_id) = [] →
      session_id ∉ deletes.map (·.1.session_id) := by
    intro hf hm
    rw [hids] at hm
    obtain ⟨lease, hl, hid⟩ := List.mem_map.mp hm
    exact List.filter_eq_nil_iff.mp hf lease hl (decide_eq_true hid)
  rcases hview session_id with hv | ⟨lease, hl, hid, hv | hv⟩
  · obtain ⟨hslot, hf⟩ := Prod.mk.inj hv
    exact .inl ((hother (hnone hf)).trans hslot)
  · obtain ⟨hslot, hf⟩ := Prod.mk.inj hv
    -- the record is dropped, and its delete has an outcome
    have hmem : lease ∈ r.stale := (List.mem_filter.mp (hf ▸ List.mem_singleton_self lease)).1
    have hmap : session_id ∈ deletes.map (·.1.session_id) := by
      rw [hids]
      exact List.mem_map.mpr ⟨lease, hmem, hid⟩
    obtain ⟨⟨dropped, ok⟩, hd, hdid⟩ := List.mem_map.mp hmap
    have hdropped : dropped ∈ r.stale.filter (·.session_id = session_id) :=
      List.mem_filter.mpr ⟨(List.of_mem_zip (hdeletes ▸ hd)).1, decide_eq_true hdid⟩
    rw [hf, List.mem_singleton] at hdropped
    subst hdropped
    rcases hself _ hd hdid hslot with hfree | ⟨quarantined, hq, hslot⟩
    · exact .inl hfree
    · exact .inr ⟨dropped, hl, hid, .inr ⟨quarantined, hq, hslot⟩⟩
  · obtain ⟨hslot, hf⟩ := Prod.mk.inj hv
    refine .inr ⟨lease, hl, hid, .inl ⟨(hother (hnone hf)).trans hslot, _, rfl, ?_⟩⟩
    exact delete_stale_lookup deletes store (hnone hf)

theorem with_store_at_rest {records : List PersistedLease} {store : LeaseStore}
    {outcomes : List Bool} {pool : AddressPool}
    (h : with_store_at_time c (some records) store now outcomes = .ok pool)
    (hnodup : (records.map (·.session_id)).Nodup) : pool.inner.AtRest := by
  intro session_id
  rcases with_store_places h hnodup session_id with
    hfree | ⟨r, hr, hid, ⟨hrestored, _⟩ | ⟨quarantined, hq, hquarantined⟩⟩
  · exact ⟨.free, hfree, rfl⟩
  · exact ⟨restored_place now r, hrestored, restored_place_at_rest now r⟩
  · exact ⟨.quarantined quarantined, hquarantined, rfl⟩

theorem new_separate (c : AddressPoolConfig) : (new c).inner.Separate := by
  have hfree : ∀ {session_id : SessionId} {p : Place}, (new c).inner.slot session_id = p.slot →
      p.parked = none → p.addresses = none := by
    intro session_id p hslot hp
    have hp : p = .free := Place.eq_of_slot_parked hslot.symm hp
    rw [hp]
    rfl
  refine ⟨fun session_id => ⟨.free, rfl, rfl⟩, ?_, ?_⟩
  · intro session_id p a hslot hp ha
    rw [hfree hslot hp] at ha
    contradiction
  · intro session_id other p q a b _ hslot hp ha
    rw [hfree hslot hp] at ha
    contradiction

end AddressPool

end StreamGuard.Gateway
