/-
Handed-out addresses are usable.

The allocator scans candidates between the network and the broadcast address and
subnets from one up, so a fresh pair is usable by arithmetic (`Lib/Subnet.lean`).
Recovery checks a record before it restores it. The third route is the
quarantine: a discarded record whose delete fails is kept there unchecked, and
both `reserve` and `commit` answer from the quarantine.
-/
import StreamGuard.Gateway.PoolUnique
import StreamGuard.Lib.Subnet

set_option autoImplicit false

namespace StreamGuard.Gateway

open StreamGuard StreamGuard.Lib

/-- A host of the network and a `/64` of the parent prefix, with the configured
lengths, none of them set aside. -/
structure AddressPoolConfig.Usable (c : AddressPoolConfig) (a : AssignedAddresses) : Prop where
  ipv4 : c.ipv4_usable a.ipv4 = true
  ipv4_prefix_len : a.ipv4_prefix_len = c.ipv4_prefix_len
  ipv6 : c.ipv6_usable a.ipv6_prefix_addr = true
  ipv6_prefix_len : a.ipv6_prefix_len = IPV6_LEASE_PREFIX_LEN

instance (c : AddressPoolConfig) (a : AssignedAddresses) : Decidable (c.Usable a) :=
  decidable_of_iff (c.ipv4_usable a.ipv4 = true ∧ a.ipv4_prefix_len = c.ipv4_prefix_len ∧
    c.ipv6_usable a.ipv6_prefix_addr = true ∧ a.ipv6_prefix_len = IPV6_LEASE_PREFIX_LEN)
    ⟨fun ⟨h4, hl4, h6, hl6⟩ => ⟨h4, hl4, h6, hl6⟩,
      fun h => ⟨h.ipv4, h.ipv4_prefix_len, h.ipv6, h.ipv6_prefix_len⟩⟩

/-! ## Accepted configurations -/

/-- The prefix lengths of a configuration that `new` accepts. -/
structure AddressPoolConfig.Accepted (c : AddressPoolConfig) : Prop where
  ipv4_ge : 8 ≤ c.ipv4_prefix_len
  ipv4_le : c.ipv4_prefix_len ≤ 30
  ipv6_ge : 16 ≤ c.ipv6_parent_prefix_len
  ipv6_le : c.ipv6_parent_prefix_len ≤ 63

section Accepted

variable {c c' : AddressPoolConfig}

/-- A check that was passed. -/
theorem of_guard {ε α : Type*} {p : Prop} [Decidable p] {e : ε} {x : Except ε α} {a : α}
    (h : (if p then .error e else x) = Except.ok a) : ¬ p ∧ x = .ok a := by
  split at h
  · contradiction
  · next hp => exact ⟨hp, h⟩

theorem AddressPoolConfig.accepted_of_new (h : AddressPoolConfig.new c = .ok c') : c.Accepted := by
  -- one refused bound after the other
  obtain ⟨h4, h⟩ := of_guard h
  obtain ⟨-, h⟩ := of_guard h
  obtain ⟨-, h⟩ := of_guard h
  obtain ⟨-, h⟩ := of_guard h
  obtain ⟨-, h⟩ := of_guard h
  obtain ⟨-, h⟩ := of_guard h
  obtain ⟨h6, -⟩ := of_guard h
  rw [not_not] at h4 h6
  exact ⟨h4.1, h4.2, h6.1, h6.2⟩

/-- The mask of the network clears the host bits. -/
theorem AddressPoolConfig.Accepted.prefix_mask (h : c.Accepted) :
    prefix_mask_v4 c.ipv4_prefix_len = highMask 32 (32 - c.ipv4_prefix_len) := by
  have hge := h.ipv4_ge
  have hle := h.ipv4_le
  rw [prefix_mask_v4, if_neg (by omega), if_neg (by omega)]
  rfl

theorem AddressPoolConfig.Accepted.parent_mask (h : c.Accepted) :
    parent_mask_v6 c.ipv6_parent_prefix_len = highMask 64 (64 - c.ipv6_parent_prefix_len) := by
  have hge := h.ipv6_ge
  have hle := h.ipv6_le
  rw [parent_mask_v6, Nat.min_eq_left (by omega : c.ipv6_parent_prefix_len ≤ 64),
    if_neg (by omega), if_neg (by omega)]
  rfl

theorem AddressPoolConfig.Accepted.network_masked (h : c.Accepted) :
    c.network &&& highMask 32 (32 - c.ipv4_prefix_len) = c.network := by
  rw [AddressPoolConfig.network, h.prefix_mask, BitVec.and_assoc, BitVec.and_self]

end Accepted

/-! ## IPv4 candidates -/

section Candidates

variable {c : AddressPoolConfig} {inner : Inner}

/-- A candidate that a scan returns is free and lies between its start and the
broadcast address. The induction is on the number of candidates left. -/
theorem scan_ipv4_between {free : Ipv4 → Bool} {broadcast v : Ipv4} {bound : ℕ} {candidate : Ipv4}
    (h : Inner.scan_ipv4 free broadcast bound candidate = some v) :
    free v = true ∧ candidate.toNat ≤ v.toNat ∧ v.toNat < broadcast.toNat := by
  induction bound generalizing candidate with
  | zero => contradiction
  | succ bound ih =>
    rw [Inner.scan_ipv4] at h
    split at h
    · contradiction
    next hbelow =>
    have hlt : candidate.toNat < broadcast.toNat := by
      rw [BitVec.le_def] at hbelow
      omega
    split at h
    · next hfree =>
      obtain rfl := Option.some.inj h
      exact ⟨hfree, le_rfl, hlt⟩
    · obtain ⟨hfree, hle, hbroadcast⟩ := ih h
      have hsucc : (candidate + 1).toNat = candidate.toNat + 1 := by
        have hwidth := broadcast.isLt
        rw [BitVec.toNat_add]
        simp only [BitVec.ofNat_eq_ofNat, BitVec.toNat_ofNat, Nat.reducePow, Nat.one_mod]
        omega
      exact ⟨hfree, by omega, hbroadcast⟩

theorem find_free_ipv4_usable (hc : c.Accepted) {v : Ipv4} (h : inner.find_free_ipv4 c = some v) :
    c.ipv4_usable v = true := by
  -- the address after the network address does not wrap
  have hstart : (c.network + 1).toNat = c.network.toNat + 1 := by
    have hwidth := c.network.isLt
    have hmasked := congrArg BitVec.toNat hc.network_masked
    rw [toNat_and_highMask] at hmasked
    have hlow : 2 ∣ c.network.toNat := by
      have hle := hc.ipv4_le
      have hpow : 2 ∣ 2 ^ (32 - c.ipv4_prefix_len) := dvd_pow_self 2 (by omega)
      rw [← hmasked]
      exact hpow.mul_left _
    rw [BitVec.toNat_add]
    simp only [BitVec.ofNat_eq_ofNat, BitVec.toNat_ofNat, Nat.reducePow, Nat.one_mod]
    omega
  have hscan : ∀ {bound : ℕ}, Inner.scan_ipv4 (fun candidate => decide (candidate ≠ c.ipv4_gateway ∧
      candidate ∉ c.reserved_ipv4 ∧ !inner.used_ipv4 candidate)) c.broadcast bound (c.network + 1) =
        some v → c.ipv4_usable v = true := by
    intro bound h
    obtain ⟨hfree, hle, hlt⟩ := scan_ipv4_between h
    obtain ⟨hgateway, hreserved, -⟩ := of_decide_eq_true hfree
    have hin : v &&& highMask 32 (32 - c.ipv4_prefix_len) = c.network := by
      refine and_highMask_of_between hc.network_masked (by omega) ?_
      rw [← hc.prefix_mask]
      exact Nat.le_of_lt hlt
    rw [AddressPoolConfig.ipv4_usable, decide_eq_true_eq, hc.prefix_mask]
    refine ⟨hin, ?_, ?_, hgateway, hreserved⟩
    · rintro rfl
      omega
    · rintro rfl
      omega
  rw [Inner.find_free_ipv4] at h
  dsimp only at h
  split at h
  · next v' hfound =>
    obtain rfl := Option.some.inj h
    exact hscan hfound
  split at h
  · contradiction
  · exact hscan h

/-! ## IPv6 candidates -/

/-- The upper half of a prefix that has only that half. -/
theorem subnet64_shift (top : BitVec 64) : subnet64 (top.setWidth 128 <<< 64) = top := by
  apply BitVec.eq_of_getLsbD_eq
  intro i hi
  have hhigh : 64 + i < 128 := by omega
  simp [subnet64, hi, hhigh]

/-- A subnet prefix is the parent's block and the index in it. -/
theorem AddressPoolConfig.Accepted.subnet_prefix (hc : c.Accepted) (subnet : BitVec 64) :
    subnet64 (ipv6_subnet_prefix_of c.ipv6_base c.ipv6_parent_prefix_len subnet) =
      (subnet64 c.ipv6_base &&& highMask 64 (64 - c.ipv6_parent_prefix_len)) |||
        (subnet &&& lowMask 64 (64 - c.ipv6_parent_prefix_len)) := by
  have hge := hc.ipv6_ge
  have hlen := hc.ipv6_le
  have hmin : min c.ipv6_parent_prefix_len 64 = c.ipv6_parent_prefix_len := by omega
  rw [ipv6_subnet_prefix_of, hc.parent_mask, hmin, if_neg (by omega)]
  exact subnet64_shift _

/-- The number of subnets besides the first. -/
theorem AddressPoolConfig.Accepted.subnets (hc : c.Accepted) :
    usable_ipv6_subnets c.ipv6_parent_prefix_len = 2 ^ (64 - c.ipv6_parent_prefix_len) - 1 := by
  have hge := hc.ipv6_ge
  have hlen := hc.ipv6_le
  rw [usable_ipv6_subnets, if_neg (by omega), if_neg (by omega)]

/-- **The index of a subnet is read back.** -/
theorem ipv6_subnet_index_of (hc : c.Accepted) {subnet : ℕ}
    (hle : subnet ≤ usable_ipv6_subnets c.ipv6_parent_prefix_len) :
    ipv6_prefix_matches_parent (ipv6_subnet_prefix_of c.ipv6_base c.ipv6_parent_prefix_len
        (BitVec.ofNat 64 subnet)) c.ipv6_base c.ipv6_parent_prefix_len = true ∧
      ipv6_subnet_index c.ipv6_base c.ipv6_parent_prefix_len (ipv6_subnet_prefix_of c.ipv6_base
        c.ipv6_parent_prefix_len (BitVec.ofNat 64 subnet)) = some (BitVec.ofNat 64 subnet) := by
  have hge := hc.ipv6_ge
  have hlen := hc.ipv6_le
  have hmin : min c.ipv6_parent_prefix_len 64 = c.ipv6_parent_prefix_len := by omega
  have hbits : 64 - c.ipv6_parent_prefix_len < 64 := by omega
  -- the index fits in the subnet bits
  have hsmall : subnet < 2 ^ (64 - c.ipv6_parent_prefix_len) := by
    rw [hc.subnets] at hle
    have hpow : 0 < 2 ^ (64 - c.ipv6_parent_prefix_len) := Nat.two_pow_pos _
    omega
  have hindex : BitVec.ofNat 64 subnet &&& lowMask 64 (64 - c.ipv6_parent_prefix_len) =
      BitVec.ofNat 64 subnet := by
    have hwidth : subnet < 2 ^ 64 := hsmall.trans_le (Nat.pow_le_pow_right (by omega) (by omega))
    apply BitVec.eq_of_toNat_eq
    rw [toNat_and_lowMask hbits, BitVec.toNat_ofNat, Nat.mod_eq_of_lt hwidth,
      Nat.mod_eq_of_lt hsmall]
  obtain ⟨hparent, hsubnet⟩ := compose_block hbits (subnet64 c.ipv6_base) (BitVec.ofNat 64 subnet)
  have hmatches : ipv6_prefix_matches_parent (ipv6_subnet_prefix_of c.ipv6_base
      c.ipv6_parent_prefix_len (BitVec.ofNat 64 subnet)) c.ipv6_base c.ipv6_parent_prefix_len =
        true := by
    rw [ipv6_prefix_matches_parent, hc.subnet_prefix, hc.parent_mask, decide_eq_true_eq]
    exact hparent
  refine ⟨hmatches, ?_⟩
  rw [ipv6_subnet_index, hmatches, Bool.not_true, if_neg (by simp), hmin, if_neg (by omega)]
  dsimp only
  rw [if_neg (by omega), hc.subnet_prefix]
  exact congrArg some (hsubnet.trans hindex)

/-- **A subnet other than the first is usable.** -/
theorem ipv6_subnet_usable (hc : c.Accepted) {subnet : ℕ} (hpos : 0 < subnet)
    (hle : subnet ≤ usable_ipv6_subnets c.ipv6_parent_prefix_len) :
    c.ipv6_usable (ipv6_subnet_prefix_of c.ipv6_base c.ipv6_parent_prefix_len
      (BitVec.ofNat 64 subnet)) = true := by
  obtain ⟨hmatches, hindex⟩ := ipv6_subnet_index_of hc hle
  have hsmall : subnet < 2 ^ 64 := by
    have hpow : 2 ^ (64 - c.ipv6_parent_prefix_len) ≤ 2 ^ 64 :=
      Nat.pow_le_pow_right (by omega) (by omega)
    rw [hc.subnets] at hle
    omega
  rw [AddressPoolConfig.ipv6_usable, decide_eq_true_eq]
  refine ⟨hmatches, ipv6_subnet_prefix_aligned _ _ _, ?_⟩
  rw [hindex]
  intro hzero
  have hzero := congrArg BitVec.toNat (Option.some.inj hzero)
  simp at hzero
  omega

theorem scan_ipv6_usable (hc : c.Accepted) {v : Ipv6} {bound subnet : ℕ} (hpos : 0 < subnet)
    (hle : subnet + bound ≤ usable_ipv6_subnets c.ipv6_parent_prefix_len + 1)
    (h : inner.scan_ipv6 c bound subnet = some v) : c.ipv6_usable v = true := by
  induction bound generalizing subnet with
  | zero => contradiction
  | succ bound ih =>
    rw [Inner.scan_ipv6] at h
    split at h
    · obtain rfl := Option.some.inj h
      exact ipv6_subnet_usable hc hpos (by omega)
    · exact ih (by omega) (by omega) h

theorem find_free_ipv6_usable (hc : c.Accepted) {v : Ipv6} (h : inner.find_free_ipv6 c = some v) :
    c.ipv6_usable v = true := by
  rw [Inner.find_free_ipv6] at h
  split at h
  · next v' hfound =>
    obtain rfl := Option.some.inj h
    exact scan_ipv6_usable hc Nat.one_pos (by omega) hfound
  split at h
  · contradiction
  · exact scan_ipv6_usable hc Nat.one_pos (by omega) h

/-- **Fresh addresses are usable.** -/
theorem allocate_usable (hc : c.Accepted) {a : AssignedAddresses}
    (h : inner.allocate_locked c = .ok a) : c.Usable a := by
  obtain ⟨v4, v6, h4, h6, rfl⟩ := AddressPool.allocate_ok h
  exact ⟨find_free_ipv4_usable hc h4, rfl, find_free_ipv6_usable hc h6, rfl⟩

end Candidates

/-! ## Recovered leases -/

/-- The addresses of the maps, entry by entry. -/
theorem mem_leased_iff {inner : Inner} {a : AssignedAddresses} : a ∈ inner.leased ↔
    (∃ id lease, inner.active.lookup id = some lease ∧ lease.addresses = a) ∨
    (∃ id lease, inner.pending.lookup id = some lease ∧ lease.addresses = a) ∨
    ∃ id lease, inner.release_pending.lookup id = some lease ∧ lease.addresses = a := by
  simp only [Inner.leased, List.mem_append, List.mem_map, AList.mem_values_iff, or_assoc]
  refine or_congr ?_ (or_congr ?_ ?_)
  all_goals
    rw [exists_comm]
    simp only [exists_and_right]

section Inserts

variable {inner inner' : Inner} {id : SessionId} {lease : Lease} {a : AssignedAddresses}

theorem leased_insert_active
    (h : a ∈ ({ inner with active := inner.active.insert id lease } : Inner).leased) :
    a ∈ inner.leased ∨ lease.addresses = a := by
  rw [mem_leased_iff] at h ⊢
  rcases h with ⟨id', lease', hl, ha⟩ | h
  · rw [AList.lookup_insert_of] at hl
    split at hl
    · exact .inr (Option.some.inj hl ▸ ha)
    · exact .inl (.inl ⟨id', lease', hl, ha⟩)
  · exact .inl (.inr h)

theorem leased_insert_pending
    (h : a ∈ ({ inner with pending := inner.pending.insert id lease } : Inner).leased) :
    a ∈ inner.leased ∨ lease.addresses = a := by
  rw [mem_leased_iff] at h ⊢
  rcases h with h | ⟨id', lease', hl, ha⟩ | h
  · exact .inl (.inl h)
  · rw [AList.lookup_insert_of] at hl
    split at hl
    · exact .inr (Option.some.inj hl ▸ ha)
    · exact .inl (.inr (.inl ⟨id', lease', hl, ha⟩))
  · exact .inl (.inr (.inr h))

theorem leased_insert_quarantined {quarantined : ReleasePendingLease} {order : List SessionId}
    (h : a ∈ ({ inner with
      release_order := order
      release_pending := inner.release_pending.insert id quarantined } : Inner).leased) :
    a ∈ inner.leased ∨ quarantined.addresses = a := by
  rw [mem_leased_iff] at h ⊢
  rcases h with h | h | ⟨id', lease', hl, ha⟩
  · exact .inl (.inl h)
  · exact .inl (.inr (.inl h))
  · rw [AList.lookup_insert_of] at hl
    split at hl
    · exact .inr (Option.some.inj hl ▸ ha)
    · exact .inl (.inr (.inr ⟨id', lease', hl, ha⟩))

theorem leased_enqueue {c : AddressPoolConfig} {now_ms : ℕ}
    (he : inner.enqueue_release_locked c id lease now_ms = .ok inner') (h : a ∈ inner'.leased) :
    a ∈ inner.leased ∨ lease.addresses = a := by
  rw [Inner.enqueue_release_locked] at he
  split at he
  · rw [← Except.ok.inj he] at h
    exact .inl h
  split at he
  · contradiction
  · rw [← Except.ok.inj he] at h
    exact leased_insert_quarantined h

end Inserts

namespace AddressPool

variable {c : AddressPoolConfig} {now : PoolTime}

/-- A valid record names usable addresses. -/
theorem usable_of_valid {r : Recovery} {record : PersistedLease}
    (h : valid_persisted_locked c r record = true) : c.Usable record.addresses := by
  simp only [valid_persisted_locked, Bool.and_eq_true, beq_iff_eq] at h
  obtain ⟨⟨⟨⟨⟨⟨⟨⟨⟨⟨⟨⟨-, -⟩, hl4⟩, hl6⟩, h4⟩, h6⟩, -⟩, -⟩, -⟩, -⟩, -⟩, -⟩, -⟩ := h
  exact ⟨h4, hl4, h6, hl6⟩

/-- A record is restored only if its addresses are usable. -/
theorem recover_lease_usable {r : Recovery} (record : PersistedLease)
    (h : ∀ a ∈ r.inner.leased, c.Usable a) :
    ∀ a ∈ (recover_lease c now r record).inner.leased, c.Usable a := by
  intro a ha
  unfold recover_lease at ha
  split at ha
  · exact h a ha
  split at ha
  · exact h a ha
  next hvalid =>
  have husable : c.Usable record.addresses := usable_of_valid (by simpa using hvalid)
  dsimp only at ha
  have hold : a ∈ r.inner.leased ∨ record.addresses = a → c.Usable a := by
    rintro (hmem | rfl)
    · exact h a hmem
    · exact husable
  cases hstate : record.state with
  | Reserved =>
    rw [hstate] at ha
    dsimp only at ha
    split at ha
    · exact h a ha
    · exact hold (leased_insert_pending ha)
  | Active =>
    rw [hstate] at ha
    dsimp only at ha
    split at ha
    · exact h a ha
    · exact hold (leased_insert_active ha)
  | ReleasePending =>
    rw [hstate] at ha
    dsimp only at ha
    split at ha
    · exact h a ha
    · exact hold (leased_insert_quarantined ha)

theorem recover_records_usable (c : AddressPoolConfig) (now : PoolTime)
    (records : List PersistedLease) :
    ∀ a ∈ (recover_records c now records).inner.leased, c.Usable a := by
  have hempty : ∀ a ∈ Inner.empty.leased, c.Usable a := by
    intro a ha
    simp [Inner.empty, Inner.leased, AList.values] at ha
  rw [recover_records]
  exact List.foldlRecOn (motive := fun r : Recovery => ∀ a ∈ r.inner.leased, c.Usable a) _ _ hempty
    (fun _ h record _ => recover_lease_usable record h)

/-- The deletes of the records that recovery drops, with their outcomes. -/
def stale_deletes (c : AddressPoolConfig) (now : PoolTime) (records : List PersistedLease)
    (outcomes : List Bool) : List (PersistedLease × Bool) :=
  let r := recover_records c now records
  r.stale.zip (outcomes ++ List.replicate r.stale.length true)

/-- What the quarantine adds: dropped records whose delete has failed. -/
theorem quarantine_stale_leased {deletes : List (PersistedLease × Bool)} {inner inner' : Inner}
    (h : quarantine_stale c now inner deletes = .ok inner') {a : AssignedAddresses}
    (ha : a ∈ inner'.leased) :
    a ∈ inner.leased ∨ ∃ record, (record, false) ∈ deletes ∧ record.addresses = a := by
  induction deletes generalizing inner with
  | nil =>
    rw [Except.ok.inj h]
    exact .inl ha
  | cons d deletes ih =>
    obtain ⟨record, ok⟩ := d
    rw [quarantine_stale] at h
    split at h
    · rcases ih h with hold | ⟨record', hmem, hrecord⟩
      · exact .inl hold
      · exact .inr ⟨record', List.mem_cons_of_mem _ hmem, hrecord⟩
    next hfailed =>
    split at h
    · contradiction
    next inner₁ he =>
    rcases ih h with hold | ⟨record', hmem, hrecord⟩
    · rcases leased_enqueue he hold with hold | hrecord
      · exact .inl hold
      · refine .inr ⟨record, ?_, hrecord⟩
        have hok : ok = false := by simpa using hfailed
        rw [hok]
        exact List.mem_cons_self
    · exact .inr ⟨record', List.mem_cons_of_mem _ hmem, hrecord⟩

/-- A failed delete leaves its session in the quarantine, and the quarantine only
grows. -/
theorem quarantine_stale_mem {deletes : List (PersistedLease × Bool)} {inner inner' : Inner}
    (h : quarantine_stale c now inner deletes = .ok inner') {session_id : SessionId}
    (hid : session_id ∈ inner.release_pending ∨
      ∃ record, (record, false) ∈ deletes ∧ record.session_id = session_id) :
    session_id ∈ inner'.release_pending := by
  induction deletes generalizing inner with
  | nil =>
    rw [← Except.ok.inj h]
    rcases hid with hold | ⟨record, hmem, -⟩
    · exact hold
    · contradiction
  | cons d deletes ih =>
    obtain ⟨record, ok⟩ := d
    rw [quarantine_stale] at h
    split at h
    · next hok =>
      refine ih h (hid.imp_right ?_)
      rintro ⟨record', hmem, hrecord⟩
      rcases List.mem_cons.mp hmem with he | hmem
      · obtain ⟨-, rfl⟩ := Prod.mk.inj he
        contradiction
      · exact ⟨record', hmem, hrecord⟩
    split at h
    · contradiction
    next inner₁ he =>
    have hgrows : ∀ id, id ∈ inner.release_pending ∨ id = record.session_id →
        id ∈ inner₁.release_pending := by
      rw [Inner.enqueue_release_locked] at he
      split at he
      · next hmem =>
        rw [← Except.ok.inj he]
        rintro id (hold | rfl)
        · exact hold
        · exact hmem
      split at he
      · contradiction
      · rw [← Except.ok.inj he]
        rintro id (hold | rfl)
        · exact (AList.mem_insert _).mpr (.inr hold)
        · exact (AList.mem_insert _).mpr (.inl rfl)
    rcases hid with hold | ⟨record', hmem, rfl⟩
    · exact ih h (.inl (hgrows _ (.inl hold)))
    rcases List.mem_cons.mp hmem with he' | hmem
    · obtain ⟨rfl, -⟩ := Prod.mk.inj he'
      exact ih h (.inl (hgrows _ (.inr rfl)))
    · exact ih h (.inr ⟨record', hmem, rfl⟩)

theorem with_store_inner {records : List PersistedLease} {store : LeaseStore}
    {outcomes : List Bool} {pool : AddressPool}
    (h : with_store_at_time c (some records) store now outcomes = .ok pool) :
    quarantine_stale c now (recover_records c now records).inner
      (stale_deletes c now records outcomes) = .ok pool.inner ∧ pool.config = c := by
  obtain ⟨deletes, inner, rfl, hq, rfl⟩ := with_store_eq_ok h
  exact ⟨hq, rfl⟩

/-- **A dropped record whose delete failed is kept as it is**, in the quarantine. -/
theorem with_store_quarantines {records : List PersistedLease} {store : LeaseStore}
    {outcomes : List Bool} {pool : AddressPool}
    (h : with_store_at_time c (some records) store now outcomes = .ok pool)
    (hnodup : (records.map (·.session_id)).Nodup) {record : PersistedLease}
    (hfailed : (record, false) ∈ stale_deletes c now records outcomes) :
    ∃ lease : ReleasePendingLease, lease.addresses = record.addresses ∧
      pool.inner.slot record.session_id = (Place.quarantined lease).slot := by
  obtain ⟨hq, -⟩ := with_store_inner h
  have hmem : record ∈ (recover_records c now records).stale := (List.of_mem_zip hfailed).1
  -- the record is the only one of its session, so recovery left the session free
  have hfree : (recover_records c now records).inner.slot record.session_id = Place.free.slot := by
    rcases recover_records_view c now hnodup record.session_id with
      hview | ⟨record', _, _, hview | hview⟩
    · exact (Prod.mk.inj hview).1
    · exact (Prod.mk.inj hview).1
    · have hnone := (Prod.mk.inj hview).2
      rw [List.filter_eq_nil_iff] at hnone
      exact absurd (decide_eq_true rfl) (hnone record hmem)
  have hids : (stale_deletes c now records outcomes).map (·.1.session_id) =
      (recover_records c now records).stale.map (·.session_id) := by
    have hfst : (stale_deletes c now records outcomes).map Prod.fst =
        (recover_records c now records).stale := by
      apply List.map_fst_zip
      rw [List.length_append, List.length_replicate]
      omega
    rw [← hfst, List.map_map]
    rfl
  have hnodup' := hids ▸ recover_records_stale_nodup c now hnodup
  have hpresent := quarantine_stale_mem hq (.inr ⟨record, hfailed, rfl⟩)
  rcases (quarantine_stale_slot hq hnodup' record.session_id).2 _ hfailed rfl hfree with
    hslot | hlease
  · have hnone : pool.inner.release_pending.lookup record.session_id = none :=
      congrArg Slot.quarantined hslot
    exact absurd hpresent (AList.lookup_eq_none.mp hnone)
  · exact hlease

end AddressPool

namespace PoolSystem

variable {s s' : PoolSystem} {label : PoolLabel} {events : List PoolEvent}

/-! ## Over a run -/

/-- Every session holds usable addresses. -/
def HoldsUsable (s : PoolSystem) : Prop :=
  ∀ session_id p a, s.At session_id p → p.addresses = some a → s.pool.config.Usable a

/-- **Step lemma.** What a session holds after a step it held before, or the
allocator has just picked it. -/
theorem HoldsUsable.step (hc : s.pool.config.Accepted) (h : s.Coherent) (husable : s.HoldsUsable)
    (hs : s.step label = some (s', events)) : s'.HoldsUsable := by
  intro session_id p' a hp' ha
  obtain ⟨p, hp⟩ := h.places session_id
  obtain ⟨p'', hp'', hcycle⟩ := (step_refines h hs).2 session_id p hp
  obtain rfl := hp''.unique hp'
  rw [step_config hs]
  rcases hcycle.addresses_kept ha with hold | ⟨caller, call, _, _, inner', _, halloc⟩
  · exact husable session_id p a hp hold
  · exact allocate_usable hc halloc

/-- What a run keeps: the sessions hold usable addresses, and no others were given
out. -/
structure GivesUsable (c : AddressPoolConfig) (s : PoolSystem) (past : List PoolEvent) : Prop where
  config : s.pool.config = c
  coherent : s.Coherent
  holds : s.HoldsUsable
  reports : ∀ e ∈ past, ∀ session_id a, e.hands session_id a → c.Usable a

theorem GivesUsable.step {c : AddressPoolConfig} {past : List PoolEvent} (h : s.GivesUsable c past)
    (hc : c.Accepted) (hs : s.step label = some (s', events)) :
    s'.GivesUsable c (past ++ events) := by
  have hconfig : s'.pool.config = c := (step_config hs).trans h.config
  have hholds := HoldsUsable.step (h.config ▸ hc) h.coherent h.holds hs
  refine ⟨hconfig, (step_refines h.coherent hs).1, hholds, ?_⟩
  intro e he session_id a hhands
  rcases List.mem_append.mp he with hpast | hnew
  · exact h.reports e hpast session_id a hhands
  · obtain ⟨p, hp⟩ := h.coherent.places session_id
    obtain ⟨p', hp', hcycle⟩ := (step_refines h.coherent hs).2 session_id p hp
    rw [← hconfig]
    exact hholds session_id p' a hp' (hcycle.hands_held hnew hhands)

/-- A commit call finds a session in the quarantine. -/
theorem commit_quarantined {session_id : SessionId} {lease : ReleasePendingLease}
    {pool : AddressPool} (now : PoolTime)
    (h : pool.inner.slot session_id = (Place.quarantined lease).slot) :
    ∃ s, exec PoolSystem.step (start pool) [.begin_ 0 (.commit session_id now)] =
      some (s, [.committed session_id (.ok lease.addresses)]) := by
  have hidle : session_id ∉ pool.inner.inflight := of_decide_eq_false (congrArg Slot.inflight h)
  have hactive : pool.inner.active.lookup session_id = none := congrArg Slot.active h
  have hlease : pool.inner.release_pending.lookup session_id = some lease :=
    congrArg Slot.quarantined h
  have hsection : AddressPool.begin_ (start pool).pool.config (start pool).durable
      (start pool).pool.inner (.commit session_id now) =
        .returns pool.inner (.committed session_id (.ok lease.addresses)) := by
    change AddressPool.commit_begin pool.config pool.inner session_id now = _
    rw [AddressPool.commit_begin, if_neg hidle, hactive, hlease]
  have hfresh : 0 ∉ (start pool).running := AList.notMem_empty 0
  refine ⟨(start pool).enter 0 (.returns pool.inner (.committed session_id (.ok lease.addresses))),
    ?_⟩
  refine exec_singleton ?_
  rw [PoolSystem.step, if_neg hfresh, hsection]
  rfl

/-- **Handed-out addresses are usable, unless recovery could not delete a record.**
For every accepted configuration and every list of records with distinct sessions:
every address pair that reserve or commit returns, in any later run, is usable
exactly when every record whose delete failed during recovery has usable
addresses. -/
theorem handed_out_usable_iff {c : AddressPoolConfig} {records : List PersistedLease}
    {store : LeaseStore} {now : PoolTime} {outcomes : List Bool} {pool : AddressPool}
    (hc : AddressPoolConfig.new c = .ok c) (hnodup : (records.map (·.session_id)).Nodup)
    (hpool : AddressPool.with_store_at_time c (some records) store now outcomes = .ok pool) :
    (∀ labels s events, exec PoolSystem.step (start pool) labels = some (s, events) →
      ∀ e ∈ events, ∀ session_id a, e.hands session_id a → c.Usable a) ↔
    ∀ record, (record, false) ∈ AddressPool.stale_deletes c now records outcomes →
      c.Usable record.addresses := by
  obtain ⟨hquarantine, hconfig⟩ := AddressPool.with_store_inner hpool
  constructor
  · intro hall record hfailed
    -- the session's own commit is answered with the record's addresses
    obtain ⟨lease, ha, hslot⟩ := AddressPool.with_store_quarantines hpool hnodup hfailed
    obtain ⟨s, hrun⟩ := commit_quarantined ⟨0, 0⟩ hslot
    rw [← ha]
    exact hall _ s _ hrun _ (List.mem_singleton_self _) record.session_id _ (.inr rfl)
  · intro hrecords labels s events hrun
    have hstart : (start pool).HoldsUsable := by
      intro session_id p a hp ha
      obtain ⟨hslot, hrest⟩ := at_start.mp hp
      have hmem : a ∈ pool.inner.leased := by
        refine AddressPool.leased_of_slot hslot ha ?_
        rintro by_ lease rfl
        contradiction
      change pool.config.Usable a
      rw [hconfig]
      rcases AddressPool.quarantine_stale_leased hquarantine hmem with hold | ⟨record, hfailed, rfl⟩
      · exact AddressPool.recover_records_usable c now records a hold
      · exact hrecords record hfailed
    have hend := exec_along_induct (C := fun _ _ => True) (P := GivesUsable c) (a := [])
      (fun s label s' events past h _ hs => h.step (AddressPoolConfig.accepted_of_new hc) hs)
      ⟨hconfig, start_coherent (AddressPool.with_store_at_rest hpool hnodup), hstart, by simp⟩
      (along_true _ _) hrun
    exact hend.reports

/-! ### A record from before a renumbering -/

namespace Sample

/-- An expired record of session 1 with an address of another network, which the
store fails to delete. -/
def renumbered : PersistedLease :=
  ⟨⟨1⟩, ⟨7⟩, ⟨0x0b000005, 24, 0xfd000000000000010000000000000000, 64⟩, .Active, 500⟩

/-- A record that is restored. -/
def restorable : PersistedLease := ⟨⟨1⟩, ⟨7⟩, first, .Active, 90000⟩

end Sample

open Sample in
/-- Session 1 is handed an address outside the configured network. -/
theorem unusable_handed_out :
    AddressPoolConfig.new config = .ok config ∧ ¬ config.Usable renumbered.addresses ∧
    ∃ pool s events,
      AddressPool.with_store_at_time config (some [renumbered])
        ((∅ : LeaseStore).insert ⟨1⟩ renumbered)
        ⟨0, 1000⟩ [false] = .ok pool ∧
      exec PoolSystem.step (start pool) [.begin_ 0 (reserve ⟨1⟩)] = some (s, events) ∧
      .reserved ⟨1⟩ (.ok renumbered.addresses) ∈ events := by
  refine ⟨by decide, by decide, ?_⟩
  have hpool : ((AddressPool.with_store_at_time config (some [renumbered])
      ((∅ : LeaseStore).insert ⟨1⟩ renumbered) ⟨0, 1000⟩ [false]).toOption.bind (fun pool =>
        exec PoolSystem.step (start pool) [.begin_ 0 (reserve ⟨1⟩)])).map (·.2) =
          some [.reserved ⟨1⟩ (.ok renumbered.addresses)] := by
    decide
  cases hstart : AddressPool.with_store_at_time config (some [renumbered])
      ((∅ : LeaseStore).insert ⟨1⟩ renumbered) ⟨0, 1000⟩ [false] with
  | error e =>
    rw [hstart] at hpool
    contradiction
  | ok pool =>
    rw [hstart] at hpool
    obtain ⟨⟨s, events⟩, hrun, hevents⟩ := Option.map_eq_some_iff.mp hpool
    refine ⟨pool, s, events, rfl, hrun, ?_⟩
    obtain rfl : events = [.reserved ⟨1⟩ (.ok renumbered.addresses)] := hevents
    exact List.mem_singleton_self _

open Sample in
/-- A pool recovered from one good record. -/
theorem handed_out_usable_sample : ∃ pool,
    AddressPool.with_store_at_time config (some [restorable]) ((∅ : LeaseStore).insert ⟨1⟩ restorable)
      ⟨0, 1000⟩ [] = .ok pool ∧
    ∀ labels s events, exec PoolSystem.step (start pool) labels = some (s, events) →
      ∀ e ∈ events, ∀ session_id a, e.hands session_id a → config.Usable a := by
  cases hstart : AddressPool.with_store_at_time config (some [restorable])
      ((∅ : LeaseStore).insert ⟨1⟩ restorable) ⟨0, 1000⟩ [] with
  | error e =>
    have hok : (AddressPool.with_store_at_time config (some [restorable])
        ((∅ : LeaseStore).insert ⟨1⟩ restorable) ⟨0, 1000⟩ []).toOption.isSome = true := by
      decide
    rw [hstart] at hok
    contradiction
  | ok pool =>
    have hstale : AddressPool.stale_deletes config ⟨0, 1000⟩ [restorable] [] = [] := by
      decide
    refine ⟨pool, rfl, (handed_out_usable_iff (by decide) (by simp) hstart).mpr ?_⟩
    intro record hfailed
    rw [hstale] at hfailed
    contradiction

end PoolSystem

end StreamGuard.Gateway
