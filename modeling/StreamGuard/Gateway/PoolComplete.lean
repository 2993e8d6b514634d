/-
The allocator finds a free address whenever there is one.

A scan that finds nothing has seen every candidate up to its bound taken. The IPv6
fallback looks at every subnet. The IPv4 fallback stops after 2^20 hosts, and there
a count decides: what may be taken, the leases of the three maps, the parked ones
and the addresses set aside, is fewer than that, whatever the quarantine holds.

The early return on the number of leases is never met, because a reserve has
checked the same bound before it allocates.
-/
import Mathlib.Combinatorics.Enumerative.DoubleCounting
import StreamGuard.Gateway.PoolLive

set_option autoImplicit false

namespace StreamGuard.Gateway

open StreamGuard StreamGuard.Lib

/-! ## Configured bounds -/

/-- The bounds of a configuration that `new` accepts. -/
structure AddressPoolConfig.Bounded (c : AddressPoolConfig) : Prop where
  leases : c.maximum_leases ≤ MAX_LEASES_HARD_CAP
  releases : c.maximum_pending_releases ≤ MAX_LEASES_HARD_CAP
  reserved : c.reserved_ipv4.length ≤ MAX_RESERVED_IPV4

section Config

variable {c c' : AddressPoolConfig} {inner : Inner}

theorem AddressPoolConfig.bounded_of_new (h : AddressPoolConfig.new c = .ok c') : c.Bounded := by
  -- one refused bound after the other
  obtain ⟨-, h⟩ := of_guard h
  obtain ⟨hleases, h⟩ := of_guard h
  obtain ⟨-, h⟩ := of_guard h
  obtain ⟨-, h⟩ := of_guard h
  obtain ⟨hreleases, h⟩ := of_guard h
  obtain ⟨hreserved, -⟩ := of_guard h
  exact ⟨by omega, by omega, by omega⟩

/-- The network's hosts are the addresses between the network and the broadcast address. -/
theorem AddressPoolConfig.Accepted.host_between (hc : c.Accepted) {v : Ipv4}
    (h : c.ipv4_usable v = true) :
    c.network.toNat < v.toNat ∧ v.toNat < c.broadcast.toNat := by
  rw [AddressPoolConfig.ipv4_usable, decide_eq_true_eq, hc.prefix_mask] at h
  obtain ⟨hin, hnetwork, hbroadcast, -⟩ := h
  obtain ⟨hge, hle⟩ := between_of_and_highMask (by omega) hin
  have hlast : c.broadcast = c.network ||| ~~~(highMask 32 (32 - c.ipv4_prefix_len)) := by
    rw [AddressPoolConfig.broadcast, hc.prefix_mask]
  rw [← hlast] at hle
  have hne : v.toNat ≠ c.network.toNat := fun he => hnetwork (BitVec.eq_of_toNat_eq he)
  have hne' : v.toNat ≠ c.broadcast.toNat := fun he => hbroadcast (BitVec.eq_of_toNat_eq he)
  omega

/-- The first candidate does not wrap. -/
theorem AddressPoolConfig.Accepted.first_candidate (hc : c.Accepted) :
    (c.network + 1).toNat = c.network.toNat + 1 := by
  have hge := hc.ipv4_ge
  have hle := hc.ipv4_le
  have hlast := toNat_block_last (k := 32 - c.ipv4_prefix_len) (by omega) hc.network_masked
  have hwidth := (c.network ||| ~~~(highMask 32 (32 - c.ipv4_prefix_len))).isLt
  have hpow : 2 ^ 2 ≤ 2 ^ (32 - c.ipv4_prefix_len) := Nat.pow_le_pow_right (by omega) (by omega)
  rw [BitVec.toNat_add]
  simp only [BitVec.ofNat_eq_ofNat, BitVec.toNat_ofNat, Nat.reducePow, Nat.one_mod]
  omega

/-- **A prefix of the parent other than its first `/64` is one of the subnets.** -/
theorem exists_subnet (hc : c.Accepted) {v : Ipv6} (h : c.ipv6_usable v = true) :
    ∃ subnet, 0 < subnet ∧ subnet ≤ usable_ipv6_subnets c.ipv6_parent_prefix_len ∧
      v = ipv6_subnet_prefix_of c.ipv6_base c.ipv6_parent_prefix_len (BitVec.ofNat 64 subnet) := by
  have hge := hc.ipv6_ge
  have hlen := hc.ipv6_le
  have hbits : 64 - c.ipv6_parent_prefix_len < 64 := by omega
  have hmin : min c.ipv6_parent_prefix_len 64 = c.ipv6_parent_prefix_len := by omega
  rw [AddressPoolConfig.ipv6_usable, decide_eq_true_eq] at h
  obtain ⟨hmatches, haligned, hindex⟩ := h
  rw [ipv6_subnet_index, hmatches, Bool.not_true, if_neg (by simp), hmin, if_neg (by omega)]
    at hindex
  dsimp only at hindex
  rw [if_neg (by omega)] at hindex
  have hindex : subnet64 v &&& lowMask 64 (64 - c.ipv6_parent_prefix_len) ≠ 0 :=
    fun he => hindex (congrArg some he)
  have hmod := toNat_and_lowMask hbits (subnet64 v)
  refine ⟨(subnet64 v &&& lowMask 64 (64 - c.ipv6_parent_prefix_len)).toNat, ?_, ?_, ?_⟩
  · refine Nat.pos_of_ne_zero (fun he => hindex (BitVec.eq_of_toNat_eq ?_))
    rw [he]
    rfl
  · have hlt := Nat.mod_lt (subnet64 v).toNat (Nat.two_pow_pos (64 - c.ipv6_parent_prefix_len))
    rw [hc.subnets, hmod]
    omega
  · refine eq_of_subnet64_eq haligned (ipv6_subnet_prefix_aligned _ _ _) ?_
    rw [ipv6_prefix_matches_parent, hc.parent_mask, decide_eq_true_eq] at hmatches
    rw [hc.subnet_prefix, BitVec.ofNat_toNat, BitVec.setWidth_eq, BitVec.and_assoc,
      BitVec.and_self, ← hmatches, block_index _ hbits]

/-! ## Scans that find nothing -/

/-- A scan without a result has seen every candidate taken. -/
theorem scan_ipv4_none {free : Ipv4 → Bool} {broadcast : Ipv4} {bound : ℕ} {candidate : Ipv4}
    (h : Inner.scan_ipv4 free broadcast bound candidate = none) :
    ∀ i < bound, candidate.toNat + i < broadcast.toNat →
      free (BitVec.ofNat 32 (candidate.toNat + i)) = false := by
  induction bound generalizing candidate with
  | zero => exact fun _ hi => absurd hi (Nat.not_lt_zero _)
  | succ bound ih =>
    intro i hi hlt
    rw [Inner.scan_ipv4] at h
    split at h
    · next hend =>
      rw [BitVec.le_def] at hend
      omega
    split at h
    · contradiction
    next hfree =>
    have hsucc : (candidate + 1).toNat = candidate.toNat + 1 := by
      have hwidth := broadcast.isLt
      rw [BitVec.toNat_add]
      simp only [BitVec.ofNat_eq_ofNat, BitVec.toNat_ofNat, Nat.reducePow, Nat.one_mod]
      omega
    cases i with
    | zero => simpa using hfree
    | succ i =>
      have hnext := ih h i (by omega) (by omega)
      rwa [hsucc, Nat.add_assoc, Nat.add_comm 1 i] at hnext

theorem scan_ipv6_none {bound subnet : ℕ} (h : inner.scan_ipv6 c bound subnet = none) :
    ∀ i < bound, inner.used_ipv6 (ipv6_subnet_prefix_of c.ipv6_base c.ipv6_parent_prefix_len
      (BitVec.ofNat 64 (subnet + i))) = true := by
  induction bound generalizing subnet with
  | zero => exact fun _ hi => absurd hi (Nat.not_lt_zero _)
  | succ bound ih =>
    intro i hi
    rw [Inner.scan_ipv6] at h
    split at h
    · contradiction
    next hused =>
    cases i with
    | zero => simpa using hused
    | succ i =>
      have hnext := ih h i (by omega)
      rwa [Nat.add_assoc, Nat.add_comm 1 i] at hnext

/-- **IPv6 exhaustion.** With room for another lease, every subnet is taken. -/
theorem ipv6_exhausted (hc : c.Accepted)
    (hroom : inner.active.len + inner.pending.len < c.maximum_leases)
    (h : inner.find_free_ipv6 c = none) {v : Ipv6} (hv : c.ipv6_usable v = true) :
    inner.used_ipv6 v = true := by
  rw [Inner.find_free_ipv6] at h
  split at h
  · contradiction
  rw [if_neg (by omega)] at h
  obtain ⟨subnet, hpos, hle, rfl⟩ := exists_subnet hc hv
  have hused := scan_ipv6_none h (subnet - 1) (by omega)
  rwa [Nat.add_sub_cancel' hpos] at hused

/-- The IPv4 addresses that a candidate may not have. -/
def taken_ipv4 (c : AddressPoolConfig) (inner : Inner) : Finset Ipv4 :=
  insert c.ipv4_gateway (c.reserved_ipv4.toFinset ∪ (inner.leased.map (·.ipv4)).toFinset ∪
    inner.inflight_v4)

theorem card_taken_le (c : AddressPoolConfig) (inner : Inner) :
    (taken_ipv4 c inner).card ≤ 1 + c.reserved_ipv4.length + (inner.active.len +
      inner.pending.len + inner.release_pending.len) + inner.inflight_v4.card := by
  have hleased : inner.leased.length =
      inner.active.len + inner.pending.len + inner.release_pending.len := by
    simp [Inner.leased, AList.values, AList.len, Nat.add_assoc]
  have hinsert := Finset.card_insert_le c.ipv4_gateway (c.reserved_ipv4.toFinset ∪
    (inner.leased.map (·.ipv4)).toFinset ∪ inner.inflight_v4)
  have houter := Finset.card_union_le (c.reserved_ipv4.toFinset ∪
    (inner.leased.map (·.ipv4)).toFinset) inner.inflight_v4
  have hinner := Finset.card_union_le c.reserved_ipv4.toFinset
    (inner.leased.map (·.ipv4)).toFinset
  have hreserved := List.toFinset_card_le c.reserved_ipv4
  have hmap := List.toFinset_card_le (inner.leased.map (·.ipv4))
  rw [List.length_map] at hmap
  rw [taken_ipv4]
  omega

/-- A candidate that is not free is taken. -/
theorem mem_taken {v : Ipv4} (h : decide (v ≠ c.ipv4_gateway ∧ v ∉ c.reserved_ipv4 ∧
    !inner.used_ipv4 v) = false) : v ∈ taken_ipv4 c inner := by
  by_contra hnot
  simp only [taken_ipv4, Finset.mem_insert, Finset.mem_union, List.mem_toFinset, List.mem_map,
    not_or, not_exists, not_and] at hnot
  obtain ⟨hgateway, ⟨hreserved, hleased⟩, hparked⟩ := hnot
  refine of_decide_eq_false h ⟨hgateway, hreserved, ?_⟩
  simp only [Inner.used_ipv4, Bool.not_eq_true', Bool.or_eq_false_iff, List.any_eq_false,
    decide_eq_true_eq, decide_eq_false_iff_not]
  exact ⟨hleased, hparked⟩

/-- **IPv4 exhaustion.** With room for another lease, every host is taken. -/
theorem ipv4_exhausted (hc : c.Accepted) (hb : c.Bounded) (hqueue : inner.Queue c)
    (hparked : inner.inflight_v4.card ≤ inner.inflight.card)
    (hroom : inner.active.len + inner.pending.len + inner.inflight.card < c.maximum_leases)
    (h : inner.find_free_ipv4 c = none) {v : Ipv4} (hv : c.ipv4_usable v = true) :
    inner.used_ipv4 v = true := by
  rw [Inner.find_free_ipv4] at h
  dsimp only at h
  split at h
  · contradiction
  rw [if_neg (by omega)] at h
  have htaken : ∀ i < 1048576, c.network.toNat + 1 + i < c.broadcast.toNat →
      decide (BitVec.ofNat 32 (c.network.toNat + 1 + i) ≠ c.ipv4_gateway ∧
        BitVec.ofNat 32 (c.network.toNat + 1 + i) ∉ c.reserved_ipv4 ∧
        !inner.used_ipv4 (BitVec.ofNat 32 (c.network.toNat + 1 + i))) = false := by
    intro i hi hlt
    have hscan := scan_ipv4_none h i hi (by rwa [hc.first_candidate])
    rwa [hc.first_candidate] at hscan
  obtain ⟨hlow, hhigh⟩ := hc.host_between hv
  have hwidth := c.broadcast.isLt
  by_cases hsmall : c.broadcast.toNat ≤ c.network.toNat + 1048577
  · -- the fallback has seen every host
    have hcandidate := htaken (v.toNat - c.network.toNat - 1) (by omega) (by omega)
    have hv' : BitVec.ofNat 32 (c.network.toNat + 1 + (v.toNat - c.network.toNat - 1)) = v := by
      rw [show c.network.toNat + 1 + (v.toNat - c.network.toNat - 1) = v.toNat by omega]
      rw [BitVec.ofNat_toNat, BitVec.setWidth_eq]
    rw [hv'] at hcandidate
    rw [AddressPoolConfig.ipv4_usable, decide_eq_true_eq] at hv
    obtain ⟨-, -, -, hgateway, hreserved⟩ := hv
    by_contra hfree
    exact of_decide_eq_false hcandidate ⟨hgateway, hreserved, by simpa using hfree⟩
  · -- more hosts than the fallback looks at, and than can be taken
    exfalso
    have hsub : (Finset.range 1048576).image
        (fun i => BitVec.ofNat 32 (c.network.toNat + 1 + i)) ⊆ taken_ipv4 c inner := by
      intro a ha
      obtain ⟨i, hi, rfl⟩ := Finset.mem_image.mp ha
      have hi := Finset.mem_range.mp hi
      exact mem_taken (htaken i hi (by omega))
    have hinj : Set.InjOn (fun i => BitVec.ofNat 32 (c.network.toNat + 1 + i))
        (Finset.range 1048576 : Finset ℕ) := by
      intro i hi j hj he
      have hi := Finset.mem_range.mp (Finset.mem_coe.mp hi)
      have hj := Finset.mem_range.mp (Finset.mem_coe.mp hj)
      have hnat := congrArg BitVec.toNat he
      simp only [BitVec.toNat_ofNat] at hnat
      rw [Nat.mod_eq_of_lt (by omega), Nat.mod_eq_of_lt (by omega)] at hnat
      omega
    have hcard := Finset.card_le_card hsub
    rw [Finset.card_image_of_injOn hinj, Finset.card_range] at hcard
    have hbound := card_taken_le c inner
    have hquarantine := hqueue.room
    have hleases := hb.leases
    have hreleases := hb.releases
    have hreserved := hb.reserved
    rw [MAX_LEASES_HARD_CAP] at hleases hreleases
    rw [MAX_RESERVED_IPV4] at hreserved
    omega

end Config

/-! ## The arithmetic of the scans -/

/-- Every number the two scans compute is exact: the bound of the first loop, each
IPv4 candidate up to the broadcast address, and each subnet index. -/
structure AddressPoolConfig.ScanExact (c : AddressPoolConfig) : Prop where
  bound : c.maximum_leases + c.reserved_ipv4.dedup.length + 8 < 2 ^ 32
  candidate : ∀ i, c.network.toNat + 1 + i ≤ c.broadcast.toNat →
    (c.network + 1 + BitVec.ofNat 32 i).toNat = c.network.toNat + 1 + i
  subnets : usable_ipv6_subnets c.ipv6_parent_prefix_len < 2 ^ 64 ∧
    c.maximum_leases + 8 < 2 ^ 64
  subnet : ∀ n ≤ usable_ipv6_subnets c.ipv6_parent_prefix_len,
    (BitVec.ofNat 64 n).toNat = n ∧ ipv6_subnet_index c.ipv6_base c.ipv6_parent_prefix_len
      (ipv6_subnet_prefix_of c.ipv6_base c.ipv6_parent_prefix_len (BitVec.ofNat 64 n)) =
        some (BitVec.ofNat 64 n)

theorem AddressPoolConfig.Accepted.scan_exact {c : AddressPoolConfig} (hc : c.Accepted)
    (hb : c.Bounded) : c.ScanExact := by
  have hleases := hb.leases
  have hreserved := hb.reserved
  rw [MAX_LEASES_HARD_CAP] at hleases
  rw [MAX_RESERVED_IPV4] at hreserved
  have hdedup := (List.dedup_sublist c.reserved_ipv4).length_le
  have hpow : 2 ^ (64 - c.ipv6_parent_prefix_len) ≤ 2 ^ 64 :=
    Nat.pow_le_pow_right (by omega) (by omega)
  have hsubnets := hc.subnets
  refine ⟨by omega, ?_, ⟨by omega, by omega⟩, ?_⟩
  · intro i hi
    have hwidth := c.broadcast.isLt
    rw [BitVec.toNat_add, hc.first_candidate, BitVec.toNat_ofNat, Nat.add_mod_mod]
    exact Nat.mod_eq_of_lt (by omega)
  · intro n hn
    refine ⟨?_, (ipv6_subnet_index_of hc hn).2⟩
    rw [BitVec.toNat_ofNat]
    exact Nat.mod_eq_of_lt (by omega)

/-- The caller of a step, if it is a step of one. -/
def PoolLabel.by_caller : PoolLabel → Option ℕ
  | .begin_ caller _ | .store caller _ | .resume caller => some caller
  | .release_deferred _ => none

namespace PoolSystem

variable {c : AddressPoolConfig} {s s' t : PoolSystem} {label : PoolLabel}
  {events : List PoolEvent} {caller : ℕ} {id : SessionId}

/-! ## Counting the parked addresses -/

/-- No more addresses are parked than sessions, because each of them belongs to a
session that is out with one lease. -/
theorem Sound.card_inflight_le (h : s.Sound c) :
    s.pool.inner.inflight_v4.card ≤ s.pool.inner.inflight.card := by
  refine Finset.card_le_card_of_forall_subsingleton (fun addr id => ∃ by_ lease,
    s.Parks id (.out by_ lease) ∧ lease.addresses.ipv4 = addr) ?_ ?_
  · intro addr haddr
    obtain ⟨id, by_, lease, hparks, hhas⟩ := h.owned (.ipv4 addr) haddr
    obtain ⟨p, hp⟩ := h.coherent.places id
    have hparked := (hp.parks _).mp hparks
    exact ⟨id, AddressPool.inflight_of_parked hp.slot (by rw [hparked]; rfl), by_, lease, hparks,
      hhas⟩
  · rintro id - addr ⟨-, by_, lease, hparks, rfl⟩ addr' ⟨-, by', lease', hparks', rfl⟩
    obtain ⟨p, hp⟩ := h.coherent.places id
    have hsame := ((hp.parks _).mp hparks).symm.trans ((hp.parks _).mp hparks')
    cases hsame
    rfl

/-! ## The parked reserve -/

/-- The step is not one of this caller. -/
def Apart_from (caller : ℕ) (label : PoolLabel) : Prop := label.by_caller ≠ some caller

/-- The steps of others leave a caller's parked call alone. -/
theorem lookup_of_others (hother : Apart_from caller label)
    (hs : s.step label = some (s', events)) :
    s'.running.lookup caller = s.running.lookup caller := by
  cases step_steps hs with
  | @begin_ caller' call hidle =>
    have hne : caller ≠ caller' := fun he => hother (by rw [he]; rfl)
    rw [enter_lookup, if_neg hne]
  | @store caller' r op ok hr hop =>
    have hne : caller ≠ caller' := fun he => hother (by rw [he]; rfl)
    exact AList.lookup_insert_ne hne
  | @resume caller' r hr hlen =>
    have hne : caller ≠ caller' := fun he => hother (by rw [he]; rfl)
    rw [enter_lookup, if_neg hne]
  | release_deferred subject => rfl

theorem lookup_of_others_run {labels : List PoolLabel}
    (hothers : ∀ label ∈ labels, Apart_from caller label)
    (hrun : exec PoolSystem.step s labels = some (t, events)) :
    t.running.lookup caller = s.running.lookup caller :=
  exec_along_invariant (C := fun _ label => Apart_from caller label)
    (I := fun u : PoolSystem => u.running.lookup caller = s.running.lookup caller)
    (fun _ _ _ _ h hother hs => (lookup_of_others hother hs).trans h) rfl
    (along_of_forall s hothers) hrun

/-- **A reserve whose record is persisted returns its addresses.** -/
theorem reserve_returns {lease : ReservedLease} (wall : ℕ) (h : s.Coherent)
    (hr : s.running.lookup caller = some ⟨.reserve id lease wall, [true]⟩) :
    ∃ s', s.step (.resume caller) = some (s', [.reserved id (.ok lease.addresses)]) := by
  -- the session is out with this call, so it is in none of the maps
  obtain ⟨p, hp⟩ := h.places id
  have hparks : s.Parks id (.out .reserving lease) := ⟨caller, _, hr, if_pos rfl⟩
  obtain rfl := Place.eq_out ((hp.parks _).mp hparks)
  have hactive : id ∉ s.pool.inner.active :=
    AList.lookup_eq_none.mp (congrArg Slot.active hp.slot)
  have hquarantine : id ∉ s.pool.inner.release_pending :=
    AList.lookup_eq_none.mp (congrArg Slot.quarantined hp.slot)
  have hfinish : AddressPool.reserve_finish s.pool.inner id lease true =
      .returns { s.pool.inner.unpark id lease.addresses with
        pending := (s.pool.inner.unpark id lease.addresses).pending.insert id lease }
        (.reserved id (.ok lease.addresses)) := by
    have hnot : ¬ (id ∈ (s.pool.inner.unpark id lease.addresses).release_pending ∨
        id ∈ (s.pool.inner.unpark id lease.addresses).active) :=
      not_or.mpr ⟨hquarantine, hactive⟩
    rw [AddressPool.reserve_finish, Bool.not_true, if_neg (by simp), if_neg hnot]
  refine ⟨s.enter caller (AddressPool.reserve_finish s.pool.inner id lease true), ?_⟩
  rw [PoolSystem.step, hr]
  simp only [Plan.store_ops, List.length_singleton, if_true, AddressPool.resume, List.headD_cons,
    hfinish]
  rfl

/-- The steps of others before and after the record is persisted do not change what a
parked reserve returns. -/
theorem parked_reserve_returns {call : PoolCall} {sec : Section} {lease : ReservedLease} {wall : ℕ}
    {o os : List PoolEvent} {before after : List PoolLabel} (h : s.Coherent)
    (hstep : s.step (.begin_ caller call) = some (s.enter caller sec, o))
    (hplan : sec.plan = some (.reserve id lease wall))
    (hothers : ∀ label ∈ before ++ after, Apart_from caller label)
    (hrun : exec PoolSystem.step s (.begin_ caller call :: before ++ .store caller true :: after) =
      some (t, os)) :
    ∃ s', t.step (.resume caller) = some (s', [.reserved id (.ok lease.addresses)]) := by
  have hcoherent : t.Coherent :=
    exec_invariant (fun _ _ _ _ h hs => (step_refines h hs).1) h hrun
  obtain ⟨s₁, o₁, o', hs₁, hrun, -⟩ := exec_cons_eq_some.mp hrun
  obtain ⟨rfl, -⟩ := step_inj (hs₁.symm.trans hstep)
  obtain ⟨s₂, ps, qs, hbefore, hrun⟩ := exec_split hrun
  obtain ⟨s₃, o₃, o'', hs₃, hafter, -⟩ := exec_cons_eq_some.mp hrun
  -- the call stays parked up to its store operation
  have hr₂ : s₂.running.lookup caller = some ⟨.reserve id lease wall, []⟩ := by
    rw [lookup_of_others_run (fun l hl => hothers l (List.mem_append_left _ hl)) hbefore,
      enter_lookup, if_pos rfl, hplan]
    rfl
  have hr₃ : s₃.running.lookup caller = some ⟨.reserve id lease wall, [true]⟩ := by
    cases step_steps hs₃ with
    | store ok hr hop =>
      rw [hr₂] at hr
      obtain rfl := Option.some.inj hr
      exact AList.lookup_insert _
  -- and from there to its last section
  refine reserve_returns wall hcoherent ?_
  rw [lookup_of_others_run (fun l hl => hothers l (List.mem_append_right _ hl)) hafter, hr₃]

/-! ## Completeness -/

/-- The pool has no room: the bound on the leases is reached, or one of the two
address families is used up. -/
def Full (s : PoolSystem) (c : AddressPoolConfig) : Prop :=
  c.maximum_leases ≤ s.pool.inner.active.len + s.pool.inner.pending.len +
      s.pool.inner.inflight.card ∨
    (∀ v, c.ipv4_usable v = true → s.Held (.ipv4 v)) ∨
    ∀ v, c.ipv6_usable v = true → s.Held (.ipv6 v)

/-- What comes of a reserve call of `caller` for a session. -/
inductive ReserveOutcome (c : AddressPoolConfig) (s : PoolSystem) (caller : ℕ) (id : SessionId)
    (device_id : DeviceId) (now : PoolTime) : Prop where
  /-- The all-zero ID names no session and no device. -/
  | refused (hzero : is_zero_id id.bytes = true ∨ is_zero_id device_id.bytes = true)
      (h : ∃ s', s.step (.begin_ caller (.reserve id device_id now)) =
        some (s', [.reserved id (.error .OwnerMismatch)]))
  | exhausted (hfull : s.Full c)
      (h : ∃ s', s.step (.begin_ caller (.reserve id device_id now)) =
        some (s', [.reserved id (.error .Exhausted)]))
  /-- Addresses that nobody holds are returned, whatever other callers do before and
  after the record is persisted. -/
  | given (a : AssignedAddresses) (husable : c.Usable a) (hfree4 : ¬ s.Held (.ipv4 a.ipv4))
      (hfree6 : ¬ s.Held (.ipv6 a.ipv6_prefix_addr))
      (h : ∀ before after t events,
        (∀ label ∈ before ++ after, Apart_from caller label) →
        exec PoolSystem.step s (.begin_ caller (.reserve id device_id now) :: before ++
          .store caller true :: after) = some (t, events) →
        ∃ t', t.step (.resume caller) = some (t', [.reserved id (.ok a)]))

/-- The first section of a reserve for a session that holds nothing. -/
theorem reserve_begin_free {inner : Inner} {device_id : DeviceId} {now : PoolTime}
    (hslot : inner.slot id = Place.free.slot) (hid : ¬ (is_zero_id id.bytes = true ∨
      is_zero_id device_id.bytes = true)) :
    AddressPool.reserve_begin c inner id device_id now =
      AddressPool.reserve_new c inner id device_id now := by
  have hidle : id ∉ inner.inflight := of_decide_eq_false (congrArg Slot.inflight hslot)
  have hquarantine : inner.release_pending.lookup id = none := congrArg Slot.quarantined hslot
  have hactive : inner.active.lookup id = none := congrArg Slot.active hslot
  have hpending : inner.pending.lookup id = none := congrArg Slot.pending hslot
  rw [AddressPool.reserve_begin, if_neg hid, if_neg hidle, hquarantine, hactive, hpending]

/-- **Allocation is complete.** For every accepted configuration, in every state of
every run of a pool, however it started: a reserve for a session that holds nothing
reports exhaustion only if the pool is full, and returns free usable addresses
otherwise; and the scans compute no number that wraps. -/
theorem reserve_complete {pool : AddressPool} {labels : List PoolLabel}
    (hc : AddressPoolConfig.new c = .ok c) (hstart : Started c pool)
    (hrun : exec PoolSystem.step (start pool) labels = some (s, events))
    (hcaller : s.running.lookup caller = none) (hfree : s.At id .free) (device_id : DeviceId)
    (now : PoolTime) :
    c.ScanExact ∧ ReserveOutcome c s caller id device_id now := by
  have haccepted := AddressPoolConfig.accepted_of_new hc
  have hbounded := AddressPoolConfig.bounded_of_new hc
  have hsound := hstart.sound_run hrun
  have hlive := hstart.live_run hrun
  have hidle : caller ∉ s.running := AList.lookup_eq_none.mp hcaller
  have hstep : s.step (.begin_ caller (.reserve id device_id now)) =
      some (s.enter caller (AddressPool.reserve_begin c s.pool.inner id device_id now),
        (AddressPool.reserve_begin c s.pool.inner id device_id now).events) := by
    rw [PoolSystem.step, if_neg hidle, hsound.config]
    rfl
  refine ⟨haccepted.scan_exact hbounded, ?_⟩
  by_cases hzero : is_zero_id id.bytes = true ∨ is_zero_id device_id.bytes = true
  · rw [AddressPool.reserve_begin, if_pos hzero] at hstep
    exact .refused hzero ⟨_, hstep⟩
  rw [reserve_begin_free hfree.slot hzero, AddressPool.reserve_new] at hstep
  split at hstep
  · next hbound => exact .exhausted (.inl hbound) ⟨_, hstep⟩
  next hroom =>
  split at hstep
  · -- one of the scans has found nothing
    next e halloc =>
    have hused : ∀ {x}, s.pool.inner.Used x → s.Held x := held_of_used hsound.coherent hsound.owned
    obtain ⟨rfl, h4 | h6⟩ := AddressPool.allocate_error halloc
    · refine .exhausted (.inr (.inl fun v hv => hused ?_)) ⟨_, hstep⟩
      exact ipv4_exhausted haccepted hbounded hsound.queue hsound.card_inflight_le (by omega) h4 hv
    · refine .exhausted (.inr (.inr fun v hv => hused ?_)) ⟨_, hstep⟩
      exact ipv6_exhausted haccepted (by omega) h6 hv
  · next a halloc =>
    obtain ⟨h4, h6, -⟩ := AddressPool.allocate_unused halloc
    have hnot : ∀ {x}, ¬ s.pool.inner.Used x → ¬ s.Held x := fun hx hheld =>
      hx (used_of_held hlive hheld)
    refine .given a (allocate_usable haccepted halloc) (hnot (by simp [Inner.Used, h4]))
      (hnot (by simp [Inner.Used, h6])) ?_
    exact fun before after t events' => parked_reserve_returns hsound.coherent hstep rfl

open Sample in
/-- The first reserve of a pool over an empty store. -/
theorem reserve_complete_sample : config.ScanExact ∧
    ReserveOutcome config (start recovered) 0 ⟨1⟩ ⟨7⟩ ⟨1000, 1000⟩ := by
  have hc : AddressPoolConfig.new config = .ok config := by decide
  have hnodup : (([] : List PersistedLease).map (·.session_id)).Nodup := by simp
  have hstart : Started config recovered := .recovered hnodup (by simp)
    recovered_eq
  have hrun : exec PoolSystem.step (start recovered) [] = some (start recovered, []) := rfl
  have hfree : (start recovered).At ⟨1⟩ .free := at_start.mpr ⟨rfl, rfl⟩
  exact reserve_complete hc hstart hrun rfl hfree ⟨7⟩ ⟨1000, 1000⟩

end PoolSystem

end StreamGuard.Gateway
