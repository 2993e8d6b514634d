/-
The address pool's configuration, lease records and address arithmetic,
`streamguard-gateway/src/v2/address_pool.rs` with `PoolTime` of `persistence.rs`.

An IPv4 address is the 32-bit number its four bytes spell, an IPv6 prefix the
128-bit number of its sixteen bytes, both big-endian, so that the masks of the
source are masks here.
-/
import StreamGuard.Core.V2
import StreamGuard.Lib.AssocMap

set_option autoImplicit false

namespace StreamGuard.Gateway

open StreamGuard StreamGuard.Lib

/-! ## Clocks -/

/-- One sample of both clocks, in milliseconds. -/
structure PoolTime where
  monotonic_ms : ℕ
  wall_ms : ℕ

def wall_expiry_from_ttl (wall_now_ms ttl_ms : ℕ) : ℕ := saturatingAdd wall_now_ms ttl_ms

def monotonic_expiry_from_wall (wall_expiry_ms wall_now_ms mono_now_ms : ℕ) : ℕ :=
  saturatingAdd mono_now_ms (wall_expiry_ms - wall_now_ms)

/-! ## Errors and records -/

inductive AddressPoolError where
  | InvalidConfiguration
  | Unavailable
  | Exhausted
  | OwnerMismatch
  | UnknownLease
  | Expired
  | Store
  deriving DecidableEq

inductive LeaseState where
  | Reserved
  | Active
  | ReleasePending
  deriving DecidableEq

abbrev Ipv4 := BitVec 32
abbrev Ipv6 := BitVec 128

instance Ipv4.lawfulBEq : LawfulBEq Ipv4 := inferInstance

structure AssignedAddresses where
  ipv4 : Ipv4
  ipv4_prefix_len : ℕ
  ipv6_prefix_addr : Ipv6
  ipv6_prefix_len : ℕ
  deriving DecidableEq

/-- The `/64` an IPv6 prefix lies in: its upper eight bytes. -/
def subnet64 (prefix_ : Ipv6) : BitVec 64 := prefix_.extractLsb' 64 64

/-- Two address pairs share an IPv4 address or a `/64`. -/
def AssignedAddresses.Shares (a b : AssignedAddresses) : Prop :=
  a.ipv4 = b.ipv4 ∨ subnet64 a.ipv6_prefix_addr = subnet64 b.ipv6_prefix_addr

instance (a b : AssignedAddresses) : Decidable (a.Shares b) :=
  inferInstanceAs (Decidable (_ ∨ _))

/-- Durable record of one lease; `expires_at_ms` is wall time. -/
structure PersistedLease where
  session_id : SessionId
  device_id : DeviceId
  addresses : AssignedAddresses
  state : LeaseState
  expires_at_ms : ℕ
  deriving DecidableEq

/-! ## Configuration -/

def MAX_RESERVED_IPV4 : ℕ := 32
def IPV6_LEASE_PREFIX_LEN : ℕ := 64
def MAX_LEASES_HARD_CAP : ℕ := 65536
def MAX_RETRY_BATCH : ℕ := 32
def RETRY_BASE_MS : ℕ := 1000
def RETRY_CAP_MS : ℕ := 60000

def prefix_mask_v4 (prefix_len : ℕ) : Ipv4 :=
  if prefix_len = 0 then 0
  else if 32 ≤ prefix_len then BitVec.allOnes 32
  else BitVec.allOnes 32 <<< (32 - prefix_len)

/-- `u64::MAX << (64 - parent_len)`, zero for an empty parent. -/
def parent_mask_v6 (parent_len : ℕ) : BitVec 64 :=
  let parent_bits := min parent_len 64
  if parent_bits = 0 then 0
  else if 64 ≤ parent_bits then BitVec.allOnes 64
  else BitVec.allOnes 64 <<< (64 - parent_bits)

def usable_ipv4_hosts (network broadcast : Ipv4) (reserved_count : ℕ) : ℕ :=
  if broadcast.toNat ≤ min (network.toNat + 1) (2 ^ 32 - 1) then 0
  else broadcast.toNat - network.toNat - 1 - (1 + reserved_count)

def ipv6_base_masked (base : Ipv6) (parent_len : ℕ) : Bool :=
  let mask := if 128 ≤ parent_len then BitVec.allOnes 128
    else BitVec.allOnes 128 <<< (128 - parent_len)
  base &&& ~~~mask = 0

def usable_ipv6_subnets (parent_len : ℕ) : ℕ :=
  if 63 < parent_len then 0
  else if 64 ≤ 64 - parent_len then 0
  else 2 ^ (64 - parent_len) - 1

/-- The `subnet`-th `/64` of the parent. -/
def ipv6_subnet_prefix_of (base : Ipv6) (parent_len : ℕ) (subnet : BitVec 64) : Ipv6 :=
  let subnet_bits := 64 - min parent_len 64
  let subnet_masked := if 64 ≤ subnet_bits then subnet
    else subnet &&& (((1 : BitVec 64) <<< subnet_bits) - 1)
  let top := (subnet64 base &&& parent_mask_v6 parent_len) ||| subnet_masked
  top.setWidth 128 <<< 64

def ipv6_prefix_matches_parent (prefix_ base : Ipv6) (parent_len : ℕ) : Bool :=
  subnet64 prefix_ &&& parent_mask_v6 parent_len = subnet64 base &&& parent_mask_v6 parent_len

def ipv6_is_64_aligned (prefix_ : Ipv6) : Bool := prefix_.extractLsb' 0 64 = 0

def ipv6_subnet_index (base : Ipv6) (parent_len : ℕ) (prefix_ : Ipv6) : Option (BitVec 64) :=
  if !ipv6_prefix_matches_parent prefix_ base parent_len then none
  else if 64 ≤ min parent_len 64 then some 0
  else
    let subnet_bits := 64 - min parent_len 64
    let mask := if 64 ≤ subnet_bits then BitVec.allOnes 64
      else ((1 : BitVec 64) <<< subnet_bits) - 1
    some (subnet64 prefix_ &&& mask)

structure AddressPoolConfig where
  ipv4_network : Ipv4
  ipv4_prefix_len : ℕ
  ipv4_gateway : Ipv4
  reserved_ipv4 : List Ipv4
  ipv6_base : Ipv6
  ipv6_parent_prefix_len : ℕ
  maximum_leases : ℕ
  pending_ttl_ms : ℕ
  lease_ttl_ms : ℕ
  maximum_pending_releases : ℕ
  deriving DecidableEq

namespace AddressPoolConfig

/-- `u32::from_be_bytes(ipv4_network) & mask`. -/
def network (c : AddressPoolConfig) : Ipv4 := c.ipv4_network &&& prefix_mask_v4 c.ipv4_prefix_len

def broadcast (c : AddressPoolConfig) : Ipv4 := c.network ||| ~~~(prefix_mask_v4 c.ipv4_prefix_len)

/-- A reserved address lies in the network and is none of its special addresses. -/
def reserved_ok (c : AddressPoolConfig) (value : Ipv4) : Bool :=
  value &&& prefix_mask_v4 c.ipv4_prefix_len = c.network ∧ value ≠ c.network
    ∧ value ≠ c.broadcast ∧ value ≠ c.ipv4_gateway

/-- `AddressPoolConfig::new`, on the record of its arguments: every violated
bound is the same error. -/
def new (c : AddressPoolConfig) : Except AddressPoolError AddressPoolConfig :=
  if ¬ (8 ≤ c.ipv4_prefix_len ∧ c.ipv4_prefix_len ≤ 30) then .error .InvalidConfiguration
  else if c.maximum_leases = 0 ∨ MAX_LEASES_HARD_CAP < c.maximum_leases then
    .error .InvalidConfiguration
  else if ¬ (1 ≤ c.pending_ttl_ms ∧ c.pending_ttl_ms ≤ 3600000) then .error .InvalidConfiguration
  else if ¬ (1000 ≤ c.lease_ttl_ms ∧ c.lease_ttl_ms ≤ 86400000) then .error .InvalidConfiguration
  else if c.maximum_pending_releases = 0 ∨ MAX_LEASES_HARD_CAP < c.maximum_pending_releases then
    .error .InvalidConfiguration
  else if MAX_RESERVED_IPV4 < c.reserved_ipv4.length then .error .InvalidConfiguration
  else if ¬ (16 ≤ c.ipv6_parent_prefix_len ∧ c.ipv6_parent_prefix_len ≤ 63) then
    .error .InvalidConfiguration
  else if c.ipv4_network ≠ c.network then .error .InvalidConfiguration
  else if c.ipv4_gateway &&& prefix_mask_v4 c.ipv4_prefix_len ≠ c.network
      ∨ c.ipv4_gateway = c.network ∨ c.ipv4_gateway = c.broadcast then
    .error .InvalidConfiguration
  else if ¬ (c.reserved_ipv4.all c.reserved_ok ∧ c.reserved_ipv4.Nodup) then
    .error .InvalidConfiguration
  else if !ipv6_base_masked c.ipv6_base c.ipv6_parent_prefix_len then .error .InvalidConfiguration
  else if usable_ipv6_subnets c.ipv6_parent_prefix_len = 0
      ∨ usable_ipv6_subnets c.ipv6_parent_prefix_len < c.maximum_leases then
    .error .InvalidConfiguration
  else if usable_ipv4_hosts c.network c.broadcast c.reserved_ipv4.length = 0
      ∨ usable_ipv4_hosts c.network c.broadcast c.reserved_ipv4.length < c.maximum_leases then
    .error .InvalidConfiguration
  else .ok c

/-- `ipv4_usable`: inside the network and not one of its special addresses. -/
def ipv4_usable (c : AddressPoolConfig) (addr : Ipv4) : Bool :=
  addr &&& prefix_mask_v4 c.ipv4_prefix_len = c.network ∧ addr ≠ c.network ∧ addr ≠ c.broadcast
    ∧ addr ≠ c.ipv4_gateway ∧ addr ∉ c.reserved_ipv4

/-- `ipv6_usable`: a `/64` of the parent other than subnet zero. -/
def ipv6_usable (c : AddressPoolConfig) (prefix_ : Ipv6) : Bool :=
  ipv6_prefix_matches_parent prefix_ c.ipv6_base c.ipv6_parent_prefix_len
    ∧ ipv6_is_64_aligned prefix_
    ∧ ipv6_subnet_index c.ipv6_base c.ipv6_parent_prefix_len prefix_ ≠ some 0

end AddressPoolConfig

/-- Exponential backoff of a quarantined delete. -/
def next_retry_deadline (now_ms attempts : ℕ) : ℕ :=
  let shift := min attempts 16
  let backoff := min (saturatingMul RETRY_BASE_MS (2 ^ shift)) RETRY_CAP_MS
  saturatingAdd now_ms backoff

/-! ## Alignment

Two aligned prefixes lie in one `/64` only if they are equal, which is why the
pool may compare whole prefixes. -/

theorem eq_of_subnet64_eq {a b : Ipv6} (ha : ipv6_is_64_aligned a = true)
    (hb : ipv6_is_64_aligned b = true) (h : subnet64 a = subnet64 b) : a = b := by
  have ha0 : a.extractLsb' 0 64 = 0 := by simpa [ipv6_is_64_aligned] using ha
  have hb0 : b.extractLsb' 0 64 = 0 := by simpa [ipv6_is_64_aligned] using hb
  apply BitVec.eq_of_getLsbD_eq
  intro i hi
  by_cases hlow : i < 64
  · have hbit : (a.extractLsb' 0 64).getLsbD i = (b.extractLsb' 0 64).getLsbD i := by
      rw [ha0, hb0]
    simpa [hlow] using hbit
  · have hbit : (subnet64 a).getLsbD (i - 64) = (subnet64 b).getLsbD (i - 64) := by rw [h]
    have hhigh : i - 64 < 64 := by omega
    have hsum : 64 + (i - 64) = i := by omega
    simpa [subnet64, hhigh, hsum] using hbit

theorem ipv6_subnet_prefix_aligned (base : Ipv6) (parent_len : ℕ) (subnet : BitVec 64) :
    ipv6_is_64_aligned (ipv6_subnet_prefix_of base parent_len subnet) = true := by
  rw [ipv6_is_64_aligned, ipv6_subnet_prefix_of, decide_eq_true_eq]
  apply BitVec.eq_of_getLsbD_eq
  intro i hi
  simp [hi]

end StreamGuard.Gateway
