/-
`AddressPool`: bounded IPv4 plus IPv6 `/64` leases, `streamguard-gateway/src/v2/address_pool.rs`.

The pool keeps one short mutex and never holds it across store I/O, so a call is
a sequence of lock sections with store operations between them. Each lock section
is one function here: `begin` is the first section of a call, `resume` a later
one. A section either returns from the call or parks it as a `Plan`, which
carries what the source keeps in local variables while the lock is dropped; the
plan says which store operations run before the next section, and `resume` is
given their outcomes. What a call reports is the list of events of its sections.

The durable store is the map it holds; an operation that succeeds takes effect.
Counters, and the poisoning of the mutex, are left out: no call reads a counter
and no section panics.
-/
import Mathlib.Data.Finset.Basic
import Mathlib.Data.List.Sort
import StreamGuard.Gateway.Lease

set_option autoImplicit false

namespace StreamGuard.Gateway

open StreamGuard StreamGuard.Lib

/-! ## State -/

/-- A Reserved or Active lease in memory; `expires_at_ms` is monotonic time. -/
structure Lease where
  device_id : DeviceId
  addresses : AssignedAddresses
  expires_at_ms : ℕ
  deriving DecidableEq

abbrev ReservedLease := Lease
abbrev ActiveLease := Lease

/-- A quarantined lease: its durable delete failed, or was not tried yet. -/
structure ReleasePendingLease extends Lease where
  attempts : ℕ
  next_retry_ms : ℕ
  deriving DecidableEq

structure Inner where
  active : Map SessionId ActiveLease
  pending : Map SessionId ReservedLease
  release_pending : Map SessionId ReleasePendingLease
  /-- Retry order of the quarantined sessions. -/
  release_order : List SessionId
  /-- Sessions whose call dropped the lock for store I/O, and their addresses. -/
  inflight : Finset SessionId
  inflight_v4 : Finset Ipv4
  inflight_v6 : Finset Ipv6

/-- What a durable store holds. -/
abbrev LeaseStore := Map SessionId PersistedLease

structure AddressPool where
  config : AddressPoolConfig
  inner : Inner
  /-- `none` for an ephemeral pool. -/
  store : Option LeaseStore

namespace Inner

def empty : Inner := ⟨∅, ∅, ∅, [], ∅, ∅, ∅⟩

/-- Parks a session with its addresses while the lock is dropped. -/
def park (inner : Inner) (session_id : SessionId) (addresses : AssignedAddresses) : Inner :=
  { inner with
    inflight := insert session_id inner.inflight
    inflight_v4 := insert addresses.ipv4 inner.inflight_v4
    inflight_v6 := insert addresses.ipv6_prefix_addr inner.inflight_v6 }

def unpark (inner : Inner) (session_id : SessionId) (addresses : AssignedAddresses) : Inner :=
  { inner with
    inflight := inner.inflight.erase session_id
    inflight_v4 := inner.inflight_v4.erase addresses.ipv4
    inflight_v6 := inner.inflight_v6.erase addresses.ipv6_prefix_addr }

/-! ## Allocation -/

/-- The addresses of the leases in the three maps. -/
def leased (inner : Inner) : List AssignedAddresses :=
  inner.active.values.map (·.addresses) ++ inner.pending.values.map (·.addresses)
    ++ inner.release_pending.values.map (·.addresses)

def used_ipv4 (inner : Inner) (addr : Ipv4) : Bool :=
  inner.leased.any (·.ipv4 = addr) || addr ∈ inner.inflight_v4

def used_ipv6 (inner : Inner) (prefix_ : Ipv6) : Bool :=
  inner.leased.any (·.ipv6_prefix_addr = prefix_) || prefix_ ∈ inner.inflight_v6

/-- The first free candidate below the broadcast address, looking at no more than
the given number of candidates. -/
def scan_ipv4 (free : Ipv4 → Bool) (broadcast : Ipv4) : ℕ → Ipv4 → Option Ipv4
  | 0, _ => none
  | bound + 1, candidate =>
    if broadcast ≤ candidate then none
    else if free candidate then some candidate
    else scan_ipv4 free broadcast bound (candidate + 1)

/-- The first loop looks at the lowest `leases + reserved + 8` hosts, the fallback
at the first 2^20. Candidates start after the network address. -/
def find_free_ipv4 (c : AddressPoolConfig) (inner : Inner) : Option Ipv4 :=
  let free candidate :=
    candidate ≠ c.ipv4_gateway ∧ candidate ∉ c.reserved_ipv4 ∧ !inner.used_ipv4 candidate
  let search_bound := min (c.maximum_leases + c.reserved_ipv4.dedup.length + 8) 65536
  match scan_ipv4 free c.broadcast search_bound (c.network + 1) with
  | some candidate => some candidate
  | none =>
    if c.maximum_leases ≤ inner.active.len + inner.pending.len then none
    else scan_ipv4 free c.broadcast 1048576 (c.network + 1)

/-- The first free subnet among `subnet, subnet + 1, …`, `bound` of them. -/
def scan_ipv6 (c : AddressPoolConfig) (inner : Inner) : ℕ → ℕ → Option Ipv6
  | 0, _ => none
  | bound + 1, subnet =>
    let candidate :=
      ipv6_subnet_prefix_of c.ipv6_base c.ipv6_parent_prefix_len (BitVec.ofNat 64 subnet)
    if !inner.used_ipv6 candidate then some candidate
    else scan_ipv6 c inner bound (subnet + 1)

def find_free_ipv6 (c : AddressPoolConfig) (inner : Inner) : Option Ipv6 :=
  let usable := usable_ipv6_subnets c.ipv6_parent_prefix_len
  match scan_ipv6 c inner (min (c.maximum_leases + 8) usable) 1 with
  | some candidate => some candidate
  | none =>
    if c.maximum_leases ≤ inner.active.len + inner.pending.len then none
    else scan_ipv6 c inner usable 1

def allocate_locked (c : AddressPoolConfig) (inner : Inner) :
    Except AddressPoolError AssignedAddresses :=
  match find_free_ipv4 c inner with
  | none => .error .Exhausted
  | some ipv4 =>
    match find_free_ipv6 c inner with
    | none => .error .Exhausted
    | some ipv6_prefix_addr => .ok ⟨ipv4, c.ipv4_prefix_len, ipv6_prefix_addr, IPV6_LEASE_PREFIX_LEN⟩

/-! ## Quarantine -/

/-- Quarantines a lease; fails closed, leaving the state alone, when the
quarantine is full. -/
def enqueue_release_locked (c : AddressPoolConfig) (inner : Inner) (session_id : SessionId)
    (lease : Lease) (now_ms : ℕ) : Except AddressPoolError Inner :=
  if session_id ∈ inner.release_pending then .ok inner
  else if c.maximum_pending_releases ≤ inner.release_pending.len then .error .Store
  else .ok { inner with
    release_order := inner.release_order ++ [session_id]
    release_pending := inner.release_pending.insert session_id
      ⟨lease, 0, next_retry_deadline now_ms 0⟩ }

end Inner

/-! ## Calls, parked calls and events -/

/-- A call on the pool that may do store I/O. -/
inductive PoolCall where
  | reserve (session_id : SessionId) (device_id : DeviceId) (now : PoolTime)
  | commit (session_id : SessionId) (now : PoolTime)
  | release_at (session_id : SessionId) (now_ms : ℕ)
  | renew (session_id : SessionId) (now : PoolTime)
  | sweep (now_ms : ℕ)
  | retry_pending_releases_bounded (now_ms max_batch : ℕ)

/-- `release`: quarantines as due right away. -/
def PoolCall.release (session_id : SessionId) : PoolCall := .release_at session_id 0

/-- `retry_pending_releases`: everything is due and the batch is unbounded. -/
def PoolCall.retry_pending_releases : PoolCall := .retry_pending_releases_bounded u64Max u64Max

/-- One lease taken out by a sweep. -/
structure Expired where
  id : SessionId
  lease : Lease
  was_pending : Bool

/-- A call parked between two lock sections. -/
inductive Plan where
  /-- `reserve`: the candidate is parked, its Reserved record is persisted next. -/
  | reserve (session_id : SessionId) (lease : ReservedLease) (wall_expires_at_ms : ℕ)
  /-- `CommitPlan::Promote`. -/
  | promote (session_id : SessionId) (pending : ReservedLease)
      (active_mono_expires_at_ms active_wall_expires_at_ms : ℕ)
  /-- `CommitPlan::Expire`. -/
  | expire (session_id : SessionId) (pending : ReservedLease) (now_ms : ℕ)
  /-- `release_at`: the lease is taken out of its map. -/
  | release (session_id : SessionId) (taken : Lease) (now_ms : ℕ)
  /-- `renew`: the Active entry stays in place. -/
  | renew (session_id : SessionId) (active : ActiveLease)
      (renewed_mono_expires_at_ms renewed_wall_expires_at_ms : ℕ)
  | sweep (batch : List Expired) (now_ms : ℕ)
  /-- `sweep` before it takes the lock again for its retry batch. -/
  | swept (expired_ids : List SessionId) (now_ms : ℕ)
  /-- A retry batch; the expired IDs are those of the sweep it belongs to. -/
  | retry (batch : List SessionId) (now_ms : ℕ) (expired_ids : Option (List SessionId))

/-- What a call reports. An `expired` report is decided in the section that
unparks the batch, `swept` is the return of the call. -/
inductive PoolEvent where
  | reserved (session_id : SessionId) (result : Except AddressPoolError AssignedAddresses)
  | committed (session_id : SessionId) (result : Except AddressPoolError AssignedAddresses)
  | released (session_id : SessionId) (result : Except AddressPoolError Bool)
  | deferred (session_id : SessionId) (result : Bool)
  | renewed (session_id : SessionId) (result : Except AddressPoolError Unit)
  | expired (session_ids : List SessionId)
  | swept (session_ids : List SessionId)
  | retried (still_quarantined : ℕ)
  deriving DecidableEq

inductive StoreOp where
  | persist (lease : PersistedLease)
  | release (session_id : SessionId)

/-- The effect of one store operation with the given outcome. -/
def StoreOp.apply (op : StoreOp) (ok : Bool) (store : LeaseStore) : LeaseStore :=
  if ok then
    match op with
    | .persist lease => store.insert lease.session_id lease
    | .release session_id => store.erase session_id
  else store

/-- The store operations a parked call runs before its next section. -/
def Plan.store_ops : Plan → List StoreOp
  | .reserve id lease wall => [.persist ⟨id, lease.device_id, lease.addresses, .Reserved, wall⟩]
  | .promote id pending _ wall =>
    [.persist ⟨id, pending.device_id, pending.addresses, .Active, wall⟩]
  | .expire id _ _ | .release id _ _ => [.release id]
  | .renew id active _ wall => [.persist ⟨id, active.device_id, active.addresses, .Active, wall⟩]
  | .sweep batch _ => batch.map (fun e => .release e.id)
  | .swept _ _ => []
  | .retry batch _ _ => batch.map .release

/-- What one lock section leaves: the state, the parked call unless it returned,
and the events. -/
structure Section where
  inner : Inner
  plan : Option Plan
  events : List PoolEvent

namespace Section

def returns (inner : Inner) (event : PoolEvent) : Section := ⟨inner, none, [event]⟩
def parks (inner : Inner) (plan : Plan) : Section := ⟨inner, some plan, []⟩

end Section

namespace AddressPool

variable (c : AddressPoolConfig)

/-! ## First sections -/

/-- `reserve` once no fast path applies: bound, candidate, parking. -/
def reserve_new (inner : Inner) (session_id : SessionId) (device_id : DeviceId)
    (now : PoolTime) : Section :=
  if c.maximum_leases ≤ inner.active.len + inner.pending.len + inner.inflight.card then
    .returns inner (.reserved session_id (.error .Exhausted))
  else
    match inner.allocate_locked c with
    | .error e => .returns inner (.reserved session_id (.error e))
    | .ok addresses =>
      .parks (inner.park session_id addresses)
        (.reserve session_id
          ⟨device_id, addresses, saturatingAdd now.monotonic_ms c.pending_ttl_ms⟩
          (wall_expiry_from_ttl now.wall_ms c.pending_ttl_ms))

def reserve_begin (inner : Inner) (session_id : SessionId) (device_id : DeviceId)
    (now : PoolTime) : Section :=
  let fail e := Section.returns inner (.reserved session_id (.error e))
  let held (lease : Lease) := Section.returns inner (.reserved session_id (.ok lease.addresses))
  if is_zero_id session_id.bytes ∨ is_zero_id device_id.bytes then fail .OwnerMismatch
  else if session_id ∈ inner.inflight then fail .Store
  else
    match inner.release_pending.lookup session_id with
    | some quarantined =>
      if quarantined.device_id ≠ device_id then fail .OwnerMismatch else held quarantined.toLease
    | none =>
      match inner.active.lookup session_id with
      | some active => if active.device_id ≠ device_id then fail .OwnerMismatch else held active
      | none =>
        match inner.pending.lookup session_id with
        | none => reserve_new c inner session_id device_id now
        | some pending =>
          if pending.device_id ≠ device_id then fail .OwnerMismatch
          else if now.monotonic_ms < pending.expires_at_ms then held pending
          else
            -- an expired reservation of the session itself is replaced
            reserve_new c { inner with pending := inner.pending.erase session_id }
              session_id device_id now

def commit_begin (inner : Inner) (session_id : SessionId) (now : PoolTime) : Section :=
  if session_id ∈ inner.inflight then
    .returns inner (.committed session_id (.error .Store))
  else
    match inner.active.lookup session_id with
    | some active => .returns inner (.committed session_id (.ok active.addresses))
    | none =>
      match inner.release_pending.lookup session_id with
      | some quarantined => .returns inner (.committed session_id (.ok quarantined.addresses))
      | none =>
        match inner.pending.lookup session_id with
        | none => .returns inner (.committed session_id (.error .UnknownLease))
        | some pending =>
          let inner := { inner with pending := inner.pending.erase session_id }.park session_id
            pending.addresses
          if pending.expires_at_ms ≤ now.monotonic_ms then
            .parks inner (.expire session_id pending now.monotonic_ms)
          else
            .parks inner (.promote session_id pending
              (saturatingAdd now.monotonic_ms c.lease_ttl_ms)
              (wall_expiry_from_ttl now.wall_ms c.lease_ttl_ms))

/-- Takes a session's lease out of the pending or the active map. -/
def take (inner : Inner) (session_id : SessionId) : Option (Inner × Lease) :=
  match inner.pending.lookup session_id with
  | some pending => some ({ inner with pending := inner.pending.erase session_id }, pending)
  | none =>
    match inner.active.lookup session_id with
    | some active => some ({ inner with active := inner.active.erase session_id }, active)
    | none => none

def release_begin (inner : Inner) (session_id : SessionId) (now_ms : ℕ) : Section :=
  if session_id ∈ inner.inflight then .returns inner (.released session_id (.error .Store))
  else if session_id ∈ inner.release_pending then
    .returns inner (.released session_id (.ok false))
  else
    match take inner session_id with
    | none => .returns inner (.released session_id (.ok false))
    | some (inner, taken) =>
      .parks (inner.park session_id taken.addresses) (.release session_id taken now_ms)

def renew_begin (inner : Inner) (session_id : SessionId) (now : PoolTime) : Section :=
  if session_id ∈ inner.inflight then .returns inner (.renewed session_id (.error .Store))
  else
    match inner.active.lookup session_id with
    | none => .returns inner (.renewed session_id (.error .UnknownLease))
    | some active =>
      if active.expires_at_ms ≤ now.monotonic_ms then
        .returns inner (.renewed session_id (.error .Expired))
      else
        .parks { inner with inflight := insert session_id inner.inflight }
          (.renew session_id active
            (saturatingAdd now.monotonic_ms c.lease_ttl_ms)
            (wall_expiry_from_ttl now.wall_ms c.lease_ttl_ms))

/-- The expired entries of one map that are not in flight. -/
def expired_in (inner : Inner) (leases : Map SessionId Lease) (was_pending : Bool) (now_ms : ℕ) :
    List Expired :=
  (leases.entries.filter
    (fun e => e.1 ∉ inner.inflight ∧ e.2.expires_at_ms ≤ now_ms)).map
    (fun e => ⟨e.1, e.2, was_pending⟩)

/-- Moves one expired lease out of its map and parks it. -/
def take_expired (inner : Inner) (e : Expired) : Inner :=
  let inner :=
    if e.was_pending then { inner with pending := inner.pending.erase e.id }
    else { inner with active := inner.active.erase e.id }
  inner.park e.id e.lease.addresses

/-- The batch is ordered by session ID, so the iteration order of the two maps
does not show. -/
def sweep_begin (inner : Inner) (now_ms : ℕ) : Section :=
  let batch := expired_in inner inner.pending true now_ms
    ++ expired_in inner inner.active false now_ms
  .parks (batch.foldl take_expired inner)
    (.sweep (batch.insertionSort (fun a b => a.id.bytes.toNat ≤ b.id.bytes.toNat)) now_ms)

/-- The due entries of the retry order, at most `max_batch` of them, and the
entries that stay queued. Once the batch is full the rest is not inspected. -/
def retry_select (quarantine : Map SessionId ReleasePendingLease) (now_ms max_batch : ℕ) :
    List SessionId → Finset SessionId → ℕ → List SessionId × List SessionId
  | [], _, _ => ([], [])
  | id :: order, inflight, taken =>
    match quarantine.lookup id with
    | none => retry_select quarantine now_ms max_batch order inflight taken
    | some quarantined =>
      if id ∈ inflight ∨ now_ms < quarantined.next_retry_ms then
        let r := retry_select quarantine now_ms max_batch order inflight taken
        (r.1, id :: r.2)
      else if max_batch ≤ taken then ([], id :: order.filter (· ∈ quarantine))
      else
        let r := retry_select quarantine now_ms max_batch order (insert id inflight) (taken + 1)
        (id :: r.1, r.2)

/-- The return of a retry: its own, or that of the sweep it ends. -/
def retry_returns (inner : Inner) : Option (List SessionId) → Section
  | some expired_ids => .returns inner (.swept expired_ids)
  | none => .returns inner (.retried inner.release_pending.len)

def retry_begin (durable : Bool) (inner : Inner) (now_ms max_batch : ℕ)
    (expired_ids : Option (List SessionId)) : Section :=
  if !durable then
    match expired_ids with
    | some ids => .returns inner (.swept ids)
    | none => .returns inner (.retried 0)
  else
    let (batch, remaining) :=
      retry_select inner.release_pending now_ms max_batch inner.release_order inner.inflight 0
    let inner := { inner with
      release_order := remaining
      inflight := inner.inflight ∪ batch.toFinset }
    if batch = [] then retry_returns inner expired_ids
    else .parks inner (.retry batch now_ms expired_ids)

/-- The first lock section of a call. -/
def begin_ (durable : Bool) (inner : Inner) : PoolCall → Section
  | .reserve session_id device_id now => reserve_begin c inner session_id device_id now
  | .commit session_id now => commit_begin c inner session_id now
  | .release_at session_id now_ms => release_begin inner session_id now_ms
  | .renew session_id now => renew_begin c inner session_id now
  | .sweep now_ms => sweep_begin inner now_ms
  | .retry_pending_releases_bounded now_ms max_batch =>
    retry_begin durable inner now_ms max_batch none

/-! ## Later sections -/

def reserve_finish (inner : Inner) (session_id : SessionId) (lease : ReservedLease)
    (persist_ok : Bool) : Section :=
  let inner := inner.unpark session_id lease.addresses
  if !persist_ok then .returns inner (.reserved session_id (.error .Store))
  else if session_id ∈ inner.release_pending ∨ session_id ∈ inner.active then
    .returns inner (.reserved session_id (.error .Store))
  else
    .returns { inner with pending := inner.pending.insert session_id lease }
      (.reserved session_id (.ok lease.addresses))

def promote_finish (inner : Inner) (session_id : SessionId) (pending : ReservedLease)
    (active_mono_expires_at_ms : ℕ) (persist_ok : Bool) : Section :=
  let inner := inner.unpark session_id pending.addresses
  if !persist_ok then
    .returns { inner with pending := inner.pending.insert session_id pending }
      (.committed session_id (.error .Store))
  else if session_id ∈ inner.release_pending ∨ session_id ∈ inner.active then
    .returns inner (.committed session_id (.error .Store))
  else
    let active : ActiveLease := { pending with expires_at_ms := active_mono_expires_at_ms }
    .returns { inner with active := inner.active.insert session_id active }
      (.committed session_id (.ok pending.addresses))

def expire_finish (inner : Inner) (session_id : SessionId) (pending : ReservedLease)
    (now_ms : ℕ) (delete_ok : Bool) : Section :=
  let inner := inner.unpark session_id pending.addresses
  if delete_ok then .returns inner (.committed session_id (.error .Expired))
  else
    match inner.enqueue_release_locked c session_id pending now_ms with
    | .error _ =>
      .returns { inner with pending := inner.pending.insert session_id pending }
        (.committed session_id (.error .Store))
    | .ok inner => .returns inner (.committed session_id (.error .Expired))

/-- When the quarantine is full the lease is restored as Active, whatever map it
was taken from. -/
def release_finish (inner : Inner) (session_id : SessionId) (taken : Lease) (now_ms : ℕ)
    (delete_ok : Bool) : Section :=
  let inner := inner.unpark session_id taken.addresses
  if delete_ok then .returns inner (.released session_id (.ok true))
  else
    match inner.enqueue_release_locked c session_id taken now_ms with
    | .error _ =>
      .returns { inner with active := inner.active.insert session_id taken }
        (.released session_id (.error .Store))
    | .ok inner => .returns inner (.released session_id (.ok true))

def renew_finish (inner : Inner) (session_id : SessionId) (plan : ActiveLease)
    (renewed_mono_expires_at_ms : ℕ) (persist_ok : Bool) : Section :=
  let inner := { inner with inflight := inner.inflight.erase session_id }
  if !persist_ok then .returns inner (.renewed session_id (.error .Store))
  else
    match inner.active.lookup session_id with
    | some active =>
      if active.device_id = plan.device_id ∧ active.addresses = plan.addresses then
        let renewed : ActiveLease := { active with expires_at_ms := renewed_mono_expires_at_ms }
        .returns { inner with active := inner.active.insert session_id renewed }
          (.renewed session_id (.ok ()))
      else .returns inner (.renewed session_id (.error .UnknownLease))
    | none => .returns inner (.renewed session_id (.error .UnknownLease))

/-- Unparks one swept lease: gone, quarantined, or back in its map when the
quarantine is full. -/
def settle_expired (now_ms : ℕ) (inner : Inner) (e : Expired) (delete_ok : Bool) : Inner :=
  let inner := inner.unpark e.id e.lease.addresses
  if delete_ok then inner
  else
    match inner.enqueue_release_locked c e.id e.lease now_ms with
    | .ok inner => inner
    | .error _ =>
      if e.was_pending then { inner with pending := inner.pending.insert e.id e.lease }
      else { inner with active := inner.active.insert e.id e.lease }

def sweep_finish (inner : Inner) (batch : List Expired) (now_ms : ℕ) (outcomes : List Bool) :
    Section :=
  let inner := (batch.zip outcomes).foldl (fun inner e => settle_expired c now_ms inner e.1 e.2)
    inner
  let expired_ids := batch.map (·.id)
  ⟨inner, some (.swept expired_ids now_ms), [.expired expired_ids]⟩

/-- Unparks one retried delete: a success leaves the quarantine, a failure backs
off and is queued again. -/
def settle_retry (now_ms : ℕ) (inner : Inner) (id : SessionId) (delete_ok : Bool) : Inner :=
  let inner := { inner with inflight := inner.inflight.erase id }
  if delete_ok then { inner with release_pending := inner.release_pending.erase id }
  else
    match inner.release_pending.lookup id with
    | some quarantined =>
      let attempts := saturatingAdd quarantined.attempts 1
      { inner with
        release_pending := inner.release_pending.insert id
          { quarantined with
            attempts := attempts
            next_retry_ms := next_retry_deadline now_ms attempts }
        release_order := inner.release_order ++ [id] }
    | none => { inner with release_order := inner.release_order ++ [id] }

def retry_finish (inner : Inner) (batch : List SessionId) (now_ms : ℕ)
    (expired_ids : Option (List SessionId)) (outcomes : List Bool) : Section :=
  retry_returns
    ((batch.zip outcomes).foldl (fun inner e => settle_retry now_ms inner e.1 e.2) inner)
    expired_ids

/-- The next lock section of a parked call, given the outcomes of its store
operations. -/
def resume (durable : Bool) (inner : Inner) (outcomes : List Bool) : Plan → Section
  | .reserve session_id lease _ => reserve_finish inner session_id lease (outcomes.headD true)
  | .promote session_id pending mono _ =>
    promote_finish inner session_id pending mono (outcomes.headD true)
  | .expire session_id pending now_ms =>
    expire_finish c inner session_id pending now_ms (outcomes.headD true)
  | .release session_id taken now_ms =>
    release_finish c inner session_id taken now_ms (outcomes.headD true)
  | .renew session_id active mono _ =>
    renew_finish inner session_id active mono (outcomes.headD true)
  | .sweep batch now_ms => sweep_finish c inner batch now_ms outcomes
  | .swept expired_ids now_ms => retry_begin durable inner now_ms MAX_RETRY_BATCH (some expired_ids)
  | .retry batch now_ms expired_ids => retry_finish inner batch now_ms expired_ids outcomes

/-! ## Calls that never drop the lock -/

/-- `release_deferred`: moves the lease to the quarantine without store I/O, and
gives up on a session that is in flight. -/
def release_deferred (inner : Inner) (session_id : SessionId) : Inner × Bool :=
  if session_id ∈ inner.inflight ∨ session_id ∈ inner.release_pending then (inner, false)
  else
    match take inner session_id with
    | none => (inner, false)
    | some (taken_out, lease) =>
      match taken_out.enqueue_release_locked c session_id lease 0 with
      | .ok inner => (inner, true)
      | .error _ =>
        ({ taken_out with active := taken_out.active.insert session_id lease }, false)

def lookup_active (inner : Inner) (session_id : SessionId) : Option AssignedAddresses :=
  (inner.active.lookup session_id).map (·.addresses)

/-! ## Startup -/

/-- Ephemeral pool. -/
def new : AddressPool := ⟨c, .empty, none⟩

/-- The loop variables of recovery. -/
structure Recovery where
  inner : Inner
  seen_sessions : List SessionId
  seen_v4 : List Ipv4
  seen_v6 : List Ipv6
  stale : List PersistedLease

/-- A record can be restored: well formed, in the pool, and colliding with no
record restored before it. -/
def valid_persisted_locked (r : Recovery) (lease : PersistedLease) : Bool :=
  !is_zero_id lease.session_id.bytes && !is_zero_id lease.device_id.bytes
  && lease.addresses.ipv4_prefix_len == c.ipv4_prefix_len
  && lease.addresses.ipv6_prefix_len == IPV6_LEASE_PREFIX_LEN
  && c.ipv4_usable lease.addresses.ipv4 && c.ipv6_usable lease.addresses.ipv6_prefix_addr
  && !r.seen_sessions.contains lease.session_id
  && !r.seen_v4.contains lease.addresses.ipv4 && !r.seen_v6.contains lease.addresses.ipv6_prefix_addr
  && !decide (lease.session_id ∈ r.inner.active) && !decide (lease.session_id ∈ r.inner.pending)
  && !decide (lease.session_id ∈ r.inner.release_pending)
  && !r.inner.leased.any (fun a =>
    a.ipv4 = lease.addresses.ipv4 ∨ a.ipv6_prefix_addr = lease.addresses.ipv6_prefix_addr)

/-- Drops a record: its durable delete follows after the loop. -/
def Recovery.drop (r : Recovery) (lease : PersistedLease) : Recovery :=
  { r with stale := r.stale ++ [lease] }

def recover_lease (now : PoolTime) (r : Recovery) (lease : PersistedLease) : Recovery :=
  if lease.expires_at_ms ≤ now.wall_ms then r.drop lease
  else if !valid_persisted_locked c r lease then r.drop lease
  else
    let r := { r with
      seen_sessions := lease.session_id :: r.seen_sessions
      seen_v4 := lease.addresses.ipv4 :: r.seen_v4
      seen_v6 := lease.addresses.ipv6_prefix_addr :: r.seen_v6 }
    let inner := r.inner
    let restored : Lease := ⟨lease.device_id, lease.addresses,
      monotonic_expiry_from_wall lease.expires_at_ms now.wall_ms now.monotonic_ms⟩
    match lease.state with
    | .Reserved =>
      if c.maximum_leases ≤ inner.active.len + inner.pending.len then r.drop lease
      else { r with inner := { inner with
        pending := inner.pending.insert lease.session_id restored } }
    | .Active =>
      if c.maximum_leases ≤ inner.active.len + inner.pending.len then r.drop lease
      else { r with inner := { inner with
        active := inner.active.insert lease.session_id restored } }
    | .ReleasePending =>
      if c.maximum_pending_releases ≤ inner.release_pending.len then r.drop lease
      else { r with inner := { inner with
        release_order := inner.release_order ++ [lease.session_id]
        release_pending := inner.release_pending.insert lease.session_id
          ⟨restored, 0, next_retry_deadline now.monotonic_ms 0⟩ } }

def recovery_le (a b : PersistedLease) : Bool :=
  if a.session_id ≠ b.session_id then a.session_id.bytes.toNat < b.session_id.bytes.toNat
  else a.device_id.bytes.toNat ≤ b.device_id.bytes.toNat

/-- The state after the recovery loop, before the discarded records are deleted. -/
def recover_records (now : PoolTime) (persisted : List PersistedLease) : Recovery :=
  let ordered := persisted.insertionSort (fun a b => recovery_le a b)
  let bound := min (c.maximum_leases + c.maximum_pending_releases) MAX_LEASES_HARD_CAP
  (ordered.take bound).foldl (recover_lease c now) ⟨.empty, [], [], [], ordered.drop bound⟩

/-- Quarantines the discarded records whose delete failed; a full quarantine fails
the construction. -/
def quarantine_stale (now : PoolTime) : Inner → List (PersistedLease × Bool) →
    Except AddressPoolError Inner
  | inner, [] => .ok inner
  | inner, (lease, delete_ok) :: rest =>
    if delete_ok then quarantine_stale now inner rest
    else
      match inner.enqueue_release_locked c lease.session_id
          ⟨lease.device_id, lease.addresses, lease.expires_at_ms⟩ now.monotonic_ms with
      | .error e => .error e
      | .ok inner => quarantine_stale now inner rest

/-- `with_store_at_time`: the records the store loaded (`none` if loading failed),
what the store holds, and the outcomes of the deletes of discarded records. -/
def with_store_at_time (loaded : Option (List PersistedLease)) (store : LeaseStore)
    (now : PoolTime) (outcomes : List Bool) : Except AddressPoolError AddressPool :=
  match loaded with
  | none => .error .Store
  | some persisted =>
    if MAX_LEASES_HARD_CAP < persisted.length then .error .Store
    else
      let r := recover_records c now persisted
      let deletes := r.stale.zip (outcomes ++ List.replicate r.stale.length true)
      match quarantine_stale c now r.inner deletes with
      | .error e => .error e
      | .ok inner =>
        .ok ⟨c, inner, some (deletes.foldl
          (fun store d => (StoreOp.release d.1.session_id).apply d.2 store) store)⟩

variable {c}

/-- What enqueueing a release keeps, quarantining the discarded records keeps. -/
theorem quarantine_stale_invariant {P : Inner → Prop} {now : PoolTime}
    {deletes : List (PersistedLease × Bool)} {inner inner' : Inner}
    (hstep : ∀ {inner inner₁ : Inner} {id : SessionId} {lease : Lease}, P inner →
      inner.enqueue_release_locked c id lease now.monotonic_ms = .ok inner₁ → P inner₁)
    (h : P inner) (hq : quarantine_stale c now inner deletes = .ok inner') : P inner' := by
  induction deletes generalizing inner with
  | nil => rwa [← Except.ok.inj hq]
  | cons d deletes ih =>
    rw [quarantine_stale] at hq
    split at hq
    · exact ih h hq
    split at hq
    · contradiction
    next he => exact ih (hstep h he) hq

/-- What a start that succeeds has done. -/
theorem with_store_eq_ok {records : List PersistedLease} {store : LeaseStore} {now : PoolTime}
    {outcomes : List Bool} {pool : AddressPool}
    (h : with_store_at_time c (some records) store now outcomes = .ok pool) :
    ∃ deletes inner, deletes = (recover_records c now records).stale.zip (outcomes ++
        List.replicate (recover_records c now records).stale.length true) ∧
      quarantine_stale c now (recover_records c now records).inner deletes = .ok inner ∧
      pool = ⟨c, inner, some (deletes.foldl
        (fun store d => (StoreOp.release d.1.session_id).apply d.2 store) store)⟩ := by
  rw [with_store_at_time] at h
  dsimp only at h
  split at h
  · contradiction
  split at h
  · contradiction
  next inner hq => exact ⟨_, inner, rfl, hq, (Except.ok.inj h).symm⟩

end AddressPool

end StreamGuard.Gateway
