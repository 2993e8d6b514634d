/-
Uplink source validation, `UplinkForwarder::validate` of
`streamguard-gateway/src/v2/forwarding.rs`.

A packet of a client is parsed down to its source address, and the source is
compared with the Active lease of the session it came in on. Both ingest calls of
the engine go through this one gate, with the session their binding check has
answered, and send on nothing it has not sealed.

Two results meet here. The parser reads inside the packet whatever its bytes are,
and accepts exactly the packets of `IpPacket`, a format stated with no parser in
it. And a source belongs to at most one session at a time, because a session in
the Active map holds its lease (`PoolSystem.Holds`) in every interleaving of the
pool's calls, so that two of them never share an address.
-/
import StreamGuard.Core.Wire
import StreamGuard.Gateway.PoolUnique

set_option autoImplicit false

namespace StreamGuard.Gateway

open StreamGuard StreamGuard.Lib

def MIN_PACKET_BYTES : ℕ := 20
def MIN_IPV6_BYTES : ℕ := 40

inductive IpSource where
  | V4 (src : Ipv4)
  | V6 (src : Ipv6)
  deriving DecidableEq

/-- A packet that may be sent on. -/
structure ValidatedUplink where
  session_id : SessionId
  source : IpSource
  packet : Bytes
  deriving DecidableEq

inductive ForwardError where
  | Empty
  | TooLarge
  | Truncated
  | InvalidHeader
  | InvalidLength
  | UnknownVersion
  | InvalidSource
  | UnknownSession
  | SourceMismatch
  deriving DecidableEq

/-! ## The parser -/

def parse_ipv4_source (packet : Bytes) : Outcome ForwardError IpSource :=
  if packet.length < MIN_PACKET_BYTES then .err .Truncated else do
  let first ← index packet 0
  -- at most 60, so the product of the source does not saturate
  let ihl_bytes := (first &&& 0x0F).toNat * 4
  if ihl_bytes < MIN_PACKET_BYTES then .err .InvalidHeader else do
  if packet.length < ihl_bytes then .err .Truncated else do
  let len_high ← index packet 2
  let len_low ← index packet 3
  let total_len := (U16.from_be_bytes [len_high, len_low]).val
  if total_len < ihl_bytes then .err .InvalidLength else do
  if total_len ≠ packet.length then .err .InvalidLength else do
  let src ← array 4 (← slice packet 12 16)
  let src : Ipv4 := array_from_bytes 4 src
  if src = 0 then .err .InvalidSource else pure (.V4 src)

def parse_ipv6_source (packet : Bytes) : Outcome ForwardError IpSource :=
  if packet.length < MIN_IPV6_BYTES then .err .Truncated else do
  let len_high ← index packet 4
  let len_low ← index packet 5
  let payload_len := (U16.from_be_bytes [len_high, len_low]).val
  if MIN_IPV6_BYTES + payload_len ≠ packet.length then .err .InvalidLength else do
  let src ← array 16 (← slice packet 8 24)
  let src : Ipv6 := array_from_bytes 16 src
  if src = 0 then .err .InvalidSource else pure (.V6 src)

/-- The version dispatch of `parse_source`. -/
def parse_version (packet : Bytes) : Outcome ForwardError IpSource := do
  let first ← index packet 0
  if first >>> 4 = 4 then parse_ipv4_source packet
  else if first >>> 4 = 6 then parse_ipv6_source packet
  else .err .UnknownVersion

/-! ## The format -/

/-- The well-formed IP packets, with their source: the header is complete, its length field
tells the length of the packet, and the source is not the unspecified address. -/
inductive IpPacket : Bytes → IpSource → Prop where
  /-- `rest` is the destination, the options and the payload. -/
  | v4 {ihl : ℕ} {tos : UInt8} {total_len : U16} {middle rest : Bytes} {src : Ipv4}
      (hihl : 5 ≤ ihl ∧ ihl < 16) (hmiddle : middle.length = 8)
      (hlen : total_len.val = 16 + rest.length) (hheader : 4 * ihl ≤ total_len.val)
      (hsrc : src ≠ 0) :
      IpPacket ([ofNibbles 4 ihl, tos] ++ (U16.to_be_bytes total_len ++
        (middle ++ (array_bytes 4 src ++ rest)))) (.V4 src)
  /-- `rest` is the destination and the payload. -/
  | v6 {traffic : ℕ} {flow next rest : Bytes} {payload_len : U16} {src : Ipv6}
      (htraffic : traffic < 16) (hflow : flow.length = 3) (hnext : next.length = 2)
      (hlen : rest.length = 16 + payload_len.val) (hsrc : src ≠ 0) :
      IpPacket (ofNibbles 6 traffic :: (flow ++ (U16.to_be_bytes payload_len ++
        (next ++ (array_bytes 16 src ++ rest))))) (.V6 src)

section Parse

variable {packet : Bytes} {source : IpSource} {first : UInt8}

/-- The bytes between two offsets. -/
theorem drop_eq_take_append (packet : Bytes) (i n : ℕ) :
    packet.drop i = (packet.drop i).take n ++ packet.drop (i + n) := by
  rw [← List.drop_drop, List.take_append_drop]

theorem of_parse_ipv4_source (hfirst : packet = first :: packet.drop 1) (hversion : first >>> 4 = 4)
    (h : parse_ipv4_source packet = .ok source) : IpPacket packet source := by
  rw [parse_ipv4_source, Outcome.ite_err_eq_ok] at h
  obtain ⟨hmin, h⟩ := h
  obtain ⟨byte, hbyte, h⟩ := Outcome.bind_eq_ok.mp h
  obtain rfl : byte = first := by
    rw [index_eq_ok, List.drop_zero, hfirst] at hbyte
    exact (List.cons.inj hbyte).1.symm
  obtain ⟨hihl, h⟩ := Outcome.ite_err_eq_ok.mp h
  obtain ⟨_, h⟩ := Outcome.ite_err_eq_ok.mp h
  obtain ⟨len_high, hhigh, h⟩ := Outcome.bind_eq_ok.mp h
  obtain ⟨len_low, hlow, h⟩ := Outcome.bind_eq_ok.mp h
  obtain ⟨hheader, h⟩ := Outcome.ite_err_eq_ok.mp h
  obtain ⟨hlen, h⟩ := Outcome.ite_err_eq_ok.mp h
  obtain ⟨piece, hpiece, h⟩ := Outcome.bind_eq_ok.mp h
  obtain ⟨_, harray, h⟩ := Outcome.bind_eq_ok.mp h
  obtain ⟨hfour, rfl⟩ := array_eq_ok.mp harray
  obtain ⟨hzero, h⟩ := Outcome.ite_err_eq_ok.mp h
  obtain rfl := Outcome.pure_eq_ok.mp h
  have hsplit := ((slice_eq_ok (by omega)).mp hpiece).2
  rw [index_eq_ok] at hhigh hlow
  rw [MIN_PACKET_BYTES] at hmin hihl
  -- the packet, piece by piece
  obtain ⟨tos, htos⟩ : ∃ tos, packet.drop 1 = tos :: packet.drop 2 :=
    ⟨_, List.drop_eq_getElem_cons (by omega)⟩
  have hpacket : packet = [byte, tos] ++ ([len_high, len_low] ++
      ((packet.drop 4).take 8 ++ (piece ++ packet.drop 16))) := by
    rw [← hsplit, ← drop_eq_take_append packet 4 8]
    simp only [List.cons_append, List.nil_append, ← hlow, ← hhigh, ← htos, ← hfirst]
  have hnibbles := ofNibbles_of_byte byte
  rw [hversion] at hnibbles
  have hlow_lt : (byte &&& 0x0F).toNat < 16 := by
    rw [toNat_low_nibble]
    omega
  have hword : [len_high, len_low] = _ := (U16.from_be_bytes_eq_iff rfl).mp rfl
  have hsrc : piece = _ := (array_from_bytes_eq_iff hfour).mp rfl
  rw [hword, hsrc, ← hnibbles] at hpacket
  rw [hpacket]
  refine .v4 ⟨by omega, hlow_lt⟩ ?_ ?_ ?_ hzero
  · rw [List.length_take, List.length_drop]
    omega
  · rw [List.length_drop]
    omega
  · omega

theorem of_parse_ipv6_source (hfirst : packet = first :: packet.drop 1) (hversion : first >>> 4 = 6)
    (h : parse_ipv6_source packet = .ok source) : IpPacket packet source := by
  rw [parse_ipv6_source, Outcome.ite_err_eq_ok] at h
  obtain ⟨hmin, h⟩ := h
  obtain ⟨len_high, hhigh, h⟩ := Outcome.bind_eq_ok.mp h
  obtain ⟨len_low, hlow, h⟩ := Outcome.bind_eq_ok.mp h
  obtain ⟨hlen, h⟩ := Outcome.ite_err_eq_ok.mp h
  obtain ⟨piece, hpiece, h⟩ := Outcome.bind_eq_ok.mp h
  obtain ⟨_, harray, h⟩ := Outcome.bind_eq_ok.mp h
  obtain ⟨hsixteen, rfl⟩ := array_eq_ok.mp harray
  obtain ⟨hzero, h⟩ := Outcome.ite_err_eq_ok.mp h
  obtain rfl := Outcome.pure_eq_ok.mp h
  have hsplit := ((slice_eq_ok (by omega)).mp hpiece).2
  rw [index_eq_ok] at hhigh hlow
  rw [MIN_IPV6_BYTES] at hmin hlen
  have hpacket : packet = first :: ((packet.drop 1).take 3 ++ ([len_high, len_low] ++
      ((packet.drop 6).take 2 ++ (piece ++ packet.drop 24)))) := by
    rw [← hsplit, ← drop_eq_take_append packet 6 2]
    simp only [List.cons_append, List.nil_append, ← hlow, ← hhigh]
    rw [← drop_eq_take_append packet 1 3, ← hfirst]
  have hnibbles := ofNibbles_of_byte first
  rw [hversion] at hnibbles
  have hlow_lt : (first &&& 0x0F).toNat < 16 := by
    rw [toNat_low_nibble]
    omega
  have hword : [len_high, len_low] = _ := (U16.from_be_bytes_eq_iff rfl).mp rfl
  have hsrc : piece = _ := (array_from_bytes_eq_iff hsixteen).mp rfl
  rw [hword, hsrc, ← hnibbles] at hpacket
  rw [hpacket]
  refine .v6 hlow_lt ?_ ?_ ?_ hzero
  · rw [List.length_take, List.length_drop]
    omega
  · rw [List.length_take, List.length_drop]
    omega
  · rw [List.length_drop]
    omega

/-- The two bytes of a length field, as the parser reads them. -/
theorem length_field {i : ℕ} {word : U16} {rest : Bytes}
    (h : packet.drop i = U16.to_be_bytes word ++ rest) :
    ∃ len_high len_low, (index packet i : Outcome ForwardError UInt8) = .ok len_high ∧
      (index packet (i + 1) : Outcome ForwardError UInt8) = .ok len_low ∧
      U16.from_be_bytes [len_high, len_low] = word := by
  obtain ⟨len_high, len_low, hword⟩ := List.length_eq_two.mp (U16.length_to_be_bytes word)
  rw [hword] at h
  have hlow : packet.drop (i + 1) = [len_low] ++ rest := drop_after (x := [len_high]) h rfl
  refine ⟨len_high, len_low, index_of_drop h, index_of_drop hlow, ?_⟩
  rw [U16.from_be_bytes_eq_iff rfl, hword]

theorem parse_ipv4_source_eq_ok {ihl : ℕ} {tos : UInt8} {total_len : U16} {middle rest : Bytes}
    {src : Ipv4} (hihl : 5 ≤ ihl ∧ ihl < 16) (hmiddle : middle.length = 8)
    (hlen : total_len.val = 16 + rest.length) (hheader : 4 * ihl ≤ total_len.val) (hsrc : src ≠ 0)
    (hpacket : packet = [ofNibbles 4 ihl, tos] ++ (U16.to_be_bytes total_len ++
      (middle ++ (array_bytes 4 src ++ rest)))) :
    parse_ipv4_source packet = .ok (.V4 src) := by
  have hlength : packet.length = total_len.val := by
    rw [hpacket]
    simp only [List.length_append, List.length_cons, List.length_nil, U16.length_to_be_bytes,
      length_array_bytes, hmiddle]
    omega
  have hword : packet.drop 2 = U16.to_be_bytes total_len ++ (middle ++ (array_bytes 4 src ++ rest)) :=
    drop_after (i := 0) (by rw [List.drop_zero, hpacket]) rfl
  have hmiddle' : packet.drop 4 = middle ++ (array_bytes 4 src ++ rest) :=
    drop_after hword (by simp)
  have hsource : packet.drop 12 = array_bytes 4 src ++ rest := drop_after hmiddle' (by omega)
  obtain ⟨len_high, len_low, hhigh, hlow, htotal⟩ := length_field hword
  have hfirst : packet.drop 0 = [ofNibbles 4 ihl] ++ packet.drop 1 := by
    rw [hpacket]
    rfl
  rw [parse_ipv4_source, if_neg (by rw [MIN_PACKET_BYTES]; omega), index_of_drop hfirst,
    Outcome.ok_bind]
  simp only [low_ofNibbles (by decide : 4 < 16) hihl.2]
  rw [if_neg (by rw [MIN_PACKET_BYTES]; omega), if_neg (by omega), hhigh, Outcome.ok_bind, hlow,
    Outcome.ok_bind, htotal, if_neg (by omega), if_neg (by omega),
    slice_of_drop hsource (by decide) (by simp), Outcome.ok_bind, array, if_pos (by simp),
    Outcome.ok_bind, (array_from_bytes_eq_iff (by simp)).mpr rfl, if_neg hsrc]
  rfl

theorem parse_ipv6_source_eq_ok {traffic : ℕ} {flow next rest : Bytes} {payload_len : U16}
    {src : Ipv6} (hflow : flow.length = 3) (hnext : next.length = 2)
    (hlen : rest.length = 16 + payload_len.val) (hsrc : src ≠ 0)
    (hpacket : packet = ofNibbles 6 traffic :: (flow ++ (U16.to_be_bytes payload_len ++
      (next ++ (array_bytes 16 src ++ rest))))) :
    parse_ipv6_source packet = .ok (.V6 src) := by
  have hlength : packet.length = 40 + payload_len.val := by
    rw [hpacket]
    simp only [List.length_append, List.length_cons, U16.length_to_be_bytes, length_array_bytes,
      hflow, hnext]
    omega
  have hflow' : packet.drop 1 = flow ++ (U16.to_be_bytes payload_len ++
      (next ++ (array_bytes 16 src ++ rest))) := by
    rw [hpacket]
    rfl
  have hword : packet.drop 4 = U16.to_be_bytes payload_len ++
      (next ++ (array_bytes 16 src ++ rest)) :=
    drop_after hflow' (by omega)
  have hnext' : packet.drop 6 = next ++ (array_bytes 16 src ++ rest) :=
    drop_after hword (by simp)
  have hsource : packet.drop 8 = array_bytes 16 src ++ rest := drop_after hnext' (by omega)
  obtain ⟨len_high, len_low, hhigh, hlow, hpayload⟩ := length_field hword
  rw [parse_ipv6_source, if_neg (by rw [MIN_IPV6_BYTES]; omega), hhigh, Outcome.ok_bind, hlow,
    Outcome.ok_bind, hpayload, if_neg (by rw [MIN_IPV6_BYTES]; omega),
    slice_of_drop hsource (by decide) (by simp), Outcome.ok_bind, array, if_pos (by simp),
    Outcome.ok_bind, (array_from_bytes_eq_iff (by simp)).mpr rfl, if_neg hsrc]
  rfl

/-- **The parser accepts exactly the well-formed packets**, and tells their source. -/
theorem parse_version_eq_ok : parse_version packet = .ok source ↔ IpPacket packet source := by
  rw [parse_version, Outcome.bind_eq_ok]
  constructor
  · rintro ⟨first, hfirst, h⟩
    have hsplit : packet = first :: packet.drop 1 := by
      rw [index_eq_ok, List.drop_zero] at hfirst
      exact hfirst
    by_cases hv4 : first >>> 4 = 4
    · rw [if_pos hv4] at h
      exact of_parse_ipv4_source hsplit hv4 h
    by_cases hv6 : first >>> 4 = 6
    · rw [if_neg hv4, if_pos hv6] at h
      exact of_parse_ipv6_source hsplit hv6 h
    · rw [if_neg hv4, if_neg hv6] at h
      contradiction
  · intro h
    cases h with
    | @v4 ihl _ _ _ _ _ hihl hmiddle hlen hheader hsrc =>
      have hversion : ofNibbles 4 ihl >>> 4 = 4 :=
        UInt8.toNat_inj.mp (high_ofNibbles (by decide) hihl.2)
      refine ⟨_, rfl, ?_⟩
      rw [if_pos hversion]
      exact parse_ipv4_source_eq_ok hihl hmiddle hlen hheader hsrc rfl
    | @v6 traffic _ _ _ _ _ htraffic hflow hnext hlen hsrc =>
      have hversion : ofNibbles 6 traffic >>> 4 = 6 :=
        UInt8.toNat_inj.mp (high_ofNibbles (by decide) htraffic)
      refine ⟨_, rfl, ?_⟩
      rw [if_neg (by rw [hversion]; decide), if_pos hversion]
      exact parse_ipv6_source_eq_ok hflow hnext hlen hsrc rfl

theorem parse_ipv4_source_ne_panic (packet : Bytes) : parse_ipv4_source packet ≠ .panic := by
  rw [parse_ipv4_source]
  refine Outcome.ite_err_ne_panic fun hmin => ?_
  have hmin : 20 ≤ packet.length := Nat.not_lt.mp hmin
  refine Outcome.bind_ne_panic (index_ne_panic (by omega)) fun _ _ => ?_
  refine Outcome.ite_err_ne_panic fun _ => ?_
  refine Outcome.ite_err_ne_panic fun _ => ?_
  refine Outcome.bind_ne_panic (index_ne_panic (by omega)) fun _ _ => ?_
  refine Outcome.bind_ne_panic (index_ne_panic (by omega)) fun _ _ => ?_
  refine Outcome.ite_err_ne_panic fun _ => ?_
  refine Outcome.ite_err_ne_panic fun _ => ?_
  refine Outcome.bind_ne_panic (slice_ne_panic (by omega) (by omega)) fun _ hx => ?_
  refine Outcome.bind_ne_panic (array_ne_panic ((slice_eq_ok (by omega)).mp hx).1) fun _ _ => ?_
  refine Outcome.ite_err_ne_panic fun _ => ?_
  simp [pure]

theorem parse_ipv6_source_ne_panic (packet : Bytes) : parse_ipv6_source packet ≠ .panic := by
  rw [parse_ipv6_source]
  refine Outcome.ite_err_ne_panic fun hmin => ?_
  have hmin : 40 ≤ packet.length := Nat.not_lt.mp hmin
  refine Outcome.bind_ne_panic (index_ne_panic (by omega)) fun _ _ => ?_
  refine Outcome.bind_ne_panic (index_ne_panic (by omega)) fun _ _ => ?_
  refine Outcome.ite_err_ne_panic fun _ => ?_
  refine Outcome.bind_ne_panic (slice_ne_panic (by omega) (by omega)) fun _ hx => ?_
  refine Outcome.bind_ne_panic (array_ne_panic ((slice_eq_ok (by omega)).mp hx).1) fun _ _ => ?_
  refine Outcome.ite_err_ne_panic fun _ => ?_
  simp [pure]

/-- Every read of the parser stays inside a packet that is not empty. -/
theorem parse_version_ne_panic (h : packet ≠ []) : parse_version packet ≠ .panic := by
  rw [parse_version]
  refine Outcome.bind_ne_panic (index_ne_panic (List.length_pos_of_ne_nil h)) fun first _ => ?_
  by_cases hv4 : first >>> 4 = 4
  · rw [if_pos hv4]
    exact parse_ipv4_source_ne_panic packet
  by_cases hv6 : first >>> 4 = 6
  · rw [if_neg hv4, if_pos hv6]
    exact parse_ipv6_source_ne_panic packet
  · rw [if_neg hv4, if_neg hv6]
    simp

end Parse

/-! ## The forwarder -/

/-- Counters of a forwarder; each wraps. -/
structure ForwarderMetrics where
  validated : U64
  parse_dropped : U64
  spoof_dropped : U64

/-- The pool it shares with the rest of the gateway is an argument of its calls. -/
structure UplinkForwarder where
  maximum_packet_bytes : ℕ
  metrics : ForwarderMetrics

/-- The source is one that a lease allows: the leased IPv4 address itself, or an
address of the leased `/64`. -/
def IpSource.LeasedAs (c : AddressPoolConfig) (a : AssignedAddresses) : IpSource → Prop
  | .V4 src => src = a.ipv4 ∧ src ≠ 0 ∧ src ≠ c.ipv4_gateway
  | .V6 src => subnet64 src = subnet64 a.ipv6_prefix_addr ∧ src ≠ 0

instance (c : AddressPoolConfig) (a : AssignedAddresses) (source : IpSource) :
    Decidable (source.LeasedAs c a) :=
  match source with
  | .V4 _ => inferInstanceAs (Decidable (_ ∧ _))
  | .V6 _ => inferInstanceAs (Decidable (_ ∧ _))

namespace UplinkForwarder

section Calls

variable {α : Type} (f : UplinkForwarder)

def parse_drops (e : ForwardError) : UplinkForwarder × Outcome ForwardError α :=
  ({ f with metrics.parse_dropped := f.metrics.parse_dropped + 1 }, .err e)

def spoof_drops (e : ForwardError) : UplinkForwarder × Outcome ForwardError α :=
  ({ f with metrics.spoof_dropped := f.metrics.spoof_dropped + 1 }, .err e)

def parse_source (packet : Bytes) : UplinkForwarder × Outcome ForwardError IpSource :=
  if packet = [] then f.parse_drops .Empty
  else if f.maximum_packet_bytes < packet.length then f.parse_drops .TooLarge
  else match parse_version packet with
    | .err e => f.parse_drops e
    | result => (f, result)

def seals (session_id : SessionId) (source : IpSource) (packet : Bytes) :
    UplinkForwarder × Outcome ForwardError ValidatedUplink :=
  ({ f with metrics.validated := f.metrics.validated + 1 }, .ok ⟨session_id, source, packet⟩)

def validate (pool : AddressPool) (session_id : SessionId) (packet : Bytes) :
    UplinkForwarder × Outcome ForwardError ValidatedUplink :=
  match f.parse_source packet with
  | (f, .panic) => (f, .panic)
  | (f, .err e) => (f, .err e)
  | (f, .ok source) =>
    match AddressPool.lookup_active pool.inner session_id with
    | none => f.spoof_drops .UnknownSession
    | some lease =>
      match source with
      | .V4 src =>
        if src = 0 ∨ src = pool.config.ipv4_gateway ∨ src ≠ lease.ipv4 then
          f.spoof_drops .SourceMismatch
        else f.seals session_id source packet
      | .V6 src =>
        if src = 0 then f.spoof_drops .InvalidSource
        else if subnet64 src ≠ subnet64 lease.ipv6_prefix_addr then f.spoof_drops .SourceMismatch
        else f.seals session_id source packet

end Calls

/-! ## What a call does -/

section Spec

variable {f : UplinkForwarder} {pool : AddressPool} {session_id : SessionId} {packet : Bytes}

/-- A parse drops the packet, or leaves the forwarder as it was. -/
theorem parse_source_ends : (∃ e, f.parse_source packet = f.parse_drops e) ∨
    ∃ source, f.parse_source packet = (f, .ok source) := by
  rw [parse_source]
  by_cases hempty : packet = []
  · rw [if_pos hempty]
    exact .inl ⟨_, rfl⟩
  by_cases hlarge : f.maximum_packet_bytes < packet.length
  · rw [if_neg hempty, if_pos hlarge]
    exact .inl ⟨_, rfl⟩
  rw [if_neg hempty, if_neg hlarge]
  cases hparse : parse_version packet with
  | ok source => exact .inr ⟨source, rfl⟩
  | err e => exact .inl ⟨e, rfl⟩
  | panic => exact absurd hparse (parse_version_ne_panic hempty)

theorem parse_source_eq_ok {source : IpSource} : (f.parse_source packet).2 = .ok source ↔
    IpPacket packet source ∧ packet.length ≤ f.maximum_packet_bytes := by
  rw [parse_source]
  by_cases hempty : packet = []
  · -- an IP packet has a first byte
    have hnone : ¬ IpPacket packet source := by
      rw [hempty]
      intro h
      cases h
    rw [if_pos hempty]
    simp [parse_drops, hnone]
  by_cases hlarge : f.maximum_packet_bytes < packet.length
  · rw [if_neg hempty, if_pos hlarge]
    simp [parse_drops, hlarge]
  rw [if_neg hempty, if_neg hlarge, ← parse_version_eq_ok, and_iff_left (Nat.not_lt.mp hlarge)]
  cases parse_version packet with
  | ok source => rfl
  | err e => simp [parse_drops]
  | panic => rfl

/-- The three ends of a call. -/
theorem validate_ends : (∃ e, f.validate pool session_id packet = f.parse_drops e) ∨
    (∃ e, f.validate pool session_id packet = f.spoof_drops e) ∨
      ∃ source, f.validate pool session_id packet = f.seals session_id source packet := by
  rw [validate]
  rcases @parse_source_ends f packet with ⟨e, h⟩ | ⟨source, h⟩
  · rw [h]
    exact .inl ⟨e, rfl⟩
  rw [h]
  right
  dsimp only
  cases AddressPool.lookup_active pool.inner session_id with
  | none => exact .inl ⟨_, rfl⟩
  | some lease =>
    dsimp only
    repeat' split
    all_goals first | exact .inl ⟨_, rfl⟩ | exact .inr ⟨_, rfl⟩

/-- **Every read of a call stays inside the packet.** -/
theorem validate_ne_panic : (f.validate pool session_id packet).2 ≠ .panic := by
  rcases @validate_ends f pool session_id packet with ⟨e, h⟩ | ⟨e, h⟩ | ⟨source, h⟩
  · simp [h, parse_drops]
  · simp [h, spoof_drops]
  · simp [h, seals]

/-- A packet that does not parse is dropped before the pool is asked. -/
theorem validate_unparsed {e : ForwardError} (hparse : f.parse_source packet = f.parse_drops e) :
    f.validate pool session_id packet = f.parse_drops e := by
  rw [validate, hparse]
  rfl

/-- A packet of a leased session is sealed or counted as spoofed. -/
theorem validate_leased {source : IpSource} {lease : Lease}
    (hparse : f.parse_source packet = (f, .ok source))
    (hactive : pool.inner.active.lookup session_id = some lease) :
    if source.LeasedAs pool.config lease.addresses then
      f.validate pool session_id packet = f.seals session_id source packet
    else ∃ e, f.validate pool session_id packet = f.spoof_drops e := by
  rw [validate, hparse]
  dsimp only
  rw [AddressPool.lookup_active, hactive]
  cases source with
  | V4 src =>
    by_cases hbad : src = 0 ∨ src = pool.config.ipv4_gateway ∨ src ≠ lease.addresses.ipv4
    · have hout : ¬ (IpSource.V4 src).LeasedAs pool.config lease.addresses := by
        rw [IpSource.LeasedAs]
        tauto
      rw [if_neg hout, Option.map_some]
      exact ⟨_, if_pos hbad⟩
    · have hin : (IpSource.V4 src).LeasedAs pool.config lease.addresses := by
        rw [IpSource.LeasedAs]
        tauto
      rw [if_pos hin, Option.map_some]
      exact if_neg hbad
  | V6 src =>
    by_cases hzero : src = 0
    · rw [if_neg fun hin => hin.2 hzero, Option.map_some]
      exact ⟨_, if_pos hzero⟩
    by_cases hsubnet : subnet64 src = subnet64 lease.addresses.ipv6_prefix_addr
    · rw [if_pos ⟨hsubnet, hzero⟩, Option.map_some]
      exact (if_neg hzero).trans (if_neg (not_not.mpr hsubnet))
    · rw [if_neg fun hin => hsubnet hin.1, Option.map_some]
      exact ⟨_, (if_neg hzero).trans (if_pos hsubnet)⟩

/-- **What a call seals:** a well-formed packet within the limit, whose source the
session's own Active lease allows. -/
theorem validate_eq_ok {uplink : ValidatedUplink} :
    (f.validate pool session_id packet).2 = .ok uplink ↔
      packet.length ≤ f.maximum_packet_bytes ∧ ∃ source lease, IpPacket packet source ∧
        pool.inner.active.lookup session_id = some lease ∧
        source.LeasedAs pool.config lease.addresses ∧ uplink = ⟨session_id, source, packet⟩ := by
  constructor
  · intro h
    rcases @parse_source_ends f packet with ⟨e, hparse⟩ | ⟨source, hparse⟩
    · rw [validate_unparsed hparse] at h
      contradiction
    obtain ⟨hip, hlen⟩ := parse_source_eq_ok.mp (congrArg Prod.snd hparse)
    cases hactive : pool.inner.active.lookup session_id with
    | none =>
      rw [validate, hparse] at h
      dsimp only at h
      rw [AddressPool.lookup_active, hactive] at h
      contradiction
    | some lease =>
      have hcase := validate_leased hparse hactive
      by_cases hleased : source.LeasedAs pool.config lease.addresses
      · rw [if_pos hleased] at hcase
        rw [hcase] at h
        exact ⟨hlen, source, lease, hip, rfl, hleased, (Outcome.ok.inj h).symm⟩
      · rw [if_neg hleased] at hcase
        obtain ⟨e, he⟩ := hcase
        rw [he] at h
        contradiction
  · rintro ⟨hlen, source, lease, hip, hactive, hleased, rfl⟩
    have hok := parse_source_eq_ok.mpr ⟨hip, hlen⟩
    rcases @parse_source_ends f packet with ⟨e, hparse⟩ | ⟨source', hparse⟩
    · rw [hparse] at hok
      contradiction
    · rw [hparse] at hok
      obtain rfl := Outcome.ok.inj hok
      have hcase := validate_leased hparse hactive
      rw [if_pos hleased] at hcase
      rw [hcase]
      rfl

end Spec

end UplinkForwarder

/-- A source both of two leases allow is an address they share. -/
theorem IpSource.LeasedAs.shares {c : AddressPoolConfig} {a b : AssignedAddresses} {source : IpSource}
    (ha : source.LeasedAs c a) (hb : source.LeasedAs c b) : a.Shares b := by
  cases source with
  | V4 src => exact .inl (ha.1.symm.trans hb.1)
  | V6 src => exact .inr (ha.1.symm.trans hb.1)

/-! ## Over a run of the pool -/

namespace PoolSystem

variable {s : PoolSystem}

/-- The session's packets with this source are sealed, by some forwarder of the pool. -/
def Accepts (s : PoolSystem) (session_id : SessionId) (source : IpSource) : Prop :=
  ∃ f packet uplink, (UplinkForwarder.validate f s.pool session_id packet).2 = .ok uplink ∧
    uplink.source = source

/-- Sessions that hold nothing in common have no source in common. -/
theorem Unique.one_source (h : s.Unique) {session_id other : SessionId} {source : IpSource}
    (hs : s.Accepts session_id source) (ho : s.Accepts other source) : session_id = other := by
  obtain ⟨f, packet, uplink, hs, rfl⟩ := hs
  obtain ⟨f', packet', uplink', ho, hsame⟩ := ho
  obtain ⟨-, source, lease, -, hactive, hleased, rfl⟩ := UplinkForwarder.validate_eq_ok.mp hs
  obtain ⟨-, source', lease', -, hactive', hleased', rfl⟩ := UplinkForwarder.validate_eq_ok.mp ho
  obtain rfl : source' = source := hsame
  by_contra hne
  exact h.addresses hne (.inl ⟨lease, hactive, rfl⟩) (.inl ⟨lease', hactive', rfl⟩)
    (hleased.shares hleased')

/-- **Sources are bound to sessions.** In every state of every run of a pool that started
without leases: no packet makes a call read out of range, what is sealed for a session is a
well-formed packet whose source the session's Active lease allows, and a source is accepted
from one session at most. -/
theorem sources_bound_to_sessions {c : AddressPoolConfig} {pool : AddressPool}
    {labels : List PoolLabel} {events : List PoolEvent} (hstart : StartsEmpty c pool)
    (hrun : exec PoolSystem.step (start pool) labels = some (s, events)) :
    (∀ f session_id packet, (UplinkForwarder.validate f s.pool session_id packet).2 ≠ .panic) ∧
    (∀ f session_id packet uplink,
      (UplinkForwarder.validate f s.pool session_id packet).2 = .ok uplink →
        uplink.session_id = session_id ∧ uplink.packet = packet ∧ IpPacket packet uplink.source ∧
        ∃ lease, s.pool.inner.active.lookup session_id = some lease ∧
          uplink.source.LeasedAs c lease.addresses) ∧
    ∀ session_id other source, s.Accepts session_id source → s.Accepts other source →
      session_id = other := by
  have hinvariant : s.Counted ∧ s.pool.config = c := by
    refine exec_invariant (I := fun s => s.Counted ∧ s.pool.config = c) ?_
      ⟨hstart.counted, hstart.inner_eq.2⟩ hrun
    intro s label s' events h hs
    exact ⟨h.1.step hs, (step_config hs).trans h.2⟩
  obtain ⟨hcounted, hconfig⟩ := hinvariant
  refine ⟨?_, ?_, ?_⟩
  · intro f session_id packet
    exact UplinkForwarder.validate_ne_panic
  · intro f session_id packet uplink h
    obtain ⟨-, source, lease, hip, hactive, hleased, rfl⟩ := UplinkForwarder.validate_eq_ok.mp h
    rw [hconfig] at hleased
    exact ⟨rfl, rfl, hip, lease, hactive, hleased⟩
  · intro session_id other source
    exact hcounted.unique.one_source

namespace Sample

def forwarder : UplinkForwarder := ⟨1500, ⟨0, 0, 0⟩⟩

/-- An empty IPv4 packet from the first address of the pool. -/
def packet : Bytes :=
  [0x45, 0, 0, 20] ++ List.replicate 8 0 ++ [10, 64, 0, 2] ++ [1, 1, 1, 1]

end Sample

open Sample in
/-- Session 1 is admitted and may send from its address, session 2 may not. -/
theorem sources_bound_to_sessions_sample :
    StartsEmpty config recovered ∧ ∃ s events,
      exec PoolSystem.step (start recovered) admissions = some (s, events) ∧
      s.Accepts ⟨1⟩ (.V4 0x0a400002) ∧ ¬ s.Accepts ⟨2⟩ (.V4 0x0a400002) := by
  have hstart : StartsEmpty config recovered := .durable recovered_eq
  have hsealed : (exec PoolSystem.step (start recovered) admissions).map
      (fun r => (forwarder.validate r.1.pool ⟨1⟩ packet).2) =
        some (.ok ⟨⟨1⟩, .V4 0x0a400002, packet⟩) := by
    decide
  obtain ⟨⟨s, events⟩, hrun, hsealed⟩ := Option.map_eq_some_iff.mp hsealed
  have haccepts : s.Accepts ⟨1⟩ (.V4 0x0a400002) := ⟨_, _, _, hsealed, rfl⟩
  refine ⟨hstart, s, events, hrun, haccepts, ?_⟩
  intro hother
  have hsame := (sources_bound_to_sessions hstart hrun).2.2 ⟨1⟩ ⟨2⟩ _ haccepts hother
  exact absurd hsame (by decide)

end PoolSystem

end StreamGuard.Gateway
