/-
The packet classifier of `sg-multipath/src/v2/classifier.rs`.

A packet is cut to the length its own header declares before anything else of it is read,
and what is read after the cut goes into the flow hash. So the proofs go through the cut:
`ipv4_datagram` and `ipv6_datagram` are the two halves of the source that check the header
and slice, and everything behind them is a function of the slice alone. `is_fragment` makes
the same checks again in its own words; that its test of the flag bits is the one of the
classifier is `more_fragments_or_offset`.

An index or a slice outside the packet is a panic.
-/
import StreamGuard.Core.Wire
import Mathlib.Data.Nat.Bitwise

set_option autoImplicit false

namespace StreamGuard.Multipath

open StreamGuard StreamGuard.Lib

/-! ## Outcomes -/

/-- Result of classifying one TUN packet. -/
structure Classification where
  flow_id : FlowId
  traffic_class : TrafficClass
  deriving DecidableEq

inductive ClassifyError where
  | Empty
  | Truncated
  | NotIp
  | InvalidHeader
  deriving DecidableEq

/-- The return a classification comes from: the fragment policy, an extension header that is
not chased, or the transport header. -/
inductive Branch where
  | Fragment
  | Extension
  | Transport
  deriving DecidableEq

/-! ## Flow hash -/

def FNV_OFFSET : U64 := 0xcbf29ce484222325

def FNV_PRIME : U64 := 0x0100000001b3

/-- One byte of FNV-1a; the product wraps. -/
def mix (hash : U64) (byte : UInt8) : U64 := (hash ^^^ Fin.ofNat _ byte.toNat) * FNV_PRIME

/-- What `hash_flow` mixes for the ports. -/
def port_bytes : Option (U16 × U16) → Bytes
  | some (a, b) => U16.to_be_bytes a ++ U16.to_be_bytes b
  | none => [0xF0]

/-- What `hash_flow` mixes for the IPv4 identification. -/
def ip_id_bytes : Option U16 → Bytes
  | some id => U16.to_be_bytes id
  | none => [0x0D]

def hash_flow (head src dst : Bytes) (ports : Option (U16 × U16)) (ip_id : Option U16)
    (fragmented : Bool) : FlowId :=
  ⟨(head ++ [if fragmented then 1 else 0] ++ src ++ dst ++ port_bytes ports ++
    ip_id_bytes ip_id).foldl mix FNV_OFFSET⟩

/-- `FlowId::combine`. -/
def FlowId.combine (flow : FlowId) (value : U32) : FlowId :=
  ⟨(U32.to_be_bytes value).foldl mix flow.get⟩

def class_for_protocol (protocol : UInt8) : TrafficClass :=
  if protocol = 6 then .Bulk
  else if protocol = 17 then .Realtime
  else if protocol = 1 ∨ protocol = 58 then .Interactive
  else .Bulk

/-! ## The classifier -/

/-- `packet.get(i..j)`. -/
def get_range (packet : Bytes) (i j : ℕ) : Option Bytes :=
  if i ≤ j ∧ j ≤ packet.length then some (field packet i j) else none

/-- The two bytes at `i`, `u16::from_be_bytes([packet[i], packet[i + 1]])`. -/
def read_u16 (packet : Bytes) (i : ℕ) : Outcome ClassifyError U16 := do
  let high ← index packet i
  let low ← index packet (i + 1)
  return U16.from_be_bytes [high, low]

/-- `src.copy_from_slice(packet.get(i..j).ok_or(Truncated)?)` into an array of `j - i` bytes. -/
def read_address (packet : Bytes) (i j : ℕ) : Outcome ClassifyError Bytes := do
  let bytes ← Outcome.ofOption .Truncated (get_range packet i j)
  array (j - i) bytes

/-- Reads transport identity only when enough bytes are present. -/
def transport_ports (packet : Bytes) (header_len : ℕ) (protocol icmp_protocol : UInt8) :
    Outcome ClassifyError (Option (U16 × U16)) :=
  if protocol = 6 ∨ protocol = 17 then
    match get_range packet header_len (saturatingAdd header_len 4) with
    | none => .ok none
    | some base => do
      let a ← read_u16 base 0
      let b ← read_u16 base 2
      return some (a, b)
  else if protocol = icmp_protocol then
    match get_range packet header_len (saturatingAdd header_len 6) with
    | none => .ok none
    | some base =>
      if base.length < 6 then .ok none else do
      let id ← read_u16 base 4
      return some (id, 0)
  else .ok none

/-- The header checks of `classify_ipv4`, and the packet sliced to its total length. -/
def ipv4_datagram (packet : Bytes) : Outcome ClassifyError (ℕ × Bytes) :=
  if packet.length < 20 then .err .Truncated else do
  let first ← index packet 0
  let ihl_words := first &&& 0x0F
  if ihl_words < 5 then .err .InvalidHeader else do
  let header_len := saturatingMul ihl_words.toNat 4
  if packet.length < header_len then .err .Truncated else do
  let total_len ← read_u16 packet 2
  if total_len.val < header_len then .err .InvalidHeader else do
  if packet.length < total_len.val then .err .Truncated else do
  let packet ← slice packet 0 total_len.val
  return (header_len, packet)

/-- `classify_ipv4`, with the return it takes. -/
def classify_ipv4_branch (packet : Bytes) : Outcome ClassifyError (Branch × Classification) := do
  let (header_len, packet) ← ipv4_datagram packet
  let protocol ← index packet 9
  let flags_offset ← read_u16 packet 6
  let more_fragments := flags_offset.val &&& 0x2000 ≠ 0
  let fragment_offset := flags_offset.val &&& 0x1FFF
  let identification ← read_u16 packet 4
  let src ← read_address packet 12 16
  let dst ← read_address packet 16 20
  -- never the ports of a fragment, and never a better class than bulk
  if more_fragments ∨ fragment_offset ≠ 0 then
    return (.Fragment, ⟨hash_flow [4, protocol] src dst none (some identification) true, .Bulk⟩)
  else
    let ports ← transport_ports packet header_len protocol 1
    return (.Transport, ⟨hash_flow [4, protocol] src dst ports none false,
      class_for_protocol protocol⟩)

/-- The header checks of `classify_ipv6`, and the packet sliced to its payload. -/
def ipv6_datagram (packet : Bytes) : Outcome ClassifyError Bytes :=
  if packet.length < 40 then .err .Truncated else do
  let payload_len ← read_u16 packet 4
  if packet.length < saturatingAdd payload_len.val 40 then .err .Truncated else
  slice packet 0 (saturatingAdd 40 payload_len.val)

/-- `classify_ipv6`, with the return it takes. -/
def classify_ipv6_branch (packet : Bytes) : Outcome ClassifyError (Branch × Classification) := do
  let packet ← ipv6_datagram packet
  let next_header ← index packet 6
  let src ← read_address packet 8 24
  let dst ← read_address packet 24 40
  if next_header = 44 then
    if packet.length < 48 then .err .Truncated else do
    let a ← index packet 44
    let b ← index packet 45
    let c ← index packet 46
    let d ← index packet 47
    let identification := U32.from_be_bytes [a, b, c, d]
    return (.Fragment,
      ⟨FlowId.combine (hash_flow [6, next_header] src dst none none true) identification, .Bulk⟩)
  else if next_header = 0 ∨ next_header = 43 ∨ next_header = 60 then
    -- the chain of extension headers is not chased
    return (.Extension, ⟨hash_flow [6, next_header] src dst none none false, .Bulk⟩)
  else
    let ports ← transport_ports packet 40 next_header 58
    return (.Transport, ⟨hash_flow [6, next_header] src dst ports none false,
      class_for_protocol next_header⟩)

/-- `classify_packet`, with the return it takes. -/
def classify_branch (packet : Bytes) : Outcome ClassifyError (Branch × Classification) := do
  let first ← Outcome.ofOption .Empty packet.head?
  if first >>> 4 = 4 then classify_ipv4_branch packet
  else if first >>> 4 = 6 then classify_ipv6_branch packet
  else .err .NotIp

/-- Stateless classification without metrics. -/
def classify_packet (packet : Bytes) : Outcome ClassifyError Classification := do
  let r ← classify_branch packet
  return r.2

/-- Is the packet a fragment? A packet whose header does not add up is none. -/
def is_fragment (packet : Bytes) : Outcome ClassifyError Bool :=
  match packet.head? with
  | none => .ok false
  | some first =>
    if first >>> 4 = 4 then
      if packet.length < 20 then .ok false else do
      let first ← index packet 0
      let ihl_words := first &&& 0x0F
      if ihl_words < 5 then .ok false else do
      let header_len := saturatingMul ihl_words.toNat 4
      if packet.length < header_len then .ok false else do
      let total_len ← read_u16 packet 2
      if total_len.val < header_len ∨ packet.length < total_len.val then .ok false else do
      let packet ← slice packet 0 total_len.val
      if packet.length < 8 then .ok false else
      -- `packet.get(i).unwrap_or(&0)`
      let flags_offset := U16.from_be_bytes [packet.getD 6 0, packet.getD 7 0]
      .ok (flags_offset.val &&& 0x3FFF ≠ 0 ∨ flags_offset.val &&& 0x2000 ≠ 0)
    else if first >>> 4 = 6 then
      if packet.length < 40 then .ok false else do
      let payload_len ← read_u16 packet 4
      if packet.length < saturatingAdd payload_len.val 40 then .ok false else
      .ok (7 ≤ packet.length ∧ packet.getD 6 0 = 44)
    else .ok false

/-! ## Reads inside the packet -/

section Reads

variable {p d : Bytes} {i j : ℕ}

/-- The big-endian word at `i`. -/
def word (p : Bytes) (i : ℕ) : U16 := U16.from_be_bytes [p.getD i 0, p.getD (i + 1) 0]

theorem read_u16_eq (hi : i + 1 < p.length) : read_u16 p i = .ok (word p i) := by
  rw [read_u16, index_eq (by omega), Outcome.ok_bind, index_eq hi]
  rfl

theorem read_address_eq (hij : i ≤ j) (hj : j ≤ p.length) :
    read_address p i j = .ok (field p i j) := by
  rw [read_address, get_range, if_pos ⟨hij, hj⟩]
  exact if_pos (field_length hj)

theorem get_range_eq_some {base : Bytes} (h : get_range p i j = some base) :
    base.length = j - i := by
  unfold get_range at h
  split at h
  · next hin =>
    rw [← Option.some.inj h]
    exact field_length hin.2
  · contradiction

/-- The reads of the ports stay inside the range that `get_range` has checked. -/
theorem transport_ports_total (packet : Bytes) (header_len : ℕ) (protocol icmp_protocol : UInt8)
    (hsmall : header_len + 6 ≤ u64Max) :
    ∃ ports, transport_ports packet header_len protocol icmp_protocol = .ok ports := by
  unfold transport_ports
  by_cases hports : protocol = 6 ∨ protocol = 17
  · rw [if_pos hports, saturatingAdd_eq (by omega)]
    cases hbase : get_range packet header_len (header_len + 4) with
    | none => exact ⟨none, rfl⟩
    | some base =>
      have hlen : base.length = 4 := by
        rw [get_range_eq_some hbase]
        omega
      dsimp only
      rw [read_u16_eq (by omega), Outcome.ok_bind, read_u16_eq (by omega)]
      exact ⟨_, rfl⟩
  · rw [if_neg hports]
    by_cases hicmp : protocol = icmp_protocol
    · rw [if_pos hicmp, saturatingAdd_eq hsmall]
      cases hbase : get_range packet header_len (header_len + 6) with
      | none => exact ⟨none, rfl⟩
      | some base =>
        have hlen : base.length = 6 := by
          rw [get_range_eq_some hbase]
          omega
        dsimp only
        rw [if_neg (by omega), read_u16_eq (by omega)]
        exact ⟨_, rfl⟩
    · rw [if_neg hicmp]
      exact ⟨none, rfl⟩

end Reads

/-! ## The declared datagram -/

section Declared

variable {p q d t : Bytes} {header_len : ℕ}

/-- The version nibble. -/
def version (p : Bytes) : UInt8 := p.getD 0 0 >>> 4

/-- The length a packet declares: the IPv4 total length, or 40 and the IPv6 payload length. -/
def declared_len (p : Bytes) : ℕ :=
  if version p = 4 then (word p 2).val else 40 + (word p 4).val

/-- The header length the first byte declares, in bytes. -/
def ipv4_header_len (p : Bytes) : ℕ := saturatingMul (p.getD 0 0 &&& 0x0F).toNat 4

/-- The header and the total length of an IPv4 packet add up. -/
structure Ipv4Declared (p : Bytes) : Prop where
  words : ¬ p.getD 0 0 &&& 0x0F < 5
  header : ipv4_header_len p ≤ (word p 2).val
  total : (word p 2).val ≤ p.length

theorem ipv4_header_len_le (p : Bytes) : ipv4_header_len p ≤ 60 := by
  have hnibble := toNat_low_nibble (p.getD 0 0)
  unfold ipv4_header_len saturatingMul
  omega

theorem Ipv4Declared.twenty (h : Ipv4Declared p) : 20 ≤ ipv4_header_len p := by
  have hwords : ¬ (p.getD 0 0 &&& 0x0F).toNat < 5 := h.words
  have hmax : 60 ≤ u64Max := by decide
  have hnibble := toNat_low_nibble (p.getD 0 0)
  unfold ipv4_header_len saturatingMul
  omega

/-- **The header checks of IPv4** pass on a packet whose header adds up, and what goes on is the
packet cut to its total length. -/
theorem ipv4_datagram_eq_ok :
    ipv4_datagram p = .ok (header_len, d) ↔
      Ipv4Declared p ∧ header_len = ipv4_header_len p ∧ d = p.take (word p 2).val := by
  by_cases hshort : p.length < 20
  · rw [ipv4_datagram, if_pos hshort]
    constructor
    · intro h
      contradiction
    · rintro ⟨hdeclared, -, -⟩
      have := hdeclared.twenty.trans (hdeclared.header.trans hdeclared.total)
      omega
  · rw [ipv4_datagram, if_neg hshort, index_eq (by omega), Outcome.ok_bind]
    dsimp only
    rw [Outcome.ite_err_eq_ok, Outcome.ite_err_eq_ok, read_u16_eq (by omega), Outcome.ok_bind,
      Outcome.ite_err_eq_ok, Outcome.ite_err_eq_ok]
    constructor
    · rintro ⟨hwords, -, hheader, htotal, h⟩
      rw [slice_eq (Nat.zero_le _) (by omega), Outcome.ok_bind, Outcome.pure_eq_ok] at h
      obtain ⟨rfl, rfl⟩ := Prod.mk.inj h
      exact ⟨⟨hwords, Nat.not_lt.mp hheader, Nat.not_lt.mp htotal⟩, rfl, rfl⟩
    · rintro ⟨hdeclared, rfl, rfl⟩
      have hheader : ¬ (word p 2).val < ipv4_header_len p := Nat.not_lt.mpr hdeclared.header
      have htotal := hdeclared.total
      refine ⟨hdeclared.words, Nat.not_lt.mpr (hdeclared.header.trans htotal), hheader,
        Nat.not_lt.mpr htotal, ?_⟩
      rw [slice_eq (Nat.zero_le _) htotal]
      rfl

/-- **The header checks of IPv6.** -/
theorem ipv6_datagram_eq_ok :
    ipv6_datagram p = .ok d ↔
      40 + (word p 4).val ≤ p.length ∧ d = p.take (40 + (word p 4).val) := by
  have hword : (word p 4).val < 2 ^ 16 := (word p 4).isLt
  have hmax : 2 ^ 16 + 40 ≤ u64Max := by decide
  by_cases hshort : p.length < 40
  · rw [ipv6_datagram, if_pos hshort]
    constructor
    · intro h
      contradiction
    · rintro ⟨hlen, -⟩
      omega
  · rw [ipv6_datagram, if_neg hshort, read_u16_eq (by omega), Outcome.ok_bind,
      Outcome.ite_err_eq_ok, saturatingAdd_eq (by omega), saturatingAdd_eq (by omega)]
    constructor
    · rintro ⟨hlen, h⟩
      rw [slice_eq (Nat.zero_le _) (by omega)] at h
      exact ⟨by omega, (Outcome.ok.inj h).symm⟩
    · rintro ⟨hlen, rfl⟩
      refine ⟨by omega, ?_⟩
      rw [slice_eq (Nat.zero_le _) hlen]
      rfl

/-! ### Reads behind the cut -/

theorem getD_of_take {n i : ℕ} (h : q.take n = p.take n) (hi : i < n) : q.getD i 0 = p.getD i 0 := by
  rw [← getD_take hi, h, getD_take hi]

theorem word_of_take {n i : ℕ} (h : q.take n = p.take n) (hi : i + 1 < n) : word q i = word p i := by
  unfold word
  rw [getD_of_take h (by omega), getD_of_take h hi]

theorem word_take {n i : ℕ} (hi : i + 1 < n) : word (p.take n) i = word p i := by
  unfold word
  rw [getD_take (by omega), getD_take hi]

/-- The flag bits that make an IPv4 packet a fragment: MF, or an offset. -/
def Ipv4Fragment (p : Bytes) : Prop :=
  (word p 6).val &&& 0x2000 ≠ 0 ∨ (word p 6).val &&& 0x1FFF ≠ 0

instance : DecidablePred Ipv4Fragment := fun p =>
  inferInstanceAs (Decidable ((word p 6).val &&& 0x2000 ≠ 0 ∨ (word p 6).val &&& 0x1FFF ≠ 0))

/-- **The two tests of the flag bits agree.** -/
theorem more_fragments_or_offset (x : ℕ) :
    (x &&& 0x3FFF ≠ 0 ∨ x &&& 0x2000 ≠ 0) ↔ (x &&& 0x2000 ≠ 0 ∨ x &&& 0x1FFF ≠ 0) := by
  have hboth : x &&& 0x3FFF = x % 2 ^ 14 := Nat.and_two_pow_sub_one_eq_mod x 14
  have hoffset : x &&& 0x1FFF = x % 2 ^ 13 := Nat.and_two_pow_sub_one_eq_mod x 13
  have hmore : x &&& 0x2000 = (x.testBit 13).toNat * 2 ^ 13 := Nat.and_two_pow x 13
  have hbit : (x.testBit 13).toNat = x / 2 ^ 13 % 2 := Nat.toNat_testBit x 13
  rw [hboth, hoffset, hmore, hbit]
  omega

/-- What the classifier makes of an IPv4 fragment. -/
def ipv4_fragment_class (p : Bytes) : Classification :=
  ⟨hash_flow [4, p.getD 9 0] (field p 12 16) (field p 16 20) none (some (word p 4)) true, .Bulk⟩

/-- **IPv4 behind the header checks**: a fragment is classified by its identity alone, and
another packet takes the other return. -/
theorem classify_ipv4_branch_eq (h : Ipv4Declared p) :
    (Ipv4Fragment p → classify_ipv4_branch p = .ok (.Fragment, ipv4_fragment_class p)) ∧
      (¬ Ipv4Fragment p → ∃ c, classify_ipv4_branch p = .ok (.Transport, c)) := by
  have hcut := h.twenty.trans h.header
  have hlen : (p.take (word p 2).val).length = (word p 2).val := List.length_take_of_le h.total
  have hsmall := ipv4_header_len_le p
  have hmax : 66 ≤ u64Max := by decide
  rw [classify_ipv4_branch, ipv4_datagram_eq_ok.mpr ⟨h, rfl, rfl⟩, Outcome.ok_bind]
  dsimp only
  rw [index_eq (by omega), Outcome.ok_bind, read_u16_eq (by omega), Outcome.ok_bind,
    read_u16_eq (by omega), Outcome.ok_bind, read_address_eq (by omega) (by omega), Outcome.ok_bind,
    read_address_eq (by omega) (by omega), Outcome.ok_bind, word_take (by omega),
    word_take (by omega), getD_take (by omega), field_take (by omega), field_take (by omega)]
  constructor
  · intro hfragment
    unfold Ipv4Fragment at hfragment
    rw [if_pos hfragment]
    rfl
  · intro hwhole
    unfold Ipv4Fragment at hwhole
    obtain ⟨ports, hports⟩ :=
      transport_ports_total (p.take (word p 2).val) (ipv4_header_len p) (p.getD 9 0) 1 (by omega)
    rw [if_neg hwhole, hports]
    exact ⟨_, rfl⟩

/-- The big-endian word of four bytes at `i`. -/
def long_word (p : Bytes) (i : ℕ) : U32 :=
  U32.from_be_bytes [p.getD i 0, p.getD (i + 1) 0, p.getD (i + 2) 0, p.getD (i + 3) 0]

/-- What the classifier makes of an IPv6 packet whose next header is the fragment header. -/
def ipv6_fragment_class (p : Bytes) : Classification :=
  ⟨FlowId.combine (hash_flow [6, 44] (field p 8 24) (field p 24 40) none none true)
    (long_word p 44), .Bulk⟩

/-- **IPv6 behind the header checks**: a fragment needs room for its header and is then
classified by its identity alone; another packet takes another return. -/
theorem classify_ipv6_branch_eq (h : 40 + (word p 4).val ≤ p.length) :
    (p.getD 6 0 = 44 → classify_ipv6_branch p =
        if 40 + (word p 4).val < 48 then .err .Truncated
        else .ok (.Fragment, ipv6_fragment_class p)) ∧
      (p.getD 6 0 ≠ 44 →
        ∃ branch c, classify_ipv6_branch p = .ok (branch, c) ∧ branch ≠ .Fragment) := by
  have hlen : (p.take (40 + (word p 4).val)).length = 40 + (word p 4).val :=
    List.length_take_of_le h
  have hmax : 46 ≤ u64Max := by decide
  rw [classify_ipv6_branch, ipv6_datagram_eq_ok.mpr ⟨h, rfl⟩, Outcome.ok_bind,
    index_eq (by omega), Outcome.ok_bind, read_address_eq (by omega) (by omega), Outcome.ok_bind,
    read_address_eq (by omega) (by omega), Outcome.ok_bind, getD_take (by omega),
    field_take (by omega), field_take (by omega), hlen]
  constructor
  · intro hnext
    rw [if_pos hnext, hnext]
    by_cases hroom : 40 + (word p 4).val < 48
    · rw [if_pos hroom, if_pos hroom]
    · rw [if_neg hroom, if_neg hroom, index_eq (by omega), Outcome.ok_bind, index_eq (by omega),
        Outcome.ok_bind, index_eq (by omega), Outcome.ok_bind, index_eq (by omega), Outcome.ok_bind,
        getD_take (by omega), getD_take (by omega), getD_take (by omega), getD_take (by omega)]
      rfl
  · intro hnext
    rw [if_neg hnext]
    by_cases hextension : p.getD 6 0 = 0 ∨ p.getD 6 0 = 43 ∨ p.getD 6 0 = 60
    · rw [if_pos hextension]
      exact ⟨_, _, rfl, by decide⟩
    · obtain ⟨ports, hports⟩ :=
        transport_ports_total (p.take (40 + (word p 4).val)) 40 (p.getD 6 0) 58 (by omega)
      rw [if_neg hextension, hports]
      exact ⟨_, _, rfl, by decide⟩

end Declared

/-! ## Packets that are accepted -/

section Accepted

variable {p q : Bytes} {branch : Branch} {c : Classification}

theorem classify_branch_eq (h : 0 < p.length) :
    classify_branch p =
      if version p = 4 then classify_ipv4_branch p
      else if version p = 6 then classify_ipv6_branch p
      else .err .NotIp := by
  cases p with
  | nil => contradiction
  | cons first rest => rfl

/-- **The accepted packets**: by version, the headers that add up. -/
inductive Accepted (p : Bytes) (branch : Branch) : Prop where
  | v4 (hversion : version p = 4) (hdeclared : Ipv4Declared p)
      (hbranch : Ipv4Fragment p ↔ branch = .Fragment)
  | v6 (hversion : version p = 6) (hdeclared : 40 + (word p 4).val ≤ p.length)
      (hroom : p.getD 6 0 = 44 → 48 ≤ 40 + (word p 4).val)
      (hbranch : p.getD 6 0 = 44 ↔ branch = .Fragment)

theorem accepted_of_classify_branch (h : classify_branch p = .ok (branch, c)) :
    Accepted p branch := by
  cases p with
  | nil => contradiction
  | cons first rest =>
    rw [classify_branch_eq (by simp)] at h
    by_cases hv4 : version (first :: rest) = 4
    · rw [if_pos hv4] at h
      obtain ⟨⟨header_len, d⟩, hd, -⟩ := Outcome.bind_eq_ok.mp h
      obtain ⟨hdeclared, -, -⟩ := ipv4_datagram_eq_ok.mp hd
      obtain ⟨hfragment, hwhole⟩ := classify_ipv4_branch_eq hdeclared
      refine .v4 hv4 hdeclared ?_
      by_cases hbits : Ipv4Fragment (first :: rest)
      · rw [hfragment hbits] at h
        obtain ⟨rfl, -⟩ := Prod.mk.inj (Outcome.ok.inj h)
        exact ⟨fun _ => rfl, fun _ => hbits⟩
      · obtain ⟨c', hc'⟩ := hwhole hbits
        rw [hc'] at h
        obtain ⟨rfl, -⟩ := Prod.mk.inj (Outcome.ok.inj h)
        simp [hbits]
    · rw [if_neg hv4] at h
      by_cases hv6 : version (first :: rest) = 6
      · rw [if_pos hv6] at h
        obtain ⟨d, hd, -⟩ := Outcome.bind_eq_ok.mp h
        obtain ⟨hdeclared, -⟩ := ipv6_datagram_eq_ok.mp hd
        obtain ⟨hfragment, hwhole⟩ := classify_ipv6_branch_eq hdeclared
        by_cases hnext : (first :: rest).getD 6 0 = 44
        · rw [hfragment hnext, Outcome.ite_err_eq_ok] at h
          obtain ⟨hroom, h⟩ := h
          obtain ⟨rfl, -⟩ := Prod.mk.inj (Outcome.ok.inj h)
          exact .v6 hv6 hdeclared (fun _ => Nat.not_lt.mp hroom) ⟨fun _ => rfl, fun _ => hnext⟩
        · obtain ⟨branch', c', hc', hbranch⟩ := hwhole hnext
          rw [hc'] at h
          obtain ⟨rfl, -⟩ := Prod.mk.inj (Outcome.ok.inj h)
          exact .v6 hv6 hdeclared (fun h => absurd h hnext)
            ⟨fun h => absurd h hnext, fun h => absurd h hbranch⟩
      · rw [if_neg hv6] at h
        contradiction

/-! ## `is_fragment` -/

/-- The IPv4 half of `is_fragment`: cutting the packet does not change the flag bits. -/
theorem ipv4_flags (htwenty : 20 ≤ ipv4_header_len p) (hheader : ipv4_header_len p ≤ (word p 2).val)
    (htotal : (word p 2).val ≤ p.length) :
    (do
      let packet ← slice p 0 (word p 2).val
      if packet.length < 8 then .ok false else
      let flags_offset := U16.from_be_bytes [packet.getD 6 0, packet.getD 7 0]
      .ok (flags_offset.val &&& 0x3FFF ≠ 0 ∨ flags_offset.val &&& 0x2000 ≠ 0) :
        Outcome ClassifyError Bool) = .ok (decide (Ipv4Fragment p)) := by
  have hlen : (p.take (word p 2).val).length = (word p 2).val := List.length_take_of_le htotal
  rw [slice_eq (Nat.zero_le _) htotal, Outcome.ok_bind, field_zero, if_neg (by omega)]
  dsimp only
  rw [getD_take (by omega), getD_take (by omega)]
  exact congrArg Outcome.ok (decide_eq_decide.mpr (more_fragments_or_offset _))

/-- `is_fragment` on a packet with a first byte, each read replaced by what it gives. -/
theorem is_fragment_eq (h : 0 < p.length) :
    is_fragment p =
      if version p = 4 then
        if p.length < 20 ∨ p.getD 0 0 &&& 0x0F < 5 ∨ p.length < ipv4_header_len p ∨
            (word p 2).val < ipv4_header_len p ∨ p.length < (word p 2).val then .ok false
        else .ok (decide (Ipv4Fragment p))
      else if version p = 6 then
        if p.length < 40 + (word p 4).val then .ok false else .ok (decide (p.getD 6 0 = 44))
      else .ok false := by
  have hword : (word p 4).val < 2 ^ 16 := (word p 4).isLt
  have hmax : 2 ^ 16 + 40 ≤ u64Max := by decide
  obtain ⟨first, rest, rfl⟩ := List.exists_cons_of_length_pos h
  generalize hp : first :: rest = p at *
  have hhead : p.head? = some first := by
    rw [← hp]
    rfl
  have hfirst : p.getD 0 0 = first := by
    rw [← hp]
    rfl
  rw [is_fragment, hhead]
  dsimp only
  rw [version, hfirst]
  by_cases hv4 : first >>> 4 = 4
  · rw [if_pos hv4, if_pos hv4]
    by_cases hshort : p.length < 20
    · rw [if_pos hshort, if_pos (.inl hshort)]
    rw [if_neg hshort, index_eq h, Outcome.ok_bind, hfirst]
    by_cases hwords : first &&& 0x0F < 5
    · rw [if_pos hwords, if_pos (.inr (.inl hwords))]
    have hheader_len : saturatingMul (first &&& 0x0F).toNat 4 = ipv4_header_len p := by
      rw [ipv4_header_len, hfirst]
    rw [if_neg hwords, hheader_len]
    by_cases hheader : p.length < ipv4_header_len p
    · rw [if_pos hheader, if_pos (.inr (.inr (.inl hheader)))]
    rw [if_neg hheader, read_u16_eq (by omega), Outcome.ok_bind]
    by_cases htotal : (word p 2).val < ipv4_header_len p ∨ p.length < (word p 2).val
    · rw [if_pos htotal, if_pos (.inr (.inr (.inr htotal)))]
    have hdeclared : Ipv4Declared p := ⟨by rwa [hfirst], by omega, by omega⟩
    rw [if_neg htotal, if_neg (by simp [hshort, hwords, hheader, htotal]),
      ← ipv4_flags hdeclared.twenty hdeclared.header hdeclared.total]
  · rw [if_neg hv4, if_neg hv4]
    by_cases hv6 : first >>> 4 = 6
    · rw [if_pos hv6, if_pos hv6]
      by_cases hshort : p.length < 40
      · rw [if_pos hshort, if_pos (by omega)]
      rw [if_neg hshort, read_u16_eq (by omega), Outcome.ok_bind, saturatingAdd_eq (by omega),
        Nat.add_comm _ 40]
      by_cases hlen : p.length < 40 + (word p 4).val
      · rw [if_pos hlen, if_pos hlen]
      rw [if_neg hlen, if_neg hlen]
      have hseven : 7 ≤ p.length := by omega
      simp only [hseven, true_and]
    · rw [if_neg hv6, if_neg hv6]

theorem is_fragment_of_accepted (h : Accepted p branch) :
    is_fragment p = .ok (decide (branch = .Fragment)) := by
  cases h with
  | v4 hversion hdeclared hbranch =>
    have htwenty := hdeclared.twenty
    have hheader := hdeclared.header
    have htotal := hdeclared.total
    have hwords := hdeclared.words
    have hadds : ¬ (p.length < 20 ∨ p.getD 0 0 &&& 0x0F < 5 ∨ p.length < ipv4_header_len p ∨
        (word p 2).val < ipv4_header_len p ∨ p.length < (word p 2).val) := by
      simp only [hwords, false_or]
      omega
    rw [is_fragment_eq (by omega), if_pos hversion, if_neg hadds]
    simp only [hbranch]
  | v6 hversion hdeclared hroom hbranch =>
    have hv4 : version p ≠ 4 := by
      rw [hversion]
      decide
    rw [is_fragment_eq (by omega), if_neg hv4, if_pos hversion, if_neg (by omega)]
    simp only [hbranch]

/-! ## Packets that agree up to the declared length -/

/-- **An accepted packet is determined by its declared datagram**: whatever agrees with it up to
the declared length is accepted from the same return. -/
theorem Accepted.agree (h : Accepted p branch) (hlen : declared_len p ≤ q.length)
    (htake : q.take (declared_len p) = p.take (declared_len p)) :
    Accepted q branch ∧ classify_branch q = classify_branch p := by
  cases h with
  | v4 hversion hdeclared hbranch =>
    have hdl : declared_len p = (word p 2).val := if_pos hversion
    have htwenty := hdeclared.twenty
    have hheader := hdeclared.header
    have htotal := hdeclared.total
    rw [hdl] at hlen htake
    have hzero : q.getD 0 0 = p.getD 0 0 := getD_of_take htake (by omega)
    have htwo : word q 2 = word p 2 := word_of_take htake (by omega)
    have hsix : word q 6 = word p 6 := word_of_take htake (by omega)
    have hheader_len : ipv4_header_len q = ipv4_header_len p := by
      rw [ipv4_header_len, hzero, ipv4_header_len]
    have hqversion : version q = 4 := by rwa [version, hzero]
    have hq : Ipv4Declared q := ⟨by rw [hzero]; exact hdeclared.words,
      by rw [hheader_len, htwo]; exact hheader, by rw [htwo]; exact hlen⟩
    have hcut : ipv4_datagram q = ipv4_datagram p := by
      rw [ipv4_datagram_eq_ok.mpr ⟨hdeclared, rfl, rfl⟩, ipv4_datagram_eq_ok]
      exact ⟨hq, hheader_len.symm, by rw [htwo, htake]⟩
    refine ⟨.v4 hqversion hq ?_, ?_⟩
    · rw [Ipv4Fragment, hsix]
      exact hbranch
    · rw [classify_branch_eq (by omega), classify_branch_eq (by omega), if_pos hqversion,
        if_pos hversion, classify_ipv4_branch, hcut, classify_ipv4_branch]
  | v6 hversion hdeclared hroom hbranch =>
    have hv4 : version p ≠ 4 := by
      rw [hversion]
      decide
    have hdl : declared_len p = 40 + (word p 4).val := if_neg hv4
    rw [hdl] at hlen htake
    have hzero : q.getD 0 0 = p.getD 0 0 := getD_of_take htake (by omega)
    have hfour : word q 4 = word p 4 := word_of_take htake (by omega)
    have hsix : q.getD 6 0 = p.getD 6 0 := getD_of_take htake (by omega)
    have hqversion : version q = version p := by rw [version, hzero, version]
    have hcut : ipv6_datagram q = ipv6_datagram p := by
      rw [ipv6_datagram_eq_ok.mpr ⟨hdeclared, rfl⟩, ipv6_datagram_eq_ok, hfour]
      exact ⟨hlen, htake.symm⟩
    refine ⟨.v6 (hqversion.trans hversion) (by rw [hfour]; exact hlen) ?_ ?_, ?_⟩
    · rw [hsix, hfour]
      exact hroom
    · rw [hsix]
      exact hbranch
    · rw [classify_branch_eq (by omega), classify_branch_eq (by omega), hqversion, if_neg hv4,
        if_neg hv4, classify_ipv6_branch, hcut, classify_ipv6_branch]

/-- The declared length is inside the packet. -/
theorem Accepted.declared_len_le (h : Accepted p branch) : declared_len p ≤ p.length := by
  cases h with
  | v4 hversion hdeclared _ =>
    rw [declared_len, if_pos hversion]
    exact hdeclared.total
  | v6 hversion hdeclared _ _ =>
    rw [declared_len, if_neg (by rw [hversion]; decide)]
    exact hdeclared

theorem classify_packet_eq_ok :
    classify_packet p = .ok c ↔ ∃ branch, classify_branch p = .ok (branch, c) := by
  rw [classify_packet, Outcome.bind_eq_ok]
  constructor
  · rintro ⟨⟨branch, c'⟩, hr, hc⟩
    obtain rfl := Outcome.pure_eq_ok.mp hc
    exact ⟨branch, hr⟩
  · rintro ⟨branch, hr⟩
    exact ⟨_, hr, rfl⟩

/-- An accepted IPv4 fragment is classified by its identity. -/
theorem ipv4_fragment_of_accepted (hversion : version p = 4) (hbits : Ipv4Fragment p)
    (h : classify_branch p = .ok (branch, c)) : c = ipv4_fragment_class p := by
  cases accepted_of_classify_branch h with
  | v4 _ hdeclared _ =>
    have htwenty := hdeclared.twenty.trans (hdeclared.header.trans hdeclared.total)
    rw [classify_branch_eq (by omega), if_pos hversion,
      (classify_ipv4_branch_eq hdeclared).1 hbits] at h
    exact (Prod.mk.inj (Outcome.ok.inj h)).2.symm
  | v6 hv6 _ _ _ =>
    rw [hversion] at hv6
    contradiction

/-- An accepted IPv6 packet with a fragment header is classified by its identity. -/
theorem ipv6_fragment_of_accepted (hversion : version p = 6) (hnext : p.getD 6 0 = 44)
    (h : classify_branch p = .ok (branch, c)) : c = ipv6_fragment_class p := by
  cases accepted_of_classify_branch h with
  | v4 hv4 _ _ =>
    rw [hversion] at hv4
    contradiction
  | v6 _ hdeclared hroom _ =>
    have hfits := hroom hnext
    rw [classify_branch_eq (by omega), if_neg (by rw [hversion]; decide), if_pos hversion,
      (classify_ipv6_branch_eq hdeclared).1 hnext, if_neg (by omega)] at h
    exact (Prod.mk.inj (Outcome.ok.inj h)).2.symm

/-! ## No read leaves the packet -/

theorem ipv4_datagram_ne_panic (p : Bytes) : ipv4_datagram p ≠ .panic := by
  rw [ipv4_datagram]
  refine Outcome.ite_err_ne_panic fun hlen => ?_
  rw [index_eq (by omega), Outcome.ok_bind]
  refine Outcome.ite_err_ne_panic fun _ => ?_
  refine Outcome.ite_err_ne_panic fun _ => ?_
  rw [read_u16_eq (by omega), Outcome.ok_bind]
  refine Outcome.ite_err_ne_panic fun _ => ?_
  refine Outcome.ite_err_ne_panic fun htotal => ?_
  rw [slice_eq (Nat.zero_le _) (Nat.not_lt.mp htotal)]
  intro h
  contradiction

theorem ipv6_datagram_ne_panic (p : Bytes) : ipv6_datagram p ≠ .panic := by
  have hword : (word p 4).val < 2 ^ 16 := (word p 4).isLt
  have hmax : 2 ^ 16 + 40 ≤ u64Max := by decide
  rw [ipv6_datagram]
  refine Outcome.ite_err_ne_panic fun hlen => ?_
  rw [read_u16_eq (by omega), Outcome.ok_bind, saturatingAdd_eq (by omega),
    saturatingAdd_eq (by omega)]
  refine Outcome.ite_err_ne_panic fun htotal => ?_
  exact slice_ne_panic (Nat.zero_le _) (by omega)

theorem classify_packet_ne_panic (p : Bytes) : classify_packet p ≠ .panic := by
  refine Outcome.bind_ne_panic ?_ (fun _ _ h => by contradiction)
  cases hp : p with
  | nil =>
    intro h
    contradiction
  | cons first rest =>
    rw [← hp, classify_branch_eq (by simp [hp])]
    split_ifs
    · cases hd : ipv4_datagram p with
      | ok r =>
        obtain ⟨hdeclared, -, -⟩ := ipv4_datagram_eq_ok.mp hd
        obtain ⟨hfragment, hwhole⟩ := classify_ipv4_branch_eq hdeclared
        by_cases hbits : Ipv4Fragment p
        · rw [hfragment hbits]
          intro h
          contradiction
        · obtain ⟨c, hc⟩ := hwhole hbits
          rw [hc]
          intro h
          contradiction
      | err e =>
        rw [classify_ipv4_branch, hd]
        intro h
        contradiction
      | panic => exact absurd hd (ipv4_datagram_ne_panic p)
    · cases hd : ipv6_datagram p with
      | ok d =>
        obtain ⟨hdeclared, -⟩ := ipv6_datagram_eq_ok.mp hd
        obtain ⟨hfragment, hwhole⟩ := classify_ipv6_branch_eq hdeclared
        by_cases hnext : p.getD 6 0 = 44
        · rw [hfragment hnext]
          refine Outcome.ite_err_ne_panic fun _ h => ?_
          contradiction
        · obtain ⟨branch, c, hc, -⟩ := hwhole hnext
          rw [hc]
          intro h
          contradiction
      | err e =>
        rw [classify_ipv6_branch, hd]
        intro h
        contradiction
      | panic => exact absurd hd (ipv6_datagram_ne_panic p)
    · intro h
      contradiction

/-- `is_fragment` always answers. -/
theorem is_fragment_total (p : Bytes) : ∃ answer, is_fragment p = .ok answer := by
  by_cases h : 0 < p.length
  · rw [is_fragment_eq h]
    split_ifs <;> exact ⟨_, rfl⟩
  · obtain rfl : p = [] := List.length_eq_zero_iff.mp (by omega)
    exact ⟨false, rfl⟩

end Accepted

/-! ## Main results -/

/-- **Classification sees only the declared datagram.** Cutting an accepted packet to its
declared length, and putting anything behind the cut, changes neither its classification nor
the fragment test; and no read of the two functions leaves the packet, whatever it holds. -/
theorem classify_declared {p : Bytes} {c : Classification} (h : classify_packet p = .ok c) :
    declared_len p ≤ p.length ∧
      classify_packet (p.take (declared_len p)) = .ok c ∧
      is_fragment (p.take (declared_len p)) = is_fragment p ∧
      (∀ t, classify_packet (p.take (declared_len p) ++ t) = .ok c ∧
        is_fragment (p.take (declared_len p) ++ t) = is_fragment p) ∧
      ∀ q, classify_packet q ≠ .panic ∧ is_fragment q ≠ .panic := by
  obtain ⟨branch, hbranch⟩ := classify_packet_eq_ok.mp h
  have haccepted := accepted_of_classify_branch hbranch
  have hle := haccepted.declared_len_le
  have hlen : (p.take (declared_len p)).length = declared_len p := List.length_take_of_le hle
  have hsame : ∀ t, classify_packet (p.take (declared_len p) ++ t) = .ok c ∧
      is_fragment (p.take (declared_len p) ++ t) = is_fragment p := by
    intro t
    obtain ⟨hq, heq⟩ := haccepted.agree (q := p.take (declared_len p) ++ t)
      (by rw [List.length_append]; omega) (List.take_left' hlen)
    refine ⟨classify_packet_eq_ok.mpr ⟨branch, heq.trans hbranch⟩, ?_⟩
    rw [is_fragment_of_accepted hq, is_fragment_of_accepted haccepted]
  have hcut := hsame []
  rw [List.append_nil] at hcut
  refine ⟨hle, hcut.1, hcut.2, hsame, ?_⟩
  intro q
  obtain ⟨answer, hanswer⟩ := is_fragment_total q
  refine ⟨classify_packet_ne_panic q, ?_⟩
  rw [hanswer]
  intro hpanic
  contradiction

/-- The identity of an IPv4 datagram that is sent in fragments. -/
structure SameIpv4Datagram (p q : Bytes) : Prop where
  protocol : p.getD 9 0 = q.getD 9 0
  source : field p 12 16 = field q 12 16
  destination : field p 16 20 = field q 16 20
  identification : word p 4 = word q 4

/-- The identity of an IPv6 datagram that is sent in fragments. -/
structure SameIpv6Datagram (p q : Bytes) : Prop where
  source : field p 8 24 = field q 8 24
  destination : field p 24 40 = field q 24 40
  identification : long_word p 44 = long_word q 44

/-- **All fragments of a datagram share one flow**, of class `Bulk`, and the fragment test is
true of exactly the packets that the classifier returns from its fragment branch. -/
theorem fragments_share_flow {p q : Bytes} {c c' : Classification} (hp : classify_packet p = .ok c)
    (hq : classify_packet q = .ok c') :
    (version p = 4 → version q = 4 → Ipv4Fragment p → Ipv4Fragment q → SameIpv4Datagram p q →
      c = c' ∧ c.traffic_class = .Bulk) ∧
    (version p = 6 → version q = 6 → p.getD 6 0 = 44 → q.getD 6 0 = 44 → SameIpv6Datagram p q →
      c = c' ∧ c.traffic_class = .Bulk) ∧
    (is_fragment p = .ok true ↔ classify_branch p = .ok (.Fragment, c)) := by
  obtain ⟨branch, hbranch⟩ := classify_packet_eq_ok.mp hp
  obtain ⟨branch', hbranch'⟩ := classify_packet_eq_ok.mp hq
  refine ⟨?_, ?_, ?_⟩
  · intro hv hv' hbits hbits' hsame
    rw [ipv4_fragment_of_accepted hv hbits hbranch, ipv4_fragment_of_accepted hv' hbits' hbranch',
      ipv4_fragment_class, ipv4_fragment_class, hsame.protocol, hsame.source, hsame.destination,
      hsame.identification]
    exact ⟨rfl, rfl⟩
  · intro hv hv' hnext hnext' hsame
    rw [ipv6_fragment_of_accepted hv hnext hbranch, ipv6_fragment_of_accepted hv' hnext' hbranch',
      ipv6_fragment_class, ipv6_fragment_class, hsame.source, hsame.destination,
      hsame.identification]
    exact ⟨rfl, rfl⟩
  · rw [is_fragment_of_accepted (accepted_of_classify_branch hbranch), hbranch]
    simp

/-! ### Two fragments of one datagram -/

namespace ClassifierSample

/-- Fragment at `offset` units of a UDP datagram with identification 7, `more` its MF byte. -/
def fragment (more offset ttl : UInt8) (payload : Bytes) : Bytes :=
  [0x45, 0, 0, UInt8.ofNat (20 + payload.length), 0, 7, more, offset, ttl, 17, 0, 0,
    10, 0, 0, 1, 10, 0, 0, 2] ++ payload

/-- The first fragment, which holds the ports, with a trailer behind the datagram. -/
def initial : Bytes := fragment 0x20 0 64 [0x1F, 0x90, 0, 53] ++ [0xAA, 0xBB]

def last : Bytes := fragment 0 1 9 [1, 2, 3]

end ClassifierSample

open ClassifierSample in
/-- The trailer of `initial` is not seen. -/
theorem classify_declared_initial :
    ∃ c, classify_packet initial = .ok c ∧ declared_len initial = 24 ∧
      ∀ t, classify_packet (initial.take 24 ++ t) = .ok c := by
  have h : classify_packet initial = .ok (ipv4_fragment_class initial) := by
    decide
  have hlen : declared_len initial = 24 := by
    decide
  obtain ⟨-, -, -, htail, -⟩ := classify_declared h
  rw [hlen] at htail
  exact ⟨_, h, hlen, fun t => (htail t).1⟩

open ClassifierSample in
/-- The ports, the offset and the TTL tell the two fragments apart, their flow does not. -/
theorem fragments_share_flow_initial_last :
    ∃ c, classify_packet initial = .ok c ∧ classify_packet last = .ok c ∧
      c.traffic_class = .Bulk := by
  have hp : classify_packet initial = .ok (ipv4_fragment_class initial) := by
    decide
  have hq : classify_packet last = .ok (ipv4_fragment_class last) := by
    decide
  obtain ⟨hv4, -, -⟩ := fragments_share_flow hp hq
  have hsame : SameIpv4Datagram initial last := by
    constructor <;> decide
  obtain ⟨heq, hbulk⟩ := hv4 (by decide) (by decide) (by decide)
    (by decide) hsame
  exact ⟨_, hp, heq ▸ hq, hbulk⟩

end StreamGuard.Multipath
