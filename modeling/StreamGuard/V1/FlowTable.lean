/-
The flow table of the V1 gateway, `parse_flow` and `reverse_key` of
`streamguard-gateway/src/tunnel.rs`.

A packet that the gateway writes to its TUN is remembered under a key of addresses,
protocol and one 16-bit field; a packet that comes back is looked up under its own
key with the addresses swapped. `Flow` is what the table is for: the five-tuple of a
packet, with both ports. A reply carries the reverse of it, so the key it is looked
up under has the *destination* port of the request in the field where the request
left its source port. For ICMP the two are one identifier, and the reply comes back;
for the rest the main result says to which session it goes.
-/
import StreamGuard.Core.V1
import StreamGuard.Core.Wire
import StreamGuard.Lib.AssocMap

set_option autoImplicit false

namespace StreamGuard.V1

open StreamGuard StreamGuard.Lib

/-! ## The model -/

structure FlowKey where
  bytes : Bytes
  sized : bytes.length = 11
  deriving DecidableEq

/-- `(first & 0x0f) * 4`: the length of the header. -/
def header_len (first : UInt8) : ℕ := (first &&& 0x0f).toNat * 4

/-- Extracts the flow key from an IPv4 packet. Every index is in range. -/
def parse_flow (packet : Bytes) : Option FlowKey :=
  if hmin : packet.length < 20 then none
  else if packet[0] >>> 4 ≠ 4 then none
  else if hports : packet.length < header_len packet[0] + 4 then none
  else
    let proto := packet[9]
    let id : Option U16 :=
      if proto = 1 then
        -- the identifier of an echo
        if hecho : packet.length < header_len packet[0] + 6 then none
        else some (U16.from_be_bytes
          [packet[header_len packet[0] + 4], packet[header_len packet[0] + 5]])
      else
        -- the source port
        some (U16.from_be_bytes [packet[header_len packet[0]], packet[header_len packet[0] + 1]])
    id.map (fun id =>
      ⟨[packet[12], packet[13], packet[14], packet[15]] ++
        [packet[16], packet[17], packet[18], packet[19]] ++ [proto] ++ U16.to_be_bytes id,
        by simp⟩)

/-- Swaps source and destination address. -/
def reverse_key (k : FlowKey) : FlowKey where
  bytes := (k.bytes.drop 4).take 4 ++ k.bytes.take 4 ++ k.bytes.drop 8
  sized := by
    have := k.sized
    simp only [List.length_append, List.length_take, List.length_drop]
    omega

/-- A payload that a session delivers to the host. -/
structure Uplink where
  session : SessionId
  payload : Bytes
  deriving DecidableEq

/-- The reader loop learns the flow of a payload before it writes it to the TUN. -/
def learn (flows : Map FlowKey SessionId) (u : Uplink) : Map FlowKey SessionId :=
  match parse_flow u.payload with
  | some key => flows.insert key u.session
  | none => flows

/-- The downlink loop finds the session of a packet from the TUN. -/
def route (flows : Map FlowKey SessionId) (packet : Bytes) : Option SessionId :=
  match parse_flow packet with
  | some key => flows.lookup (reverse_key key)
  | none => none

/-! ## Flows -/

/-- The five-tuple of a packet. Of an ICMP packet both ends are its identifier. -/
structure Flow where
  src : BitVec 32
  dst : BitVec 32
  proto : UInt8
  near : U16
  far : U16
  deriving DecidableEq

/-- The flow of the replies. -/
def Flow.reverse (f : Flow) : Flow := ⟨f.dst, f.src, f.proto, f.far, f.near⟩

def Flow.key (f : Flow) : FlowKey where
  bytes := array_bytes 4 f.src ++ array_bytes 4 f.dst ++ [f.proto] ++ U16.to_be_bytes f.near
  sized := by simp

def word_at (packet : Bytes) (i : ℕ) : U16 := U16.from_be_bytes ((packet.drop i).take 2)

def address_at (packet : Bytes) (i : ℕ) : BitVec 32 := array_from_bytes 4 ((packet.drop i).take 4)

/-- Where the fields of a flow stand in an IPv4 packet. -/
def flow_of (packet : Bytes) : Flow :=
  let ihl := header_len (packet.getD 0 0)
  let proto := packet.getD 9 0
  { src := address_at packet 12
    dst := address_at packet 16
    proto
    near := if proto = 1 then word_at packet (ihl + 4) else word_at packet ihl
    far := if proto = 1 then word_at packet (ihl + 4) else word_at packet (ihl + 2) }

section Keys

variable {packet : Bytes} {k : FlowKey} {f g : Flow}

theorem take_two {i : ℕ} (h : i + 1 < packet.length) :
    (packet.drop i).take 2 = [packet[i], packet[i + 1]] := by
  rw [List.drop_eq_getElem_cons (by omega), List.drop_eq_getElem_cons h]
  rfl

theorem take_four {i : ℕ} (h : i + 3 < packet.length) :
    (packet.drop i).take 4 = [packet[i], packet[i + 1], packet[i + 2], packet[i + 3]] := by
  rw [List.drop_eq_getElem_cons (by omega), List.drop_eq_getElem_cons (by omega),
    List.drop_eq_getElem_cons (by omega), List.drop_eq_getElem_cons h]
  rfl

theorem array_bytes_address_at {i : ℕ} (h : i + 3 < packet.length) :
    array_bytes 4 (address_at packet i) =
      [packet[i], packet[i + 1], packet[i + 2], packet[i + 3]] := by
  rw [← take_four h]
  refine ((array_from_bytes_eq_iff ?_).mp rfl).symm
  simp only [List.length_take, List.length_drop]
  omega

/-- The key of an accepted packet is the key of its flow. -/
theorem parse_flow_eq_some (h : parse_flow packet = some k) : k = (flow_of packet).key := by
  rw [parse_flow] at h
  split at h
  · contradiction
  next hmin =>
  split at h
  · contradiction
  split at h
  · contradiction
  next hports =>
  have hfirst : packet.getD 0 0 = packet[0] := by
    simp [List.getD, show 0 < packet.length by omega]
  have hproto : packet.getD 9 0 = packet[9] := by
    simp [List.getD, show 9 < packet.length by omega]
  dsimp only at h
  obtain ⟨id, hid, rfl⟩ := Option.map_eq_some_iff.mp h
  have hnear : (flow_of packet).near = id := by
    simp only [flow_of, hfirst, hproto]
    by_cases hicmp : packet[9] = 1
    · simp only [hicmp, ↓reduceIte, word_at] at hid ⊢
      split at hid
      · contradiction
      next hecho =>
      rw [take_two (by omega)]
      exact Option.some.inj hid
    · simp only [hicmp, ↓reduceIte, word_at] at hid ⊢
      rw [take_two (by omega)]
      exact Option.some.inj hid
  simp only [Flow.key, FlowKey.mk.injEq, hnear]
  have hsrc : array_bytes 4 (address_at packet 12) =
      [packet[12], packet[13], packet[14], packet[15]] := array_bytes_address_at (by omega)
  have hdst : array_bytes 4 (address_at packet 16) =
      [packet[16], packet[17], packet[18], packet[19]] := array_bytes_address_at (by omega)
  simp only [flow_of, hsrc, hdst, hproto]

theorem key_eq_iff :
    f.key = g.key ↔ f.src = g.src ∧ f.dst = g.dst ∧ f.proto = g.proto ∧ f.near = g.near := by
  constructor
  · intro h
    have hbytes := congrArg FlowKey.bytes h
    simp only [Flow.key] at hbytes
    obtain ⟨hbytes, hnear⟩ := List.append_inj hbytes (by simp)
    obtain ⟨hbytes, hproto⟩ := List.append_inj hbytes (by simp)
    obtain ⟨hsrc, hdst⟩ := List.append_inj hbytes (by simp)
    exact ⟨array_bytes_inj (w := 4) hsrc, array_bytes_inj (w := 4) hdst,
      (List.cons.inj hproto).1, U16.to_be_bytes_inj hnear⟩
  · rintro ⟨hsrc, hdst, hproto, hnear⟩
    simp only [Flow.key, hsrc, hdst, hproto, hnear]

/-- The reply is looked up with the far end of the request in the place of its near end. -/
theorem reverse_key_reverse : reverse_key f.reverse.key = Flow.key { f with near := f.far } := by
  have hdst : (array_bytes 4 f.dst).length = 4 := length_array_bytes 4 _
  have hsrc : (array_bytes 4 f.src).length = 4 := length_array_bytes 4 _
  simp [reverse_key, Flow.key, Flow.reverse, hdst, hsrc, List.drop_append]

end Keys

/-! ## The table -/

/-- The payload is of this flow, and the table learns it. -/
def Uplink.OfFlow (u : Uplink) (f : Flow) : Prop :=
  (parse_flow u.payload).isSome ∧ flow_of u.payload = f

/-- Packets of `g` are taken for the requests that the replies to `f` answer: the near
end of `g` is the far end of `f`. -/
def Answered (f g : Flow) : Prop :=
  g.src = f.src ∧ g.dst = f.dst ∧ g.proto = f.proto ∧ g.near = f.far

instance (f g : Flow) : Decidable (Answered f g) := inferInstanceAs (Decidable (_ ∧ _ ∧ _ ∧ _))

/-- The session of the latest learned payload whose flow satisfies `P`. -/
def last_sender (history : List Uplink) (P : Flow → Prop) [DecidablePred P] : Option SessionId :=
  (history.reverse.find?
    (fun u => (parse_flow u.payload).isSome && decide (P (flow_of u.payload)))).map (·.session)

section Table

variable {history before after : List Uplink} {session other : SessionId} {packet reply : Bytes}
  {f : Flow}

/-- A key finds the session that learned it last. The induction is on the history, from its
latest payload. -/
theorem lookup_learned (history : List Uplink) (k : FlowKey) :
    (history.foldl learn ∅).lookup k =
      (history.reverse.find? (fun u => parse_flow u.payload = some k)).map (·.session) := by
  induction history using List.reverseRecOn with
  | nil => rfl
  | append_singleton history u ih =>
    rw [List.foldl_append, List.reverse_append, List.reverse_singleton, List.singleton_append,
      List.find?_cons, List.foldl_cons, List.foldl_nil, learn]
    cases hparse : parse_flow u.payload with
    | none => simpa using ih
    | some key =>
      simp only [AList.lookup_insert_of, Option.some.injEq, ih]
      by_cases he : k = key
      · simp [he]
      · simp [he, Ne.symm he]

theorem parse_flow_eq_key {u : Uplink} (g : Flow) :
    parse_flow u.payload = some g.key ↔
      (parse_flow u.payload).isSome ∧ (flow_of u.payload).key = g.key := by
  constructor
  · intro h
    exact ⟨Option.isSome_iff_exists.mpr ⟨_, h⟩, (parse_flow_eq_some h).symm⟩
  · rintro ⟨h, hkey⟩
    obtain ⟨k, hk⟩ := Option.isSome_iff_exists.mp h
    rw [hk, parse_flow_eq_some hk, hkey]

/-- **Where a reply goes**: to the session of the latest payload it answers. -/
theorem route_reply (hr : (parse_flow reply).isSome) (hreply : flow_of reply = f.reverse) :
    route (history.foldl learn ∅) reply = last_sender history (Answered f) := by
  obtain ⟨k, hk⟩ := Option.isSome_iff_exists.mp hr
  obtain rfl := parse_flow_eq_some hk
  simp only [route, hk, hreply, reverse_key_reverse, lookup_learned, last_sender]
  congr 2
  funext u
  rw [Bool.eq_iff_iff, decide_eq_true_iff, Bool.and_eq_true, decide_eq_true_iff,
    parse_flow_eq_key, key_eq_iff, Answered]

/-- A payload that satisfies `P`, and after which only its session sends such payloads. -/
theorem last_sender_eq {P : Flow → Prop} [DecidablePred P] (hp : (parse_flow packet).isSome)
    (hpacket : P (flow_of packet))
    (hafter : ∀ u ∈ after, (parse_flow u.payload).isSome → P (flow_of u.payload) →
      u.session = session) :
    last_sender (before ++ ⟨session, packet⟩ :: after) P = some session := by
  rw [last_sender, List.reverse_append, List.reverse_cons, List.append_assoc,
    List.find?_append, Option.map_eq_some_iff]
  cases hfound : after.reverse.find?
      (fun u => (parse_flow u.payload).isSome && decide (P (flow_of u.payload))) with
  | none => exact ⟨⟨session, packet⟩, by simp [hp, hpacket], rfl⟩
  | some u =>
    have hu := List.find?_some hfound
    rw [Bool.and_eq_true, decide_eq_true_iff] at hu
    have hmem := List.mem_reverse.mp (List.mem_of_find?_eq_some hfound)
    exact ⟨u, rfl, hafter u hmem hu.1 hu.2⟩

theorem of_last_sender {P : Flow → Prop} [DecidablePred P] (h : last_sender history P = some other) :
    ∃ u ∈ history, u.session = other ∧ (parse_flow u.payload).isSome ∧ P (flow_of u.payload) := by
  obtain ⟨u, hfound, rfl⟩ := Option.map_eq_some_iff.mp h
  have hu := List.find?_some hfound
  rw [Bool.and_eq_true, decide_eq_true_iff] at hu
  exact ⟨u, List.mem_reverse.mp (List.mem_of_find?_eq_some hfound), rfl, hu.1, hu.2⟩

/-- The ends of an ICMP flow are one identifier, so only its own packets are taken for it. -/
theorem answered_icmp {payload : Bytes} (hicmp : (flow_of packet).proto = 1) :
    Answered (flow_of packet) (flow_of payload) ↔ flow_of payload = flow_of packet := by
  have hends : ∀ b : Bytes, (flow_of b).proto = 1 → (flow_of b).near = (flow_of b).far := by
    intro b hb
    simp only [flow_of] at hb ⊢
    rw [if_pos hb, if_pos hb]
  constructor
  · rintro ⟨hsrc, hdst, hproto, hnear⟩
    have hfar := hends payload (hproto.trans hicmp)
    rw [Flow.mk.injEq]
    exact ⟨hsrc, hdst, hproto, hnear.trans (hends packet hicmp).symm, hfar.symm.trans hnear⟩
  · intro h
    rw [h]
    exact ⟨rfl, rfl, rfl, hends packet hicmp⟩

/-- **Which replies return.** A session delivers a packet, and a reply of its flow comes
back. If no other session has sent on this flow since, the reply goes to the session
if and only if the flow is ICMP, or the latest payload with its addresses and protocol
whose source port is its destination port came from this session. And a session that
never sent on the flow gets none of its replies if and only if the flow is ICMP, or that
payload is not its own. -/
theorem reply_returns_iff (hp : (parse_flow packet).isSome) (hr : (parse_flow reply).isSome)
    (hreply : flow_of reply = (flow_of packet).reverse)
    (hhistory : history = before ++ ⟨session, packet⟩ :: after) :
    ((∀ u ∈ after, u.session ≠ session → ¬ u.OfFlow (flow_of packet)) →
      (route (history.foldl learn ∅) reply = some session ↔
        (flow_of packet).proto = 1 ∨
          last_sender history (Answered (flow_of packet)) = some session)) ∧
    (∀ other, (∀ u ∈ history, u.session = other → ¬ u.OfFlow (flow_of packet)) →
      (route (history.foldl learn ∅) reply ≠ some other ↔
        (flow_of packet).proto = 1 ∨
          last_sender history (Answered (flow_of packet)) ≠ some other)) := by
  rw [route_reply hr hreply]
  constructor
  · intro halone
    refine (or_iff_right_of_imp ?_).symm
    intro hicmp
    rw [hhistory]
    refine last_sender_eq hp ((answered_icmp hicmp).mpr rfl) ?_
    intro u hu hparse hanswered
    by_contra hne
    exact halone u hu hne ⟨hparse, (answered_icmp hicmp).mp hanswered⟩
  · intro other hforeign
    refine (or_iff_right_of_imp ?_).symm
    intro hicmp hlast
    obtain ⟨u, hu, hsession, hparse, hanswered⟩ := of_last_sender hlast
    exact hforeign u hu hsession ⟨hparse, (answered_icmp hicmp).mp hanswered⟩

end Table

/-- An IPv4 packet without options: protocol, addresses and the two ports (for ICMP, type and
checksum, and then the identifier). -/
def ipv4_packet (proto : UInt8) (src dst : Bytes) (rest : Bytes) : Bytes :=
  [0x45, 0, 0, 40, 0, 0, 0, 0, 64, proto, 0, 0] ++ src ++ dst ++ rest

/-- An echo request and its reply. -/
theorem reply_returns_echo :
    route ([⟨⟨1⟩, ipv4_packet 1 [10, 0, 85, 2] [8, 8, 8, 8] [8, 0, 0, 0, 18, 52]⟩].foldl learn ∅)
      (ipv4_packet 1 [8, 8, 8, 8] [10, 0, 85, 2] [0, 0, 0, 0, 18, 52]) = some ⟨1⟩ := by
  have hp : (parse_flow (ipv4_packet 1 [10, 0, 85, 2] [8, 8, 8, 8] [8, 0, 0, 0, 18, 52])).isSome := by
    decide
  exact ((reply_returns_iff hp (by decide) (by decide) (List.nil_append _).symm).1
    (by simp)).mpr (.inl (by decide))

/-- Session 1 sends a TCP packet from port 1000 to port 443 and session 2 one from port 443
to port 80, between the same addresses. The reply to the first goes to session 2; without
the second packet it goes nowhere. -/
theorem reply_goes_astray :
    let request : Uplink := ⟨⟨1⟩, ipv4_packet 6 [10, 0, 85, 2] [8, 8, 8, 8] [3, 232, 1, 187]⟩
    let stranger : Uplink := ⟨⟨2⟩, ipv4_packet 6 [10, 0, 85, 2] [8, 8, 8, 8] [1, 187, 0, 80]⟩
    let reply := ipv4_packet 6 [8, 8, 8, 8] [10, 0, 85, 2] [1, 187, 3, 232]
    flow_of reply = (flow_of request.payload).reverse ∧
      flow_of stranger.payload ≠ flow_of request.payload ∧
      route ([request].foldl learn ∅) reply = none ∧
      route ([request, stranger].foldl learn ∅) reply = some ⟨2⟩ := by
  decide

end StreamGuard.V1
