/-
Runs of the status server.

What a connection comes to depends on its own events only (`talk`), and `Conversation` says
what they are at each stage. Beside it stand what the connections share: the history is the
end of the list of admitted nonces, and every rejection is counted once.
-/
import StreamGuard.Service.StatusIpc

set_option autoImplicit false

namespace StreamGuard.Service

open StreamGuard StreamGuard.Lib

/-! ## What is seen of a run -/

namespace StatusEvent

/-- The connection that an event is about. -/
def conn : StatusEvent → ℕ
  | .challenged id _ | .arrived id _ | .admitted id _ | .refused id _ | .snapshot id _ => id

def challenged? : StatusEvent → Option (ℕ × Nonce)
  | .challenged id nonce => some (id, nonce)
  | _ => none

def arrived? : StatusEvent → Bytes
  | .arrived _ bytes => bytes
  | _ => []

def admitted? : StatusEvent → Option (ℕ × Nonce)
  | .admitted id nonce => some (id, nonce)
  | _ => none

def refused? : StatusEvent → Option ℕ
  | .refused id _ => some id
  | _ => none

def snapshot? : StatusEvent → Option Bytes
  | .snapshot _ body => some body
  | _ => none

def written? : StatusEvent → Bytes
  | .challenged _ nonce => framed 4 nonce.val
  | .snapshot _ body => framed 4 body
  | _ => []

end StatusEvent

namespace StatusServer

/-- The events of one connection. -/
def talk (id : ℕ) (events : List StatusEvent) : List StatusEvent :=
  events.filter fun event => event.conn == id

/-- The challenges that were sent. -/
def challenges (events : List StatusEvent) : List (ℕ × Nonce) :=
  events.filterMap StatusEvent.challenged?

/-- The bytes that arrived, all in a row. -/
def arrived (events : List StatusEvent) : Bytes := events.flatMap StatusEvent.arrived?

/-- The admitted connections with their nonces, in that order. -/
def admitted (events : List StatusEvent) : List (ℕ × Nonce) :=
  events.filterMap StatusEvent.admitted?

def refused (events : List StatusEvent) : List ℕ := events.filterMap StatusEvent.refused?

/-- The snapshots that were sent. -/
def snapshots (events : List StatusEvent) : List Bytes := events.filterMap StatusEvent.snapshot?

/-- What the server writes. -/
def written (events : List StatusEvent) : Bytes := events.flatMap StatusEvent.written?

section Seen

variable {id : ℕ} {events new : List StatusEvent}

theorem talk_append : talk id (events ++ new) = talk id events ++ talk id new :=
  List.filter_append ..

theorem talk_own (h : ∀ event ∈ new, event.conn = id) : talk id new = new :=
  List.filter_eq_self.mpr fun event hevent => beq_iff_eq.mpr (h event hevent)

theorem talk_other {k : ℕ} (h : ∀ event ∈ new, event.conn = id) (hne : k ≠ id) :
    talk k new = [] := by
  refine List.filter_eq_nil_iff.mpr fun event hevent => ?_
  rw [h event hevent]
  simpa using Ne.symm hne

theorem challenges_append : challenges (events ++ new) = challenges events ++ challenges new :=
  List.filterMap_append

theorem arrived_append : arrived (events ++ new) = arrived events ++ arrived new :=
  List.flatMap_append ..

theorem admitted_append : admitted (events ++ new) = admitted events ++ admitted new :=
  List.filterMap_append

theorem refused_append : refused (events ++ new) = refused events ++ refused new :=
  List.filterMap_append

theorem snapshots_append : snapshots (events ++ new) = snapshots events ++ snapshots new :=
  List.filterMap_append

/-- A connection's own challenges, admissions and refusals. -/
theorem challenges_talk : challenges (talk id events) = (challenges events).filter (·.1 == id) := by
  rw [challenges, talk, List.filterMap_filter, challenges, List.filter_filterMap]
  congr 1
  funext event
  cases event with
  | challenged k nonce => rfl
  | _ => simp [StatusEvent.challenged?]

theorem admitted_talk : admitted (talk id events) = (admitted events).filter (·.1 == id) := by
  rw [admitted, talk, List.filterMap_filter, admitted, List.filter_filterMap]
  congr 1
  funext event
  cases event with
  | admitted k nonce => rfl
  | _ => simp [StatusEvent.admitted?]

theorem refused_talk : refused (talk id events) = (refused events).filter (· == id) := by
  rw [refused, talk, List.filterMap_filter, refused, List.filter_filterMap]
  congr 1
  funext event
  cases event with
  | refused k rejection => rfl
  | _ => simp [StatusEvent.refused?]

theorem written_append : written (events ++ new) = written events ++ written new :=
  List.flatMap_append ..

/-- Before the first snapshot, only challenges are written. -/
theorem written_challenges (h : snapshots events = []) :
    written events = ((challenges events).map fun entry => framed 4 entry.2.val).flatten := by
  induction events with
  | nil => rfl
  | cons event events ih =>
    rw [snapshots, List.filterMap_cons] at h
    cases event with
    | snapshot id body => contradiction
    | challenged id nonce => exact congrArg (framed 4 nonce.val ++ ·) (ih h)
    | _ => exact ih h

theorem written_snapshots (bodies : List Bytes) :
    written (bodies.map (.snapshot id)) = (bodies.map (framed 4)).flatten := by
  rw [written, List.flatMap_map, List.flatMap_def]
  rfl

end Seen

/-! ## One connection -/

section Conversation

variable (hmac : Bytes → Bytes → Bytes) (key : Bytes)

/-- What the worker has read: the answer to its nonce under the key, and requests. -/
def Consumed (nonce : Nonce) (requests : ℕ) (bytes : Bytes) : Prop :=
  ∃ session_prefix : Bytes, session_prefix.length = 4 ∧
    bytes = framed 4 (nonce.val ++ session_prefix ++ hmac key (nonce.val ++ session_prefix)) ++
      (List.replicate requests (framed 4 REQUEST)).flatten

/-- Nothing was decided on the connection. -/
structure Undecided (id : ℕ) (nonce : Nonce) (own : List StatusEvent) : Prop where
  challenged : challenges own = [(id, nonce)]
  admitted : admitted own = []
  refused : refused own = []
  snapshots : snapshots own = []

/-- The connection was admitted, and as many requests as snapshots were read. -/
structure Served (id : ℕ) (nonce : Nonce) (own : List StatusEvent) (rest : Bytes) : Prop where
  challenged : challenges own = [(id, nonce)]
  admitted : admitted own = [(id, nonce)]
  refused : refused own = []
  arrived : ∃ bytes, Consumed hmac key nonce (snapshots own).length bytes ∧
    arrived own = bytes ++ rest

/-- Why the auth frame is turned down. -/
def Ground (nonce : Nonce) (own : List StatusEvent) (rejection : AuthRejection) : Prop :=
  ∃ auth rest, read_frame (arrived own) = .frame auth rest ∧
    (check_auth hmac key nonce auth = .error rejection ∨
      check_auth hmac key nonce auth = .ok () ∧ rejection = .replayed)

/-- The connection was refused, or it broke before anything was decided. -/
structure Failed (id : ℕ) (nonce : Nonce) (own : List StatusEvent) : Prop where
  admitted : StatusServer.admitted own = []
  refused : (StatusServer.refused own).length ≤ 1
  snapshots : StatusServer.snapshots own = []
  grounds : ∀ rejection, .refused id rejection ∈ own →
    challenges own = [(id, nonce)] ∧ Ground hmac key nonce own rejection

/-- The events of a connection at each stage. -/
def Conversation (id : ℕ) (own : List StatusEvent) (conn : StatusConn) : Prop :=
  match conn.stage with
  | .auth => Undecided id conn.nonce own ∧ arrived own = conn.inbox
  | .gate => Undecided id conn.nonce own ∧ ∃ auth, check_auth hmac key conn.nonce auth = .ok () ∧
      read_frame (arrived own) = .frame auth conn.inbox
  | .serving served => served < MAX_SNAPSHOTS_PER_CONNECTION ∧ (snapshots own).length = served ∧
      Served hmac key id conn.nonce own conn.inbox
  | .rejected => Failed hmac key id conn.nonce own
  | .closed => Failed hmac key id conn.nonce own ∨
      (snapshots own).length ≤ MAX_SNAPSHOTS_PER_CONNECTION ∧
        ∃ rest, Served hmac key id conn.nonce own rest

end Conversation

variable {hmac : Bytes → Bytes → Bytes} {key : Bytes} {id : ℕ} {own new : List StatusEvent}
  {conn conn' : StatusConn}

theorem not_refused {k : ℕ} {rejection : AuthRejection} (h : refused own = []) :
    .refused k rejection ∉ own := by
  intro hmem
  have hnone := List.filterMap_eq_nil_iff.mp h _ hmem
  simp [StatusEvent.refused?] at hnone

theorem Undecided.failed {nonce : Nonce} (h : Undecided id nonce own) :
    Failed hmac key id nonce own :=
  ⟨h.admitted, by simp [h.refused], h.snapshots, fun _ hmem => absurd hmem (not_refused h.refused)⟩

/-- A connection may close at any stage, its events being what they are. -/
theorem Conversation.close (h : Conversation hmac key id own conn)
    (hstage : conn'.stage = .closed) (hnonce : conn'.nonce = conn.nonce) :
    Conversation hmac key id own conn' := by
  rw [Conversation, hstage, hnonce]
  dsimp only
  rw [Conversation] at h
  split at h
  · exact .inl h.1.failed
  · exact .inl h.1.failed
  · obtain ⟨hserved, hlen, hall⟩ := h
    exact .inr ⟨by omega, _, hall⟩
  · exact .inl h
  · exact h

/-- What a good auth frame consists of. -/
theorem check_auth_ok {nonce : Nonce} {auth : Bytes} (h : check_auth hmac key nonce auth = .ok ()) :
    ∃ session_prefix : Bytes, session_prefix.length = 4 ∧
      auth = nonce.val ++ session_prefix ++ hmac key (nonce.val ++ session_prefix) := by
  rw [check_auth] at h
  split at h
  · contradiction
  next hlen =>
  split at h
  · contradiction
  next hnonce =>
  split at h
  · contradiction
  next hmac_eq =>
  rw [not_not] at hlen hnonce hmac_eq
  have hhead : (auth.take AUTH_MESSAGE_LEN).take NONCE_LEN = nonce.val := by
    rw [List.take_take]
    exact hnonce
  have hmessage : auth.take AUTH_MESSAGE_LEN =
      nonce.val ++ (auth.take AUTH_MESSAGE_LEN).drop NONCE_LEN := by
    rw [← hhead]
    exact (List.take_append_drop NONCE_LEN (auth.take AUTH_MESSAGE_LEN)).symm
  have hwhole : auth.take AUTH_FRAME_LEN = auth := List.take_of_length_le hlen.le
  rw [hwhole] at hmac_eq
  refine ⟨(auth.take AUTH_MESSAGE_LEN).drop NONCE_LEN, ?_, ?_⟩
  · rw [List.length_drop, List.length_take, hlen]
    rfl
  · rw [← hmessage, hmac_eq, List.take_append_drop]

theorem check_auth_ne_replayed {nonce : Nonce} {auth : Bytes} :
    check_auth hmac key nonce auth ≠ .error .replayed := by
  rw [check_auth]
  split
  · simp
  · split
    · simp
    · split
      · simp
      · simp

/-- An honest answer passes. -/
theorem check_auth_payload (hmac_len : ∀ key message, (hmac key message).length = 32)
    (sid : ℕ) (nonce : Nonce) :
    check_auth hmac key nonce (auth_payload hmac key sid nonce) = .ok () := by
  have hmessage : (auth_message nonce sid).length = AUTH_MESSAGE_LEN := by
    rw [auth_message, List.length_append, nonce.property, length_toBigEndian]
    rfl
  have hlen : (auth_payload hmac key sid nonce).length = AUTH_FRAME_LEN := by
    rw [auth_payload, List.length_append, hmessage, hmac_len]
    rfl
  have htake : (auth_payload hmac key sid nonce).take AUTH_MESSAGE_LEN =
      auth_message nonce sid := List.take_left' hmessage
  have hnonce : (auth_payload hmac key sid nonce).take NONCE_LEN = nonce.val := by
    rw [auth_payload, auth_message, List.append_assoc]
    exact List.take_left' nonce.property
  rw [check_auth, if_neg (not_not.mpr hlen), if_neg (not_not.mpr hnonce), htake,
    List.take_of_length_le hlen.le, auth_payload, List.drop_left' hmessage,
    if_neg (not_not.mpr rfl)]

/-! ### What the operations add to a conversation -/

/-- The one challenge stays the one challenge. -/
theorem challenges_concat {nonce : Nonce} (h : challenges own = [(id, nonce)])
    (hnew : challenges new = []) : challenges (own ++ new) = [(id, nonce)] := by
  rw [challenges_append, h, hnew, List.append_nil]

theorem Undecided.append {nonce : Nonce} (h : Undecided id nonce own)
    (hchallenges : challenges new = []) (hadmitted : StatusServer.admitted new = [])
    (hrefused : StatusServer.refused new = [])
    (hsnapshots : StatusServer.snapshots new = []) : Undecided id nonce (own ++ new) :=
  ⟨challenges_concat h.challenged hchallenges,
    by rw [admitted_append, h.admitted, hadmitted, List.nil_append],
    by rw [refused_append, h.refused, hrefused, List.nil_append],
    by rw [snapshots_append, h.snapshots, hsnapshots, List.nil_append]⟩

theorem Conversation.hang_up (h : Conversation hmac key id own conn) :
    Conversation hmac key id own { conn with ended := true } := h

theorem Conversation.arrive (h : Conversation hmac key id own conn) (bytes : Bytes)
    (hstage : conn.stage ≠ .closed) :
    Conversation hmac key id (own ++ [.arrived id bytes])
      { conn with inbox := conn.inbox ++ bytes } := by
  have harrived : arrived (own ++ [.arrived id bytes]) = arrived own ++ bytes := by
    rw [arrived_append]
    exact congrArg (arrived own ++ ·) (List.append_nil bytes)
  have hsnapshots : snapshots (own ++ [.arrived id bytes]) = snapshots own := by
    rw [snapshots_append]
    exact List.append_nil _
  rw [Conversation] at h ⊢
  dsimp only
  -- more bytes do not change a frame that is complete
  split at h
  · exact ⟨h.1.append rfl rfl rfl rfl, by rw [harrived, h.2]⟩
  · obtain ⟨hundecided, auth, hok, hread⟩ := h
    exact ⟨hundecided.append rfl rfl rfl rfl, auth, hok,
      harrived ▸ unframe_append_frame hread bytes⟩
  · obtain ⟨hserved, hlen, hchallenged, hadmitted, hrefused, read, hread, hall⟩ := h
    refine ⟨hserved, by rw [hsnapshots, hlen], challenges_concat hchallenged rfl, ?_, ?_, read,
      ?_, ?_⟩
    · rw [admitted_append, hadmitted]
      rfl
    · rw [refused_append, hrefused]
      rfl
    · rw [hsnapshots]
      exact hread
    · rw [harrived, hall, List.append_assoc]
  · refine ⟨?_, ?_, ?_, ?_⟩
    · rw [admitted_append, h.admitted]
      rfl
    · rw [refused_append]
      exact le_of_eq_of_le (congrArg List.length (List.append_nil _)) h.refused
    · rw [hsnapshots, h.snapshots]
    · intro rejection hmem
      have hold : .refused id rejection ∈ own := by simpa using hmem
      obtain ⟨hchallenged, auth, rest, hread, hground⟩ := h.grounds rejection hold
      exact ⟨challenges_concat hchallenged rfl, auth, rest ++ bytes,
        harrived ▸ unframe_append_frame hread bytes, hground⟩
  · next hclosed => exact absurd hclosed hstage

/-- A rejection ends a conversation in which nothing was decided. -/
theorem Undecided.refuse {nonce : Nonce} {auth rest : Bytes} {rejection : AuthRejection}
    (h : Undecided id nonce own) (hread : read_frame (arrived own) = .frame auth rest)
    (hground : check_auth hmac key nonce auth = .error rejection ∨
      check_auth hmac key nonce auth = .ok () ∧ rejection = .replayed) :
    Failed hmac key id nonce (own ++ [.refused id rejection]) := by
  refine ⟨?_, ?_, ?_, ?_⟩
  · rw [admitted_append, h.admitted]
    rfl
  · rw [refused_append, h.refused]
    exact le_refl 1
  · rw [snapshots_append, h.snapshots]
    rfl
  · intro r hmem
    rcases List.mem_append.mp hmem with hmem | hmem
    · exact absurd hmem (not_refused h.refused)
    · obtain ⟨-, rfl⟩ := StatusEvent.refused.inj (List.mem_singleton.mp hmem)
      refine ⟨challenges_concat h.challenged rfl, auth, rest, ?_, hground⟩
      rw [arrived_append, ← hread]
      exact congrArg read_frame (List.append_nil _)

theorem Conversation.read_auth {auth rest : Bytes} (h : Conversation hmac key id own conn)
    (hstage : conn.stage = .auth) (hread : read_frame conn.inbox = .frame auth rest)
    (hok : check_auth hmac key conn.nonce auth = .ok ()) :
    Conversation hmac key id own { conn with inbox := rest, stage := .gate } := by
  rw [Conversation, hstage] at h
  obtain ⟨hundecided, hall⟩ := h
  exact ⟨hundecided, auth, hok, by rw [hall, hread]⟩

theorem Conversation.passed (h : Conversation hmac key id own conn) (hstage : conn.stage = .gate) :
    Conversation hmac key id (own ++ [.admitted id conn.nonce])
      { conn with stage := .serving 0 } := by
  rw [Conversation, hstage] at h
  obtain ⟨hundecided, auth, hok, hread⟩ := h
  obtain ⟨head, hlen, hauth⟩ := check_auth_ok hok
  have hsnapshots : snapshots (own ++ [.admitted id conn.nonce]) = [] := by
    rw [snapshots_append, hundecided.snapshots]
    rfl
  refine ⟨by decide, by rw [hsnapshots]; rfl, challenges_concat hundecided.challenged rfl, ?_, ?_,
    framed 4 auth, ?_, ?_⟩
  · rw [admitted_append, hundecided.admitted]
    rfl
  · rw [refused_append, hundecided.refused]
    rfl
  · rw [hsnapshots]
    refine ⟨head, hlen, ?_⟩
    rw [hauth]
    exact (List.append_nil _).symm
  · rw [arrived_append, ← read_frame_eq_frame hread]
    exact List.append_nil _

/-- One more request was read, one more snapshot was sent. -/
theorem Served.snapshot {nonce : Nonce} {inbox rest : Bytes}
    (h : Served hmac key id nonce own inbox) (hread : read_frame inbox = .frame REQUEST rest)
    (body : Bytes) :
    Served hmac key id nonce (own ++ [.snapshot id body]) rest := by
  obtain ⟨hchallenged, hadmitted, hrefused, read, ⟨head, hlen, hconsumed⟩, hall⟩ := h
  have hsnapshots : (snapshots (own ++ [.snapshot id body])).length =
      (snapshots own).length + 1 := by
    rw [snapshots_append, List.length_append]
    rfl
  refine ⟨challenges_concat hchallenged rfl, ?_, ?_, read ++ framed 4 REQUEST,
    ⟨head, hlen, ?_⟩, ?_⟩
  · rw [admitted_append, hadmitted]
    rfl
  · rw [refused_append, hrefused]
    rfl
  · rw [hsnapshots, hconsumed, List.replicate_succ', List.flatten_append, List.append_assoc]
    simp
  · rw [arrived_append, hall, read_frame_eq_frame hread, ← List.append_assoc]
    exact List.append_nil _

theorem Conversation.snapshot {served : ℕ} {rest : Bytes} (h : Conversation hmac key id own conn)
    (hstage : conn.stage = .serving served) (hread : read_frame conn.inbox = .frame REQUEST rest)
    (body : Bytes) :
    Conversation hmac key id (own ++ [.snapshot id body])
      { conn with inbox := rest, stage := after_snapshot served } := by
  rw [Conversation, hstage] at h
  obtain ⟨hserved, hlen, hall⟩ := h
  have hnow := hall.snapshot hread body
  have hsnapshots : (snapshots (own ++ [.snapshot id body])).length = served + 1 := by
    rw [snapshots_append, List.length_append, hlen]
    rfl
  rw [Conversation, after_snapshot]
  by_cases hmore : served + 1 < MAX_SNAPSHOTS_PER_CONNECTION
  · rw [if_pos hmore]
    exact ⟨hmore, hsnapshots, hnow⟩
  · rw [if_neg hmore]
    exact .inr ⟨by omega, rest, hnow⟩

/-! ## All connections -/

/-- One where a rejection is not counted yet. -/
def uncounted (conn : StatusConn) : ℕ := if conn.stage = .rejected then 1 else 0

/-- The invariant of a run. -/
structure Sound (hmac : Bytes → Bytes → Bytes) (key : Bytes) (s : StatusServer)
    (events : List StatusEvent) : Prop where
  keyed : s.key = key
  conns : ∀ {id conn}, s.conns.lookup id = some conn →
    Conversation hmac key id (talk id events) conn
  present : ∀ {id}, id ∈ s.conns ↔ id < s.next_conn
  issued : ∀ event ∈ events, event.conn < s.next_conn
  seen : s.seen = keep_last MAX_SEEN_NONCES ((admitted events).map Prod.snd)
  spaced : Spaced MAX_SEEN_NONCES ((admitted events).map Prod.snd)
  replays : ∀ {id}, .refused id .replayed ∈ events →
    ∃ nonce, (id, nonce) ∈ challenges events ∧ nonce ∈ (admitted events).map Prod.snd
  failures : s.status_auth_failures + s.conns.sum (fun _ conn => uncounted conn) =
    (refused events).length

variable {s s' : StatusServer} {events : List StatusEvent}

theorem start_sound (key : Bytes) : Sound hmac key (start key) [] := by
  refine ⟨rfl, ?_, ?_, ?_, rfl, spaced_nil _, ?_, rfl⟩
  · intro id conn hconn
    simp [start] at hconn
  · intro id
    simp [start]
  · intro event hevent
    simp at hevent
  · intro id hrefused
    simp at hrefused

theorem mem_challenges_append {nonce : Nonce} (h : (id, nonce) ∈ challenges events) :
    (id, nonce) ∈ challenges (events ++ new) := by
  rw [challenges_append]
  exact List.mem_append_left _ h

theorem mem_admitted_append {nonce : Nonce} (h : nonce ∈ (admitted events).map Prod.snd) :
    nonce ∈ (admitted (events ++ new)).map Prod.snd := by
  rw [admitted_append, List.map_append]
  exact List.mem_append_left _ h

/-- The challenge of a connection is in the run. -/
theorem mem_challenges_of_talk {nonce : Nonce} (h : challenges (talk id events) = [(id, nonce)]) :
    (id, nonce) ∈ challenges events := by
  rw [challenges_talk] at h
  exact List.mem_of_mem_filter (h ▸ List.mem_singleton_self _)

/-- A step of one connection. -/
theorem Sound.update (h : Sound hmac key s events) (hold : s.conns.lookup id = some conn)
    (hown : ∀ event ∈ new, event.conn = id)
    (hconv : Conversation hmac key id (talk id events ++ new) conn')
    (hconns : s'.conns = s.conns.insert id conn') (hkey : s'.key = s.key)
    (hnext : s'.next_conn = s.next_conn)
    (hseen : s'.seen = keep_last MAX_SEEN_NONCES ((admitted (events ++ new)).map Prod.snd))
    (hspaced : Spaced MAX_SEEN_NONCES ((admitted (events ++ new)).map Prod.snd))
    (hreplays : .refused id .replayed ∈ new → conn.stage = .gate ∧ conn.nonce ∈ s.seen)
    (hfailures : s'.status_auth_failures + uncounted conn' =
      s.status_auth_failures + uncounted conn + (refused new).length) :
    Sound hmac key s' (events ++ new) := by
  refine ⟨hkey.trans h.keyed, ?_, ?_, ?_, hseen, hspaced, ?_, ?_⟩
  -- nobody else has a new event
  · intro k c hc
    rw [hconns] at hc
    rw [talk_append]
    rw [AList.lookup_insert_of] at hc
    by_cases hk : k = id
    · rw [if_pos hk, Option.some.injEq] at hc
      rw [hk, talk_own hown, ← hc]
      exact hconv
    · rw [if_neg hk] at hc
      rw [talk_other hown hk, List.append_nil]
      exact h.conns hc
  · intro k
    rw [hconns, hnext, AList.mem_insert, h.present]
    constructor
    · rintro (rfl | hk)
      · exact h.present.mp (AList.mem_of_lookup hold)
      · exact hk
    · exact .inr
  · intro event hevent
    rw [hnext]
    rcases List.mem_append.mp hevent with hevent | hevent
    · exact h.issued event hevent
    · rw [hown event hevent]
      exact h.present.mp (AList.mem_of_lookup hold)
  · intro k hrefused
    rcases List.mem_append.mp hrefused with hrefused | hrefused
    · obtain ⟨nonce, hchallenge, hused⟩ := h.replays hrefused
      exact ⟨nonce, mem_challenges_append hchallenge, mem_admitted_append hused⟩
    · obtain rfl : k = id := hown _ hrefused
      -- what is in the history was admitted
      obtain ⟨hstage, hused⟩ := hreplays hrefused
      have hconversation := h.conns hold
      rw [Conversation, hstage] at hconversation
      rw [h.seen, keep_last_eq] at hused
      exact ⟨conn.nonce, mem_challenges_append (mem_challenges_of_talk hconversation.1.challenged),
        mem_admitted_append (List.mem_of_mem_drop hused)⟩
  · have hsum := AList.sum_insert_add (w := conn') (fun _ conn => uncounted conn) hold
    have hbefore := h.failures
    rw [hconns, refused_append, List.length_append]
    omega

/-- A step of one connection that admits nobody. -/
theorem Sound.quiet (h : Sound hmac key s events) (hold : s.conns.lookup id = some conn)
    (hown : ∀ event ∈ new, event.conn = id) (hadmitted : admitted new = [])
    (hreplays : .refused id .replayed ∈ new → conn.stage = .gate ∧ conn.nonce ∈ s.seen)
    (hconv : Conversation hmac key id (talk id events ++ new) conn')
    (hfailures : uncounted conn' = uncounted conn + (refused new).length) :
    Sound hmac key (s.put id conn') (events ++ new) := by
  have hsame : admitted (events ++ new) = admitted events := by
    rw [admitted_append, hadmitted, List.append_nil]
  refine h.update hold hown hconv rfl rfl rfl ?_ ?_ hreplays ?_
  · rw [hsame]
    exact h.seen
  · rw [hsame]
    exact h.spaced
  · rw [hfailures]
    exact Nat.add_assoc _ _ _ |>.symm

/-- A connection that closes where no rejection is to be counted. -/
theorem Sound.close (h : Sound hmac key s events) (hold : s.conns.lookup id = some conn)
    (hstage : conn.stage ≠ .rejected) :
    Sound hmac key (s.put id { conn with stage := .closed }) events := by
  have hconv : Conversation hmac key id (talk id events ++ []) { conn with stage := .closed } := by
    rw [List.append_nil]
    exact (h.conns hold).close rfl rfl
  have hquiet := h.quiet hold (by simp) rfl (by simp) hconv (by simp [uncounted, hstage, refused])
  rwa [List.append_nil] at hquiet

/-- The end of a read that finds no frame. -/
theorem Sound.closes (h : Sound hmac key s events) (hold : s.conns.lookup id = some conn)
    (hstage : conn.stage ≠ .rejected) (hs : some (s.put id { conn with stage := .closed }, []) =
      some (s', new)) : Sound hmac key s' (events ++ new) := by
  obtain ⟨rfl, rfl⟩ := step_inj hs
  rw [List.append_nil]
  exact h.close hold hstage

theorem Sound.read_auth (h : Sound hmac key s events) (hold : s.conns.lookup id = some conn)
    (hstage : conn.stage = .auth) (hs : s.read_auth hmac id conn = some (s', new)) :
    Sound hmac key s' (events ++ new) := by
  have hopen : conn.stage ≠ .rejected := by rw [hstage]; simp
  have hconv := h.conns hold
  rw [StatusServer.read_auth] at hs
  split at hs
  · split at hs
    · exact h.closes hold hopen hs
    · contradiction
  · exact h.closes hold hopen hs
  next auth rest hread =>
  split at hs
  · next rejection hcheck =>
    obtain ⟨rfl, rfl⟩ := step_inj hs
    rw [Conversation, hstage] at hconv
    rw [h.keyed] at hcheck
    refine h.quiet hold (by simp [StatusEvent.conn]) rfl ?_ ?_
      (by simp [uncounted, hstage, refused, StatusEvent.refused?])
    · intro hmem
      obtain ⟨-, rfl⟩ := StatusEvent.refused.inj (List.mem_singleton.mp hmem)
      exact absurd hcheck check_auth_ne_replayed
    · exact hconv.1.refuse (by rw [hconv.2, hread]) (.inl hcheck)
  · next hcheck =>
    obtain ⟨rfl, rfl⟩ := step_inj hs
    rw [h.keyed] at hcheck
    refine h.quiet hold (by simp) rfl (by simp) ?_ (by simp [uncounted, hstage, refused])
    rw [List.append_nil]
    exact hconv.read_auth hstage hread hcheck

theorem Sound.pass_gate (h : Sound hmac key s events) (hold : s.conns.lookup id = some conn)
    (hstage : conn.stage = .gate) :
    Sound hmac key (s.pass_gate id conn).1 (events ++ (s.pass_gate id conn).2) := by
  have hconv := h.conns hold
  rw [StatusServer.pass_gate]
  split
  · next hused =>
    rw [Conversation, hstage] at hconv
    obtain ⟨hundecided, auth, hok, hread⟩ := hconv
    exact h.quiet hold (by simp [StatusEvent.conn]) rfl (fun _ => ⟨hstage, hused⟩)
      (hundecided.refuse hread (.inr ⟨hok, rfl⟩))
      (by simp [uncounted, hstage, refused, StatusEvent.refused?])
  · next hfresh =>
    have hadmitted : (admitted (events ++ [.admitted id conn.nonce])).map Prod.snd =
        (admitted events).map Prod.snd ++ [conn.nonce] := by
      rw [admitted_append, List.map_append]
      rfl
    refine h.update hold (by simp [StatusEvent.conn]) (hconv.passed hstage) rfl rfl rfl ?_ ?_
      (by simp) ?_
    · rw [hadmitted]
      dsimp only
      rw [h.seen, keep_last_concat]
    · rw [hadmitted]
      refine h.spaced.concat ?_
      rw [← h.seen]
      exact hfresh
    · simp [uncounted, hstage, refused, StatusEvent.refused?, put]

theorem after_snapshot_ne (served : ℕ) : after_snapshot served ≠ .rejected := by
  rw [after_snapshot]
  split
  · simp
  · simp

theorem Sound.serve (h : Sound hmac key s events) (hold : s.conns.lookup id = some conn)
    {served : ℕ} (hstage : conn.stage = .serving served) {body : Option Bytes} {written : Bool}
    (hs : s.serve id conn served body written = some (s', new)) :
    Sound hmac key s' (events ++ new) := by
  have hopen : conn.stage ≠ .rejected := by rw [hstage]; simp
  rw [StatusServer.serve] at hs
  split at hs
  · split at hs
    · exact h.closes hold hopen hs
    · contradiction
  · exact h.closes hold hopen hs
  next request rest hread =>
  split at hs
  · exact h.closes hold hopen hs
  next hrequest =>
  rw [not_not] at hrequest
  subst hrequest
  split at hs
  · exact h.closes hold hopen hs
  next sent hsent =>
  obtain ⟨rfl, rfl⟩ := step_inj hs
  refine h.quiet hold (by simp [StatusEvent.conn]) rfl (by simp)
    ((h.conns hold).snapshot hstage hread sent) ?_
  rw [uncounted, if_neg (after_snapshot_ne served), uncounted, if_neg hopen]
  rfl

theorem Sound.accept (h : Sound hmac key s events) (nonce : Nonce) (written : Bool) :
    Sound hmac key
      { s.put s.next_conn ⟨nonce, [], false, if written then .auth else .closed⟩ with
        next_conn := s.next_conn + 1 }
      (events ++ if written then [.challenged s.next_conn nonce] else []) := by
  have hown : ∀ event ∈ (if written then [StatusEvent.challenged s.next_conn nonce] else []),
      event.conn = s.next_conn := by
    cases written with
    | _ => simp [StatusEvent.conn]
  have hadmitted : admitted (events ++ if written then [.challenged s.next_conn nonce] else []) =
      admitted events := by
    rw [admitted_append]
    cases written with
    | _ => exact List.append_nil _
  have hrefused : refused (events ++ if written then [.challenged s.next_conn nonce] else []) =
      refused events := by
    rw [refused_append]
    cases written with
    | _ => exact List.append_nil _
  have hnew : s.next_conn ∉ s.conns := fun hmem => lt_irrefl _ (h.present.mp hmem)
  -- a number that was not given out has said nothing
  have hsilent : talk s.next_conn events = [] := by
    refine List.filter_eq_nil_iff.mpr fun event hevent => ?_
    simpa using (h.issued event hevent).ne
  refine ⟨h.keyed, ?_, ?_, ?_, ?_, ?_, ?_, ?_⟩
  · intro k conn hconn
    change (s.conns.insert s.next_conn _).lookup k = some conn at hconn
    rw [talk_append]
    rw [AList.lookup_insert_of] at hconn
    by_cases hk : k = s.next_conn
    · rw [if_pos hk, Option.some.injEq] at hconn
      rw [hk, hsilent, talk_own hown, ← hconn]
      cases written with
      | true => exact ⟨⟨rfl, rfl, rfl, rfl⟩, rfl⟩
      | false => exact .inl ⟨rfl, Nat.zero_le _, rfl, fun _ hmem => by simp at hmem⟩
    · rw [if_neg hk] at hconn
      rw [talk_other hown hk, List.append_nil]
      exact h.conns hconn
  · intro k
    change k ∈ s.conns.insert s.next_conn _ ↔ k < s.next_conn + 1
    rw [AList.mem_insert, h.present]
    omega
  · intro event hevent
    rcases List.mem_append.mp hevent with hevent | hevent
    · exact Nat.lt_succ_of_lt (h.issued event hevent)
    · rw [hown event hevent]
      exact Nat.lt_succ_self _
  · rw [hadmitted]
    exact h.seen
  · rw [hadmitted]
    exact h.spaced
  · intro k hmem
    rcases List.mem_append.mp hmem with hmem | hmem
    · obtain ⟨nonce, hchallenge, hused⟩ := h.replays hmem
      exact ⟨nonce, mem_challenges_append hchallenge, mem_admitted_append hused⟩
    · cases written with
      | _ => simp at hmem
  · rw [hrefused, ← h.failures]
    change s.status_auth_failures + (s.conns.insert s.next_conn _).sum _ = _
    rw [AList.sum_insert_of_notMem _ _ hnew]
    cases written with
    | _ => simp [uncounted]

/-- **One step keeps the invariant.** -/
theorem Sound.step (h : Sound hmac key s events) {label : StatusLabel}
    (hs : s.step hmac label = some (s', new)) : Sound hmac key s' (events ++ new) := by
  cases label with
  | accept nonce written =>
    obtain ⟨rfl, rfl⟩ := step_inj hs
    exact h.accept nonce written
  | arrive id bytes =>
    rw [StatusServer.step] at hs
    split at hs
    · contradiction
    next conn hold =>
    obtain ⟨⟨-, hopen⟩, hs⟩ := Option.ite_none_right_eq_some.mp hs
    obtain ⟨rfl, rfl⟩ := step_inj hs
    exact h.quiet hold (by simp [StatusEvent.conn]) rfl (by simp)
      ((h.conns hold).arrive bytes hopen) (by simp [uncounted, refused, StatusEvent.refused?])
  | hang_up id =>
    rw [StatusServer.step] at hs
    split at hs
    · contradiction
    next conn hold =>
    obtain ⟨rfl, rfl⟩ := step_inj hs
    refine h.quiet hold (by simp) rfl (by simp) ?_ (by simp [uncounted, refused])
    rw [List.append_nil]
    exact (h.conns hold).hang_up
  | read_auth id =>
    rw [StatusServer.step] at hs
    split at hs
    · contradiction
    next conn hold =>
    obtain ⟨hstage, hs⟩ := Option.ite_none_right_eq_some.mp hs
    exact h.read_auth hold hstage hs
  | pass_gate id =>
    rw [StatusServer.step] at hs
    split at hs
    · contradiction
    next conn hold =>
    obtain ⟨hstage, hs⟩ := Option.ite_none_right_eq_some.mp hs
    obtain ⟨rfl, rfl⟩ := step_inj hs
    exact h.pass_gate hold hstage
  | count id =>
    rw [StatusServer.step] at hs
    split at hs
    · contradiction
    next conn hold =>
    obtain ⟨hstage, hs⟩ := Option.ite_none_right_eq_some.mp hs
    obtain ⟨rfl, rfl⟩ := step_inj hs
    rw [List.append_nil]
    have hconv : Conversation hmac key id (talk id events ++ [])
        { conn with stage := .closed } := by
      rw [List.append_nil]
      exact (h.conns hold).close rfl rfl
    have hcounted : Sound hmac key { s.put id { conn with stage := .closed } with
        status_auth_failures := s.status_auth_failures + 1 } (events ++ []) :=
      h.update hold (by simp) hconv rfl rfl rfl (by rw [List.append_nil]; exact h.seen)
        (by rw [List.append_nil]; exact h.spaced) (by simp) (by simp [uncounted, hstage, refused])
    rwa [List.append_nil] at hcounted
  | serve id body written =>
    rw [StatusServer.step] at hs
    split at hs
    · contradiction
    next conn hold =>
    split at hs
    · next served hstage => exact h.serve hold hstage hs
    · contradiction
  | io_error id =>
    rw [StatusServer.step] at hs
    split at hs
    · contradiction
    next conn hold =>
    split at hs
    · next hstage => exact h.closes hold (by rw [hstage]; simp) hs
    · next served hstage => exact h.closes hold (by rw [hstage]; simp) hs
    · contradiction
  | client nonce sid =>
    obtain ⟨rfl, rfl⟩ := step_inj hs
    rw [List.append_nil]
    -- a client only signs
    exact ⟨h.keyed, h.conns, h.present, h.issued, h.seen, h.spaced, h.replays, h.failures⟩

theorem Sound.run (h : Sound hmac key s events) {labels : List StatusLabel}
    (hrun : exec (StatusServer.step hmac) s labels = some (s', new)) :
    Sound hmac key s' (events ++ new) :=
  exec_along_induct (C := fun _ _ => True) (P := Sound hmac key)
    (fun _ _ _ _ _ h _ hs => h.step hs) h (along_true _ _) hrun

theorem run_sound {labels : List StatusLabel}
    (hrun : exec (StatusServer.step hmac) (start key) labels = some (s, events)) :
    Sound hmac key s events := by
  simpa using (start_sound key).run hrun

end StatusServer

end StreamGuard.Service
