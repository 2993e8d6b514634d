/-
What the status plane gives to its users.

To the owner of the token: a snapshot leaves on a connection only behind an answer to that
connection's own challenge, and where tags cannot be forged there are no more admissions
than answers that clients signed. To a client: however its bytes are cut and whatever the
other connections do, it is not turned away, and it reads back what was sent. To who reads
the counter: rejections are counted once, and each has its ground in what arrived.
-/
import StreamGuard.Service.StatusRuns

set_option autoImplicit false

namespace StreamGuard.Service

open StreamGuard StreamGuard.Lib

namespace StatusServer

variable {hmac : Bytes → Bytes → Bytes} {key : Bytes} {labels : List StatusLabel}
  {s s' : StatusServer} {events new : List StatusEvent} {id : ℕ}

/-! ## A small run

One client with the token "token", and one connection that sends what it likes. -/

def sample_token : Bytes := [116, 111, 107, 101, 110]

def sample_nonce : Nonce := ⟨List.replicate 16 0, rfl⟩

/-- HMAC-SHA256 under the token of the nonce and the prefix `0x01020304`. -/
def sample_hmac : Bytes → Bytes → Bytes := fun _ _ =>
  [239, 126, 203, 69, 5, 58, 57, 2, 240, 131, 92, 240, 136, 148, 252, 3, 198, 94, 84, 246, 77, 27,
    204, 40, 205, 190, 245, 12, 52, 197, 55, 140]

def sample_answer : Bytes :=
  framed 4 (auth_payload sample_hmac sample_token 0x01020304 sample_nonce)

/-- The answer comes in two pieces, and the other connection goes on in between. -/
def sample_arrivals : List StatusLabel :=
  [.accept sample_nonce true, .accept ⟨List.replicate 16 1, rfl⟩ true,
    .client sample_nonce 0x01020304, .arrive 0 (sample_answer.take 7), .arrive 1 [0, 0, 0, 1, 9],
    .arrive 0 (sample_answer.drop 7 ++ framed 4 REQUEST), .read_auth 1, .count 1]

def sample_labels : List StatusLabel :=
  sample_arrivals ++ [.read_auth 0, .pass_gate 0, .serve 0 (some [123, 125]) true]

/-! ## One connection in a run -/

theorem mem_talk {event : StatusEvent} :
    event ∈ talk id events ↔ event ∈ events ∧ event.conn = id := by
  rw [talk, List.mem_filter, beq_iff_eq]

/-- Who is mentioned has a connection. -/
theorem Sound.find (h : Sound hmac key s events) {event : StatusEvent}
    (hevent : event ∈ talk id events) : ∃ conn, s.conns.lookup id = some conn ∧
      Conversation hmac key id (talk id events) conn := by
  obtain ⟨hmem, rfl⟩ := mem_talk.mp hevent
  have hmem := h.present.mpr (h.issued event hmem)
  obtain ⟨conn, hconn⟩ := Option.isSome_iff_exists.mp (AList.lookup_isSome.mpr hmem)
  exact ⟨conn, hconn, h.conns hconn⟩

/-- A connection with an admission is one that is served. -/
theorem Conversation.served {own : List StatusEvent} {conn : StatusConn}
    (h : Conversation hmac key id own conn) (hadmitted : admitted own ≠ []) :
    (snapshots own).length ≤ MAX_SNAPSHOTS_PER_CONNECTION ∧
      ∃ rest, Served hmac key id conn.nonce own rest := by
  rw [Conversation] at h
  split at h
  · exact absurd h.1.admitted hadmitted
  · exact absurd h.1.admitted hadmitted
  · exact ⟨by omega, _, h.2.2⟩
  · exact absurd h.admitted hadmitted
  · rcases h with h | h
    · exact absurd h.admitted hadmitted
    · exact h

/-- So is one with a snapshot. -/
theorem Conversation.admitted_of_snapshot {own : List StatusEvent} {conn : StatusConn}
    (h : Conversation hmac key id own conn) (hsnapshots : snapshots own ≠ []) :
    admitted own ≠ [] := by
  rw [Conversation] at h
  split at h
  · exact absurd h.1.snapshots hsnapshots
  · exact absurd h.1.snapshots hsnapshots
  · simp [h.2.2.admitted]
  · exact absurd h.snapshots hsnapshots
  · rcases h with h | ⟨-, rest, h⟩
    · exact absurd h.snapshots hsnapshots
    · simp [h.admitted]

/-- And one with a refusal failed. -/
theorem Conversation.failed {own : List StatusEvent} {conn : StatusConn}
    (h : Conversation hmac key id own conn) (hrefused : refused own ≠ []) :
    Failed hmac key id conn.nonce own := by
  rw [Conversation] at h
  split at h
  · exact absurd h.1.refused hrefused
  · exact absurd h.1.refused hrefused
  · exact absurd h.2.2.refused hrefused
  · exact h
  · rcases h with h | ⟨-, rest, h⟩
    · exact h
    · exact absurd h.refused hrefused

/-- Snapshots leave only on a connection whose challenge was answered under the token, one for
each request that arrived behind the answer, and no more than 64. -/
theorem snapshots_authenticated
    (hrun : exec (StatusServer.step hmac) (start key) labels = some (s, events))
    (hsnapshot : snapshots (talk id events) ≠ []) :
    ∃ nonce bytes rest, challenges (talk id events) = [(id, nonce)] ∧
      admitted (talk id events) = [(id, nonce)] ∧ refused (talk id events) = [] ∧
      (snapshots (talk id events)).length ≤ MAX_SNAPSHOTS_PER_CONNECTION ∧
      Consumed hmac key nonce (snapshots (talk id events)).length bytes ∧
      arrived (talk id events) = bytes ++ rest := by
  have h := run_sound hrun
  obtain ⟨body, hbody⟩ := List.exists_mem_of_ne_nil _ hsnapshot
  obtain ⟨event, hevent, -⟩ := List.mem_filterMap.mp hbody
  obtain ⟨conn, -, hconv⟩ := h.find hevent
  obtain ⟨hlen, rest, hserved⟩ := hconv.served (hconv.admitted_of_snapshot hsnapshot)
  obtain ⟨bytes, hconsumed, harrived⟩ := hserved.arrived
  exact ⟨conn.nonce, bytes, rest, hserved.challenged, hserved.admitted, hserved.refused, hlen,
    hconsumed, harrived⟩

theorem snapshots_authenticated_sample : ∃ s events,
    exec (StatusServer.step sample_hmac) (start sample_token) sample_labels = some (s, events) ∧
      snapshots (talk 0 events) = [[123, 125]] ∧
      ∃ nonce bytes rest, Consumed sample_hmac sample_token nonce 1 bytes ∧
        arrived (talk 0 events) = bytes ++ rest := by
  obtain ⟨s, events, hrun, hsnapshots⟩ : ∃ s events,
      exec (StatusServer.step sample_hmac) (start sample_token) sample_labels = some (s, events) ∧
        snapshots (talk 0 events) = [[123, 125]] := ⟨_, _, rfl, by decide⟩
  have hsome : snapshots (talk 0 events) ≠ [] := by simp [hsnapshots]
  obtain ⟨nonce, bytes, rest, -, -, -, -, hconsumed, harrived⟩ :=
    snapshots_authenticated hrun hsome
  rw [hsnapshots] at hconsumed
  exact ⟨s, events, hrun, hsnapshots, nonce, bytes, rest, hconsumed, harrived⟩

/-! ## Refusals -/

theorem mem_refused {rejection : AuthRejection} (h : .refused id rejection ∈ events) :
    id ∈ refused events :=
  List.mem_filterMap.mpr ⟨_, h, rfl⟩

theorem Sound.refused_nodup (h : Sound hmac key s events) : (refused events).Nodup := by
  refine List.nodup_iff_count_le_one.mpr fun id => ?_
  rw [List.count_eq_countP, List.countP_eq_length_filter, ← refused_talk]
  by_cases hrefused : refused (talk id events) = []
  · simp [hrefused]
  · obtain ⟨k, hk⟩ := List.exists_mem_of_ne_nil _ hrefused
    obtain ⟨event, hevent, -⟩ := List.mem_filterMap.mp hk
    obtain ⟨conn, -, hconv⟩ := h.find hevent
    exact (hconv.failed hrefused).refused

/-- Why a connection was refused. -/
theorem Sound.refusal (h : Sound hmac key s events) {rejection : AuthRejection}
    (hmem : .refused id rejection ∈ events) :
    admitted (talk id events) = [] ∧ snapshots (talk id events) = [] ∧
      ∃ nonce, challenges (talk id events) = [(id, nonce)] ∧
        Ground hmac key nonce (talk id events) rejection ∧
        (rejection = .replayed → nonce ∈ (admitted events).map Prod.snd) := by
  have hown : .refused id rejection ∈ talk id events := mem_talk.mpr ⟨hmem, rfl⟩
  obtain ⟨conn, -, hconv⟩ := h.find hown
  have hfailed := hconv.failed (List.ne_nil_of_mem (mem_refused hown))
  obtain ⟨hchallenges, hground⟩ := hfailed.grounds rejection hown
  refine ⟨hfailed.admitted, hfailed.snapshots, conn.nonce, hchallenges, hground, ?_⟩
  rintro rfl
  obtain ⟨nonce, hchallenge, hused⟩ := h.replays hmem
  have hsame : (id, nonce) ∈ challenges (talk id events) := by
    rw [challenges_talk]
    exact List.mem_filter.mpr ⟨hchallenge, beq_self_eq_true id⟩
  rw [hchallenges, List.mem_singleton, Prod.mk.injEq] at hsame
  exact hsame.2 ▸ hused

/-- Every rejection is counted once, and has its ground in what arrived; the connection gets
nothing. -/
theorem refusals_counted
    (hrun : exec (StatusServer.step hmac) (start key) labels = some (s, events)) :
    (refused events).Nodup ∧
      s.status_auth_failures + s.conns.sum (fun _ conn => uncounted conn) =
        (refused events).length ∧
      ∀ id rejection, .refused id rejection ∈ events →
        admitted (talk id events) = [] ∧ snapshots (talk id events) = [] ∧
          ∃ nonce, challenges (talk id events) = [(id, nonce)] ∧
            Ground hmac key nonce (talk id events) rejection ∧
            (rejection = .replayed → nonce ∈ (admitted events).map Prod.snd) := by
  have h := run_sound hrun
  exact ⟨h.refused_nodup, h.failures, fun id rejection hmem => h.refusal hmem⟩

/-- The other connection's frame has the wrong length. -/
theorem refusals_counted_sample : ∃ s events,
    exec (StatusServer.step sample_hmac) (start sample_token) sample_labels = some (s, events) ∧
      s.status_auth_failures = 1 ∧ snapshots (talk 1 events) = [] := by
  obtain ⟨s, events, hrun, hmem, hfailures⟩ : ∃ s events,
      exec (StatusServer.step sample_hmac) (start sample_token) sample_labels = some (s, events) ∧
        .refused 1 .malformed ∈ events ∧ s.status_auth_failures = 1 :=
    ⟨_, _, rfl, by decide, rfl⟩
  exact ⟨s, events, hrun, hfailures, ((refusals_counted hrun).2.2 1 .malformed hmem).2.1⟩

/-! ## Admissions -/

/-- An admission is of a connection that is served. -/
theorem Sound.served (h : Sound hmac key s events) {nonce : Nonce}
    (hadmitted : (id, nonce) ∈ admitted events) :
    ∃ rest, Served hmac key id nonce (talk id events) rest := by
  have hown : (id, nonce) ∈ admitted (talk id events) := by
    rw [admitted_talk]
    exact List.mem_filter.mpr ⟨hadmitted, beq_self_eq_true id⟩
  obtain ⟨event, hevent, -⟩ := List.mem_filterMap.mp hown
  obtain ⟨conn, -, hconv⟩ := h.find hevent
  obtain ⟨-, rest, hserved⟩ := hconv.served (List.ne_nil_of_mem hown)
  rw [hserved.admitted, List.mem_singleton, Prod.mk.injEq] at hown
  exact ⟨rest, hown.2 ▸ hserved⟩

/-- No connection is admitted twice. -/
theorem Sound.admitted_nodup (h : Sound hmac key s events) :
    ((admitted events).map Prod.fst).Nodup := by
  refine List.nodup_iff_count_le_one.mpr fun id => ?_
  rw [List.count_eq_countP, List.countP_map, List.countP_eq_length_filter]
  by_cases hadmitted : id ∈ (admitted events).map Prod.fst
  · obtain ⟨⟨k, nonce⟩, hmem, rfl⟩ := List.mem_map.mp hadmitted
    obtain ⟨rest, hserved⟩ := h.served hmem
    have hone := hserved.admitted
    rw [admitted_talk] at hone
    exact le_of_eq (congrArg List.length hone)
  · rw [List.filter_eq_nil_iff.mpr]
    · exact Nat.zero_le 1
    · intro entry hentry hid
      exact hadmitted (List.mem_map.mpr ⟨entry, hentry, beq_iff_eq.mp hid⟩)

/-- Whatever nonces the challenges carry, one that is let in twice has at least 128 other
admissions in between, and no connection is let in twice. -/
theorem admissions_spaced
    (hrun : exec (StatusServer.step hmac) (start key) labels = some (s, events)) :
    Spaced MAX_SEEN_NONCES ((admitted events).map Prod.snd) ∧
      s.seen = keep_last MAX_SEEN_NONCES ((admitted events).map Prod.snd) ∧
      s.seen.length ≤ MAX_SEEN_NONCES ∧ ((admitted events).map Prod.fst).Nodup := by
  have h := run_sound hrun
  refine ⟨h.spaced, h.seen, ?_, h.admitted_nodup⟩
  rw [h.seen]
  exact length_keep_last_le _ _

theorem admissions_spaced_sample : ∃ s events,
    exec (StatusServer.step sample_hmac) (start sample_token) sample_labels = some (s, events) ∧
      s.seen = [sample_nonce] ∧ Spaced MAX_SEEN_NONCES ((admitted events).map Prod.snd) := by
  obtain ⟨s, events, hrun, hseen⟩ : ∃ s events,
      exec (StatusServer.step sample_hmac) (start sample_token) sample_labels = some (s, events) ∧
        s.seen = [sample_nonce] := ⟨_, _, rfl, by decide⟩
  exact ⟨s, events, hrun, hseen, (admissions_spaced hrun).1⟩

/-- Where challenges are distinct, so are the nonces of admissions. -/
theorem Sound.nonces_nodup (h : Sound hmac key s events)
    (hfresh : ((challenges events).map Prod.snd).Nodup) :
    ((admitted events).map Prod.snd).Nodup := by
  have hchallenged : ∀ {entry}, entry ∈ admitted events → entry ∈ challenges events := by
    rintro ⟨id, nonce⟩ hentry
    obtain ⟨rest, hserved⟩ := h.served hentry
    exact mem_challenges_of_talk hserved.challenged
  refine List.Nodup.map_on ?_ (List.Nodup.of_map _ h.admitted_nodup)
  intro entry hentry other hother hsame
  exact List.inj_on_of_nodup_map hfresh (hchallenged hentry) (hchallenged hother) hsame

/-- A tag that arrived and verifies was made by a client. -/
def Unforged (hmac : Bytes → Bytes → Bytes) (s : StatusServer) (events : List StatusEvent) : Prop :=
  ∀ id auth rest, read_frame (arrived (talk id events)) = .frame auth rest →
    hmac s.key (auth.take AUTH_MESSAGE_LEN) = auth.drop AUTH_MESSAGE_LEN →
      auth.take AUTH_MESSAGE_LEN ∈ s.signed

/-- An answer is read back. -/
theorem read_answer (hmac_len : ∀ key message, (hmac key message).length = 32) (key : Bytes)
    {message : Bytes} (hmessage : message.length = AUTH_MESSAGE_LEN) (rest : Bytes) :
    read_frame (framed 4 (message ++ hmac key message) ++ rest) =
      .frame (message ++ hmac key message) rest := by
  have hlen : (message ++ hmac key message).length = 52 := by
    rw [List.length_append, hmessage, hmac_len]
    rfl
  exact unframe_framed (by rw [hlen]; decide) (by rw [hlen]; decide) rest

/-- Where tags are not forged and challenges are distinct, every admission has an answer of its
own that a client signed. -/
theorem admissions_signed (hmac_len : ∀ key message, (hmac key message).length = 32)
    (hrun : exec (StatusServer.step hmac) (start key) labels = some (s, events))
    (hunforged : Unforged hmac s events) (hfresh : ((challenges events).map Prod.snd).Nodup) :
    (∀ id nonce, (id, nonce) ∈ admitted events →
      ∃ message ∈ s.signed, message.take NONCE_LEN = nonce.val) ∧
      (admitted events).length ≤ s.signed.length := by
  have h := run_sound hrun
  have hsigned : ∀ id nonce, (id, nonce) ∈ admitted events →
      ∃ message ∈ s.signed, message.take NONCE_LEN = nonce.val := by
    intro id nonce hadmitted
    obtain ⟨rest, hserved⟩ := h.served hadmitted
    obtain ⟨_, ⟨head, hhead, rfl⟩, harrived⟩ := hserved.arrived
    have hmessage : (nonce.val ++ head).length = AUTH_MESSAGE_LEN := by
      rw [List.length_append, nonce.property, hhead]
      rfl
    rw [List.append_assoc] at harrived
    have hread := harrived ▸ read_answer hmac_len key hmessage _
    have hmem := hunforged id _ _ hread
    rw [List.take_left' hmessage, List.drop_left' hmessage, h.keyed] at hmem
    exact ⟨_, hmem rfl, List.take_left' nonce.property⟩
  refine ⟨hsigned, ?_⟩
  -- distinct nonces, each the head of a message of its own
  have hnodup : ((admitted events).map fun entry => entry.2.val).Nodup := by
    have hvals := (h.nonces_nodup hfresh).map Subtype.val_injective
    rwa [List.map_map] at hvals
  have hsub : ((admitted events).map fun entry => entry.2.val) ⊆
      s.signed.map (·.take NONCE_LEN) := by
    intro bytes hbytes
    obtain ⟨⟨id, nonce⟩, hadmitted, rfl⟩ := List.mem_map.mp hbytes
    obtain ⟨message, hmessage, htake⟩ := hsigned id nonce hadmitted
    exact List.mem_map.mpr ⟨message, hmessage, htake⟩
  simpa using (hnodup.subperm hsub).length_le

theorem admissions_signed_sample : ∃ s events,
    exec (StatusServer.step sample_hmac) (start sample_token) sample_labels = some (s, events) ∧
      (admitted events).length = 1 ∧ (admitted events).length ≤ s.signed.length := by
  obtain ⟨s, events, hrun, hone, hfresh, hids, hread, hother, hsigned⟩ : ∃ s events,
      exec (StatusServer.step sample_hmac) (start sample_token) sample_labels = some (s, events) ∧
        (admitted events).length = 1 ∧ ((challenges events).map Prod.snd).Nodup ∧
        (∀ event ∈ events, event.conn = 0 ∨ event.conn = 1) ∧
        read_frame (arrived (talk 0 events)) =
          .frame (auth_payload sample_hmac sample_token 0x01020304 sample_nonce)
            (framed 4 REQUEST) ∧
        read_frame (arrived (talk 1 events)) = .frame [9] [] ∧
        s.signed = [auth_message sample_nonce 0x01020304] :=
    ⟨_, _, rfl, by decide, by decide, by decide, by decide, by decide, by decide⟩
  have hunforged : Unforged sample_hmac s events := by
    intro id auth rest hframe htag
    by_cases h0 : id = 0
    · subst h0
      obtain ⟨rfl, -⟩ := Unframed.frame.inj (hread.symm.trans hframe)
      rw [hsigned]
      decide
    · by_cases h1 : id = 1
      · subst h1
        obtain ⟨rfl, -⟩ := Unframed.frame.inj (hother.symm.trans hframe)
        have hbad : sample_hmac [] (([9] : Bytes).take AUTH_MESSAGE_LEN) ≠
            ([9] : Bytes).drop AUTH_MESSAGE_LEN := by decide
        exact absurd htag hbad
      · have hnone : talk id events = [] := by
          refine List.filter_eq_nil_iff.mpr fun event hevent => ?_
          rw [beq_iff_eq]
          rcases hids event hevent with h | h
          · omega
          · omega
        have hmore : read_frame (arrived []) = .more := rfl
        rw [hnone, hmore] at hframe
        contradiction
  exact ⟨s, events, hrun, hone,
    (admissions_signed (fun _ _ => rfl) hrun hunforged hfresh).2⟩

/-! ## The honest client -/

/-- Where challenges are distinct, a client that answers its own is not turned away, whatever
goes on beside it and however its bytes are cut. -/
theorem honest_not_refused (hmac_len : ∀ key message, (hmac key message).length = 32)
    (hrun : exec (StatusServer.step hmac) (start key) labels = some (s, events))
    (hfresh : ((challenges events).map Prod.snd).Nodup) {nonce : Nonce}
    (hchallenge : (id, nonce) ∈ challenges events) {sid : ℕ} {more tail : Bytes}
    (hhonest : arrived (talk id events) ++ more =
      framed 4 (auth_payload hmac key sid nonce) ++ tail) :
    id ∉ refused events := by
  have h := run_sound hrun
  intro hrefused
  obtain ⟨event, hevent, hid⟩ := List.mem_filterMap.mp hrefused
  obtain ⟨rejection, rfl⟩ : ∃ rejection, event = .refused id rejection := by
    cases event with
    | refused k rejection =>
      obtain rfl := Option.some.inj hid
      exact ⟨rejection, rfl⟩
    | _ => contradiction
  obtain ⟨hnone, -, challenged, hchallenges, ⟨auth, rest, hread, hground⟩, hused⟩ :=
    h.refusal hevent
  have hown : (id, nonce) ∈ challenges (talk id events) := by
    rw [challenges_talk]
    exact List.mem_filter.mpr ⟨hchallenge, beq_self_eq_true id⟩
  rw [hchallenges, List.mem_singleton, Prod.mk.injEq] at hown
  obtain ⟨-, rfl⟩ := hown
  -- what was read is the answer, since more bytes do not change the frame
  have hmessage : (auth_message nonce sid).length = AUTH_MESSAGE_LEN := by
    rw [auth_message, List.length_append, nonce.property, length_toBigEndian]
    rfl
  have hanswer := unframe_append_frame hread more
  rw [hhonest] at hanswer
  obtain ⟨rfl, -⟩ := Unframed.frame.inj
    ((read_answer hmac_len key hmessage tail).symm.trans hanswer)
  have hok : check_auth hmac key nonce _ = .ok () :=
    check_auth_payload hmac_len sid nonce
  rcases hground with hbad | ⟨-, rfl⟩
  · exact absurd (hok.symm.trans hbad) (by simp)
  -- and its nonce is nobody else's
  · obtain ⟨⟨k, nonce⟩, hadmitted, rfl⟩ := List.mem_map.mp (hused rfl)
    obtain ⟨rest, hserved⟩ := h.served hadmitted
    have hother := mem_challenges_of_talk hserved.challenged
    obtain ⟨rfl, -⟩ := Prod.mk.inj (List.inj_on_of_nodup_map hfresh hother hchallenge rfl)
    have hown := hserved.admitted
    rw [hnone] at hown
    contradiction

theorem honest_not_refused_sample : ∃ s events,
    exec (StatusServer.step sample_hmac) (start sample_token) sample_labels = some (s, events) ∧
      refused events = [1] ∧ 0 ∉ refused events := by
  obtain ⟨s, events, hrun, hrefused, hfresh, hchallenge, harrived⟩ : ∃ s events,
      exec (StatusServer.step sample_hmac) (start sample_token) sample_labels = some (s, events) ∧
        refused events = [1] ∧ ((challenges events).map Prod.snd).Nodup ∧
        (0, sample_nonce) ∈ challenges events ∧
        arrived (talk 0 events) ++ [] = sample_answer ++ framed 4 REQUEST :=
    ⟨_, _, rfl, by decide, by decide, by decide, by decide⟩
  exact ⟨s, events, hrun, hrefused,
    honest_not_refused (fun _ _ => rfl) hrun hfresh hchallenge harrived⟩

/-- A client that reads so many frames. -/
def read_frames (count : ℕ) (stream : Bytes) : Option (List Bytes × Bytes) :=
  unframe_many 4 frame_length count stream

theorem read_frames_framed {payloads : List Bytes}
    (h : ∀ payload ∈ payloads, payload ≠ [] ∧ payload.length ≤ MAX_FRAME_PAYLOAD) (rest : Bytes) :
    read_frames payloads.length ((payloads.map (framed 4)).flatten ++ rest) =
      some (payloads, rest) := by
  refine unframe_many_framed (fun payload hpayload => ?_) rest
  obtain ⟨hne, hlen⟩ := h payload hpayload
  have hpos := List.length_pos_iff.mpr hne
  have hmax : MAX_FRAME_PAYLOAD = 65536 := rfl
  refine ⟨by omega, ?_⟩
  simp [frame_length, hlen, hne]

/-- Requests that have arrived are served one by one, up to the quota. -/
theorem serve_requests {conn : StatusConn} {served : ℕ} {bodies : List Bytes} {rest : Bytes}
    (hconn : s.conns.lookup id = some conn) (hstage : bodies ≠ [] → conn.stage = .serving served)
    (hmany : served + bodies.length ≤ MAX_SNAPSHOTS_PER_CONNECTION)
    (hsize : ∀ body ∈ bodies, body.length ≤ MAX_FRAME_PAYLOAD)
    (hinbox : conn.inbox = (List.replicate bodies.length (framed 4 REQUEST)).flatten ++ rest) :
    ∃ s', exec (StatusServer.step hmac) s (bodies.map fun body => .serve id (some body) true) =
      some (s', bodies.map (.snapshot id)) := by
  induction bodies generalizing s conn served with
  | nil => exact ⟨s, rfl⟩
  | cons body bodies ih =>
    have hserving := hstage (List.cons_ne_nil body bodies)
    rw [List.length_cons] at hmany hinbox
    have hread : read_frame conn.inbox =
        .frame REQUEST ((List.replicate bodies.length (framed 4 REQUEST)).flatten ++ rest) := by
      rw [hinbox, List.replicate_succ, List.flatten_cons, List.append_assoc]
      exact unframe_framed (by decide) (by decide) _
    have hwrite : ((some body).filter fun body => true && (write_frame body).isSome) =
        some body := by
      have hfits := hsize body List.mem_cons_self
      simp [write_frame, Nat.not_lt.mpr hfits]
    -- the round takes one request off the inbox
    obtain ⟨conn', hstep, hinbox', hstage'⟩ : ∃ conn',
        StatusServer.step hmac s (.serve id (some body) true) =
          some (s.put id conn', [.snapshot id body]) ∧
        conn'.inbox = (List.replicate bodies.length (framed 4 REQUEST)).flatten ++ rest ∧
        conn'.stage = after_snapshot served := by
      refine ⟨{ conn with
        inbox := (List.replicate bodies.length (framed 4 REQUEST)).flatten ++ rest,
        stage := after_snapshot served }, ?_, rfl, rfl⟩
      simp only [StatusServer.step, hconn, hserving, StatusServer.serve, hread, hwrite, ne_eq,
        not_true_eq_false, if_false]
    have hnow : (s.put id conn').conns.lookup id = some conn' := AList.lookup_insert _
    have hmore : bodies ≠ [] → conn'.stage = .serving (served + 1) := by
      intro hne
      have hlen := List.length_pos_iff.mpr hne
      rw [hstage']
      exact if_pos (by omega)
    obtain ⟨s', hrest⟩ := ih hnow hmore (by omega)
      (fun b hb => hsize b (List.mem_cons_of_mem body hb)) hinbox'
    exact ⟨s', exec_cons_eq_some.mpr ⟨_, _, _, hstep, hrest, rfl⟩⟩

/-- A good answer to a fresh challenge is let in. -/
theorem let_in {conn : StatusConn} {auth rest : Bytes}
    (hconn : s.conns.lookup id = some conn) (hstage : conn.stage = .auth)
    (hread : read_frame conn.inbox = .frame auth rest)
    (hok : check_auth hmac s.key conn.nonce auth = .ok ()) (hfresh : conn.nonce ∉ s.seen) :
    ∃ s' conn', exec (StatusServer.step hmac) s [.read_auth id, .pass_gate id] =
        some (s', [.admitted id conn.nonce]) ∧
      s'.conns.lookup id = some conn' ∧ conn'.inbox = rest ∧ conn'.stage = .serving 0 := by
  have hauth : StatusServer.step hmac s (.read_auth id) =
      some (s.put id { conn with inbox := rest, stage := .gate }, []) := by
    simp only [StatusServer.step, hconn, hstage, StatusServer.read_auth, hread, hok, if_true]
  have hgate : StatusServer.step hmac (s.put id { conn with inbox := rest, stage := .gate })
      (.pass_gate id) = some ({ (s.put id { conn with inbox := rest, stage := .gate }).put id
        { conn with inbox := rest, stage := .serving 0 } with
          seen := keep_last MAX_SEEN_NONCES (s.seen ++ [conn.nonce]) },
        [.admitted id conn.nonce]) := by
    rw [StatusServer.step, put, AList.lookup_insert]
    exact (if_pos rfl).trans (congrArg some (if_neg hfresh))
  exact ⟨_, _, exec_cons_eq_some.mpr ⟨_, _, _, hauth, exec_singleton hgate, rfl⟩,
    AList.lookup_insert _, rfl, rfl⟩

/-- Where the answer and the requests of a client have arrived, and its nonce is not in the
history, it is served, and reads back its challenge and the snapshots. -/
theorem honest_served (hmac_len : ∀ key message, (hmac key message).length = 32)
    (hrun : exec (StatusServer.step hmac) (start key) labels = some (s, events))
    {conn : StatusConn} (hconn : s.conns.lookup id = some conn) (hstage : conn.stage = .auth)
    (hfresh : conn.nonce ∉ s.seen) {bodies : List Bytes}
    (hmany : bodies.length ≤ MAX_SNAPSHOTS_PER_CONNECTION)
    (hsize : ∀ body ∈ bodies, body ≠ [] ∧ body.length ≤ MAX_FRAME_PAYLOAD)
    {sid : ℕ} {rest : Bytes}
    (hhonest : arrived (talk id events) =
      framed 4 (auth_payload hmac key sid conn.nonce) ++
        ((List.replicate bodies.length (framed 4 REQUEST)).flatten ++ rest)) :
    ∃ s' new, exec (StatusServer.step hmac) s
        ([.read_auth id, .pass_gate id] ++ bodies.map fun body => .serve id (some body) true) =
          some (s', new) ∧
      read_frames (bodies.length + 1) (written (talk id (events ++ new))) =
        some (conn.nonce.val :: bodies, []) := by
  have h := run_sound hrun
  obtain rfl := h.keyed
  have hconv := h.conns hconn
  rw [Conversation, hstage] at hconv
  obtain ⟨hundecided, hinbox⟩ := hconv
  have hmessage : (auth_message conn.nonce sid).length = AUTH_MESSAGE_LEN := by
    rw [auth_message, List.length_append, conn.nonce.property, length_toBigEndian]
    rfl
  have hread := read_answer hmac_len s.key hmessage
    ((List.replicate bodies.length (framed 4 REQUEST)).flatten ++ rest)
  rw [← auth_payload, ← hhonest, hinbox] at hread
  obtain ⟨s₁, conn₁, hin, hconn₁, hinbox₁, hstage₁⟩ := let_in hconn hstage hread
    (check_auth_payload hmac_len sid conn.nonce) hfresh
  obtain ⟨s', hserve⟩ := serve_requests hconn₁ (fun _ => hstage₁) (by omega)
    (fun body hbody => (hsize body hbody).2) hinbox₁
  refine ⟨s', _, exec_append hin hserve, ?_⟩
  have hnew : ∀ event ∈ [StatusEvent.admitted id conn.nonce] ++ bodies.map (.snapshot id),
      event.conn = id := by
    intro event hevent
    rcases List.mem_append.mp hevent with hevent | hevent
    · rw [List.mem_singleton.mp hevent]
      rfl
    · obtain ⟨body, -, rfl⟩ := List.mem_map.mp hevent
      rfl
  -- what the server wrote on this connection, frame by frame
  have hwritten : written (talk id (events ++ ([StatusEvent.admitted id conn.nonce] ++
      bodies.map (.snapshot id)))) = ((conn.nonce.val :: bodies).map (framed 4)).flatten ++ [] := by
    rw [talk_append, talk_own hnew, written_append, written_challenges hundecided.snapshots,
      hundecided.challenged, written_append, written_snapshots, List.append_nil, List.map_cons,
      List.flatten_cons]
    exact congrArg (· ++ _) (List.append_nil _)
  rw [hwritten]
  have hframes : ∀ payload ∈ conn.nonce.val :: bodies,
      payload ≠ [] ∧ payload.length ≤ MAX_FRAME_PAYLOAD := by
    intro payload hpayload
    rcases List.mem_cons.mp hpayload with rfl | hbody
    · rw [← List.length_pos_iff, conn.nonce.property]
      decide
    · exact hsize payload hbody
  exact read_frames_framed hframes []

theorem honest_served_sample : ∃ s events,
    exec (StatusServer.step sample_hmac) (start sample_token) sample_arrivals = some (s, events) ∧
      ∃ s' new, exec (StatusServer.step sample_hmac) s
          [.read_auth 0, .pass_gate 0, .serve 0 (some [123, 125]) true] = some (s', new) ∧
        read_frames 2 (written (talk 0 (events ++ new))) =
          some ([sample_nonce.val, [123, 125]], []) := by
  obtain ⟨s, events, conn, hrun, hconn, hstage, hnonce, hseen, harrived⟩ : ∃ s events conn,
      exec (StatusServer.step sample_hmac) (start sample_token) sample_arrivals =
          some (s, events) ∧ s.conns.lookup 0 = some conn ∧ conn.stage = .auth ∧
        conn.nonce = sample_nonce ∧ s.seen = [] ∧
        arrived (talk 0 events) = sample_answer ++ framed 4 REQUEST :=
    ⟨_, _, _, rfl, rfl, rfl, rfl, rfl, by decide⟩
  have hsize : ∀ body ∈ [[(123 : UInt8), 125]], body ≠ [] ∧ body.length ≤ MAX_FRAME_PAYLOAD := by
    decide
  have hfresh : conn.nonce ∉ s.seen := by simp [hseen]
  have hserved := honest_served (fun _ _ => rfl) hrun hconn hstage hfresh (by decide) hsize
    (by rw [harrived, hnonce]; exact congrArg (sample_answer ++ ·) (List.append_nil _).symm)
  rw [hnonce] at hserved
  exact ⟨s, events, hrun, hserved⟩

end StatusServer

end StreamGuard.Service
