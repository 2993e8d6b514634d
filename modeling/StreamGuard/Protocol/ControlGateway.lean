/-
The answers of a gateway.

A request is looked up in the completed cache before anything else, an attach then
in the table of path nonces. What is proved here is what these two lookups do to
the answers: an acknowledgement that the cache shadows, a nonce that outlives its
path, and path identifiers, which are allocated once.
-/
import StreamGuard.Protocol.ControlRuns

set_option autoImplicit false

namespace StreamGuard.Control

open StreamGuard StreamGuard.Lib

/-- The frame the caller sends. -/
def ControlAction.answer : ControlAction → Option ControlFrame
  | .None => none
  | .Reply frame => some frame
  | .Replay frame => some frame

/-- The session and the nonce of a `PathAttach`. -/
def ControlMessage.path_attach : ControlMessage → Option (SessionId × BitVec 128)
  | .PathAttach session_id path_nonce _ _ _ => some (session_id, path_nonce)
  | _ => none

/-- The path and the epoch a `PathAttached` names. -/
def ControlMessage.attached_path : ControlMessage → Option (PathId × U64)
  | .PathAttached _ path_id path_epoch => some (path_id, path_epoch)
  | _ => none

theorem ControlMessage.path_attach_eq_some {message : ControlMessage} {session_id : SessionId}
    {path_nonce : BitVec 128} :
    message.path_attach = some (session_id, path_nonce) ↔ ∃ path_epoch key_epoch metadata,
      message = .PathAttach session_id path_nonce path_epoch key_epoch metadata := by
  constructor
  · intro h
    cases message with
    | PathAttach _ _ path_epoch key_epoch metadata =>
      obtain ⟨rfl, rfl⟩ := step_inj h
      exact ⟨path_epoch, key_epoch, metadata, rfl⟩
    | _ => contradiction
  · rintro ⟨path_epoch, key_epoch, metadata, rfl⟩
    rfl

theorem ControlMessage.attached_path_eq_some {message : ControlMessage} {path_id : PathId}
    {path_epoch : U64} :
    message.attached_path = some (path_id, path_epoch) ↔
      ∃ session_id, message = .PathAttached session_id path_id path_epoch := by
  constructor
  · intro h
    cases message with
    | PathAttached session_id =>
      obtain ⟨rfl, rfl⟩ := step_inj h
      exact ⟨session_id, rfl⟩
    | _ => contradiction
  · rintro ⟨session_id, rfl⟩
    rfl

namespace ControlConnectionState

variable {s t : ControlConnectionState} {frame : ControlFrame} {now_ms : ℕ}

/-! ## The completed cache -/

/-- A live entry of the cache has this transaction ID. -/
def remembered (s : ControlConnectionState) (transaction_id : U64) (now_ms : ℕ) : Prop :=
  ∃ entry ∈ s.completed, now_ms < entry.expires_at_ms ∧
    entry.request.transaction_id = transaction_id

instance (transaction_id : U64) (now_ms : ℕ) : Decidable (s.remembered transaction_id now_ms) :=
  inferInstanceAs (Decidable (∃ _ ∈ _, _ ∧ _))

theorem completed_action_eq_none :
    s.completed_action frame = none ↔
      ∀ entry ∈ s.completed, entry.request.transaction_id ≠ frame.transaction_id := by
  rw [completed_action, Option.map_eq_none_iff, List.find?_eq_none]
  simp only [decide_eq_true_eq]

theorem mem_prune_completed {entry : CompletedRequest} :
    entry ∈ (s.prune now_ms).completed ↔ entry ∈ s.completed ∧ now_ms < entry.expires_at_ms := by
  change entry ∈ s.completed.filter _ ↔ _
  rw [List.mem_filter, decide_eq_true_eq]

/-- The lookup after pruning finds nothing exactly when no live entry has the ID. -/
theorem completed_action_prune_eq_none :
    (s.prune now_ms).completed_action frame = none ↔
      ¬ s.remembered frame.transaction_id now_ms := by
  rw [completed_action_eq_none, remembered]
  constructor
  · rintro hnone ⟨entry, hmem, hlive, htid⟩
    exact hnone entry (mem_prune_completed.mpr ⟨hmem, hlive⟩) htid
  · intro hnone entry hmem htid
    obtain ⟨hmem, hlive⟩ := mem_prune_completed.mp hmem
    exact hnone ⟨entry, hmem, hlive, htid⟩

/-- What the lookup finds is an entry with the ID of the frame. -/
theorem completed_action_eq_some {action : ControlAction}
    (h : s.completed_action frame = some action) :
    ∃ entry ∈ s.completed, entry.request.transaction_id = frame.transaction_id ∧
      action = if entry.request = frame then .Replay entry.response
        else .Reply (reject frame.transaction_id .InvalidRequest "transaction replay changed") := by
  rw [completed_action, Option.map_eq_some_iff] at h
  obtain ⟨entry, hfind, rfl⟩ := h
  have htid := List.find?_some hfind
  exact ⟨entry, List.mem_of_find?_eq_some hfind, of_decide_eq_true htid, rfl⟩

/-- The cache answers every frame it knows with a frame. -/
theorem completed_action_ne_None : s.completed_action frame ≠ some .None := by
  intro h
  obtain ⟨entry, -, -, haction⟩ := completed_action_eq_some h
  split at haction
  · contradiction
  · contradiction

/-- What `remember` keeps of the cache: all of it, or all but the oldest entry when it
is full. -/
def kept (s : ControlConnectionState) : List CompletedRequest :=
  if s.completed.length = s.config.completed_request_capacity then s.completed.tail
  else s.completed

theorem completed_remember {request response : ControlFrame} :
    (s.remember request response now_ms).completed = s.kept ++
      [⟨request, response, saturatingAdd now_ms s.config.completed_request_ttl_ms⟩] := rfl

theorem kept_sublist (s : ControlConnectionState) : s.kept.Sublist s.completed := by
  rw [kept]
  split
  · exact List.tail_sublist _
  · exact List.Sublist.refl _

/-- There is room for one more entry. -/
theorem length_kept_lt (s : ControlConnectionState)
    (hcapacity : s.config.completed_request_capacity ≠ 0)
    (hlen : s.completed.length ≤ s.config.completed_request_capacity) :
    s.kept.length < s.config.completed_request_capacity := by
  rw [kept]
  split
  · rw [List.length_tail]
    omega
  · omega

/-! ## Acknowledgements of policy updates -/

/-- The live update `frame` would acknowledge, by transaction ID alone. -/
def pending_update (s : ControlConnectionState) (frame : ControlFrame) (now_ms : ℕ) :
    Option PendingPolicyUpdate :=
  (s.pending_policy_updates.lookup frame.transaction_id).filter
    (fun pending => now_ms < pending.expires_at_ms)

/-- The call delivers an acknowledgement of a live update to an Active gateway
whose admission is not over. -/
def delivers_ack (s : ControlConnectionState) : ControlCall → Prop
  | .on_outbound .. => False
  | .on_inbound frame now_ms => s.role = .Gateway ∧ s.phase = .Active ∧ ¬ s.expires now_ms ∧
      frame.message = .Ack ∧ (s.pending_update frame now_ms).isSome

instance (s : ControlConnectionState) : ∀ call, Decidable (s.delivers_ack call)
  | .on_outbound .. => inferInstanceAs (Decidable False)
  | .on_inbound .. => inferInstanceAs (Decidable (_ ∧ _ ∧ _ ∧ _ ∧ _))

/-- The update takes effect: its epoch is set, the entry is gone, nothing is answered. -/
def commits_update (s : ControlConnectionState) : ControlCall → Prop
  | .on_outbound .. => True
  | .on_inbound frame now_ms =>
    (s.on_inbound frame now_ms).2 = .ok .None ∧
    some (s.on_inbound frame now_ms).1.policy_epoch =
      (s.pending_update frame now_ms).map (·.policy_epoch) ∧
    (s.on_inbound frame now_ms).1.pending_policy_updates.lookup frame.transaction_id = none

/-- A request under the same number is still in the completed cache. -/
def shadows (s : ControlConnectionState) : ControlCall → Prop
  | .on_outbound .. => False
  | .on_inbound frame now_ms => s.remembered frame.transaction_id now_ms

instance (s : ControlConnectionState) : ∀ call, Decidable (s.shadows call)
  | .on_outbound .. => inferInstanceAs (Decidable False)
  | .on_inbound frame now_ms =>
    inferInstanceAs (Decidable (s.remembered frame.transaction_id now_ms))

theorem lookup_prune_updates (s : ControlConnectionState) (frame : ControlFrame) (now_ms : ℕ) :
    (s.prune now_ms).pending_policy_updates.lookup frame.transaction_id =
      s.pending_update frame now_ms := by
  change (s.pending_policy_updates.retain _).lookup _ = _
  rw [AList.lookup_retain]
  rfl

/-- One delivery commits the update exactly when the cache does not shadow it. -/
theorem commits_update_iff (call : ControlCall) (h : s.delivers_ack call) :
    s.commits_update call ↔ ¬ s.shadows call := by
  cases call with
  | on_outbound => exact h.elim
  | on_inbound frame now_ms =>
    obtain ⟨hrole, hphase, hlive, hack, hpending⟩ := h
    obtain ⟨pending, hpending⟩ := Option.isSome_iff_exists.mp hpending
    have hinbound : s.on_inbound frame now_ms = (s.prune now_ms).gateway_inbound frame now_ms := by
      rw [s.on_inbound_of_live hlive, hrole]
    rw [commits_update, shadows, hinbound, hpending]
    cases hcached : (s.prune now_ms).completed_action frame with
    | some action =>
      have hshadow : s.remembered frame.transaction_id now_ms := by
        by_contra hnot
        rw [completed_action_prune_eq_none.mpr hnot] at hcached
        contradiction
      refine iff_of_false ?_ (not_not.mpr hshadow)
      rintro ⟨hnone, -⟩
      rw [gateway_inbound, hcached] at hnone
      obtain rfl := Except.ok.inj hnone
      exact completed_action_ne_None hcached
    | none =>
      refine iff_of_true ?_ (completed_action_prune_eq_none.mp hcached)
      have hlookup := lookup_prune_updates s frame now_ms
      rw [hpending] at hlookup
      have hgateway : (s.prune now_ms).gateway_inbound frame now_ms =
          ({ s.prune now_ms with
              pending_policy_updates :=
                (s.prune now_ms).pending_policy_updates.erase frame.transaction_id
              policy_epoch := pending.policy_epoch }, .ok .None) := by
        obtain ⟨tid, message⟩ := frame
        obtain rfl : message = .Ack := hack
        rw [gateway_inbound, hcached]
        dsimp only
        rw [if_pos (show (s.prune now_ms).phase = .Active from hphase)]
        dsimp only at hlookup
        rw [hlookup]
      rw [hgateway]
      exact ⟨rfl, rfl, AList.lookup_erase _ _⟩

/-- **Along a run, every acknowledgement of a live update takes effect exactly when no
such acknowledgement comes while the completed cache holds a request under its number.** -/
theorem ack_commits_iff (s : ControlConnectionState) (calls : List ControlCall) :
    Along step (fun s call => s.delivers_ack call → s.commits_update call) s calls ↔
      Along step (fun s call => s.delivers_ack call → ¬ s.shadows call) s calls := by
  refine along_iff_along (I := fun _ => True) (fun _ _ _ _ _ _ => trivial) ?_ trivial calls
  intro u call _
  exact forall_congr' (commits_update_iff call)

/-- The client attached a path under number 2 and the gateway sends its update under
the same number: the acknowledgement is answered with a reject and does nothing. -/
theorem ack_shadowed :
    ¬ ∀ (s : ControlConnectionState) (calls : List ControlCall), s.Reachable →
      Along step (fun s call => s.delivers_ack call → s.commits_update call) s calls := by
  intro hall
  obtain ⟨-, -, -, hack, -⟩ := hall Sample.gateway [.on_inbound (Sample.hello 1) 0,
    .on_inbound (Sample.attach 2 0x66 7) 1, .on_outbound (Sample.update 2 2) 2,
    .on_inbound (ack 2) 3] Sample.gateway_fresh.reachable
  exact absurd ((commits_update_iff _ (by decide)).mp (hack (by decide))) (by decide)

/-! ## Answers to a path attach -/

/-- The call delivers an attach that the completed cache does not answer. -/
def delivers_attach (s : ControlConnectionState) : ControlCall → Prop
  | .on_outbound .. => False
  | .on_inbound frame now_ms => s.role = .Gateway ∧
      ¬ s.remembered frame.transaction_id now_ms ∧ frame.message.path_attach.isSome

instance (s : ControlConnectionState) : ∀ call, Decidable (s.delivers_attach call)
  | .on_outbound .. => inferInstanceAs (Decidable False)
  | .on_inbound .. => inferInstanceAs (Decidable (_ ∧ _ ∧ _))

/-- A path named in the answer is live right after the call: it is bound to the epoch
named, and no request for it is refused as unknown. -/
def answers_live_path (s : ControlConnectionState) : ControlCall → Prop
  | .on_outbound .. => True
  | .on_inbound frame now_ms => ∀ action reply session_id path_id path_epoch,
      (s.on_inbound frame now_ms).2 = .ok action → action.answer = some reply →
      reply.message = .PathAttached session_id path_id path_epoch →
      (s.on_inbound frame now_ms).1.path_epoch path_id = some path_epoch ∧
      ∀ session_id' path_epoch', (s.on_inbound frame now_ms).1.path_request_code session_id' path_id
        path_epoch' ≠ some .UnknownPath

/-- The path an attach was answered with is no longer bound to its epoch. -/
def unbound (s : ControlConnectionState) (response : ControlMessage) : Prop :=
  ∃ path ∈ response.attached_path, s.path_epoch path.1 ≠ some path.2

instance (s : ControlConnectionState) (response : ControlMessage) : Decidable (s.unbound response) :=
  inferInstanceAs (Decidable (∃ _ ∈ response.attached_path, _))

/-- The nonce of an attach is recorded for this very request, and the recorded path is
gone. -/
def names_dead_path (s : ControlConnectionState) : ControlCall → Prop
  | .on_outbound .. => False
  | .on_inbound frame now_ms => ¬ s.expires now_ms ∧ ∃ attach ∈ frame.message.path_attach,
      s.active_session attach.1 ∧ ∃ existing ∈ s.attachments.lookup attach.2,
        existing.request = frame.message ∧ s.unbound existing.response

instance (s : ControlConnectionState) : ∀ call, Decidable (s.names_dead_path call)
  | .on_outbound .. => inferInstanceAs (Decidable False)
  | .on_inbound .. => inferInstanceAs (Decidable (_ ∧ ∃ _ ∈ _, _ ∧ ∃ _ ∈ _, _ ∧ _))

theorem path_request_code_ne_unknown {session_id : SessionId} {path_id : PathId}
    {path_epoch current : U64} (h : s.path_epoch path_id = some current) :
    s.path_request_code session_id path_id path_epoch ≠ some .UnknownPath := by
  rw [path_request_code, h]
  split
  · decide
  · dsimp only
    split
    · decide
    · decide

/-- A recorded nonce with the same request is answered from the record. -/
theorem gateway_path_attach_of_recorded {session_id : SessionId} {path_nonce : BitVec 128}
    {existing : AttachmentRecord} (hactive : s.active_session session_id)
    (hnonce : s.attachments.lookup path_nonce = some existing)
    (hsame : existing.request = frame.message) :
    s.gateway_path_attach frame session_id path_nonce now_ms =
      (s.remember frame ⟨frame.transaction_id, existing.response⟩ now_ms,
        .ok (.Replay ⟨frame.transaction_id, existing.response⟩)) := by
  rw [gateway_path_attach]
  dsimp only
  rw [if_neg (not_not.mpr hactive), hnonce]
  dsimp only
  rw [if_neg (not_not.mpr hsame)]

/-- An attach the cache does not know is answered by its own handler. -/
theorem on_inbound_attach (hrole : s.role = .Gateway) (hlive : ¬ s.expires now_ms)
    (hfresh : ¬ s.remembered frame.transaction_id now_ms) {session_id : SessionId}
    {path_nonce : BitVec 128} (hattach : frame.message.path_attach = some (session_id, path_nonce)) :
    s.on_inbound frame now_ms =
      (s.prune now_ms).gateway_path_attach frame session_id path_nonce now_ms := by
  obtain ⟨path_epoch, key_epoch, metadata, hmessage⟩ := ControlMessage.path_attach_eq_some.mp hattach
  obtain ⟨tid, message⟩ := frame
  obtain rfl : message = _ := hmessage
  rw [s.on_inbound_of_live hlive, hrole]
  dsimp only
  rw [gateway_inbound, completed_action_prune_eq_none.mpr hfresh]

/-- One attach is answered with a live path exactly when it does not name a dead one. -/
theorem answers_live_path_iff (hs : s.Wellformed) (call : ControlCall)
    (h : s.delivers_attach call) : s.answers_live_path call ↔ ¬ s.names_dead_path call := by
  cases call with
  | on_outbound => exact h.elim
  | on_inbound frame now_ms =>
    obtain ⟨hrole, hfresh, -⟩ := h
    constructor
    · -- the record is answered as it stands, whatever became of its path
      rintro hanswers ⟨hlive, ⟨session_id, path_nonce⟩, hattach, hactive, existing, hnonce, hsame,
        hunbound⟩
      have hinbound := on_inbound_attach hrole hlive hfresh hattach
      rw [gateway_path_attach_of_recorded (s := s.prune now_ms) hactive hnonce hsame] at hinbound
      obtain ⟨⟨path_id, path_epoch'⟩, hpath, hunbound⟩ := hunbound
      obtain ⟨session_id', hresponse⟩ := ControlMessage.attached_path_eq_some.mp hpath
      have hbound := (hanswers _ _ session_id' path_id path_epoch' (by rw [hinbound]) rfl
        hresponse).1
      rw [hinbound] at hbound
      exact hunbound hbound
    · intro hdead action reply session_id' path_id path_epoch' haction hanswer hreply
      -- being bound is all there is to show
      refine and_iff_left_of_imp (fun hbound _ _ => path_request_code_ne_unknown hbound) |>.mpr ?_
      have heffect := s.apply_effect hs (.on_inbound frame now_ms)
      rw [apply_on_inbound, haction] at heffect
      generalize (s.on_inbound frame now_ms).1 = t at heffect ⊢
      cases heffect with
      | late_inbound =>
        obtain rfl := Option.some.inj hanswer
        contradiction
      | client_inbound hclient =>
        rw [hrole] at hclient
        contradiction
      | gateway_inbound _ hlive hreceived =>
        cases hreceived with
        | cached hcached =>
          rw [completed_action_prune_eq_none.mpr hfresh] at hcached
          contradiction
        | refused =>
          obtain rfl := Option.some.inj hanswer
          contradiction
        | admitted =>
          obtain rfl := Option.some.inj hanswer
          contradiction
        | attached _ _ _ _ _ hnext =>
          obtain rfl := Option.some.inj hanswer
          obtain ⟨-, rfl, rfl⟩ := ControlMessage.PathAttached.inj hreply
          exact AList.lookup_insert _
        | @reattached session_id path_nonce _ _ _ existing _ hmessage hactive hnonce hsame =>
          obtain rfl := Option.some.inj hanswer
          by_contra hunbound
          have hattach := ControlMessage.path_attach_eq_some.mpr ⟨_, _, _, hmessage⟩
          exact hdead ⟨hlive, (session_id, path_nonce), hattach, hactive, existing, hnonce, hsame,
            (path_id, path_epoch'), ControlMessage.attached_path_eq_some.mpr ⟨session_id', hreply⟩,
            hunbound⟩
        | confirmed =>
          obtain rfl := Option.some.inj hanswer
          contradiction
        | detached =>
          obtain rfl := Option.some.inj hanswer
          contradiction
        | closed =>
          obtain rfl := Option.some.inj hanswer
          contradiction
        | acknowledged => contradiction
        | declined => contradiction
        | unsolicited =>
          obtain rfl := Option.some.inj hanswer
          contradiction

/-- **Along a run, every attach is answered with a live path only, exactly when none
repeats a recorded request whose path is gone.** -/
theorem attach_answers_live_iff (hs : s.Reachable) (calls : List ControlCall) :
    Along step (fun s call => s.delivers_attach call → s.answers_live_path call) s calls ↔
      Along step (fun s call => s.delivers_attach call → ¬ s.names_dead_path call) s calls := by
  refine along_iff_along (I := Wellformed) ?_ ?_ hs.wellformed calls
  · intro u call u' o hu hstep
    obtain ⟨rfl, -⟩ := step_eq_some.mp hstep
    exact (apply_advance hu call).wellformed hu
  · intro u call hu
    exact forall_congr' (answers_live_path_iff hu call)

/-- The same attach again while its path is bound. -/
theorem attach_answers_live_sample :
    Along step (fun s call => s.delivers_attach call → s.answers_live_path call) Sample.gateway
      [.on_inbound (Sample.hello 1) 0, .on_inbound (Sample.attach 2 0x66 7) 1,
        .on_inbound (Sample.attach 3 0x66 7) 2] :=
  (attach_answers_live_iff Sample.gateway_fresh.reachable _).mpr (by decide)

/-- Attach, detach, and the attach once more: the answer names path 1, which is unbound. -/
theorem attach_answers_dead :
    ¬ ∀ (s : ControlConnectionState) (calls : List ControlCall), s.Reachable →
      Along step (fun s call => s.delivers_attach call → s.answers_live_path call) s calls := by
  intro hall
  obtain ⟨-, -, -, hattach, -⟩ := hall Sample.gateway [.on_inbound (Sample.hello 1) 0,
    .on_inbound (Sample.attach 2 0x66 7) 1, .on_inbound (Sample.detach 3 1 7) 2,
    .on_inbound (Sample.attach 4 0x66 7) 3] Sample.gateway_fresh.reachable
  have hwell := (Sample.gateway_fresh.reachable.run [.on_inbound (Sample.hello 1) 0,
    .on_inbound (Sample.attach 2 0x66 7) 1, .on_inbound (Sample.detach 3 1 7) 2]).wellformed
  exact absurd ((answers_live_path_iff hwell _ (by decide)).mp (hattach (by decide))) (by decide)

end ControlConnectionState

end StreamGuard.Control
