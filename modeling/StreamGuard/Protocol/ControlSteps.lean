/-
What one call can do to an endpoint.

The calls branch on role, phase, message kind, caches and tables. The relations
below say once what comes out of all these branches, one constructor for each thing
a call can do together with the guards it did it under: `GatewayInbound` and
`ClientInbound` for a frame of the peer, `Outbound` for a frame of its own.
Everything that is proved about runs goes through them.
-/
import StreamGuard.Protocol.ControlState

set_option autoImplicit false

namespace StreamGuard.Control

open StreamGuard StreamGuard.Lib

/-- The message kinds a gateway remembers its answer to. -/
def ControlMessage.is_request : ControlMessage → Bool
  | .ClientHello .. | .PathAttach .. | .PathDetach .. | .PathHealth .. | .Close .. => true
  | _ => false

/-- The message kinds that only answer another one. -/
def ControlMessage.is_answer : ControlMessage → Bool
  | .Ack | .Reject .. => true
  | _ => false

namespace ControlConnectionState

variable (s : ControlConnectionState)

/-- The admitted session of a gateway. -/
def admit_session (admission : VerifiedAdmission) : ControlConnectionState :=
  { s with
    session_id := some admission.session_id
    expires_at_ms := some admission.expires_at_ms
    policy_epoch := admission.policy_epoch
    phase := .Active }

/-- A path allocated for an attach request. -/
def attach_path (path_nonce : BitVec 128) (path_id : U16) (path_epoch : U64)
    (request response : ControlMessage) : ControlConnectionState :=
  { s with
    next_path_id := checked_succ path_id
    protocol_paths := s.protocol_paths.insert path_id path_epoch
    attachments := s.attachments.insert path_nonce ⟨request, response⟩ }

/-! ## The gateway receives -/

/-- What a frame of the peer does to a gateway whose tables are pruned. -/
inductive GatewayInbound (frame : ControlFrame) (now_ms : ℕ) :
    ControlConnectionState → ControlAction → Prop
  /-- The transaction is in the completed cache. -/
  | cached {action : ControlAction} (hcached : s.completed_action frame = some action) :
    GatewayInbound frame now_ms s action
  /-- A request is rejected and the reject remembered. -/
  | refused {code : RejectCode} {reason : String} (hfresh : s.completed_action frame = none)
    (hrequest : frame.message.is_request) :
    GatewayInbound frame now_ms
      (s.remember frame (reject frame.transaction_id code reason) now_ms)
      (.Reply (reject frame.transaction_id code reason))
  /-- The hello is accepted. -/
  | admitted {device_id : DeviceId} {gateway : String} {ticket : AdmissionTicket}
    {admission : VerifiedAdmission} (hfresh : s.completed_action frame = none)
    (hmessage : frame.message = .ClientHello device_id gateway ticket)
    (hphase : s.phase = .AwaitHello) (hadmission : s.verified_admission = some admission)
    (hlive : now_ms < admission.expires_at_ms.val) :
    GatewayInbound frame now_ms ((s.admit_session admission).remember frame
      (admission.admit_frame frame.transaction_id) now_ms)
      (.Reply (admission.admit_frame frame.transaction_id))
  /-- A path is allocated. -/
  | attached {session_id : SessionId} {path_nonce : BitVec 128} {path_epoch : U64}
    {key_epoch : U32} {metadata : Bytes} {path_id : U16}
    (hfresh : s.completed_action frame = none)
    (hmessage : frame.message = .PathAttach session_id path_nonce path_epoch key_epoch metadata)
    (hactive : s.active_session session_id) (hnonce : s.attachments.lookup path_nonce = none)
    (hcapacity : s.attachments.len ≠ s.config.attachment_capacity)
    (hnext : s.next_path_id = some path_id) :
    GatewayInbound frame now_ms
      ((s.attach_path path_nonce path_id path_epoch frame.message
        (.PathAttached session_id ⟨path_id⟩ path_epoch)).remember frame
          ⟨frame.transaction_id, .PathAttached session_id ⟨path_id⟩ path_epoch⟩ now_ms)
      (.Reply ⟨frame.transaction_id, .PathAttached session_id ⟨path_id⟩ path_epoch⟩)
  /-- A recorded nonce is answered again. -/
  | reattached {session_id : SessionId} {path_nonce : BitVec 128} {path_epoch : U64}
    {key_epoch : U32} {metadata : Bytes} {existing : AttachmentRecord}
    (hfresh : s.completed_action frame = none)
    (hmessage : frame.message = .PathAttach session_id path_nonce path_epoch key_epoch metadata)
    (hactive : s.active_session session_id)
    (hnonce : s.attachments.lookup path_nonce = some existing)
    (hsame : existing.request = frame.message) :
    GatewayInbound frame now_ms
      (s.remember frame ⟨frame.transaction_id, existing.response⟩ now_ms)
      (.Replay ⟨frame.transaction_id, existing.response⟩)
  /-- A path report is acknowledged. -/
  | confirmed {session_id : SessionId} {path_id : PathId} {path_epoch : U64} {rtt_ms loss_ppm : U32}
    (hfresh : s.completed_action frame = none)
    (hmessage : frame.message = .PathHealth session_id path_id path_epoch rtt_ms loss_ppm)
    (hactive : s.active_session session_id) (hpath : s.path_epoch path_id = some path_epoch) :
    GatewayInbound frame now_ms (s.remember frame (ack frame.transaction_id) now_ms)
      (.Reply (ack frame.transaction_id))
  /-- A path is detached. -/
  | detached {session_id : SessionId} {path_id : PathId} {path_epoch : U64} {reason : String}
    (hfresh : s.completed_action frame = none)
    (hmessage : frame.message = .PathDetach session_id path_id path_epoch reason)
    (hactive : s.active_session session_id) (hpath : s.path_epoch path_id = some path_epoch) :
    GatewayInbound frame now_ms
      ({ s with protocol_paths := s.protocol_paths.erase path_id.get }.remember frame
        (ack frame.transaction_id) now_ms)
      (.Reply (ack frame.transaction_id))
  /-- The session is closed. -/
  | closed {session_id : SessionId} {reason : String} (hfresh : s.completed_action frame = none)
    (hmessage : frame.message = .Close session_id reason) (hactive : s.active_session session_id) :
    GatewayInbound frame now_ms
      { s.remember frame (ack frame.transaction_id) now_ms with phase := .Closed }
      (.Reply (ack frame.transaction_id))
  /-- A pending policy update is acknowledged. -/
  | acknowledged {pending : PendingPolicyUpdate} (hfresh : s.completed_action frame = none)
    (hmessage : frame.message = .Ack) (hphase : s.phase = .Active)
    (hpending : s.pending_policy_updates.lookup frame.transaction_id = some pending) :
    GatewayInbound frame now_ms
      { s with
        pending_policy_updates := s.pending_policy_updates.erase frame.transaction_id
        policy_epoch := pending.policy_epoch } .None
  /-- A pending policy update is turned down by the client. -/
  | declined {code : RejectCode} {reason : String} {pending : PendingPolicyUpdate}
    (hfresh : s.completed_action frame = none) (hmessage : frame.message = .Reject code reason)
    (hphase : s.phase = .Active)
    (hpending : s.pending_policy_updates.lookup frame.transaction_id = some pending) :
    GatewayInbound frame now_ms
      { s with
        pending_policy_updates := s.pending_policy_updates.erase frame.transaction_id } .None
  /-- Anything else is rejected and not remembered. -/
  | unsolicited {code : RejectCode} {reason : String} (hfresh : s.completed_action frame = none)
    (hrequest : frame.message.is_request = false)
    (hpending : s.phase = .Active → frame.message.is_answer →
      s.pending_policy_updates.lookup frame.transaction_id = none) :
    GatewayInbound frame now_ms s (.Reply (reject frame.transaction_id code reason))

theorem path_request_code_eq_none {session_id : SessionId} {path_id : PathId} {path_epoch : U64} :
    s.path_request_code session_id path_id path_epoch = none ↔
      s.active_session session_id ∧ s.path_epoch path_id = some path_epoch := by
  unfold path_request_code
  by_cases hactive : s.active_session session_id
  · rw [if_neg (not_not.mpr hactive), and_iff_right hactive]
    cases hpath : s.path_epoch path_id with
    | none => simp
    | some current =>
      by_cases he : current = path_epoch
      · simp [he]
      · simp [he]
  · rw [if_pos hactive]
    simp [hactive]

/-- **Everything a gateway does with a frame.** -/
theorem gateway_inbound_cases (hadmission : s.verified_admission.isSome) (frame : ControlFrame)
    (now_ms : ℕ) : ∃ s' action, s.gateway_inbound frame now_ms = (s', .ok action) ∧
      s.GatewayInbound frame now_ms s' action := by
  rw [gateway_inbound]
  cases hcached : s.completed_action frame with
  | some action => exact ⟨_, _, rfl, .cached hcached⟩
  | none =>
  obtain ⟨tid, message⟩ := frame
  cases message with
  | ClientHello device_id gateway ticket =>
    dsimp only
    by_cases hphase : s.phase = .AwaitHello
    · rw [if_neg (not_not.mpr hphase)]
      split
      · next hnone =>
        rw [hnone] at hadmission
        contradiction
      · next admission ha =>
        by_cases hlive : admission.expires_at_ms.val ≤ now_ms
        · rw [if_pos hlive]
          exact ⟨_, _, rfl, .refused hcached rfl⟩
        · rw [if_neg hlive]
          exact ⟨_, _, rfl, .admitted hcached rfl hphase ha (Nat.not_le.mp hlive)⟩
    · rw [if_pos hphase]
      exact ⟨_, _, rfl, .refused hcached rfl⟩
  | PathAttach session_id path_nonce path_epoch key_epoch metadata =>
    dsimp only
    rw [gateway_path_attach]
    dsimp only
    by_cases hactive : s.active_session session_id
    · rw [if_neg (not_not.mpr hactive)]
      cases hnonce : s.attachments.lookup path_nonce with
      | some existing =>
        dsimp only
        by_cases hsame : existing.request =
            .PathAttach session_id path_nonce path_epoch key_epoch metadata
        · rw [if_neg (not_not.mpr hsame)]
          exact ⟨_, _, rfl, .reattached hcached rfl hactive hnonce hsame⟩
        · rw [if_pos hsame]
          exact ⟨_, _, rfl, .refused hcached rfl⟩
      | none =>
        dsimp only
        by_cases hcapacity : s.attachments.len = s.config.attachment_capacity
        · rw [if_pos hcapacity]
          exact ⟨_, _, rfl, .refused hcached rfl⟩
        · rw [if_neg hcapacity]
          cases hnext : s.next_path_id with
          | none => exact ⟨_, _, rfl, .refused hcached rfl⟩
          | some path_id =>
            exact ⟨_, _, rfl, .attached hcached rfl hactive hnonce hcapacity hnext⟩
    · rw [if_pos hactive]
      exact ⟨_, _, rfl, .refused hcached rfl⟩
  | PathDetach session_id path_id path_epoch reason =>
    dsimp only
    rw [gateway_path_request]
    cases hcode : s.path_request_code session_id path_id path_epoch with
    | some code => exact ⟨_, _, rfl, .refused hcached rfl⟩
    | none =>
      obtain ⟨hactive, hpath⟩ := (s.path_request_code_eq_none).mp hcode
      exact ⟨_, _, rfl, .detached hcached rfl hactive hpath⟩
  | PathHealth session_id path_id path_epoch rtt_ms loss_ppm =>
    dsimp only
    rw [gateway_path_request]
    cases hcode : s.path_request_code session_id path_id path_epoch with
    | some code => exact ⟨_, _, rfl, .refused hcached rfl⟩
    | none =>
      obtain ⟨hactive, hpath⟩ := (s.path_request_code_eq_none).mp hcode
      exact ⟨_, _, rfl, .confirmed hcached rfl hactive hpath⟩
  | Close session_id reason =>
    dsimp only
    by_cases hactive : s.active_session session_id
    · rw [if_neg (not_not.mpr hactive)]
      exact ⟨_, _, rfl, .closed hcached rfl hactive⟩
    · rw [if_pos hactive]
      exact ⟨_, _, rfl, .refused hcached rfl⟩
  | Ack =>
    dsimp only
    by_cases hphase : s.phase = .Active
    · rw [if_pos hphase]
      cases hpending : s.pending_policy_updates.lookup tid with
      | some pending => exact ⟨_, _, rfl, .acknowledged hcached rfl hphase hpending⟩
      | none => exact ⟨_, _, rfl, .unsolicited hcached rfl (fun _ _ => hpending)⟩
    · rw [if_neg hphase]
      exact ⟨_, _, rfl, .unsolicited hcached rfl (fun h => absurd h hphase)⟩
  | Reject code reason =>
    dsimp only
    by_cases hphase : s.phase = .Active
    · rw [if_pos hphase]
      cases hpending : s.pending_policy_updates.lookup tid with
      | some pending => exact ⟨_, _, rfl, .declined hcached rfl hphase hpending⟩
      | none => exact ⟨_, _, rfl, .unsolicited hcached rfl (fun _ _ => hpending)⟩
    · rw [if_neg hphase]
      exact ⟨_, _, rfl, .unsolicited hcached rfl (fun h => absurd h hphase)⟩
  | SessionAdmit => exact ⟨_, _, rfl, .unsolicited hcached rfl (fun _ h => by contradiction)⟩
  | PathAttached => exact ⟨_, _, rfl, .unsolicited hcached rfl (fun _ h => by contradiction)⟩
  | PolicyUpdate => exact ⟨_, _, rfl, .unsolicited hcached rfl (fun _ h => by contradiction)⟩

/-! ## The client receives -/

/-- What a frame of the peer does to a client whose tables are pruned. -/
inductive ClientInbound (frame : ControlFrame) (now_ms : ℕ) :
    ControlConnectionState → ControlAction → Prop
  /-- The frame is rejected; an Active client rejects no answer. -/
  | rejected {code : RejectCode} {reason : String}
    (hanswer : s.phase = .Active → frame.message.is_answer = false) :
    ClientInbound frame now_ms s (.Reply (reject frame.transaction_id code reason))
  /-- The admission arrives. -/
  | admitted {session_id : SessionId} {expires_at_ms policy_epoch : U64} {ipv4 : BitVec 32}
    {ipv4_len : UInt8} {ipv6 : BitVec 128} {ipv6_len : UInt8} {policy : SafeModePolicy}
    (hmessage : frame.message =
      .SessionAdmit session_id expires_at_ms policy_epoch ipv4 ipv4_len ipv6 ipv6_len policy)
    (hphase : s.phase = .AwaitAdmit) (hhello : s.hello_transaction_id = some frame.transaction_id)
    (hlive : now_ms < expires_at_ms.val) :
    ClientInbound frame now_ms
      { s with
        session_id := some session_id
        expires_at_ms := some expires_at_ms
        policy_epoch
        phase := .Active } .None
  /-- A pending attach is answered. -/
  | attached {session_id : SessionId} {path_id : PathId} {path_epoch : U64}
    {pending : PendingAttach} (hmessage : frame.message = .PathAttached session_id path_id path_epoch)
    (hactive : s.active_session session_id)
    (hpending : s.pending_attaches.lookup frame.transaction_id = some pending) :
    ClientInbound frame now_ms
      { s with
        pending_attaches := s.pending_attaches.erase frame.transaction_id
        protocol_paths := s.protocol_paths.insert path_id.get path_epoch } .None
  /-- A newer policy is taken over. -/
  | updated {session_id : SessionId} {policy_epoch : U64} {policy : Bytes}
    (hmessage : frame.message = .PolicyUpdate session_id policy_epoch policy)
    (hactive : s.active_session session_id) (hnewer : s.policy_epoch < policy_epoch) :
    ClientInbound frame now_ms { s with policy_epoch } (.Reply (ack frame.transaction_id))
  /-- The peer closes the session. -/
  | closed {session_id : SessionId} {reason : String}
    (hmessage : frame.message = .Close session_id reason) (hactive : s.active_session session_id) :
    ClientInbound frame now_ms { s with phase := .Closed } (.Reply (ack frame.transaction_id))
  /-- A pending detach of a bound path is acknowledged. -/
  | detached {pending : PendingDetach} (hmessage : frame.message = .Ack) (hphase : s.phase = .Active)
    (hpending : s.pending_detaches.lookup frame.transaction_id = some pending) :
    ClientInbound frame now_ms
      { s with
        pending_detaches := s.pending_detaches.erase frame.transaction_id
        protocol_paths := s.protocol_paths.erase pending.path_id.get } .None
  /-- Any other answer settles at most a pending detach. -/
  | settled (hanswer : frame.message.is_answer) (hphase : s.phase = .Active) :
    ClientInbound frame now_ms
      { s with pending_detaches := s.pending_detaches.erase frame.transaction_id } .None

/-- **Everything a client does with a frame.** -/
theorem client_inbound_cases (frame : ControlFrame) (now_ms : ℕ) :
    ∃ s' action, s.client_inbound frame now_ms = (s', .ok action) ∧
      s.ClientInbound frame now_ms s' action := by
  -- the rejecting branches
  have hrejected : ∀ code reason, (s.phase = .Active → frame.message.is_answer = false) →
      ∃ s' action, s.rejects frame code reason = (s', .ok action) ∧
        s.ClientInbound frame now_ms s' action := by
    intro code reason hanswer
    exact ⟨_, _, rfl, .rejected hanswer⟩
  rw [client_inbound]
  obtain ⟨tid, message⟩ := frame
  cases message with
  | SessionAdmit session_id expires_at_ms =>
    dsimp only
    split
    · next hphase =>
      split
      · exact hrejected _ _ (fun _ => rfl)
      · next hlive => exact ⟨_, _, rfl, .admitted rfl hphase.1 hphase.2 (Nat.not_le.mp hlive)⟩
    · exact hrejected _ _ (fun _ => rfl)
  | PathAttached session_id path_id path_epoch =>
    dsimp only
    split
    · next hactive =>
      split
      · exact hrejected _ _ (fun _ => rfl)
      next pending hpending =>
      split
      · split
        · exact hrejected _ _ (fun _ => rfl)
        split
        · exact hrejected _ _ (fun _ => rfl)
        · exact ⟨_, _, rfl, .attached rfl hactive hpending⟩
      · exact hrejected _ _ (fun _ => rfl)
    · exact hrejected _ _ (fun _ => rfl)
  | PolicyUpdate session_id policy_epoch policy =>
    dsimp only
    split
    · next hactive =>
      split
      · exact hrejected _ _ (fun _ => rfl)
      · next hnewer => exact ⟨_, _, rfl, .updated rfl hactive (not_le.mp hnewer)⟩
    · exact hrejected _ _ (fun _ => rfl)
  | Close session_id reason =>
    dsimp only
    split
    · next hactive => exact ⟨_, _, rfl, .closed rfl hactive⟩
    · exact hrejected _ _ (fun _ => rfl)
  | Ack =>
    dsimp only
    split
    · next hphase =>
      split
      · next pending hpending =>
        split
        · exact ⟨_, _, rfl, .detached rfl hphase hpending⟩
        · exact ⟨_, _, rfl, .settled rfl hphase⟩
      · next hnone =>
        refine ⟨_, _, rfl, ?_⟩
        have hsettled : s.ClientInbound ⟨tid, .Ack⟩ now_ms
            { s with pending_detaches := s.pending_detaches.erase tid } .None :=
          .settled rfl hphase
        rw [AList.erase_of_notMem (AList.lookup_eq_none.mp hnone)] at hsettled
        exact hsettled
    · next hphase => exact hrejected _ _ (fun h => absurd h hphase)
  | Reject code reason =>
    dsimp only
    split
    · next hphase => exact ⟨_, _, rfl, .settled rfl hphase⟩
    · next hphase => exact hrejected _ _ (fun h => absurd h hphase)
  | ClientHello => exact hrejected _ _ (fun _ => rfl)
  | PathAttach => exact hrejected _ _ (fun _ => rfl)
  | PathDetach => exact hrejected _ _ (fun _ => rfl)
  | PathHealth => exact hrejected _ _ (fun _ => rfl)

/-! ## Sending -/

/-- The kinds an Active client sends without a change of phase. -/
def client_sends : ControlMessage → Bool
  | .PathAttach .. | .PathDetach .. | .PathHealth .. | .Ack | .Reject .. => true
  | _ => false

/-- What recording an own frame does to a client whose tables are pruned. -/
inductive ClientOutbound (frame : ControlFrame) (now_ms : ℕ) :
    ControlConnectionState → Except ControlStateError Unit → Prop
  | failed {error : ControlStateError} : ClientOutbound frame now_ms s (.error error)
  | hello {device_id : DeviceId} {gateway : String} {ticket : AdmissionTicket}
    (hmessage : frame.message = .ClientHello device_id gateway ticket)
    (hphase : s.phase = .AwaitHello) :
    ClientOutbound frame now_ms
      { s with phase := .AwaitAdmit, hello_transaction_id := some frame.transaction_id } (.ok ())
  | attaching {pending : PendingAttach} (hkind : client_sends frame.message)
    (hphase : s.phase = .Active) :
    ClientOutbound frame now_ms
      { s with pending_attaches := s.pending_attaches.insert frame.transaction_id pending } (.ok ())
  | detaching {pending : PendingDetach} (hkind : client_sends frame.message)
    (hphase : s.phase = .Active) :
    ClientOutbound frame now_ms
      { s with pending_detaches := s.pending_detaches.insert frame.transaction_id pending } (.ok ())
  | sent (hkind : client_sends frame.message) (hphase : s.phase = .Active) :
    ClientOutbound frame now_ms s (.ok ())
  | closed {session_id : SessionId} {reason : String}
    (hmessage : frame.message = .Close session_id reason) (hactive : s.active_session session_id) :
    ClientOutbound frame now_ms { s with phase := .Closed } (.ok ())

/-- **Everything a client does to send a frame.** -/
theorem client_outbound_cases (frame : ControlFrame) (now_ms : ℕ) :
    s.ClientOutbound frame now_ms (s.client_outbound frame now_ms).1
      (s.client_outbound frame now_ms).2 := by
  rw [client_outbound]
  obtain ⟨tid, message⟩ := frame
  cases message with
  | ClientHello =>
    dsimp only
    split
    · next hphase => exact .hello rfl hphase
    · exact .failed
  | PathAttach session_id =>
    dsimp only
    split
    · next hactive =>
      split
      · split
        · exact .failed
        · exact .sent rfl hactive.1
      · split
        · exact .failed
        · exact .attaching rfl hactive.1
    · exact .failed
  | PathDetach session_id =>
    dsimp only
    split
    · next hactive =>
      split
      · split
        · exact .failed
        · exact .sent rfl hactive.1.1
      · split
        · exact .failed
        · exact .detaching rfl hactive.1.1
    · exact .failed
  | PathHealth session_id =>
    dsimp only
    split
    · next hactive => exact .sent rfl hactive.1.1
    · exact .failed
  | Ack =>
    dsimp only
    split
    · next hphase => exact .sent rfl hphase
    · exact .failed
  | Reject =>
    dsimp only
    split
    · next hphase => exact .sent rfl hphase
    · exact .failed
  | Close session_id =>
    dsimp only
    split
    · next hactive => exact .closed rfl hactive
    · exact .failed
  | SessionAdmit => exact .failed
  | PathAttached => exact .failed
  | PolicyUpdate => exact .failed

/-- What recording an own frame does to a gateway whose tables are pruned. -/
inductive GatewayOutbound (frame : ControlFrame) (now_ms : ℕ) :
    ControlConnectionState → Except ControlStateError Unit → Prop
  | failed {error : ControlStateError} : GatewayOutbound frame now_ms s (.error error)
  | updating {session_id : SessionId} {policy_epoch : U64} {policy : Bytes}
    (hmessage : frame.message = .PolicyUpdate session_id policy_epoch policy)
    {pending : PendingPolicyUpdate} (hactive : s.active_session session_id)
    (hnewer : s.policy_epoch < policy_epoch) (hepoch : pending.policy_epoch = policy_epoch) :
    GatewayOutbound frame now_ms
      { s with
        pending_policy_updates := s.pending_policy_updates.insert frame.transaction_id pending }
      (.ok ())
  | updating_again {session_id : SessionId} {policy : Bytes} {pending : PendingPolicyUpdate}
    (hmessage : frame.message = .PolicyUpdate session_id pending.policy_epoch policy)
    (hactive : s.active_session session_id)
    (hpending : s.pending_policy_updates.lookup frame.transaction_id = some pending) :
    GatewayOutbound frame now_ms s (.ok ())
  | answered (hanswer : frame.message.is_answer) (hphase : s.phase = .Active) :
    GatewayOutbound frame now_ms s (.ok ())
  | closed {session_id : SessionId} {reason : String}
    (hmessage : frame.message = .Close session_id reason) (hactive : s.active_session session_id) :
    GatewayOutbound frame now_ms { s with phase := .Closed } (.ok ())

/-- **Everything a gateway does to send a frame.** -/
theorem gateway_outbound_cases (frame : ControlFrame) (now_ms : ℕ) :
    s.GatewayOutbound frame now_ms (s.gateway_outbound frame now_ms).1
      (s.gateway_outbound frame now_ms).2 := by
  rw [gateway_outbound]
  obtain ⟨tid, message⟩ := frame
  cases message with
  | PolicyUpdate session_id policy_epoch policy =>
    dsimp only
    split
    · next hactive =>
      split
      · next pending hpending =>
        split
        · exact .failed
        · next hsame =>
          obtain rfl := not_not.mp hsame
          exact .updating_again rfl hactive.1 hpending
      · split
        · exact .failed
        · exact .updating rfl hactive.1 hactive.2 rfl
    · exact .failed
  | Ack =>
    dsimp only
    split
    · next hphase => exact .answered rfl hphase
    · exact .failed
  | Reject =>
    dsimp only
    split
    · next hphase => exact .answered rfl hphase
    · exact .failed
  | Close session_id =>
    dsimp only
    split
    · next hactive => exact .closed rfl hactive
    · exact .failed
  | _ => exact .failed

end ControlConnectionState

end StreamGuard.Control
