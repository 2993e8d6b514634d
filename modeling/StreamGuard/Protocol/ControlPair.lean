/-
A client and a gateway, connected.

Two reliable streams carry the frames: what an endpoint sends on its own and what it
answers goes to the end of its stream, the peer takes frames off the front. Each call
has its own clock reading. What the two agree on rests on the frames in flight:
`Backed` says what stands behind a frame on its way to the client, and an
acknowledgement on its way back is one of an update the client has taken over.
-/
import StreamGuard.Protocol.ControlPaths

set_option autoImplicit false

namespace StreamGuard.Control

open StreamGuard StreamGuard.Lib

/-! ## The connection -/

/-- Both endpoints and the frames in flight, oldest first. -/
structure ControlPair where
  client : ControlConnectionState
  gateway : ControlConnectionState
  to_gateway : List ControlFrame
  to_client : List ControlFrame

inductive PairEvent where
  | client_sends (frame : ControlFrame) (now_ms : ℕ)
  | gateway_sends (frame : ControlFrame) (now_ms : ℕ)
  | client_receives (now_ms : ℕ)
  | gateway_receives (now_ms : ℕ)

/-- The frame goes out when `on_outbound` accepts it. -/
def sent_frames (frame : ControlFrame) : Except ControlStateError Unit → List ControlFrame
  | .ok _ => [frame]
  | .error _ => []

/-- The frames an `on_inbound` puts on the stream. -/
def reply_frames : Except ControlStateError ControlAction → List ControlFrame
  | .ok action => action.answer.toList
  | .error _ => []

namespace ControlPair

/-- The connection as a machine. Its outputs are the frames the gateway sends on its
own. -/
def step (p : ControlPair) : PairEvent → Option (ControlPair × List ControlFrame)
  | .client_sends frame now_ms =>
    let (client, result) := p.client.on_outbound frame now_ms
    some ({ p with client, to_gateway := p.to_gateway ++ sent_frames frame result }, [])
  | .gateway_sends frame now_ms =>
    let (gateway, result) := p.gateway.on_outbound frame now_ms
    some ({ p with gateway, to_client := p.to_client ++ sent_frames frame result },
      sent_frames frame result)
  | .client_receives now_ms =>
    match p.to_client with
    | [] => none
    | frame :: to_client =>
      let (client, result) := p.client.on_inbound frame now_ms
      some ({ p with client, to_client, to_gateway := p.to_gateway ++ reply_frames result }, [])
  | .gateway_receives now_ms =>
    match p.to_gateway with
    | [] => none
    | frame :: to_gateway =>
      let (gateway, result) := p.gateway.on_inbound frame now_ms
      some ({ p with gateway, to_gateway, to_client := p.to_client ++ reply_frames result }, [])

theorem client_receives_eq_some {p q : ControlPair} {now_ms : ℕ} {sent : List ControlFrame}
    (h : step p (.client_receives now_ms) = some (q, sent)) :
    ∃ frame rest, p.to_client = frame :: rest ∧ sent = [] ∧
      q = ⟨(p.client.on_inbound frame now_ms).1, p.gateway,
        p.to_gateway ++ reply_frames (p.client.on_inbound frame now_ms).2, rest⟩ := by
  rw [step] at h
  split at h
  · contradiction
  · next frame rest hto_client =>
    obtain ⟨rfl, rfl⟩ := step_inj h
    exact ⟨frame, rest, hto_client, rfl, rfl⟩

theorem gateway_receives_eq_some {p q : ControlPair} {now_ms : ℕ} {sent : List ControlFrame}
    (h : step p (.gateway_receives now_ms) = some (q, sent)) :
    ∃ frame rest, p.to_gateway = frame :: rest ∧ sent = [] ∧
      q = ⟨p.client, (p.gateway.on_inbound frame now_ms).1, rest,
        p.to_client ++ reply_frames (p.gateway.on_inbound frame now_ms).2⟩ := by
  rw [step] at h
  split at h
  · contradiction
  · next frame rest hto_gateway =>
    obtain ⟨rfl, rfl⟩ := step_inj h
    exact ⟨frame, rest, hto_gateway, rfl, rfl⟩

/-- Two endpoints as the constructors build them, and nothing in flight. -/
structure Fresh (p : ControlPair) : Prop where
  client : p.client.Fresh
  gateway : p.gateway.Fresh
  client_role : p.client.role = .Client
  gateway_role : p.gateway.role = .Gateway
  to_gateway : p.to_gateway = []
  to_client : p.to_client = []

/-- A joint state some run arrives at. -/
def Reachable (p : ControlPair) : Prop :=
  ∃ p₀ events sent, Fresh p₀ ∧ exec step p₀ events = some (p, sent)

end ControlPair

/-- `Ack` and `Reject` are sent only as replies. -/
def PairEvent.replies_only : PairEvent → Prop
  | .client_sends frame _ => frame.message.is_answer = false
  | .gateway_sends frame _ => frame.message.is_answer = false
  | _ => True

instance : ∀ event : PairEvent, Decidable event.replies_only
  | .client_sends frame _ => inferInstanceAs (Decidable (frame.message.is_answer = false))
  | .gateway_sends frame _ => inferInstanceAs (Decidable (frame.message.is_answer = false))
  | .client_receives _ => inferInstanceAs (Decidable True)
  | .gateway_receives _ => inferInstanceAs (Decidable True)

/-- No transaction ID stands for two policy updates. -/
def NoReuse (sent : List ControlFrame) : Prop :=
  ∀ transaction_id session_id session_id' epoch epoch' policy policy',
    ⟨transaction_id, .PolicyUpdate session_id epoch policy⟩ ∈ sent →
    ⟨transaction_id, .PolicyUpdate session_id' epoch' policy'⟩ ∈ sent → epoch = epoch'

theorem NoReuse.of_append {sent sent' : List ControlFrame} (h : NoReuse (sent ++ sent')) :
    NoReuse sent :=
  fun tid sid sid' epoch epoch' policy policy' h₁ h₂ =>
    h tid sid sid' epoch epoch' policy policy' (List.mem_append_left _ h₁)
      (List.mem_append_left _ h₂)

/-- The connection of the sample endpoints. -/
def Sample.pair : ControlPair := ⟨client, gateway, [], []⟩

theorem Sample.pair_fresh : Sample.pair.Fresh :=
  ⟨client_fresh, gateway_fresh, rfl, rfl, rfl, rfl⟩

def Sample.exchange : List PairEvent :=
  [.client_sends (hello 1) 0, .gateway_receives 0, .client_receives 1,
    .client_sends (attach 2 0x66 7) 1, .gateway_sends (update 3 2) 1, .gateway_receives 2,
    .client_receives 2, .client_receives 3, .gateway_receives 3]

/-! ## What stands behind a frame of the gateway -/

namespace ControlConnectionState

variable {s t : ControlConnectionState} {frame : ControlFrame} {now_ms : ℕ}
  {sent sent' : List ControlFrame}

/-- What is true of a gateway with a frame on its way to the client. -/
def Backed (s : ControlConnectionState) (sent : List ControlFrame) (frame : ControlFrame) : Prop :=
  match frame.message with
  | .SessionAdmit session_id _ policy_epoch _ _ _ _ _ => s.session_id = some session_id ∧
      ∃ admission, s.verified_admission = some admission ∧ policy_epoch = admission.policy_epoch
  | .PathAttached .. => ∃ path_nonce record, s.attachments.lookup path_nonce = some record ∧
      record.response = frame.message
  | .PolicyUpdate .. => frame ∈ sent
  | .Close .. => s.phase = .Closed
  | _ => True

theorem backed_ack (transaction_id : U64) : s.Backed sent (ack transaction_id) := trivial

theorem backed_reject (transaction_id : U64) (code : RejectCode) (reason : String) :
    s.Backed sent (reject transaction_id code reason) := trivial

/-- Nothing a gateway does takes the backing away. -/
theorem Backed.mono (hadvance : Advance s t)
    (hrecords : ∀ path_nonce record, s.attachments.lookup path_nonce = some record →
      t.attachments.lookup path_nonce = some record)
    (hsent : sent ⊆ sent') (h : s.Backed sent frame) : t.Backed sent' frame := by
  obtain ⟨tid, message⟩ := frame
  cases message with
  | SessionAdmit session_id _ policy_epoch =>
    obtain ⟨hsession, admission, hadmission, hepoch⟩ := h
    refine ⟨?_, admission, hadvance.admission.trans hadmission, hepoch⟩
    rcases hadvance.session_id with hnone | hsame
    · rw [hsession] at hnone
      contradiction
    · exact hsame.trans hsession
  | PathAttached =>
    obtain ⟨path_nonce, record, hrecord, hresponse⟩ := h
    exact ⟨path_nonce, record, hrecords path_nonce record hrecord, hresponse⟩
  | PolicyUpdate => exact hsent h
  | Close => exact (hadvance.closed h).phase.trans h
  | _ => trivial

/-- The gateway's side of the agreement: remembered answers are backed, and every
pending update has been sent. -/
structure Records (sent : List ControlFrame) (s : ControlConnectionState) : Prop where
  completed : ∀ entry ∈ s.completed, s.Backed sent entry.response
  pending : ∀ transaction_id pending,
    s.pending_policy_updates.lookup transaction_id = some pending →
    ∃ session_id policy,
      ⟨transaction_id, .PolicyUpdate session_id pending.policy_epoch policy⟩ ∈ sent

/-- Remembering a backed answer. -/
theorem Records.remember {request response : ControlFrame} (hs : s.Records sent)
    (hresponse : s.Backed sent response) (now_ms : ℕ) :
    (s.remember request response now_ms).Records sent where
  completed := by
    intro entry hmem
    rw [completed_remember] at hmem
    rcases List.mem_append.mp hmem with hmem | hmem
    · exact hs.completed entry (s.kept_sublist.subset hmem)
    · obtain rfl := List.mem_singleton.mp hmem
      exact hresponse
  pending := hs.pending

/-- Moving on without new answers or updates. -/
theorem Records.of_advance (hadvance : Advance s t)
    (hrecords : ∀ path_nonce record, s.attachments.lookup path_nonce = some record →
      t.attachments.lookup path_nonce = some record)
    (hcompleted : ∀ entry ∈ t.completed, entry ∈ s.completed)
    (hpending : ∀ transaction_id pending,
      t.pending_policy_updates.lookup transaction_id = some pending →
      s.pending_policy_updates.lookup transaction_id = some pending)
    (hs : s.Records sent) : t.Records sent where
  completed := fun entry hmem =>
    (hs.completed entry (hcompleted entry hmem)).mono hadvance hrecords (List.Subset.refl sent)
  pending := fun tid pending h => hs.pending tid pending (hpending tid pending h)

theorem Records.prune (hs : s.Records sent) (now_ms : ℕ) : (s.prune now_ms).Records sent :=
  hs.of_advance (advance_prune s now_ms) (fun _ _ h => h)
    (fun _ hmem => (mem_prune_completed.mp hmem).1)
    (fun _ _ h => (AList.lookup_retain_eq_some.mp h).1)

theorem Records.prune_pending (hs : s.Records sent) (now_ms : ℕ) :
    (s.prune_pending now_ms).Records sent :=
  hs.of_advance (advance_prune_pending s now_ms) (fun _ _ h => h) (fun _ hmem => hmem)
    (fun _ _ h => (AList.lookup_retain_eq_some.mp h).1)

theorem Records.close (hs : s.Records sent) (hactive : s.phase = .Active) :
    { s with phase := .Closed }.Records sent := by
  have hclosing : Advance s { s with phase := .Closed } :=
    .of_active hactive (.inr rfl) rfl rfl rfl rfl rfl
  exact hs.of_advance hclosing (fun _ _ h => h) (fun _ hmem => hmem) (fun _ _ h => h)

/-- **Every answer of a gateway is backed.** -/
theorem GatewayInbound.backed {action : ControlAction} (hwell : s.Wellformed)
    (hledger : s.PathLedger) (hs : s.Records sent) (h : s.GatewayInbound frame now_ms t action) :
    t.Records sent ∧ ∀ reply, action.answer = some reply → t.Backed sent reply := by
  cases h with
  | cached hcached =>
    refine ⟨hs, ?_⟩
    intro reply hanswer
    obtain ⟨entry, hmem, -, rfl⟩ := completed_action_eq_some hcached
    split at hanswer
    · obtain rfl := Option.some.inj hanswer
      exact hs.completed entry hmem
    · obtain rfl := Option.some.inj hanswer
      trivial
  | refused =>
    refine ⟨hs.remember (backed_reject _ _ _) now_ms, ?_⟩
    intro reply hanswer
    obtain rfl := Option.some.inj hanswer
    trivial
  | @admitted _ _ _ admission _ _ hphase hadmission =>
    obtain ⟨hsession, hexpires, -⟩ := hwell.unadmitted (.inl hphase)
    have hadmit : Advance s (s.admit_session admission) :=
      .of_admitted (.inl hphase) rfl rfl rfl rfl hsession hexpires
    have hbacked : (s.admit_session admission).Backed sent
        (admission.admit_frame frame.transaction_id) := ⟨rfl, admission, hadmission, rfl⟩
    have hadmitted : (s.admit_session admission).Records sent :=
      hs.of_advance hadmit (fun _ _ h => h) (fun _ hmem => hmem) (fun _ _ h => h)
    refine ⟨hadmitted.remember hbacked now_ms, ?_⟩
    intro reply hanswer
    obtain rfl := Option.some.inj hanswer
    exact hbacked
  | @attached session_id path_nonce path_epoch _ _ path_id _ _ hactive hnonce =>
    generalize hrequest : frame.message = request
    have hbacked : (s.attach_path path_nonce path_id path_epoch request
        (.PathAttached session_id ⟨path_id⟩ path_epoch)).Backed sent
        ⟨frame.transaction_id, .PathAttached session_id ⟨path_id⟩ path_epoch⟩ :=
      ⟨path_nonce, _, AList.lookup_insert _, rfl⟩
    have hattached : (s.attach_path path_nonce path_id path_epoch request
        (.PathAttached session_id ⟨path_id⟩ path_epoch)).Records sent :=
      hs.of_advance (.of_active hactive.1 (.inl hactive.1) rfl rfl rfl rfl rfl)
        (fun _ _ h => AList.lookup_insert_new hnonce h) (fun _ hmem => hmem) (fun _ _ h => h)
    refine ⟨hattached.remember hbacked now_ms, ?_⟩
    intro reply hanswer
    obtain rfl := Option.some.inj hanswer
    exact hbacked
  | @reattached _ path_nonce _ _ _ existing _ _ _ hnonce =>
    have hbacked : s.Backed sent ⟨frame.transaction_id, existing.response⟩ := by
      obtain ⟨session_id, path_id, path_epoch, _, _, -, hresponse, -⟩ :=
        hledger.record path_nonce existing hnonce
      rw [hresponse]
      exact ⟨path_nonce, existing, hnonce, hresponse⟩
    refine ⟨hs.remember hbacked now_ms, ?_⟩
    intro reply hanswer
    obtain rfl := Option.some.inj hanswer
    exact hbacked
  | confirmed =>
    refine ⟨hs.remember (backed_ack _) now_ms, ?_⟩
    intro reply hanswer
    obtain rfl := Option.some.inj hanswer
    trivial
  | @detached _ path_id =>
    have hdetached : { s with protocol_paths := s.protocol_paths.erase path_id.get }.Records sent :=
      ⟨hs.completed, hs.pending⟩
    refine ⟨hdetached.remember (backed_ack _) now_ms, ?_⟩
    intro reply hanswer
    obtain rfl := Option.some.inj hanswer
    trivial
  | closed _ _ hactive =>
    refine ⟨?_, ?_⟩
    · exact (hs.remember (backed_ack _) now_ms).close hactive.1
    · intro reply hanswer
      obtain rfl := Option.some.inj hanswer
      trivial
  | acknowledged =>
    refine ⟨⟨hs.completed, ?_⟩, fun reply hanswer => by contradiction⟩
    intro tid pending h
    exact hs.pending tid pending (AList.lookup_of_erase h)
  | declined =>
    refine ⟨⟨hs.completed, ?_⟩, fun reply hanswer => by contradiction⟩
    intro tid pending h
    exact hs.pending tid pending (AList.lookup_of_erase h)
  | unsolicited =>
    refine ⟨hs, ?_⟩
    intro reply hanswer
    obtain rfl := Option.some.inj hanswer
    trivial

/-- A frame the gateway sends on its own is backed from then on. -/
theorem GatewayOutbound.backed (hs : s.Records sent)
    (hanswer : frame.message.is_answer = false)
    (h : s.GatewayOutbound frame now_ms t (.ok ())) :
    t.Records (sent ++ [frame]) ∧ t.Backed (sent ++ [frame]) frame := by
  have hmem : frame ∈ sent ++ [frame] := List.mem_append_right _ (List.mem_singleton.mpr rfl)
  have hsubset : sent ⊆ sent ++ [frame] := List.subset_append_left _ _
  have hadvance := h.advance
  have hcompleted : ∀ entry ∈ s.completed, t.Backed (sent ++ [frame]) entry.response := by
    intro entry hentry
    refine (hs.completed entry hentry).mono hadvance ?_ hsubset
    intro path_nonce record hrecord
    cases h <;> exact hrecord
  have hpending : ∀ transaction_id pending,
      s.pending_policy_updates.lookup transaction_id = some pending → ∃ session_id policy,
      ⟨transaction_id, .PolicyUpdate session_id pending.policy_epoch policy⟩ ∈ sent ++ [frame] := by
    intro tid pending h
    obtain ⟨session_id, policy, hsent⟩ := hs.pending tid pending h
    exact ⟨session_id, policy, hsubset hsent⟩
  obtain ⟨tid, message⟩ := frame
  cases h with
  | @updating session_id policy_epoch policy hmessage pending _ _ hepoch =>
    obtain rfl : message = _ := hmessage
    refine ⟨⟨hcompleted, ?_⟩, hmem⟩
    intro tid' pending' h
    rw [AList.lookup_insert_of] at h
    split at h
    · next he =>
      obtain rfl := Option.some.inj h
      rw [he, hepoch]
      exact ⟨session_id, policy, hmem⟩
    · exact hpending tid' pending' h
  | updating_again hmessage =>
    obtain rfl : message = _ := hmessage
    exact ⟨⟨hcompleted, hpending⟩, hmem⟩
  | answered hyes =>
    rw [hanswer] at hyes
    contradiction
  | closed hmessage =>
    obtain rfl : message = _ := hmessage
    exact ⟨⟨hcompleted, hpending⟩, rfl⟩

/-- Sending changes neither the session nor the epoch nor a path. -/
theorem Effect.outbound_same {result : ControlResult}
    (h : s.Effect (.on_outbound frame now_ms) t result) :
    t.session_id = s.session_id ∧ t.policy_epoch = s.policy_epoch ∧
      t.protocol_paths = s.protocol_paths := by
  cases h with
  | late_outbound => exact ⟨rfl, rfl, rfl⟩
  | client_outbound _ _ hsent => cases hsent <;> exact ⟨rfl, rfl, rfl⟩
  | gateway_outbound _ _ hsent => cases hsent <;> exact ⟨rfl, rfl, rfl⟩

/-- What a gateway's call puts on the stream is backed after it. -/
theorem Effect.outbound_backed {result : Except ControlStateError Unit} (hrole : s.role = .Gateway)
    (hs : s.Records sent) (hanswer : frame.message.is_answer = false)
    (h : s.Effect (.on_outbound frame now_ms) t (.sent result)) :
    t.Records (sent ++ sent_frames frame result) ∧
      ∀ f ∈ sent_frames frame result, t.Backed (sent ++ sent_frames frame result) f := by
  cases h with
  | late_outbound hexpires =>
    rw [sent_frames, List.append_nil]
    exact ⟨(hs.prune_pending now_ms).close hexpires.1, fun _ h => absurd h List.not_mem_nil⟩
  | client_outbound hclient =>
    rw [hrole] at hclient
    contradiction
  | gateway_outbound _ _ hsent =>
    cases result with
    | error error =>
      rw [sent_frames, List.append_nil]
      cases hsent with
      | failed => exact ⟨hs.prune_pending now_ms, fun _ h => absurd h List.not_mem_nil⟩
    | ok =>
      obtain ⟨hrecords, hbacked⟩ := hsent.backed (hs.prune_pending now_ms) hanswer
      refine ⟨hrecords, ?_⟩
      intro f hmem
      obtain rfl := List.mem_singleton.mp hmem
      exact hbacked

theorem Effect.inbound_backed {result : Except ControlStateError ControlAction}
    (hrole : s.role = .Gateway) (hwell : s.Wellformed) (hledger : s.PathLedger)
    (hs : s.Records sent) (h : s.Effect (.on_inbound frame now_ms) t (.received result)) :
    t.Records sent ∧ ∀ f ∈ reply_frames result, t.Backed sent f := by
  cases h with
  | late_inbound hexpires =>
    refine ⟨(hs.prune now_ms).close hexpires.1, ?_⟩
    intro f hmem
    obtain rfl := List.mem_singleton.mp hmem
    exact backed_reject _ _ _
  | client_inbound hclient =>
    rw [hrole] at hclient
    contradiction
  | gateway_inbound _ _ hreceived =>
    obtain ⟨hrecords, hbacked⟩ :=
      hreceived.backed (hwell.prune now_ms) (hledger.prune now_ms) (hs.prune now_ms)
    exact ⟨hrecords, fun f hmem => hbacked f (Option.mem_toList.mp hmem)⟩

/-- Where a gateway's epoch comes from: it stays, it is the admission's, or it is that of
the pending update an acknowledgement names. -/
def EpochSource (s : ControlConnectionState) (frame : ControlFrame) (policy_epoch : U64) : Prop :=
  policy_epoch = s.policy_epoch ∨
    (s.session_id = none ∧ ∃ admission, s.verified_admission = some admission ∧
      policy_epoch = admission.policy_epoch) ∨
    (frame.message = .Ack ∧ s.phase = .Active ∧ ∃ pending,
      s.pending_policy_updates.lookup frame.transaction_id = some pending ∧
      policy_epoch = pending.policy_epoch)

theorem GatewayInbound.epoch_source {action : ControlAction} (hwell : s.Wellformed)
    (h : s.GatewayInbound frame now_ms t action) : s.EpochSource frame t.policy_epoch := by
  cases h with
  | admitted _ _ hphase hadmission =>
    exact .inr (.inl ⟨(hwell.unadmitted (.inl hphase)).1, _, hadmission, rfl⟩)
  | acknowledged _ hmessage hphase hpending =>
    exact .inr (.inr ⟨hmessage, hphase, _, hpending, rfl⟩)
  | _ => exact .inl rfl

theorem Effect.epoch_source {result : ControlResult} (hrole : s.role = .Gateway)
    (hwell : s.Wellformed) (h : s.Effect (.on_inbound frame now_ms) t result) :
    s.EpochSource frame t.policy_epoch := by
  cases h with
  | late_inbound => exact .inl rfl
  | client_inbound hclient =>
    rw [hrole] at hclient
    contradiction
  | gateway_inbound _ _ hreceived =>
    rcases hreceived.epoch_source (hwell.prune now_ms) with h | h | h
    · exact .inl h
    · exact .inr (.inl h)
    · obtain ⟨hack, hphase, pending, hpending, hepoch⟩ := h
      exact .inr (.inr ⟨hack, hphase, pending, (AList.lookup_retain_eq_some.mp hpending).1, hepoch⟩)

/-- A client acknowledges an update it has just taken over, or a close. -/
theorem ClientInbound.acknowledges {action : ControlAction}
    (h : s.ClientInbound frame now_ms t action) {transaction_id : U64}
    (hanswer : action.answer = some (ack transaction_id)) :
    transaction_id = frame.transaction_id ∧
      ((∃ session_id policy, frame.message = .PolicyUpdate session_id t.policy_epoch policy ∧
          s.active_session session_id) ∨
        ∃ session_id reason, frame.message = .Close session_id reason) := by
  cases h with
  | rejected =>
    have hmessage := congrArg ControlFrame.message (Option.some.inj hanswer)
    contradiction
  | updated hmessage hactive =>
    obtain rfl := congrArg ControlFrame.transaction_id (Option.some.inj hanswer)
    exact ⟨rfl, .inl ⟨_, _, hmessage, hactive⟩⟩
  | closed hmessage =>
    obtain rfl := congrArg ControlFrame.transaction_id (Option.some.inj hanswer)
    exact ⟨rfl, .inr ⟨_, _, hmessage⟩⟩
  | _ => contradiction

/-- A path a client has after a frame it had before, or the frame names it for the
client's session. -/
theorem ClientInbound.path_source {action : ControlAction}
    (h : s.ClientInbound frame now_ms t action) {path_id : PathId} {epoch : U64}
    (hbound : t.path_epoch path_id = some epoch) :
    s.path_epoch path_id = some epoch ∨ ∃ session_id,
      frame.message = .PathAttached session_id path_id epoch ∧ s.active_session session_id := by
  cases h with
  | @attached session_id path_id' path_epoch' _ hmessage hactive =>
    rw [path_epoch] at hbound
    dsimp only at hbound
    rw [AList.lookup_insert_of] at hbound
    split at hbound
    · next he =>
      obtain ⟨path_id⟩ := path_id
      obtain ⟨path_id'⟩ := path_id'
      dsimp only at he
      rw [he, ← Option.some.inj hbound]
      exact .inr ⟨session_id, hmessage, hactive⟩
    · exact .inl hbound
  | detached => exact .inl (AList.lookup_of_erase hbound)
  | _ => exact .inl hbound

/-- A client keeps its session, or the frame admits it. -/
theorem ClientInbound.session_source {action : ControlAction} (hwell : s.Wellformed)
    (h : s.ClientInbound frame now_ms t action) :
    t.session_id = s.session_id ∨ s.session_id = none ∧ ∃ session_id expires_at_ms ipv4 ipv4_len ipv6
      ipv6_len policy, t.session_id = some session_id ∧ frame.message =
        .SessionAdmit session_id expires_at_ms t.policy_epoch ipv4 ipv4_len ipv6 ipv6_len policy := by
  cases h with
  | admitted hmessage hphase =>
    exact .inr ⟨(hwell.unadmitted (.inr hphase)).1, _, _, _, _, _, _, _, rfl, hmessage⟩
  | _ => exact .inl rfl

end ControlConnectionState

/-! ## The agreement -/

namespace ControlPair

open ControlConnectionState

variable {p q : ControlPair} {sent sent' : List ControlFrame}

/-- The frame acknowledges an update that has been sent and that the client has taken
over. -/
def Acked (client : ControlConnectionState) (sent : List ControlFrame) (transaction_id : U64) :
    Prop :=
  client.session_id ≠ none ∧ ∃ session_id epoch policy,
    ⟨transaction_id, .PolicyUpdate session_id epoch policy⟩ ∈ sent ∧ epoch ≤ client.policy_epoch

/-- The paths of a client come from attachment records of the gateway. -/
def PathsRecorded (client gateway : ControlConnectionState) : Prop :=
  ∀ path_id path_epoch, client.path_epoch path_id = some path_epoch →
    ∃ session_id path_nonce record, client.session_id = some session_id ∧
      gateway.attachments.lookup path_nonce = some record ∧
      record.response = .PathAttached session_id path_id path_epoch

/-- What holds between the endpoints and of the frames in flight. -/
structure Agreement (sent : List ControlFrame) (p : ControlPair) : Prop where
  client : p.client.Reachable
  gateway : p.gateway.Reachable
  client_role : p.client.role = .Client
  gateway_role : p.gateway.role = .Gateway
  records : p.gateway.Records sent
  in_flight : ∀ frame ∈ p.to_client, p.gateway.Backed sent frame
  session : p.client.session_id = none ∨ p.gateway.session_id = p.client.session_id
  acks : ∀ transaction_id, ack transaction_id ∈ p.to_gateway →
    p.gateway.phase = .Closed ∨ Acked p.client sent transaction_id
  behind : p.client.session_id = none → ∀ admission, p.gateway.verified_admission = some admission →
    p.gateway.policy_epoch ≤ admission.policy_epoch
  epochs : p.client.session_id ≠ none → p.gateway.policy_epoch ≤ p.client.policy_epoch
  paths : PathsRecorded p.client p.gateway

theorem Acked.mono {client client' : ControlConnectionState} {transaction_id : U64}
    (hadvance : Advance client client') (hepoch : client.policy_epoch ≤ client'.policy_epoch)
    (hsent : sent ⊆ sent') (h : Acked client sent transaction_id) :
    Acked client' sent' transaction_id := by
  obtain ⟨hsession, session_id, epoch, policy, hmem, hle⟩ := h
  refine ⟨?_, session_id, epoch, policy, hsent hmem, hle.trans hepoch⟩
  rcases hadvance.session_id with hnone | hsame
  · exact absurd hnone hsession
  · rw [hsame]
    exact hsession

/-- The gateway moves on. -/
theorem Agreement.of_gateway (h : Agreement sent p) {gateway : ControlConnectionState}
    {to_gateway to_client : List ControlFrame} (hreachable : gateway.Reachable)
    (hadvance : Advance p.gateway gateway)
    (hlookup : ∀ path_nonce record, p.gateway.attachments.lookup path_nonce = some record →
      gateway.attachments.lookup path_nonce = some record)
    (hsent : sent ⊆ sent') (hrecords : gateway.Records sent')
    (hto_client : ∀ frame ∈ to_client, frame ∈ p.to_client ∨ gateway.Backed sent' frame)
    (hto_gateway : to_gateway ⊆ p.to_gateway)
    (hsession : p.client.session_id = none ∨ gateway.session_id = p.gateway.session_id)
    (hbehind : p.client.session_id = none → ∀ admission,
      p.gateway.verified_admission = some admission →
      gateway.policy_epoch ≤ admission.policy_epoch)
    (hepochs : p.client.session_id ≠ none → gateway.policy_epoch ≤ p.client.policy_epoch) :
    Agreement sent' ⟨p.client, gateway, to_gateway, to_client⟩ where
  client := h.client
  gateway := hreachable
  client_role := h.client_role
  gateway_role := hadvance.role.trans h.gateway_role
  records := hrecords
  in_flight := by
    intro frame hmem
    rcases hto_client frame hmem with hold | hnew
    · exact (h.in_flight frame hold).mono hadvance hlookup hsent
    · exact hnew
  session := by
    rcases hsession with hnone | hsame
    · exact .inl hnone
    · rcases h.session with hnone | hboth
      · exact .inl hnone
      · exact .inr (hsame.trans hboth)
  acks := by
    intro transaction_id hmem
    rcases h.acks transaction_id (hto_gateway hmem) with hclosed | hacked
    · exact .inl ((hadvance.closed hclosed).phase.trans hclosed)
    · exact .inr (hacked.mono (.refl _) le_rfl hsent)
  behind := by
    intro hnone admission hadmission
    exact hbehind hnone admission (hadvance.admission ▸ hadmission)
  epochs := hepochs
  paths := by
    intro path_id path_epoch hbound
    obtain ⟨session_id, path_nonce, record, hclient, hrecord, hresponse⟩ :=
      h.paths path_id path_epoch hbound
    exact ⟨session_id, path_nonce, record, hclient, hlookup path_nonce record hrecord, hresponse⟩

/-- The client moves on. -/
theorem Agreement.of_client (h : Agreement sent p) {client : ControlConnectionState}
    {to_gateway to_client : List ControlFrame} (hreachable : client.Reachable)
    (hadvance : Advance p.client client) (hmono : p.client.policy_epoch ≤ client.policy_epoch)
    (hto_client : to_client ⊆ p.to_client)
    (hto_gateway : ∀ transaction_id, ack transaction_id ∈ to_gateway →
      ack transaction_id ∈ p.to_gateway ∨ p.gateway.phase = .Closed ∨
        Acked client sent transaction_id)
    (hsession : client.session_id = none ∨ p.gateway.session_id = client.session_id)
    (hepochs : client.session_id ≠ none → p.gateway.policy_epoch ≤ client.policy_epoch)
    (hpaths : PathsRecorded client p.gateway) :
    Agreement sent ⟨client, p.gateway, to_gateway, to_client⟩ where
  client := hreachable
  gateway := h.gateway
  client_role := hadvance.role.trans h.client_role
  gateway_role := h.gateway_role
  records := h.records
  in_flight := fun frame hmem => h.in_flight frame (hto_client hmem)
  session := hsession
  acks := by
    intro transaction_id hmem
    rcases hto_gateway transaction_id hmem with hold | hnew
    · rcases h.acks transaction_id hold with hclosed | hacked
      · exact .inl hclosed
      · exact .inr (hacked.mono hadvance hmono (List.Subset.refl _))
    · exact hnew
  behind := by
    intro hnone admission hadmission
    refine h.behind ?_ admission hadmission
    rcases hadvance.session_id with hold | hsame
    · exact hold
    · exact hsame.symm.trans hnone
  epochs := hepochs
  paths := hpaths

/-- A client that keeps its session and does not lose epochs keeps the agreement. -/
theorem Agreement.of_client_same (h : Agreement sent p) {client : ControlConnectionState}
    {to_gateway to_client : List ControlFrame} (hreachable : client.Reachable)
    (hadvance : Advance p.client client) (hmono : p.client.policy_epoch ≤ client.policy_epoch)
    (hto_client : to_client ⊆ p.to_client)
    (hto_gateway : ∀ transaction_id, ack transaction_id ∈ to_gateway →
      ack transaction_id ∈ p.to_gateway ∨ p.gateway.phase = .Closed ∨
        Acked client sent transaction_id)
    (hsession : client.session_id = p.client.session_id)
    (hpaths : PathsRecorded client p.gateway) :
    Agreement sent ⟨client, p.gateway, to_gateway, to_client⟩ := by
  refine h.of_client hreachable hadvance hmono hto_client hto_gateway ?_ ?_ hpaths
  · rw [hsession]
    exact h.session
  · intro hne
    rw [hsession] at hne
    exact (h.epochs hne).trans hmono

/-- Paths a client keeps are still recorded. -/
theorem PathsRecorded.of_subset {client client' gateway : ControlConnectionState}
    (h : PathsRecorded client gateway) (hsession : client'.session_id = client.session_id)
    (hpaths : ∀ path_id path_epoch, client'.path_epoch path_id = some path_epoch →
      client.path_epoch path_id = some path_epoch) : PathsRecorded client' gateway := by
  intro path_id path_epoch hbound
  rw [hsession]
  exact h path_id path_epoch (hpaths path_id path_epoch hbound)

/-! ## Each event keeps it -/

section Events

variable {frame : ControlFrame} {now_ms : ℕ}

theorem mem_sent_frames {f : ControlFrame} {result : Except ControlStateError Unit}
    (h : f ∈ sent_frames frame result) : f = frame := by
  cases result with
  | error => contradiction
  | ok => exact List.mem_singleton.mp h

/-- The client sends a frame of its own. -/
theorem Agreement.client_sends (h : Agreement sent p) (hframe : frame.message.is_answer = false)
    (now_ms : ℕ) :
    Agreement sent ⟨(p.client.on_outbound frame now_ms).1, p.gateway,
      p.to_gateway ++ sent_frames frame (p.client.on_outbound frame now_ms).2, p.to_client⟩ := by
  have hwell := h.client.wellformed
  have heffect := p.client.apply_effect hwell (.on_outbound frame now_ms)
  rw [apply_on_outbound] at heffect
  obtain ⟨hsession, hepoch, hpaths⟩ := heffect.outbound_same
  refine h.of_client_same (h.client.run [.on_outbound frame now_ms]) (heffect.advance hwell)
    hepoch.ge (List.Subset.refl _) ?_ hsession (h.paths.of_subset hsession ?_)
  · intro tid hmem
    rcases List.mem_append.mp hmem with hold | hnew
    · exact .inl hold
    · rw [← mem_sent_frames hnew] at hframe
      contradiction
  · intro path_id epoch hbound
    rw [path_epoch, hpaths] at hbound
    exact hbound

/-- The gateway sends a frame of its own. -/
theorem Agreement.gateway_sends (h : Agreement sent p) (hframe : frame.message.is_answer = false)
    (now_ms : ℕ) :
    Agreement (sent ++ sent_frames frame (p.gateway.on_outbound frame now_ms).2)
      ⟨p.client, (p.gateway.on_outbound frame now_ms).1, p.to_gateway,
        p.to_client ++ sent_frames frame (p.gateway.on_outbound frame now_ms).2⟩ := by
  have hwell := h.gateway.wellformed
  have heffect := p.gateway.apply_effect hwell (.on_outbound frame now_ms)
  rw [apply_on_outbound] at heffect
  obtain ⟨hsession, hepoch, -⟩ := heffect.outbound_same
  obtain ⟨hrecords, hbacked⟩ := heffect.outbound_backed h.gateway_role h.records hframe
  refine h.of_gateway (h.gateway.run [.on_outbound frame now_ms]) (heffect.advance hwell)
    (fun _ _ => heffect.lookup_attachment) (List.subset_append_left _ _) hrecords ?_
    (List.Subset.refl _) (.inr hsession) ?_ ?_
  · intro f hmem
    rcases List.mem_append.mp hmem with hold | hnew
    · exact .inl hold
    · exact .inr (hbacked f hnew)
  · rw [hepoch]
    exact h.behind
  · rw [hepoch]
    exact h.epochs

/-- The gateway takes a frame off the stream. -/
theorem Agreement.gateway_receives (h : Agreement sent p) (hreuse : NoReuse sent)
    {rest : List ControlFrame} (hto_gateway : p.to_gateway = frame :: rest) (now_ms : ℕ) :
    Agreement sent ⟨p.client, (p.gateway.on_inbound frame now_ms).1, rest,
      p.to_client ++ reply_frames (p.gateway.on_inbound frame now_ms).2⟩ := by
  have hwell := h.gateway.wellformed
  have heffect := p.gateway.apply_effect hwell (.on_inbound frame now_ms)
  rw [apply_on_inbound] at heffect
  have hadvance := heffect.advance hwell
  obtain ⟨hrecords, hbacked⟩ := heffect.inbound_backed h.gateway_role hwell
    (h.gateway.pathLedger h.gateway_role) h.records
  have hsource := heffect.epoch_source h.gateway_role hwell
  -- without a session at the gateway there is none at the client
  have hnone : p.gateway.session_id = none → p.client.session_id = none := by
    intro hnone
    rcases h.session with hclient | hsame
    · exact hclient
    · rw [← hsame, hnone]
  refine h.of_gateway (h.gateway.run [.on_inbound frame now_ms]) hadvance
    (fun _ _ => heffect.lookup_attachment) (List.Subset.refl _) hrecords ?_ ?_ ?_ ?_ ?_
  · intro f hmem
    rcases List.mem_append.mp hmem with hold | hnew
    · exact .inl hold
    · exact .inr (hbacked f hnew)
  · rw [hto_gateway]
    exact List.subset_cons_self _ _
  · exact hadvance.session_id.imp_left hnone
  · intro hclient admission hadmission
    rcases hsource with hsame | ⟨-, admission', hadmission', hepoch⟩ | ⟨hack, hactive, -⟩
    · rw [hsame]
      exact h.behind hclient admission hadmission
    · obtain rfl := Option.some.inj (hadmission'.symm.trans hadmission)
      exact hepoch.le
    · -- a client without a session has acknowledged nothing
      have hmem : ack frame.transaction_id ∈ p.to_gateway := by
        rw [hto_gateway, ack, ← hack]
        exact List.mem_cons_self
      rcases h.acks _ hmem with hclosed | hacked
      · rw [hactive] at hclosed
        contradiction
      · exact absurd hclient hacked.1
  · intro hclient
    rcases hsource with hsame | ⟨hgateway, -⟩ | ⟨hack, hactive, pending, hpending, hepoch⟩
    · rw [hsame]
      exact h.epochs hclient
    · exact absurd (hnone hgateway) hclient
    · -- the acknowledged update is the pending one
      have hmem : ack frame.transaction_id ∈ p.to_gateway := by
        rw [hto_gateway, ack, ← hack]
        exact List.mem_cons_self
      rcases h.acks _ hmem with hclosed | ⟨-, session_id, epoch, policy, hsent, hle⟩
      · rw [hactive] at hclosed
        contradiction
      · obtain ⟨session_id', policy', hsent'⟩ := h.records.pending _ pending hpending
        rw [hepoch, hreuse _ _ _ _ _ _ _ hsent' hsent]
        exact hle

/-- The client takes a frame off the stream. -/
theorem Agreement.client_receives (h : Agreement sent p) {rest : List ControlFrame}
    (hto_client : p.to_client = frame :: rest) (now_ms : ℕ) :
    Agreement sent ⟨(p.client.on_inbound frame now_ms).1, p.gateway,
      p.to_gateway ++ reply_frames (p.client.on_inbound frame now_ms).2, rest⟩ := by
  have hwell := h.client.wellformed
  have heffect := p.client.apply_effect hwell (.on_inbound frame now_ms)
  rw [apply_on_inbound] at heffect
  have hadvance := heffect.advance hwell
  have hreachable : (p.client.on_inbound frame now_ms).1.Reachable :=
    h.client.run [.on_inbound frame now_ms]
  have hbacked : p.gateway.Backed sent frame := by
    refine h.in_flight frame ?_
    rw [hto_client]
    exact List.mem_cons_self
  have hrest : rest ⊆ p.to_client := by
    rw [hto_client]
    exact List.subset_cons_self _ _
  generalize (p.client.on_inbound frame now_ms).1 = client at *
  generalize (p.client.on_inbound frame now_ms).2 = result at *
  cases heffect with
  | late_inbound hexpires =>
    refine h.of_client_same hreachable hadvance le_rfl hrest ?_ rfl
      (h.paths.of_subset rfl (fun _ _ hbound => hbound))
    intro tid hmem
    rcases List.mem_append.mp hmem with hold | hnew
    · exact .inl hold
    · have hmessage := congrArg ControlFrame.message (List.mem_singleton.mp hnew)
      contradiction
  | gateway_inbound hgateway =>
    rw [h.client_role] at hgateway
    contradiction
  | @client_inbound _ _ _ action _ _ hreceived =>
    have hmono := hreceived.policy_epoch_le (hwell.prune now_ms)
    -- a new acknowledgement is one of an update just taken over, or of a close
    have hacks : ∀ tid, ack tid ∈ p.to_gateway ++ reply_frames (.ok action) →
        ack tid ∈ p.to_gateway ∨ p.gateway.phase = .Closed ∨ Acked client sent tid := by
      intro tid hmem
      rcases List.mem_append.mp hmem with hold | hnew
      · exact .inl hold
      · refine .inr ?_
        obtain ⟨rfl, hupdate | hclose⟩ := hreceived.acknowledges (Option.mem_toList.mp hnew)
        · obtain ⟨session_id, policy, hmessage, hactive⟩ := hupdate
          refine .inr ⟨?_, session_id, client.policy_epoch, policy, ?_, le_rfl⟩
          · have hsession : p.client.session_id = some session_id := hactive.2
            rcases hadvance.session_id with hnone | hsame
            · rw [hsession] at hnone
              contradiction
            · rw [hsame, hsession]
              exact Option.some_ne_none _
          · rw [Backed, hmessage] at hbacked
            rw [← hmessage]
            exact hbacked
        · obtain ⟨session_id, reason, hmessage⟩ := hclose
          rw [Backed, hmessage] at hbacked
          exact .inl hbacked
    have hsource := hreceived.session_source (hwell.prune now_ms)
    have hpaths : ∀ {path_id epoch}, client.path_epoch path_id = some epoch → _ :=
      fun {path_id epoch} hbound => hreceived.path_source hbound
    simp only [prune_session_id, prune_path_epoch, prune_active_session] at hsource hpaths
    rcases hsource with hsame | hadmitted
    · refine h.of_client_same hreachable hadvance hmono hrest hacks hsame ?_
      intro path_id epoch hbound
      rcases hpaths hbound with hold | ⟨session_id, hmessage, hactive⟩
      · rw [hsame]
        exact h.paths path_id epoch hold
      · rw [Backed, hmessage] at hbacked
        obtain ⟨path_nonce, record, hrecord, hresponse⟩ := hbacked
        exact ⟨session_id, path_nonce, record, hsame.trans hactive.2, hrecord, hresponse⟩
    · obtain ⟨hnone, session_id, _, _, _, _, _, _, hsession, hmessage⟩ := hadmitted
      rw [Backed, hmessage] at hbacked
      obtain ⟨hgateway, admission, hadmission, hepoch⟩ := hbacked
      refine h.of_client hreachable hadvance hmono hrest hacks
        (.inr (hgateway.trans hsession.symm)) ?_ ?_
      · intro _
        rw [hepoch]
        exact h.behind hnone admission hadmission
      · -- without a session the client has no path
        intro path_id epoch hbound
        have hold : p.client.path_epoch path_id = some epoch := by
          rcases hpaths hbound with hold | ⟨_, hattached, -⟩
          · exact hold
          · rw [hmessage] at hattached
            contradiction
        obtain ⟨_, -, -, hsome, -⟩ := h.paths path_id epoch hold
        exact absurd (hsome.symm.trans hnone) (Option.some_ne_none _)

end Events

/-- One event keeps the agreement. -/
theorem Agreement.step (h : Agreement sent p) {event : PairEvent} (hevent : event.replies_only)
    (hstep : step p event = some (q, sent')) (hreuse : NoReuse (sent ++ sent')) :
    Agreement (sent ++ sent') q := by
  cases event with
  | client_sends frame now_ms =>
    obtain ⟨rfl, rfl⟩ := step_inj hstep
    rw [List.append_nil]
    exact h.client_sends hevent now_ms
  | gateway_sends frame now_ms =>
    obtain ⟨rfl, rfl⟩ := step_inj hstep
    exact h.gateway_sends hevent now_ms
  | client_receives now_ms =>
    obtain ⟨frame, rest, hto_client, rfl, rfl⟩ := client_receives_eq_some hstep
    rw [List.append_nil]
    exact h.client_receives hto_client now_ms
  | gateway_receives now_ms =>
    obtain ⟨frame, rest, hto_gateway, rfl, rfl⟩ := gateway_receives_eq_some hstep
    rw [List.append_nil] at hreuse ⊢
    exact h.gateway_receives hreuse hto_gateway now_ms

theorem Fresh.agreement (h : p.Fresh) : Agreement [] p := by
  obtain ⟨_, config, _, hclient, -, -⟩ := h.client.eq_initial
  obtain ⟨_, config', _, hgateway, -, -⟩ := h.gateway.eq_initial
  have hsession : p.client.session_id = none := by rw [hclient]; rfl
  have hno_path : ∀ path_id, p.client.path_epoch path_id = none := by
    intro path_id
    rw [hclient]
    rfl
  refine ⟨h.client.reachable, h.gateway.reachable, h.client_role, h.gateway_role, ⟨?_, ?_⟩, ?_,
    .inl hsession, ?_, ?_, fun hne => absurd hsession hne, ?_⟩
  · rw [hgateway]
    exact fun _ hmem => absurd hmem List.not_mem_nil
  · rw [hgateway]
    exact fun _ _ hpending => (Option.some_ne_none _ hpending.symm).elim
  · rw [h.to_client]
    exact fun _ hmem => absurd hmem List.not_mem_nil
  · rw [h.to_gateway]
    exact fun _ hmem => absurd hmem List.not_mem_nil
  · rw [hgateway]
    exact fun _ admission _ => Fin.zero_le _
  · intro path_id epoch hbound
    rw [hno_path path_id] at hbound
    contradiction

/-- The agreement holds in every state of a run. -/
theorem exec_agreement {p₀ : ControlPair} (hfresh : p₀.Fresh) {events : List PairEvent}
    (hevents : Along step (fun _ event => event.replies_only) p₀ events)
    (h : exec step p₀ events = some (p, sent)) (hreuse : NoReuse sent) : Agreement sent p := by
  have hrun : NoReuse ([] ++ sent) → Agreement ([] ++ sent) p := by
    refine exec_along_induct (C := fun _ event => event.replies_only)
      (P := fun q sent => NoReuse sent → Agreement sent q) ?_ (fun _ => hfresh.agreement) hevents h
    intro q event q' o sent hagreement hevent hstep hreuse
    exact (hagreement hreuse.of_append).step hevent hstep hreuse
  exact hrun hreuse

/-- **Two-party agreement.** Whatever the order of sends, deliveries and clock readings:
an admitted client is never behind the gateway's policy epoch, and each of its paths is
one the gateway has allocated to its session. -/
theorem two_party_agreement {p₀ : ControlPair} (hfresh : p₀.Fresh) {events : List PairEvent}
    (hevents : Along step (fun _ event => event.replies_only) p₀ events)
    (h : exec step p₀ events = some (p, sent)) (hreuse : NoReuse sent) :
    (p.client.session_id ≠ none → p.gateway.policy_epoch ≤ p.client.policy_epoch) ∧
    ∀ path_id path_epoch, p.client.path_epoch path_id = some path_epoch →
      ∃ session_id path_nonce record, p.client.session_id = some session_id ∧
        p.gateway.attachments.lookup path_nonce = some record ∧
        record.response = .PathAttached session_id path_id path_epoch := by
  have hagreement := exec_agreement hfresh hevents h hreuse
  exact ⟨hagreement.epochs, hagreement.paths⟩

/-- Admission, an attach and a policy update, delivered in turn. -/
theorem two_party_agreement_sample : ∃ p sent,
    exec step Sample.pair Sample.exchange = some (p, sent) ∧
      p.gateway.policy_epoch ≤ p.client.policy_epoch := by
  have hevents : Along step (fun _ event => event.replies_only) Sample.pair Sample.exchange := by
    decide
  have hreuse : NoReuse [Sample.update 3 2] := by
    intro tid sid sid' epoch epoch' policy policy' h h'
    have heq := (List.mem_singleton.mp h).trans (List.mem_singleton.mp h').symm
    obtain ⟨-, hmessage⟩ := ControlFrame.mk.inj heq
    exact (ControlMessage.PolicyUpdate.inj hmessage).2.1
  refine ⟨_, [Sample.update 3 2], rfl, ?_⟩
  exact (two_party_agreement Sample.pair_fresh hevents rfl hreuse).1 (by decide)

end ControlPair

end StreamGuard.Control
