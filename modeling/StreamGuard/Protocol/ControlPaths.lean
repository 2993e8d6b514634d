/-
The path identifiers of a gateway.

A path attach takes the next identifier and leaves two traces, the entry of
`protocol_paths` and the attachment record; the entry goes with a detach, the record
stays as long as the connection. `PathLedger` is what ties the counter, the records,
the bound paths and the completed cache together.
-/
import StreamGuard.Protocol.ControlGateway

set_option autoImplicit false

namespace StreamGuard.Control

open StreamGuard StreamGuard.Lib

namespace ControlConnectionState

variable {s t : ControlConnectionState} {frame : ControlFrame} {now_ms : ℕ}

/-! ## The invariant -/

/-- The last path identifier, `u16::MAX`. -/
def lastPathId : ℕ := 2 ^ 16 - 1

/-- The tables of a gateway agree: identifiers are handed out in order, each to one
record, and every bound path and every remembered `PathAttached` comes from a record. -/
structure PathLedger (s : ControlConnectionState) : Prop where
  completed_capacity : s.config.completed_request_capacity ≠ 0
  completed_len : s.completed.length ≤ s.config.completed_request_capacity
  completed_ids : (s.completed.map (fun entry => entry.request.transaction_id)).Nodup
  attachments_len : s.attachments.len ≤ s.config.attachment_capacity
  attachments_last : s.attachments.len ≤ lastPathId
  next : s.next_path_id.map Fin.val =
    if s.attachments.len < lastPathId then some (s.attachments.len + 1) else none
  record : ∀ path_nonce record, s.attachments.lookup path_nonce = some record →
    ∃ session_id path_id path_epoch key_epoch metadata,
      record.request = .PathAttach session_id path_nonce path_epoch key_epoch metadata ∧
      record.response = .PathAttached session_id path_id path_epoch ∧
      1 ≤ path_id.get.val ∧ path_id.get.val ≤ s.attachments.len
  distinct : ∀ path_nonce path_nonce' record record' path path',
    s.attachments.lookup path_nonce = some record →
    s.attachments.lookup path_nonce' = some record' →
    record.response.attached_path = some path → record'.response.attached_path = some path' →
    path.1 = path'.1 → path_nonce = path_nonce'
  bound : ∀ path_id path_epoch, s.path_epoch path_id = some path_epoch →
    ∃ path_nonce record, s.attachments.lookup path_nonce = some record ∧
      record.response.attached_path = some (path_id, path_epoch)
  answered : ∀ entry ∈ s.completed, ∀ session_id path_nonce,
    entry.request.message.path_attach = some (session_id, path_nonce) →
    entry.response.message.attached_path = none ∨
      ∃ record, s.attachments.lookup path_nonce = some record ∧
        record.request = entry.request.message ∧
        entry.response = ⟨entry.request.transaction_id, record.response⟩

/-- A recorded path identifier is in use. -/
theorem PathLedger.path_le (hs : s.PathLedger) {path_nonce : BitVec 128} {record : AttachmentRecord}
    {path : PathId × U64} (hrecord : s.attachments.lookup path_nonce = some record)
    (hpath : record.response.attached_path = some path) : path.1.get.val ≤ s.attachments.len := by
  obtain ⟨session_id, path_id, path_epoch, -, -, -, hresponse, -, hle⟩ :=
    hs.record path_nonce record hrecord
  rw [hresponse] at hpath
  obtain rfl := Option.some.inj hpath
  exact hle

/-- The next identifier is the first one not in use. -/
theorem PathLedger.next_val (hs : s.PathLedger) {path_id : U16} (h : s.next_path_id = some path_id) :
    path_id.val = s.attachments.len + 1 := by
  have hnext := hs.next
  rw [h, Option.map_some] at hnext
  split at hnext
  · exact Option.some.inj hnext
  · contradiction

/-! ## What keeps it -/

theorem PathLedger.prune (hs : s.PathLedger) (now_ms : ℕ) : (s.prune now_ms).PathLedger where
  completed_capacity := hs.completed_capacity
  completed_len := (List.length_filter_le _ _).trans hs.completed_len
  completed_ids := hs.completed_ids.sublist (List.filter_sublist.map _)
  attachments_len := hs.attachments_len
  attachments_last := hs.attachments_last
  next := hs.next
  record := hs.record
  distinct := hs.distinct
  bound := hs.bound
  answered := fun entry hmem => hs.answered entry (mem_prune_completed.mp hmem).1

/-- Remembering the answer to a request the cache does not know. -/
theorem PathLedger.remember (hs : s.PathLedger) (hfresh : s.completed_action frame = none)
    {response : ControlFrame} (hanswered : ∀ session_id path_nonce,
      frame.message.path_attach = some (session_id, path_nonce) →
      response.message.attached_path = none ∨
        ∃ record, s.attachments.lookup path_nonce = some record ∧ record.request = frame.message ∧
          response = ⟨frame.transaction_id, record.response⟩) (now_ms : ℕ) :
    (s.remember frame response now_ms).PathLedger where
  completed_capacity := hs.completed_capacity
  completed_len := by
    have hkept := s.length_kept_lt hs.completed_capacity hs.completed_len
    change (s.remember frame response now_ms).completed.length ≤ s.config.completed_request_capacity
    rw [completed_remember, List.length_append, List.length_singleton]
    omega
  completed_ids := by
    have hnew := completed_action_eq_none.mp hfresh
    rw [completed_remember, List.map_append, List.map_singleton, List.nodup_append_comm,
      List.singleton_append, List.nodup_cons]
    refine ⟨?_, hs.completed_ids.sublist (s.kept_sublist.map _)⟩
    intro hmem
    obtain ⟨entry, hmem, htid⟩ := List.mem_map.mp hmem
    exact hnew entry (s.kept_sublist.subset hmem) htid
  attachments_len := hs.attachments_len
  attachments_last := hs.attachments_last
  next := hs.next
  record := hs.record
  distinct := hs.distinct
  bound := hs.bound
  answered := by
    intro entry hmem
    rw [completed_remember] at hmem
    rcases List.mem_append.mp hmem with hmem | hmem
    · exact hs.answered entry (s.kept_sublist.subset hmem)
    · obtain rfl := List.mem_singleton.mp hmem
      exact hanswered

/-- Allocating the next identifier to a new nonce. -/
theorem PathLedger.attach_path (hs : s.PathLedger) {session_id : SessionId}
    {path_nonce : BitVec 128} {path_epoch : U64} {key_epoch : U32} {metadata : Bytes}
    {path_id : U16} (hnonce : s.attachments.lookup path_nonce = none)
    (hcapacity : s.attachments.len ≠ s.config.attachment_capacity)
    (hnext : s.next_path_id = some path_id) :
    (s.attach_path path_nonce path_id path_epoch
      (.PathAttach session_id path_nonce path_epoch key_epoch metadata)
      (.PathAttached session_id ⟨path_id⟩ path_epoch)).PathLedger := by
  have hval := hs.next_val hnext
  have hlt := path_id.isLt
  generalize hrequest : ControlMessage.PathAttach session_id path_nonce path_epoch key_epoch metadata
    = request
  generalize hresponse : ControlMessage.PathAttached session_id ⟨path_id⟩ path_epoch = response
  have hpath : response.attached_path = some (⟨path_id⟩, path_epoch) := by rw [← hresponse]; rfl
  have hlen : (s.attachments.insert path_nonce ⟨request, response⟩).len = s.attachments.len + 1 :=
    AList.len_insert_of_notMem (AList.lookup_eq_none.mp hnonce)
  have hkeeps : ∀ {nonce record}, s.attachments.lookup nonce = some record →
      (s.attachments.insert path_nonce ⟨request, response⟩).lookup nonce = some record :=
    fun h => AList.lookup_insert_new hnonce h
  have hcases : ∀ {nonce record},
      (s.attachments.insert path_nonce ⟨request, response⟩).lookup nonce = some record →
      (nonce = path_nonce ∧ record = ⟨request, response⟩) ∨
        s.attachments.lookup nonce = some record := by
    intro nonce record h
    rw [AList.lookup_insert_of] at h
    split at h
    · next he => exact .inl ⟨he, (Option.some.inj h).symm⟩
    · exact .inr h
  -- an identifier already recorded is not the next one
  have hfresh : ∀ {nonce record path}, s.attachments.lookup nonce = some record →
      record.response.attached_path = some path → path.1 ≠ ⟨path_id⟩ := by
    intro nonce record path hrecord hattached he
    have hle := hs.path_le hrecord hattached
    rw [he] at hle
    dsimp only at hle
    omega
  refine ⟨hs.completed_capacity, hs.completed_len, hs.completed_ids, ?_, ?_, ?_, ?_, ?_, ?_, ?_⟩
  · have hle := hs.attachments_len
    change (s.attachments.insert _ _).len ≤ s.config.attachment_capacity
    rw [hlen]
    omega
  · change (s.attachments.insert _ _).len ≤ _
    rw [hlen, lastPathId]
    omega
  · change (checked_succ path_id).map Fin.val = if (s.attachments.insert _ _).len < _ then
      some ((s.attachments.insert _ _).len + 1) else none
    rw [hlen, checked_succ, lastPathId, hval]
    by_cases hlast : s.attachments.len + 1 + 1 < 2 ^ 16
    · rw [dif_pos hlast, if_pos (by omega)]
      rfl
    · rw [dif_neg hlast, if_neg (by omega)]
      rfl
  · intro nonce record h
    change (s.attachments.insert _ _).lookup nonce = _ at h
    change ∃ _ _ _ _ _, _ ∧ _ ∧ _ ∧ _ ≤ (s.attachments.insert _ _).len
    rw [hlen]
    rcases hcases h with ⟨rfl, rfl⟩ | h
    · refine ⟨_, _, _, _, _, hrequest.symm, hresponse.symm, ?_, ?_⟩
      · dsimp only
        omega
      · dsimp only
        omega
    · obtain ⟨sid, pid, epoch, key, meta', hreq, hresp, hpos, hle⟩ := hs.record nonce record h
      exact ⟨sid, pid, epoch, key, meta', hreq, hresp, hpos, by omega⟩
  · intro nonce nonce' record record' path path' h h' hp hp' he
    rcases hcases h with ⟨hn, rfl⟩ | hold
    · rcases hcases h' with ⟨hn', -⟩ | hold'
      · exact hn.trans hn'.symm
      · rw [hpath] at hp
        obtain rfl := Option.some.inj hp
        exact absurd he.symm (hfresh hold' hp')
    · rcases hcases h' with ⟨-, rfl⟩ | hold'
      · rw [hpath] at hp'
        obtain rfl := Option.some.inj hp'
        exact absurd he (hfresh hold hp)
      · exact hs.distinct nonce nonce' record record' path path' hold hold' hp hp' he
  · intro pid epoch h
    change (s.protocol_paths.insert path_id path_epoch).lookup pid.get = some epoch at h
    rw [AList.lookup_insert_of] at h
    split at h
    · next he =>
      obtain rfl := Option.some.inj h
      obtain ⟨pid⟩ := pid
      obtain rfl : pid = path_id := he
      exact ⟨path_nonce, _, AList.lookup_insert _, hpath⟩
    · obtain ⟨nonce, record, hrecord, hattached⟩ := hs.bound pid epoch h
      exact ⟨nonce, record, hkeeps hrecord, hattached⟩
  · intro entry hmem sid nonce hattach
    rcases hs.answered entry hmem sid nonce hattach with h | ⟨record, hrecord, hreq, hresp⟩
    · exact .inl h
    · exact .inr ⟨record, hkeeps hrecord, hreq, hresp⟩

/-- Unbinding a path leaves its record. -/
theorem PathLedger.erase_path (hs : s.PathLedger) (path_id : U16) :
    { s with protocol_paths := s.protocol_paths.erase path_id }.PathLedger :=
  { hs with bound := fun pid epoch h => hs.bound pid epoch (AList.lookup_of_erase h) }

/-- An answer to anything but an attach says nothing about records. -/
theorem answered_of_ne_attach {response : ControlFrame} (h : frame.message.path_attach = none) :
    ∀ session_id path_nonce, frame.message.path_attach = some (session_id, path_nonce) →
      response.message.attached_path = none ∨
        ∃ record, s.attachments.lookup path_nonce = some record ∧ record.request = frame.message ∧
          response = ⟨frame.transaction_id, record.response⟩ := by
  intro session_id path_nonce hattach
  rw [h] at hattach
  contradiction

theorem GatewayInbound.pathLedger {action : ControlAction} (hs : s.PathLedger)
    (h : s.GatewayInbound frame now_ms t action) : t.PathLedger := by
  cases h with
  | cached => exact hs
  | refused hfresh => exact hs.remember hfresh (fun _ _ _ => .inl rfl) now_ms
  | @admitted _ _ _ admission hfresh hmessage =>
    have hadmit : (s.admit_session admission).PathLedger := { hs with }
    exact hadmit.remember hfresh (answered_of_ne_attach (by rw [hmessage]; rfl)) now_ms
  | @attached session_id path_nonce path_epoch _ _ path_id hfresh hmessage _ hnonce hcapacity
      hnext =>
    rw [hmessage]
    refine (hs.attach_path hnonce hcapacity hnext).remember hfresh ?_ now_ms
    intro session_id' path_nonce' hattach
    rw [hmessage] at hattach
    obtain ⟨rfl, rfl⟩ := step_inj hattach
    refine .inr ⟨_, AList.lookup_insert _, hmessage.symm, rfl⟩
  | reattached hfresh hmessage _ hnonce hsame =>
    refine hs.remember hfresh ?_ now_ms
    intro session_id' path_nonce' hattach
    rw [hmessage] at hattach
    obtain ⟨rfl, rfl⟩ := step_inj hattach
    exact .inr ⟨_, hnonce, hsame, rfl⟩
  | confirmed hfresh hmessage =>
    exact hs.remember hfresh (answered_of_ne_attach (by rw [hmessage]; rfl)) now_ms
  | @detached _ path_id _ _ hfresh hmessage =>
    exact (hs.erase_path path_id.get).remember hfresh
      (answered_of_ne_attach (by rw [hmessage]; rfl)) now_ms
  | closed hfresh hmessage =>
    exact { hs.remember hfresh (answered_of_ne_attach (by rw [hmessage]; rfl)) now_ms with }
  | acknowledged => exact { hs with }
  | declined => exact { hs with }
  | unsolicited => exact hs

theorem GatewayOutbound.pathLedger {result : Except ControlStateError Unit} (hs : s.PathLedger)
    (h : s.GatewayOutbound frame now_ms t result) : t.PathLedger := by
  cases h with
  | failed => exact hs
  | updating => exact { hs with }
  | updating_again => exact hs
  | answered => exact hs
  | closed => exact { hs with }

theorem Effect.pathLedger {call : ControlCall} {result : ControlResult} (hrole : s.role = .Gateway)
    (hs : s.PathLedger) (h : s.Effect call t result) : t.PathLedger := by
  have hpending : ∀ now_ms, (s.prune_pending now_ms).PathLedger := fun _ => { hs with }
  cases h with
  | late_outbound => exact { hs with }
  | @late_inbound _ now_ms => exact { hs.prune now_ms with }
  | client_outbound hclient =>
    rw [hrole] at hclient
    contradiction
  | gateway_outbound _ _ hsent => exact hsent.pathLedger (hpending _)
  | client_inbound hclient =>
    rw [hrole] at hclient
    contradiction
  | gateway_inbound _ _ hreceived => exact hreceived.pathLedger (hs.prune _)

theorem Fresh.pathLedger (h : Fresh s) : s.PathLedger := by
  obtain ⟨role, config, verified_admission, rfl, hcapacity, -⟩ := h.eq_initial
  have hnone : ∀ {K V : Type} [DecidableEq K] {k : K} {v : V},
      (∅ : Map K V).lookup k = some v → False := by
    intro K V _ k v h
    rw [AList.lookup_empty] at h
    contradiction
  exact ⟨hcapacity, Nat.zero_le _, List.nodup_nil, Nat.zero_le _, Nat.zero_le _, rfl,
    fun _ _ h => (hnone h).elim, fun _ _ _ _ _ _ h => (hnone h).elim,
    fun _ _ h => (hnone h).elim, fun _ h => absurd h List.not_mem_nil⟩

/-- **The tables of every reachable gateway agree.** -/
theorem Reachable.pathLedger (h : s.Reachable) (hrole : s.role = .Gateway) : s.PathLedger := by
  obtain ⟨s₀, calls, results, hfresh, hrun⟩ := h
  have hrun := exec_invariant (I := fun u => u.Wellformed ∧ (u.role = .Gateway → u.PathLedger))
    ?_ ⟨hfresh.wellformed, fun _ => hfresh.pathLedger⟩ hrun
  · exact hrun.2 hrole
  · rintro u call u' o ⟨hwell, hledger⟩ hstep
    obtain ⟨rfl, -⟩ := step_eq_some.mp hstep
    have heffect := u.apply_effect hwell call
    have hadvance := heffect.advance hwell
    refine ⟨hadvance.wellformed hwell, ?_⟩
    intro hgateway
    rw [hadvance.role] at hgateway
    exact heffect.pathLedger hgateway (hledger hgateway)

/-! ## Records stay -/

theorem GatewayInbound.lookup_attachment {action : ControlAction} {path_nonce : BitVec 128}
    {record : AttachmentRecord} (h : s.GatewayInbound frame now_ms t action)
    (hrecord : s.attachments.lookup path_nonce = some record) :
    t.attachments.lookup path_nonce = some record := by
  cases h with
  | attached _ _ _ hnonce => exact AList.lookup_insert_new hnonce hrecord
  | _ => exact hrecord

theorem Effect.lookup_attachment {call : ControlCall} {result : ControlResult}
    {path_nonce : BitVec 128} {record : AttachmentRecord} (h : s.Effect call t result)
    (hrecord : s.attachments.lookup path_nonce = some record) :
    t.attachments.lookup path_nonce = some record := by
  cases h with
  | late_outbound => exact hrecord
  | late_inbound => exact hrecord
  | client_outbound _ _ hsent => cases hsent <;> exact hrecord
  | gateway_outbound _ _ hsent => cases hsent <;> exact hrecord
  | client_inbound _ _ hreceived => cases hreceived <;> exact hrecord
  | gateway_inbound _ _ hreceived => exact hreceived.lookup_attachment hrecord

/-- A record is there for the rest of the run. -/
theorem exec_lookup_attachment (hs : s.Wellformed) {calls : List ControlCall}
    {results : List ControlResult} (h : exec step s calls = some (t, results))
    {path_nonce : BitVec 128} {record : AttachmentRecord}
    (hrecord : s.attachments.lookup path_nonce = some record) :
    t.attachments.lookup path_nonce = some record := by
  have hrun := exec_invariant
    (I := fun u => u.Wellformed ∧ u.attachments.lookup path_nonce = some record) ?_ ⟨hs, hrecord⟩ h
  · exact hrun.2
  · rintro u call u' o ⟨hwell, hu⟩ hstep
    obtain ⟨rfl, -⟩ := step_eq_some.mp hstep
    have heffect := u.apply_effect hwell call
    exact ⟨(heffect.advance hwell).wellformed hwell, heffect.lookup_attachment hu⟩

/-! ## Repeated attaches -/

/-- A path an attach is answered with is recorded for this request. -/
theorem GatewayInbound.recorded {action : ControlAction} (hs : s.PathLedger)
    (h : s.GatewayInbound frame now_ms t action) {session_id : SessionId} {path_nonce : BitVec 128}
    (hattach : frame.message.path_attach = some (session_id, path_nonce)) {reply : ControlFrame}
    (hanswer : action.answer = some reply) {path : PathId × U64}
    (hpath : reply.message.attached_path = some path) :
    ∃ record, t.attachments.lookup path_nonce = some record ∧ record.request = frame.message ∧
      record.response = reply.message := by
  -- the other requests and the rejects name no path
  have hnone : reply.message.attached_path = none → False := by
    intro hnone
    rw [hpath] at hnone
    contradiction
  cases h with
  | cached hcached =>
    obtain ⟨entry, hmem, htid, rfl⟩ := completed_action_eq_some hcached
    split at hanswer
    · next hsame =>
      obtain rfl := Option.some.inj hanswer
      rcases hs.answered entry hmem session_id path_nonce (hsame ▸ hattach) with h | h
      · exact (hnone h).elim
      · obtain ⟨record, hrecord, hrequest, hresponse⟩ := h
        rw [hresponse]
        exact ⟨record, hrecord, hsame ▸ hrequest, rfl⟩
    · obtain rfl := Option.some.inj hanswer
      exact (hnone rfl).elim
  | attached _ hmessage =>
    obtain rfl := Option.some.inj hanswer
    rw [hmessage] at hattach
    obtain ⟨rfl, rfl⟩ := step_inj hattach
    exact ⟨_, AList.lookup_insert _, rfl, rfl⟩
  | reattached _ hmessage _ hnonce hsame =>
    obtain rfl := Option.some.inj hanswer
    rw [hmessage] at hattach
    obtain ⟨rfl, rfl⟩ := step_inj hattach
    exact ⟨_, hnonce, hsame, rfl⟩
  | acknowledged => contradiction
  | declined => contradiction
  | _ =>
    obtain rfl := Option.some.inj hanswer
    exact (hnone rfl).elim

/-- The transaction ID of `frame` is still in the completed cache, from another request
or with an answer that is no path. -/
def conflicts (s : ControlConnectionState) (frame : ControlFrame) (now_ms : ℕ) : Prop :=
  ∃ entry ∈ s.completed, now_ms < entry.expires_at_ms ∧
    entry.request.transaction_id = frame.transaction_id ∧
    (entry.request ≠ frame ∨ entry.response.message.attached_path = none)

instance (frame : ControlFrame) (now_ms : ℕ) : Decidable (s.conflicts frame now_ms) :=
  inferInstanceAs (Decidable (∃ _ ∈ _, _ ∧ _ ∧ _))

/-- What a cache entry for this very frame says about a recorded attach. -/
theorem PathLedger.conflicts_iff (hs : s.PathLedger) {session_id : SessionId}
    {path_nonce : BitVec 128} (hattach : frame.message.path_attach = some (session_id, path_nonce))
    {record : AttachmentRecord} (hrecord : s.attachments.lookup path_nonce = some record)
    {entry : CompletedRequest} (hmem : entry ∈ s.completed) (hlive : now_ms < entry.expires_at_ms)
    (hsame : entry.request = frame) :
    entry.response = ⟨frame.transaction_id, record.response⟩ ↔ ¬ s.conflicts frame now_ms := by
  obtain ⟨_, path_id, path_epoch, -, -, -, hresponse, -⟩ := hs.record path_nonce record hrecord
  rcases hs.answered entry hmem session_id path_nonce (hsame ▸ hattach) with hnone | h
  · refine iff_of_false ?_ (not_not.mpr ⟨entry, hmem, hlive, by rw [hsame], .inr hnone⟩)
    intro heq
    rw [heq, hresponse] at hnone
    contradiction
  · obtain ⟨record', hrecord', -, heq⟩ := h
    obtain rfl := Option.some.inj (hrecord.symm.trans hrecord')
    rw [hsame] at heq
    refine iff_of_true heq ?_
    rintro ⟨other, hother, -, htid, hconflict⟩
    -- there is only one entry with this ID
    obtain rfl : other = entry :=
      List.inj_on_of_nodup_map hs.completed_ids hother hmem (htid.trans (by rw [hsame]))
    rcases hconflict with hne | hnone
    · exact hne hsame
    · rw [heq, hresponse] at hnone
      contradiction

/-- **A recorded attach again**: nothing is allocated, and it is answered with the
recorded path exactly when its transaction ID is not taken. -/
theorem on_inbound_recorded (hs : s.PathLedger) (hrole : s.role = .Gateway)
    (hlive : ¬ s.expires now_ms) {session_id : SessionId} {path_nonce : BitVec 128}
    (hattach : frame.message.path_attach = some (session_id, path_nonce))
    (hactive : s.active_session session_id) {record : AttachmentRecord}
    (hrecord : s.attachments.lookup path_nonce = some record)
    (hrequest : record.request = frame.message) :
    (s.on_inbound frame now_ms).1.attachments = s.attachments ∧
    (s.on_inbound frame now_ms).1.next_path_id = s.next_path_id ∧
    ((∃ action, (s.on_inbound frame now_ms).2 = .ok action ∧
        action.answer = some ⟨frame.transaction_id, record.response⟩) ↔
      ¬ s.conflicts frame now_ms) := by
  by_cases hremembered : s.remembered frame.transaction_id now_ms
  · cases hcached : (s.prune now_ms).completed_action frame with
    | none =>
      exact absurd hremembered (completed_action_prune_eq_none.mp hcached)
    | some action =>
      obtain ⟨entry, hmem, htid, haction⟩ := completed_action_eq_some hcached
      obtain ⟨hmem, hunexpired⟩ := mem_prune_completed.mp hmem
      have hinbound : s.on_inbound frame now_ms = (s.prune now_ms, .ok action) := by
        rw [s.on_inbound_of_live hlive, hrole]
        dsimp only
        rw [gateway_inbound, hcached]
      rw [hinbound]
      refine ⟨rfl, rfl, ?_⟩
      have hanswer : (∃ action', (Except.ok action : Except ControlStateError ControlAction) =
          .ok action' ∧ action'.answer = some ⟨frame.transaction_id, record.response⟩) ↔
          action.answer = some ⟨frame.transaction_id, record.response⟩ := by
        constructor
        · rintro ⟨action', haction', hanswer⟩
          obtain rfl := Except.ok.inj haction'
          exact hanswer
        · intro hanswer
          exact ⟨action, rfl, hanswer⟩
      rw [hanswer, haction]
      split
      · next hsame =>
        rw [← hs.conflicts_iff hattach hrecord hmem hunexpired hsame]
        exact Option.some_inj
      · next hne =>
        refine iff_of_false ?_ (not_not.mpr ⟨entry, hmem, hunexpired, htid, .inl hne⟩)
        intro heq
        obtain ⟨_, _, _, _, _, -, hresponse, -⟩ := hs.record path_nonce record hrecord
        rw [hresponse] at heq
        have hmessage := congrArg ControlFrame.message (Option.some.inj heq)
        contradiction
  · have hinbound := on_inbound_attach hrole hlive hremembered hattach
    rw [gateway_path_attach_of_recorded (s := s.prune now_ms) hactive hrecord hrequest] at hinbound
    rw [hinbound]
    refine ⟨rfl, rfl, iff_of_true ⟨_, rfl, rfl⟩ ?_⟩
    rintro ⟨entry, hmem, hunexpired, htid, -⟩
    exact hremembered ⟨entry, hmem, hunexpired, htid⟩

/-- **Path identifiers are allocated once.** The tables of a reachable gateway agree, and
once an attach has been answered with a path, an identical one at any later point of the
run while the session is active allocates nothing and is answered with the same path,
exactly when the completed cache does not hold its transaction ID for another request
or with another answer. -/
theorem paths_allocated_once (hs : s.Reachable) (hrole : s.role = .Gateway) :
    (s.attachments.len ≤ lastPathId ∧ s.next_path_id.map Fin.val =
      if s.attachments.len < lastPathId then some (s.attachments.len + 1) else none) ∧
    (∀ path_nonce record, s.attachments.lookup path_nonce = some record →
      ∃ path, record.response.attached_path = some path ∧
        1 ≤ path.1.get.val ∧ path.1.get.val ≤ s.attachments.len) ∧
    (∀ path_nonce path_nonce' record record' path path',
      s.attachments.lookup path_nonce = some record →
      s.attachments.lookup path_nonce' = some record' →
      record.response.attached_path = some path → record'.response.attached_path = some path' →
      path.1 = path'.1 → path_nonce = path_nonce') ∧
    (∀ path_id path_epoch, s.path_epoch path_id = some path_epoch →
      ∃! path_nonce, ∃ record, s.attachments.lookup path_nonce = some record ∧
        record.response.attached_path = some (path_id, path_epoch)) ∧
    s.attachments.len ≤ s.config.attachment_capacity ∧
    s.completed.length ≤ s.config.completed_request_capacity ∧
    (s.completed.map (fun entry => entry.request.transaction_id)).Nodup ∧
    ∀ (first : ControlFrame) (first_ms : ℕ) (session_id : SessionId) (path_nonce : BitVec 128)
      (action : ControlAction) (reply : ControlFrame) (path : PathId × U64),
      first.message.path_attach = some (session_id, path_nonce) →
      (s.on_inbound first first_ms).2 = .ok action → action.answer = some reply →
      reply.message.attached_path = some path →
      ∀ (calls : List ControlCall) (results : List ControlResult) (t : ControlConnectionState)
        (frame : ControlFrame) (now_ms : ℕ),
        exec step (s.on_inbound first first_ms).1 calls = some (t, results) →
        frame.message = first.message → t.active_session session_id → ¬ t.expires now_ms →
        (t.on_inbound frame now_ms).1.attachments = t.attachments ∧
        (t.on_inbound frame now_ms).1.next_path_id = t.next_path_id ∧
        ((∃ action', (t.on_inbound frame now_ms).2 = .ok action' ∧
            action'.answer = some ⟨frame.transaction_id, reply.message⟩) ↔
          ¬ t.conflicts frame now_ms) := by
  have hledger := hs.pathLedger hrole
  refine ⟨⟨hledger.attachments_last, hledger.next⟩, ?_, hledger.distinct, ?_,
    hledger.attachments_len, hledger.completed_len, hledger.completed_ids, ?_⟩
  · intro path_nonce record hrecord
    obtain ⟨_, path_id, path_epoch, -, -, -, hresponse, hpos, hle⟩ :=
      hledger.record path_nonce record hrecord
    exact ⟨(path_id, path_epoch), by rw [hresponse]; rfl, hpos, hle⟩
  · intro path_id path_epoch hbound
    obtain ⟨path_nonce, record, hrecord, hpath⟩ := hledger.bound path_id path_epoch hbound
    refine ⟨path_nonce, ⟨record, hrecord, hpath⟩, ?_⟩
    rintro path_nonce' ⟨record', hrecord', hpath'⟩
    exact hledger.distinct _ _ _ _ _ _ hrecord' hrecord hpath' hpath rfl
  · intro first first_ms session_id path_nonce action reply path hattach haction hanswer hpath calls
      results t frame now_ms hrun hmessage hactive hlive
    -- the first answer left a record
    have heffect := s.apply_effect hs.wellformed (.on_inbound first first_ms)
    have hwell := (heffect.advance hs.wellformed).wellformed hs.wellformed
    have hfirst : ∃ record, (s.on_inbound first first_ms).1.attachments.lookup path_nonce =
        some record ∧ record.request = first.message ∧ record.response = reply.message := by
      rw [apply_on_inbound, haction] at heffect
      generalize (s.on_inbound first first_ms).1 = u at heffect ⊢
      cases heffect with
      | late_inbound =>
        obtain rfl := Option.some.inj hanswer
        contradiction
      | client_inbound hclient =>
        rw [hrole] at hclient
        contradiction
      | gateway_inbound _ _ hreceived =>
        exact hreceived.recorded (hledger.prune _) hattach hanswer hpath
    obtain ⟨record, hrecord, hrequest, hresponse⟩ := hfirst
    have hafter : (s.on_inbound first first_ms).1.Reachable := hs.run [.on_inbound first first_ms]
    have hadvance := exec_advance hwell hrun
    have ht : t.Reachable := by
      obtain ⟨s₀, before, results₀, hfresh, hbefore⟩ := hafter
      exact ⟨s₀, before ++ calls, _, hfresh, exec_append hbefore hrun⟩
    have htrole : t.role = .Gateway := by
      rw [hadvance.role]
      exact (heffect.advance hs.wellformed).role.trans hrole
    rw [← hresponse]
    exact on_inbound_recorded (ht.pathLedger htrole) htrole hlive (hmessage ▸ hattach) hactive
      (exec_lookup_attachment hwell hrun hrecord) (hrequest.trans hmessage.symm)

/-- A gateway with one path, asked for it again under a new transaction ID. -/
theorem paths_allocated_once_sample :
    let s := Sample.gateway.run [.on_inbound (Sample.hello 1) 0]
    let t := s.run [.on_inbound (Sample.attach 2 0x66 7) 1]
    (t.on_inbound (Sample.attach 3 0x66 7) 2).1.next_path_id = t.next_path_id := by
  have hs := Sample.gateway_fresh.reachable.run [.on_inbound (Sample.hello 1) 0]
  obtain ⟨-, -, -, -, -, -, -, hrepeat⟩ := paths_allocated_once hs rfl
  exact (hrepeat (Sample.attach 2 0x66 7) 1 Sample.session 0x66 _ _ _ rfl rfl rfl rfl [] [] _
    (Sample.attach 3 0x66 7) 2 rfl rfl ⟨rfl, rfl⟩ (by decide)).2.1

/-- The client reuses the transaction ID of a path report for the attach it repeats: the
answer is a reject. -/
theorem repeated_attach_rejected :
    ¬ ∀ (s t : ControlConnectionState) (first frame : ControlFrame) (first_ms now_ms : ℕ)
      (calls : List ControlCall) (results : List ControlResult) (action : ControlAction)
      (reply : ControlFrame) (session_id : SessionId) (path_nonce : BitVec 128)
      (path : PathId × U64), s.Reachable → s.role = .Gateway →
      first.message.path_attach = some (session_id, path_nonce) →
      (s.on_inbound first first_ms).2 = .ok action →
      action.answer = some reply → reply.message.attached_path = some path →
      exec step (s.on_inbound first first_ms).1 calls = some (t, results) →
      frame.message = first.message → t.active_session session_id → ¬ t.expires now_ms →
      ∃ action', (t.on_inbound frame now_ms).2 = .ok action' ∧
        action'.answer.map (fun answer => answer.message.attached_path) = some (some path) := by
  intro hall
  obtain ⟨action', haction, hanswer⟩ := hall (Sample.gateway.run [.on_inbound (Sample.hello 1) 0]) _
    (Sample.attach 2 0x66 7) (Sample.attach 3 0x66 7) 1 3
    [.on_inbound (Sample.health 3 1 7) 2] _ _ _ Sample.session 0x66 _
    (Sample.gateway_fresh.reachable.run _) rfl rfl rfl rfl rfl rfl rfl ⟨rfl, rfl⟩ (by decide)
  obtain rfl := Except.ok.inj haction
  exact absurd hanswer (by decide)

end ControlConnectionState

end StreamGuard.Control
