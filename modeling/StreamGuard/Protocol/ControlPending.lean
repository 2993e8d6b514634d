/-
The local requests that wait for an answer.

Three tables hold them, each keyed by transaction identifiers: attaches and detaches on a
client, policy updates on a gateway. A path request is held whole, of an update the table
keeps only the epoch; so which frame an entry was made for is a ghost of the run,
`announced`. `Tabled` is the invariant that ties the tables to these frames and to the
role, and the two results compare one call against it: a request that reuses an
identifier, and a `Reject`.
-/
import StreamGuard.Protocol.ControlRuns

set_option autoImplicit false

namespace StreamGuard.Control

open StreamGuard StreamGuard.Lib

/-! ## Requests -/

def ControlMessage.is_attach : ControlMessage → Bool
  | .PathAttach .. => true
  | _ => false

def ControlMessage.is_detach : ControlMessage → Bool
  | .PathDetach .. => true
  | _ => false

theorem ControlMessage.of_is_attach {message : ControlMessage} (h : message.is_attach) :
    ∃ session_id path_nonce path_epoch key_epoch metadata,
      message = .PathAttach session_id path_nonce path_epoch key_epoch metadata := by
  cases message with
  | PathAttach => exact ⟨_, _, _, _, _, rfl⟩
  | _ => contradiction

theorem ControlMessage.of_is_detach {message : ControlMessage} (h : message.is_detach) :
    ∃ session_id path_id path_epoch reason,
      message = .PathDetach session_id path_id path_epoch reason := by
  cases message with
  | PathDetach => exact ⟨_, _, _, _, rfl⟩
  | _ => contradiction

/-- The kinds of request an endpoint remembers until they are answered. -/
def ControlMessage.is_local_request : ControlMessage → Bool
  | .PathAttach .. | .PathDetach .. | .PolicyUpdate .. => true
  | _ => false

/-- The entry an announced update leaves: its identifier and its epoch. -/
def ControlFrame.announces (frame : ControlFrame) (transaction_id policy_epoch : U64) : Prop :=
  frame.transaction_id = transaction_id ∧
    ∃ session_id policy, frame.message = .PolicyUpdate session_id policy_epoch policy

namespace ControlConnectionState

variable {s u : ControlConnectionState} {frame f g : ControlFrame} {now_ms : ℕ}

/-! ## What a send does to the tables -/

/-- The entries of the tables of `t` that are not in those of `s` were made for `frame`. -/
structure Enters (s t : ControlConnectionState) (frame : ControlFrame) : Prop where
  role : t.role = s.role
  attach : ∀ transaction_id pending, t.pending_attaches.lookup transaction_id = some pending →
    s.pending_attaches.lookup transaction_id = some pending ∨
      s.role = .Client ∧ transaction_id = frame.transaction_id ∧ pending.request = frame.message ∧
        frame.message.is_attach
  detach : ∀ transaction_id pending, t.pending_detaches.lookup transaction_id = some pending →
    s.pending_detaches.lookup transaction_id = some pending ∨
      s.role = .Client ∧ transaction_id = frame.transaction_id ∧ pending.request = frame.message ∧
        frame.message.is_detach
  update : ∀ transaction_id pending, t.pending_policy_updates.lookup transaction_id = some pending →
    s.pending_policy_updates.lookup transaction_id = some pending ∨
      s.role = .Gateway ∧ frame.announces transaction_id pending.policy_epoch ∧
        s.pending_policy_updates.lookup transaction_id = none

theorem Enters.of_tables {t : ControlConnectionState} (hrole : t.role = s.role)
    (hattach : t.pending_attaches = s.pending_attaches)
    (hdetach : t.pending_detaches = s.pending_detaches)
    (hupdate : t.pending_policy_updates = s.pending_policy_updates) (frame : ControlFrame) :
    Enters s t frame where
  role := hrole
  attach := by
    rw [hattach]
    exact fun _ _ h => .inl h
  detach := by
    rw [hdetach]
    exact fun _ _ h => .inl h
  update := by
    rw [hupdate]
    exact fun _ _ h => .inl h

theorem Enters.refl (s : ControlConnectionState) (frame : ControlFrame) : Enters s s frame :=
  .of_tables rfl rfl rfl rfl frame

theorem enters_client_outbound (hrole : s.role = .Client) (frame : ControlFrame) (now_ms : ℕ) :
    Enters s (s.client_outbound frame now_ms).1 frame := by
  obtain ⟨transaction_id, message⟩ := frame
  rw [client_outbound]
  cases message with
  | PathAttach session_id =>
    dsimp only
    split
    · split
      · split <;> exact .refl s _
      · split
        · exact .refl s _
        · refine ⟨rfl, ?_, fun _ _ h => .inl h, fun _ _ h => .inl h⟩
          intro id pending h
          rcases AList.of_lookup_insert h with hold | ⟨hid, rfl⟩
          · exact .inl hold
          · exact .inr ⟨hrole, hid, rfl, rfl⟩
    · exact .refl s _
  | PathDetach session_id =>
    dsimp only
    split
    · split
      · split <;> exact .refl s _
      · split
        · exact .refl s _
        · refine ⟨rfl, fun _ _ h => .inl h, ?_, fun _ _ h => .inl h⟩
          intro id pending h
          rcases AList.of_lookup_insert h with hold | ⟨hid, rfl⟩
          · exact .inl hold
          · exact .inr ⟨hrole, hid, rfl, rfl⟩
    · exact .refl s _
  | ClientHello =>
    dsimp only
    split
    · refine .of_tables ?_ ?_ ?_ ?_ _ <;> rfl
    · exact .refl s _
  | PathHealth =>
    dsimp only
    split <;> exact .refl s _
  | Ack =>
    dsimp only
    split <;> exact .refl s _
  | Reject =>
    dsimp only
    split <;> exact .refl s _
  | Close =>
    dsimp only
    split
    · refine .of_tables ?_ ?_ ?_ ?_ _ <;> rfl
    · exact .refl s _
  | _ => exact .refl s _

theorem enters_gateway_outbound (hrole : s.role = .Gateway) (frame : ControlFrame) (now_ms : ℕ) :
    Enters s (s.gateway_outbound frame now_ms).1 frame := by
  obtain ⟨transaction_id, message⟩ := frame
  rw [gateway_outbound]
  cases message with
  | PolicyUpdate session_id policy_epoch policy =>
    dsimp only
    split
    · split
      · split <;> exact .refl s _
      · next hnone =>
        split
        · exact .refl s _
        · refine ⟨rfl, fun _ _ h => .inl h, fun _ _ h => .inl h, ?_⟩
          intro id pending h
          rcases AList.of_lookup_insert h with hold | ⟨hid, rfl⟩
          · exact .inl hold
          · exact .inr ⟨hrole, ⟨hid.symm, _, _, rfl⟩, hid ▸ hnone⟩
    · exact .refl s _
  | Ack =>
    dsimp only
    split <;> exact .refl s _
  | Reject =>
    dsimp only
    split <;> exact .refl s _
  | Close =>
    dsimp only
    split
    · refine .of_tables ?_ ?_ ?_ ?_ _ <;> rfl
    · exact .refl s _
  | _ => exact .refl s _

/-- A receipt adds no entry. -/
theorem enters_inbound {t : ControlConnectionState} {action : ControlAction}
    (h : s.ClientInbound frame now_ms t action ∨ s.GatewayInbound frame now_ms t action) :
    Enters s t f := by
  have herase : ∀ {V : Type} {m : Map U64 V} {k k' : U64} {v : V},
      (m.erase k').lookup k = some v → m.lookup k = some v := AList.lookup_of_erase
  rcases h with h | h
  · cases h with
    | attached => exact ⟨rfl, fun _ _ h => .inl (herase h), fun _ _ h => .inl h, fun _ _ h => .inl h⟩
    | detached => exact ⟨rfl, fun _ _ h => .inl h, fun _ _ h => .inl (herase h), fun _ _ h => .inl h⟩
    | settled => exact ⟨rfl, fun _ _ h => .inl h, fun _ _ h => .inl (herase h), fun _ _ h => .inl h⟩
    | _ => refine .of_tables ?_ ?_ ?_ ?_ _ <;> rfl
  · cases h with
    | acknowledged =>
      exact ⟨rfl, fun _ _ h => .inl h, fun _ _ h => .inl h, fun _ _ h => .inl (herase h)⟩
    | declined =>
      exact ⟨rfl, fun _ _ h => .inl h, fun _ _ h => .inl h, fun _ _ h => .inl (herase h)⟩
    | _ => refine .of_tables ?_ ?_ ?_ ?_ _ <;> rfl

/-! ## The frames behind the entries -/

/-- **Every entry was made for a frame**: the path requests are held whole and on a client
only; an update is held by its epoch, on a gateway only, and `announced` has its frame. -/
structure Tabled (s : ControlConnectionState) (announced : Map U64 ControlFrame) : Prop where
  attach : ∀ transaction_id pending, s.pending_attaches.lookup transaction_id = some pending →
    s.role = .Client ∧ pending.request.is_attach
  detach : ∀ transaction_id pending, s.pending_detaches.lookup transaction_id = some pending →
    s.role = .Client ∧ pending.request.is_detach
  update : ∀ transaction_id pending, s.pending_policy_updates.lookup transaction_id = some pending →
    s.role = .Gateway ∧ ∃ frame, announced.lookup transaction_id = some frame ∧
      frame.announces transaction_id pending.policy_epoch

/-- The frames for which the entries of the update table were made: a send that adds an entry
is remembered. -/
def announced (s : ControlConnectionState) (frames : Map U64 ControlFrame) :
    ControlCall → Map U64 ControlFrame
  | .on_outbound frame now_ms =>
    if frame.transaction_id ∉ (s.prune_pending now_ms).pending_policy_updates ∧
        frame.transaction_id ∈ (s.on_outbound frame now_ms).1.pending_policy_updates then
      frames.insert frame.transaction_id frame
    else frames
  | .on_inbound .. => frames

section Invariant

variable {frames : Map U64 ControlFrame}

/-- Entries that were there before keep what is known of them. -/
theorem Tabled.restrict (h : s.Tabled frames) (hrole : u.role = s.role)
    (hattach : ∀ id pending, u.pending_attaches.lookup id = some pending →
      s.pending_attaches.lookup id = some pending)
    (hdetach : ∀ id pending, u.pending_detaches.lookup id = some pending →
      s.pending_detaches.lookup id = some pending)
    (hupdate : ∀ id pending, u.pending_policy_updates.lookup id = some pending →
      s.pending_policy_updates.lookup id = some pending) : u.Tabled frames := by
  refine ⟨?_, ?_, ?_⟩ <;> rw [hrole]
  · exact fun id pending hl => h.attach id pending (hattach id pending hl)
  · exact fun id pending hl => h.detach id pending (hdetach id pending hl)
  · exact fun id pending hl => h.update id pending (hupdate id pending hl)

theorem Tabled.prune_pending (h : s.Tabled frames) (now_ms : ℕ) :
    (s.prune_pending now_ms).Tabled frames :=
  h.restrict rfl (fun _ _ hl => (AList.lookup_retain_eq_some.mp hl).1)
    (fun _ _ hl => (AList.lookup_retain_eq_some.mp hl).1)
    (fun _ _ hl => (AList.lookup_retain_eq_some.mp hl).1)

theorem Tabled.prune (h : s.Tabled frames) (now_ms : ℕ) : (s.prune now_ms).Tabled frames :=
  (h.prune_pending now_ms).restrict rfl (fun _ _ hl => hl) (fun _ _ hl => hl) (fun _ _ hl => hl)

theorem enters_outbound (s : ControlConnectionState) (frame : ControlFrame) (now_ms : ℕ) :
    Enters (s.prune_pending now_ms) (s.on_outbound frame now_ms).1 frame := by
  by_cases hexpires : s.expires now_ms
  · rw [s.on_outbound_of_expires hexpires]
    refine .of_tables ?_ ?_ ?_ ?_ _ <;> rfl
  · rw [s.on_outbound_of_live hexpires]
    have hrole' : (s.prune_pending now_ms).role = s.role := rfl
    cases hrole : s.role with
    | Client => exact enters_client_outbound (hrole'.trans hrole) frame now_ms
    | Gateway => exact enters_gateway_outbound (hrole'.trans hrole) frame now_ms

theorem Tabled.on_outbound (h : s.Tabled frames) (frame : ControlFrame) (now_ms : ℕ) :
    (s.on_outbound frame now_ms).1.Tabled (s.announced frames (.on_outbound frame now_ms)) := by
  have hu := h.prune_pending now_ms
  have hrecords := s.enters_outbound frame now_ms
  refine ⟨?_, ?_, ?_⟩ <;> rw [hrecords.role] <;> intro id pending hl
  · rcases hrecords.attach id pending hl with hold | ⟨hrole, -, hrequest, hkind⟩
    · exact hu.attach id pending hold
    · exact ⟨hrole, by rw [hrequest]; exact hkind⟩
  · rcases hrecords.detach id pending hl with hold | ⟨hrole, -, hrequest, hkind⟩
    · exact hu.detach id pending hold
    · exact ⟨hrole, by rw [hrequest]; exact hkind⟩
  · rw [announced]
    rcases hrecords.update id pending hl with hold | ⟨hrole, hannounces, hnone⟩
    · obtain ⟨hrole, made, hmade, hannounces⟩ := hu.update id pending hold
      refine ⟨hrole, made, ?_, hannounces⟩
      split
      · next hnew =>
        -- the new entry is not the one that was there
        have hne : id ≠ frame.transaction_id := by
          rintro rfl
          exact hnew.1 (AList.mem_of_lookup hold)
        rw [AList.lookup_insert_ne hne]
        exact hmade
      · exact hmade
    · obtain rfl := hannounces.1
      refine ⟨hrole, frame, ?_, hannounces⟩
      rw [if_pos ⟨AList.lookup_eq_none.mp hnone, AList.mem_of_lookup hl⟩]
      exact AList.lookup_insert frames

theorem Tabled.on_inbound (h : s.Tabled frames) (hs : s.Wellformed) (frame : ControlFrame)
    (now_ms : ℕ) : (s.on_inbound frame now_ms).1.Tabled frames := by
  have hu := h.prune now_ms
  have heffect := s.apply_effect hs (.on_inbound frame now_ms)
  rw [apply_on_inbound] at heffect
  -- no entry is made for an acknowledgement
  have hkeeps : ∀ t, Enters (s.prune now_ms) t (ack 0) → t.Tabled frames := by
    intro t hrecords
    refine hu.restrict hrecords.role ?_ ?_ ?_ <;> intro id pending hl
    · rcases hrecords.attach id pending hl with hold | ⟨-, -, -, hkind⟩
      · exact hold
      · contradiction
    · rcases hrecords.detach id pending hl with hold | ⟨-, -, -, hkind⟩
      · exact hold
      · contradiction
    · rcases hrecords.update id pending hl with hold | ⟨-, ⟨-, _, _, hkind⟩, -⟩
      · exact hold
      · contradiction
  generalize s.on_inbound frame now_ms = r at heffect ⊢
  obtain ⟨t, result⟩ := r
  cases heffect with
  | late_inbound => exact hkeeps _ (by refine .of_tables ?_ ?_ ?_ ?_ _ <;> rfl)
  | client_inbound _ _ hreceived => exact hkeeps t (enters_inbound (.inl hreceived))
  | gateway_inbound _ _ hreceived => exact hkeeps t (enters_inbound (.inr hreceived))

theorem Fresh.tabled (h : Fresh s) : s.Tabled ∅ := by
  obtain ⟨role, config, verified_admission, rfl, -, -⟩ := h.eq_initial
  refine ⟨?_, ?_, ?_⟩ <;> intro id pending hl <;> contradiction

/-- The frames ride along every run. -/
theorem tabled_run {s₀ : ControlConnectionState} (hfresh : Fresh s₀) {calls : List ControlCall}
    {results : List ControlResult}
    (hrun : exec (withGhost announced step) (s₀, ∅) calls = some ((s, frames), results)) :
    s.Tabled frames := by
  have hboth : s.Wellformed ∧ s.Tabled frames := by
    refine exec_invariant (I := fun w => w.1.Wellformed ∧ w.1.Tabled w.2) ?_
      ⟨hfresh.wellformed, hfresh.tabled⟩ hrun
    rintro ⟨v, held⟩ call ⟨v', held'⟩ o ⟨hwell, htabled⟩ hstep
    obtain ⟨hcall, rfl⟩ := withGhost_eq_some.mp hstep
    obtain ⟨rfl, -⟩ := step_eq_some.mp hcall
    refine ⟨(apply_advance hwell call).wellformed hwell, ?_⟩
    cases call with
    | on_outbound frame now_ms => exact htabled.on_outbound frame now_ms
    | on_inbound frame now_ms => exact htabled.on_inbound hwell frame now_ms
  exact hboth.2

end Invariant

/-! ## Reusing the identifier of a pending request -/

/-- `frame` is the request of a live entry. -/
inductive Pending (s : ControlConnectionState) (frames : Map U64 ControlFrame) (now_ms : ℕ) :
    ControlFrame → Prop
  | attach {transaction_id : U64} {pending : PendingAttach}
    (hpending : s.pending_attaches.lookup transaction_id = some pending)
    (hlive : now_ms < pending.expires_at_ms) :
    Pending s frames now_ms ⟨transaction_id, pending.request⟩
  | detach {transaction_id : U64} {pending : PendingDetach}
    (hpending : s.pending_detaches.lookup transaction_id = some pending)
    (hlive : now_ms < pending.expires_at_ms) :
    Pending s frames now_ms ⟨transaction_id, pending.request⟩
  | update {frame : ControlFrame} {pending : PendingPolicyUpdate}
    (hpending : s.pending_policy_updates.lookup frame.transaction_id = some pending)
    (hlive : now_ms < pending.expires_at_ms)
    (hmade : frames.lookup frame.transaction_id = some frame) : Pending s frames now_ms frame

structure SamePending (s t : ControlConnectionState) : Prop where
  attach : t.pending_attaches = s.pending_attaches
  detach : t.pending_detaches = s.pending_detaches
  update : t.pending_policy_updates = s.pending_policy_updates

/-- The send fails and leaves the tables alone. -/
def Refuses (s : ControlConnectionState) (sent : Sent) : Prop :=
  sent.2 ≠ .ok () ∧ SamePending s sent.1

theorem refuses_error (s : ControlConnectionState) (error : ControlStateError) :
    s.Refuses (s, .error error) :=
  ⟨fun h => by contradiction, rfl, rfl, rfl⟩

theorem not_refuses_ok (s t : ControlConnectionState) : ¬ s.Refuses (t, .ok ()) := fun h => h.1 rfl

/-- The table has `request` under this identifier, or room for it. -/
def holds_or_fits {V : Type} (table : Map U64 V) (request : V → ControlMessage) (capacity : ℕ)
    (frame : ControlFrame) : Prop :=
  match table.lookup frame.transaction_id with
  | some pending => request pending = frame.message
  | none => table.len ≠ capacity

instance {V : Type} (table : Map U64 V) (request : V → ControlMessage) (capacity : ℕ)
    (frame : ControlFrame) : Decidable (holds_or_fits table request capacity frame) := by
  unfold holds_or_fits
  split <;> infer_instance

/-- The client takes the attach `g` on its own merits: nothing is compared with the table of
detaches. -/
def takes_attach (s : ControlConnectionState) (g : ControlFrame) (session_id : SessionId) : Prop :=
  s.active_session session_id ∧
    holds_or_fits s.pending_attaches PendingAttach.request s.config.pending_attach_capacity g

/-- The client takes the detach `g` on its own merits. -/
def takes_detach (s : ControlConnectionState) (g : ControlFrame) (session_id : SessionId)
    (path_id : PathId) (path_epoch : U64) : Prop :=
  (s.active_session session_id ∧ s.path_epoch path_id = some path_epoch) ∧
    holds_or_fits s.pending_detaches PendingDetach.request s.config.pending_attach_capacity g

instance (g : ControlFrame) (session_id : SessionId) : Decidable (s.takes_attach g session_id) :=
  inferInstanceAs (Decidable (_ ∧ _))

instance (g : ControlFrame) (session_id : SessionId) (path_id : PathId) (path_epoch : U64) :
    Decidable (s.takes_detach g session_id path_id path_epoch) :=
  inferInstanceAs (Decidable (_ ∧ _))

theorem refuses_attach {transaction_id : U64} {session_id : SessionId} {path_nonce : BitVec 128}
    {path_epoch : U64} {key_epoch : U32} {metadata : Bytes}
    (hg : g = ⟨transaction_id, .PathAttach session_id path_nonce path_epoch key_epoch metadata⟩) :
    s.Refuses (s.client_outbound g now_ms) ↔ ¬ s.takes_attach g session_id := by
  subst hg
  rw [client_outbound, takes_attach, holds_or_fits]
  dsimp only
  by_cases hactive : s.active_session session_id
  · rw [if_pos hactive]
    cases hl : s.pending_attaches.lookup transaction_id with
    | some pending =>
      dsimp only
      by_cases hsame : pending.request =
          .PathAttach session_id path_nonce path_epoch key_epoch metadata
      · rw [if_neg (not_not.mpr hsame)]
        simp [not_refuses_ok, hactive, hsame]
      · rw [if_pos hsame]
        simp [refuses_error, hsame]
    | none =>
      dsimp only
      by_cases hfull : s.pending_attaches.len = s.config.pending_attach_capacity
      · rw [if_pos hfull]
        simp [refuses_error, hfull]
      · rw [if_neg hfull]
        simp [not_refuses_ok, hactive, hfull]
  · rw [if_neg hactive]
    simp [refuses_error, hactive]

theorem refuses_detach {transaction_id : U64} {session_id : SessionId} {path_id : PathId}
    {path_epoch : U64} {reason : String}
    (hg : g = ⟨transaction_id, .PathDetach session_id path_id path_epoch reason⟩) :
    s.Refuses (s.client_outbound g now_ms) ↔ ¬ s.takes_detach g session_id path_id path_epoch := by
  subst hg
  rw [client_outbound, takes_detach, holds_or_fits]
  dsimp only
  by_cases hactive : s.active_session session_id ∧ s.path_epoch path_id = some path_epoch
  · rw [if_pos hactive]
    cases hl : s.pending_detaches.lookup transaction_id with
    | some pending =>
      dsimp only
      by_cases hsame : pending.request = .PathDetach session_id path_id path_epoch reason
      · rw [if_neg (not_not.mpr hsame)]
        simp [not_refuses_ok, hactive, hsame]
      · rw [if_pos hsame]
        simp [refuses_error, hsame]
    | none =>
      dsimp only
      by_cases hfull : s.pending_detaches.len = s.config.pending_attach_capacity
      · rw [if_pos hfull]
        simp [refuses_error, hfull]
      · rw [if_neg hfull]
        simp [not_refuses_ok, hactive, hfull]
  · rw [if_neg hactive]
    simp [refuses_error, hactive]

/-- An update whose identifier is pending is compared with the entry by its epoch. -/
theorem refuses_update {transaction_id policy_epoch : U64} {session_id : SessionId} {policy : Bytes}
    {pending : PendingPolicyUpdate}
    (hg : g = ⟨transaction_id, .PolicyUpdate session_id policy_epoch policy⟩)
    (hpending : s.pending_policy_updates.lookup transaction_id = some pending) :
    s.Refuses (s.gateway_outbound g now_ms) ↔
      ¬ (s.active_session session_id ∧ s.policy_epoch < policy_epoch ∧
        pending.policy_epoch = policy_epoch) := by
  subst hg
  rw [gateway_outbound]
  dsimp only
  by_cases hactive : s.active_session session_id ∧ s.policy_epoch < policy_epoch
  · rw [if_pos hactive, hpending]
    dsimp only
    by_cases hsame : pending.policy_epoch = policy_epoch
    · rw [if_neg (not_not.mpr hsame)]
      simp [not_refuses_ok, hactive, hsame]
    · rw [if_pos hsame]
      simp [refuses_error, hsame]
  · rw [if_neg hactive, ← and_assoc]
    simp [refuses_error, hactive]

/-- `g` slips past the entry of `f` with the same identifier: it is the other of the two path
requests, whose table is another one, or it is an update of the same epoch, and nothing else
stands against it. -/
def reuses_id (s : ControlConnectionState) (f g : ControlFrame) : Prop :=
  match f.message, g.message with
  | .PathAttach .., .PathDetach session_id path_id path_epoch _ =>
    s.takes_detach g session_id path_id path_epoch
  | .PathDetach .., .PathAttach session_id .. => s.takes_attach g session_id
  | .PolicyUpdate _ policy_epoch _, .PolicyUpdate session_id policy_epoch' _ =>
    s.active_session session_id ∧ s.policy_epoch < policy_epoch' ∧ policy_epoch = policy_epoch'
  | _, _ => False

section Reuse

variable {frames : Map U64 ControlFrame}

/-- On live tables, by the kind of the pending request. -/
theorem refuses_iff (htabled : s.Tabled frames) (hpending : s.Pending frames now_ms f)
    (hid : g.transaction_id = f.transaction_id) (hkind : g.message.is_local_request)
    (hne : g ≠ f) :
    s.Refuses (match s.role with
      | .Client => s.client_outbound g now_ms
      | .Gateway => s.gateway_outbound g now_ms) ↔ ¬ s.reuses_id f g := by
  obtain ⟨transaction_id, message⟩ := g
  obtain rfl : transaction_id = f.transaction_id := hid
  cases hpending with
  | @attach id pending hpending _ =>
    obtain ⟨hrole, hattach⟩ := htabled.attach _ _ hpending
    obtain ⟨_, _, _, _, _, hrequest⟩ := ControlMessage.of_is_attach hattach
    -- another attach is compared with the whole request
    have hchanged : ¬ holds_or_fits s.pending_attaches PendingAttach.request
        s.config.pending_attach_capacity ⟨id, message⟩ := by
      rw [holds_or_fits, hpending]
      exact fun hsame => hne (congrArg (ControlFrame.mk _) hsame.symm)
    rw [hrole]
    cases message with
    | PathAttach =>
      rw [refuses_attach rfl]
      simp [reuses_id, hrequest, takes_attach, hchanged]
    | PathDetach =>
      rw [refuses_detach rfl]
      simp only [reuses_id, hrequest]
    | PolicyUpdate => simp [reuses_id, hrequest, client_outbound, refuses_error]
    | _ => contradiction
  | @detach id pending hpending _ =>
    obtain ⟨hrole, hdetach⟩ := htabled.detach _ _ hpending
    obtain ⟨_, _, _, _, hrequest⟩ := ControlMessage.of_is_detach hdetach
    have hchanged : ¬ holds_or_fits s.pending_detaches PendingDetach.request
        s.config.pending_attach_capacity ⟨id, message⟩ := by
      rw [holds_or_fits, hpending]
      exact fun hsame => hne (congrArg (ControlFrame.mk _) hsame.symm)
    rw [hrole]
    cases message with
    | PathAttach =>
      rw [refuses_attach rfl]
      simp only [reuses_id, hrequest]
    | PathDetach =>
      rw [refuses_detach rfl]
      simp [reuses_id, hrequest, takes_detach, hchanged]
    | PolicyUpdate => simp [reuses_id, hrequest, client_outbound, refuses_error]
    | _ => contradiction
  | @update _ pending hpending _ hmade =>
    obtain ⟨hrole, made, hmade', hannounces⟩ := htabled.update _ _ hpending
    obtain rfl : f = made := by
      rw [hmade'] at hmade
      exact (Option.some.inj hmade).symm
    obtain ⟨-, _, _, hmessage⟩ := hannounces
    rw [hrole]
    cases message with
    | PathAttach => simp [reuses_id, hmessage, gateway_outbound, refuses_error]
    | PathDetach => simp [reuses_id, hmessage, gateway_outbound, refuses_error]
    | PolicyUpdate =>
      rw [refuses_update rfl hpending]
      simp only [reuses_id, hmessage]
    | _ => contradiction

theorem Pending.prune_pending (h : s.Pending frames now_ms f) :
    (s.prune_pending now_ms).Pending frames now_ms f := by
  cases h with
  | attach hpending hlive =>
    exact .attach (AList.lookup_retain_eq_some.mpr ⟨hpending, decide_eq_true hlive⟩) hlive
  | detach hpending hlive =>
    exact .detach (AList.lookup_retain_eq_some.mpr ⟨hpending, decide_eq_true hlive⟩) hlive
  | update hpending hlive hmade =>
    exact .update (AList.lookup_retain_eq_some.mpr ⟨hpending, decide_eq_true hlive⟩) hlive hmade

/-- **A request that reuses the identifier of a pending one** fails and leaves the live entries
alone exactly when it does not slip past the entry. -/
theorem pending_kept_iff {s₀ : ControlConnectionState} (hfresh : Fresh s₀) {calls : List ControlCall}
    {results : List ControlResult}
    (hrun : exec (withGhost announced step) (s₀, ∅) calls = some ((s, frames), results))
    (hpending : s.Pending frames now_ms f) (hid : g.transaction_id = f.transaction_id)
    (hkind : g.message.is_local_request) (hne : g ≠ f) :
    (s.prune_pending now_ms).Refuses (s.on_outbound g now_ms) ↔
      ¬ (¬ s.expires now_ms ∧ (s.prune_pending now_ms).reuses_id f g) := by
  by_cases hexpires : s.expires now_ms
  · rw [s.on_outbound_of_expires hexpires]
    refine iff_of_true ⟨fun h => by contradiction, ?_⟩ (fun h => h.1 hexpires)
    constructor <;> rfl
  · have htabled := (tabled_run hfresh hrun).prune_pending now_ms
    rw [s.on_outbound_of_live hexpires, not_and, imp_iff_right hexpires]
    exact refuses_iff htabled hpending.prune_pending hid hkind hne

end Reuse

/-- An attach that is changed while it is pending is refused. -/
theorem pending_kept_attach : ∃ s frames results,
    exec (withGhost announced step) (Sample.client, ∅) [.on_outbound (Sample.hello 1) 0,
      .on_inbound (Sample.admission.admit_frame 1) 0, .on_outbound (Sample.attach 3 0x66 7) 1] =
        some ((s, frames), results) ∧
      (s.prune_pending 2).Refuses (s.on_outbound (Sample.attach 3 0x66 8) 2) := by
  have hruns : (exec (withGhost announced step) (Sample.client, ∅) [.on_outbound (Sample.hello 1) 0,
      .on_inbound (Sample.admission.admit_frame 1) 0, .on_outbound (Sample.attach 3 0x66 7) 1]).map
        (fun r => r.1.1.pending_attaches.lookup 3) =
          some (some ⟨(Sample.attach 3 0x66 7).message, 6⟩) := by
    decide
  obtain ⟨⟨⟨s, frames⟩, results⟩, hrun, hpending⟩ := Option.map_eq_some_iff.mp hruns
  refine ⟨s, frames, results, hrun, ?_⟩
  have hlive : s.Pending frames 2 (Sample.attach 3 0x66 7) := .attach hpending (by decide)
  have hiff := pending_kept_iff (g := Sample.attach 3 0x66 8) Sample.client_fresh hrun hlive rfl rfl
    (by decide)
  exact hiff.mpr (fun h => h.2)

/-- **A pending request is changed.** A client sends a detach under the identifier of a pending
attach, and a gateway sends other policy bytes under the identifier and the epoch of a pending
update. -/
theorem pending_changed :
    (∃ s frames results, exec (withGhost announced step) (Sample.client, ∅)
      [.on_outbound (Sample.hello 1) 0, .on_inbound (Sample.admission.admit_frame 1) 0,
        .on_outbound (Sample.attach 3 0x66 7) 1,
        .on_inbound ⟨3, .PathAttached Sample.session ⟨1⟩ 7⟩ 1,
        .on_outbound (Sample.attach 4 0x67 8) 2] = some ((s, frames), results) ∧
      s.Pending frames 3 (Sample.attach 4 0x67 8) ∧
      (s.on_outbound (Sample.detach 4 1 7) 3).2 = .ok ()) ∧
    ∃ s frames results, exec (withGhost announced step) (Sample.gateway, ∅)
      [.on_inbound (Sample.hello 1) 0, .on_outbound (Sample.update 2 2) 1] =
        some ((s, frames), results) ∧
      s.Pending frames 2 (Sample.update 2 2) ∧
      (s.on_outbound ⟨2, .PolicyUpdate Sample.session 2 [9]⟩ 2).2 = .ok () := by
  constructor
  · have hruns : (exec (withGhost announced step) (Sample.client, ∅)
        [.on_outbound (Sample.hello 1) 0, .on_inbound (Sample.admission.admit_frame 1) 0,
          .on_outbound (Sample.attach 3 0x66 7) 1,
          .on_inbound ⟨3, .PathAttached Sample.session ⟨1⟩ 7⟩ 1,
          .on_outbound (Sample.attach 4 0x67 8) 2]).map
        (fun r => (r.1.1.pending_attaches.lookup 4, (r.1.1.on_outbound (Sample.detach 4 1 7) 3).2)) =
          some (some ⟨(Sample.attach 4 0x67 8).message, 7⟩, .ok ()) := by
      rfl
    obtain ⟨⟨⟨s, frames⟩, results⟩, hrun, hends⟩ := Option.map_eq_some_iff.mp hruns
    obtain ⟨hpending, hsent⟩ := Prod.mk.inj hends
    exact ⟨s, frames, results, hrun, .attach hpending (by decide), hsent⟩
  · have hruns : (exec (withGhost announced step) (Sample.gateway, ∅)
        [.on_inbound (Sample.hello 1) 0, .on_outbound (Sample.update 2 2) 1]).map
        (fun r => (r.1.1.pending_policy_updates.lookup 2, r.1.2.lookup 2,
          (r.1.1.on_outbound ⟨2, .PolicyUpdate Sample.session 2 [9]⟩ 2).2)) =
          some (some ⟨2, 6⟩, some (Sample.update 2 2), .ok ()) := by
      rfl
    obtain ⟨⟨⟨s, frames⟩, results⟩, hrun, hends⟩ := Option.map_eq_some_iff.mp hruns
    obtain ⟨hpending, hends⟩ := Prod.mk.inj hends
    obtain ⟨hmade, hsent⟩ := Prod.mk.inj hends
    have hlive : s.Pending frames 2 (Sample.update 2 2) := .update hpending (by decide) hmade
    exact ⟨s, frames, results, hrun, hlive, hsent⟩

/-! ## The answer that settles a request -/

def live_attach (s : ControlConnectionState) (transaction_id : U64) (now_ms : ℕ) : Prop :=
  (s.pending_attaches.lookup transaction_id).any (fun pending => now_ms < pending.expires_at_ms)

def live_detach (s : ControlConnectionState) (transaction_id : U64) (now_ms : ℕ) : Prop :=
  (s.pending_detaches.lookup transaction_id).any (fun pending => now_ms < pending.expires_at_ms)

section Settle

variable {transaction_id : U64}

/-- What pruning leaves under an identifier. -/
theorem mem_retain {V : Type} {p : U64 → V → Bool} {m : Map U64 V} :
    transaction_id ∈ m.retain p ↔ (m.lookup transaction_id).any (p transaction_id) := by
  rw [AList.mem_iff_lookup, Option.any_eq_true]
  simp only [AList.lookup_retain_eq_some]

theorem client_on_inbound_reject (hrole : s.role = .Client) (hphase : s.phase = .Active)
    (hlive : ¬ s.expires now_ms) (code : RejectCode) (reason : String) :
    s.on_inbound ⟨transaction_id, .Reject code reason⟩ now_ms =
      ({ s.prune now_ms with
          pending_detaches := (s.prune now_ms).pending_detaches.erase transaction_id },
        .ok .None) := by
  rw [s.on_inbound_of_live hlive, hrole]
  exact if_pos hphase

/-- A client without an entry under the identifier refuses a path. -/
theorem late_path_attached (hrole : s.role = .Client)
    (hnone : transaction_id ∉ s.pending_attaches) (session_id : SessionId) (path_id : PathId)
    (path_epoch : U64) (now_ms : ℕ) :
    (s.on_inbound ⟨transaction_id, .PathAttached session_id path_id path_epoch⟩
      now_ms).1.protocol_paths = s.protocol_paths := by
  by_cases hexpires : s.expires now_ms
  · rw [s.on_inbound_of_expires hexpires]
    rfl
  · have hpruned : (s.prune now_ms).pending_attaches.lookup transaction_id = none := by
      rw [AList.lookup_eq_none]
      intro hmem
      obtain ⟨pending, hl⟩ := AList.mem_iff_lookup.mp hmem
      exact hnone (AList.mem_of_lookup (AList.lookup_retain_eq_some.mp hl).1)
    rw [s.on_inbound_of_live hexpires, hrole]
    dsimp only
    rw [client_inbound]
    dsimp only
    rw [hpruned]
    split <;> rfl

/-- **A `Reject` settles the request it answers** exactly when that is not an attach: of the two
tables only that of the detaches is looked at, and neither when the admission is over. The
bound paths stay as they are, and after a request is settled a late answer binds none. -/
theorem reject_settles_iff (hrole : s.role = .Client) (hphase : s.phase = .Active)
    (transaction_id : U64) (code : RejectCode) (reason : String) (now_ms : ℕ) :
    (s.on_inbound ⟨transaction_id, .Reject code reason⟩ now_ms).1.protocol_paths =
        s.protocol_paths ∧
      ((transaction_id ∉
            (s.on_inbound ⟨transaction_id, .Reject code reason⟩ now_ms).1.pending_attaches ∧
          transaction_id ∉
            (s.on_inbound ⟨transaction_id, .Reject code reason⟩ now_ms).1.pending_detaches) ↔
        ¬ s.live_attach transaction_id now_ms ∧
          (s.expires now_ms → ¬ s.live_detach transaction_id now_ms)) ∧
      (¬ s.live_attach transaction_id now_ms → ∀ session_id path_id path_epoch later_ms,
        ((s.on_inbound ⟨transaction_id, .Reject code reason⟩ now_ms).1.on_inbound
          ⟨transaction_id, .PathAttached session_id path_id path_epoch⟩ later_ms).1.protocol_paths =
            s.protocol_paths) := by
  have hattach : transaction_id ∈ (s.prune now_ms).pending_attaches ↔
      s.live_attach transaction_id now_ms := mem_retain
  have hdetach : transaction_id ∈ (s.prune now_ms).pending_detaches ↔
      s.live_detach transaction_id now_ms := mem_retain
  by_cases hexpires : s.expires now_ms
  · rw [s.on_inbound_of_expires hexpires]
    dsimp only
    rw [hattach, hdetach, imp_iff_right hexpires]
    refine ⟨rfl, Iff.rfl, ?_⟩
    intro hsettled session_id path_id path_epoch later_ms
    refine late_path_attached ?_ ?_ session_id path_id path_epoch later_ms
    · exact hrole
    · exact fun hmem => hsettled (hattach.mp hmem)
  · rw [client_on_inbound_reject hrole hphase hexpires]
    dsimp only
    have herased : transaction_id ∉ (s.prune now_ms).pending_detaches.erase transaction_id :=
      fun hmem => (AList.mem_erase.mp hmem).1 rfl
    rw [hattach]
    refine ⟨rfl, ?_, ?_⟩
    · simp [herased, hexpires]
    · intro hsettled session_id path_id path_epoch later_ms
      refine late_path_attached ?_ ?_ session_id path_id path_epoch later_ms
      · exact hrole
      · exact fun hmem => hsettled (hattach.mp hmem)

/-- A rejected detach is settled. -/
theorem reject_settles_detach :
    4 ∉ ((Sample.client.run [.on_outbound (Sample.hello 1) 0,
      .on_inbound (Sample.admission.admit_frame 1) 0, .on_outbound (Sample.attach 3 0x66 7) 1,
      .on_inbound ⟨3, .PathAttached Sample.session ⟨1⟩ 7⟩ 1,
      .on_outbound (Sample.detach 4 1 7) 2]).on_inbound
        ⟨4, .Reject .StaleEpoch "path epoch rejected"⟩ 3).1.pending_detaches := by
  generalize hs : Sample.client.run [.on_outbound (Sample.hello 1) 0,
      .on_inbound (Sample.admission.admit_frame 1) 0, .on_outbound (Sample.attach 3 0x66 7) 1,
      .on_inbound ⟨3, .PathAttached Sample.session ⟨1⟩ 7⟩ 1,
      .on_outbound (Sample.detach 4 1 7) 2] = s
  have hrole : s.role = .Client := by
    rw [← hs]
    rfl
  have hphase : s.phase = .Active := by
    rw [← hs]
    rfl
  have hlive : s.expires_at_ms = some 1000 := by
    rw [← hs]
    rfl
  have hattach : s.pending_attaches.lookup 4 = none := by
    rw [← hs]
    rfl
  have hsettles := reject_settles_iff hrole hphase 4 .StaleEpoch "path epoch rejected" 3
  refine (hsettles.2.1.mpr ⟨?_, ?_⟩).2
  · simp [live_attach, hattach]
  · intro hexpires
    have hover := hexpires.2
    rw [hlive] at hover
    contradiction

/-- **A rejected attach stays pending**: it counts against the capacity, and a late answer to it
binds a path. -/
theorem rejected_attach_pending :
    ∃ s : ControlConnectionState, s.Reachable ∧ s.role = .Client ∧ s.phase = .Active ∧
      s.live_attach 3 2 ∧
      (3 : U64) ∈ (s.on_inbound ⟨3, .Reject .InvalidRequest "refused"⟩ 2).1.pending_attaches ∧
      (((s.on_inbound ⟨3, .Reject .InvalidRequest "refused"⟩ 2).1.on_inbound
        ⟨3, .PathAttached Sample.session ⟨1⟩ 7⟩ 3).1.path_epoch ⟨1⟩ = some 7) :=
  ⟨Sample.client.run [.on_outbound (Sample.hello 1) 0,
      .on_inbound (Sample.admission.admit_frame 1) 0, .on_outbound (Sample.attach 3 0x66 7) 1],
    Sample.client_fresh.reachable.run _, rfl, rfl, by rfl, by decide, by rfl⟩

end Settle

end ControlConnectionState

end StreamGuard.Control
