/-
Requests that are sent again.

A gateway remembers its answer to every request it processes. Until the entry is too
old or has been pushed out by as many other requests as the cache has places, the
request is answered from it and nothing else happens. `Held` is what a later run does
to the entry: at most as many entries come to stand behind it as requests are
remembered.
-/
import StreamGuard.Protocol.ControlPaths
import StreamGuard.Lib.Fold

set_option autoImplicit false

namespace StreamGuard.Control

open StreamGuard StreamGuard.Lib

namespace ControlConnectionState

variable {s t : ControlConnectionState} {frame : ControlFrame} {now_ms : ℕ}

/-! ## What is remembered -/

/-- The call makes the gateway remember an answer: it delivers a request, not over a
session that is over, that the cache does not answer. -/
def remembers (s : ControlConnectionState) : ControlCall → Prop
  | .on_outbound .. => False
  | .on_inbound frame now_ms => s.role = .Gateway ∧ ¬ s.expires now_ms ∧
      frame.message.is_request ∧ ¬ s.remembered frame.transaction_id now_ms

instance (s : ControlConnectionState) : ∀ call, Decidable (s.remembers call)
  | .on_outbound .. => inferInstanceAs (Decidable False)
  | .on_inbound .. => inferInstanceAs (Decidable (_ ∧ _ ∧ _ ∧ _))

/-- How many calls of a run make the gateway remember an answer. -/
def remember_count : ControlConnectionState → List ControlCall → ℕ
  | _, [] => 0
  | s, call :: calls => (if s.remembers call then 1 else 0) + remember_count (s.apply call).1 calls

/-- The entry made for a request. -/
def remembered_entry (s : ControlConnectionState) (request response : ControlFrame)
    (now_ms : ℕ) : CompletedRequest :=
  ⟨request, response, saturatingAdd now_ms s.config.completed_request_ttl_ms⟩

/-- **Every request the cache does not answer is remembered with its answer**, in every
accepting and every rejecting branch. -/
theorem GatewayInbound.remembers {action : ControlAction}
    (h : s.GatewayInbound frame now_ms t action) (hrequest : frame.message.is_request)
    (hfresh : s.completed_action frame = none) :
    ∃ response, action.answer = some response ∧
      t.completed = s.kept ++ [s.remembered_entry frame response now_ms] := by
  -- the branches that remember nothing take no request
  have hanswer : ∀ message, frame.message = message → message.is_request = false → False := by
    rintro message rfl hno
    rw [hno] at hrequest
    contradiction
  cases h with
  | cached hcached =>
    rw [hfresh] at hcached
    contradiction
  | acknowledged _ hmessage => exact (hanswer _ hmessage rfl).elim
  | declined _ hmessage => exact (hanswer _ hmessage rfl).elim
  | unsolicited _ hno => exact (hanswer _ rfl hno).elim
  | _ => exact ⟨_, rfl, rfl⟩

/-- A frame that is no request, or that the cache answers, leaves the cache as it is. -/
theorem GatewayInbound.completed_eq {action : ControlAction}
    (h : s.GatewayInbound frame now_ms t action)
    (hno : ¬ (frame.message.is_request ∧ s.completed_action frame = none)) :
    t.completed = s.completed := by
  have hrequest : ∀ message, frame.message = message → message.is_request →
      s.completed_action frame = none → False := by
    rintro message rfl hyes hfresh
    exact hno ⟨hyes, hfresh⟩
  cases h with
  | refused hfresh hyes => exact (hno ⟨hyes, hfresh⟩).elim
  | admitted hfresh hmessage => exact (hrequest _ hmessage rfl hfresh).elim
  | attached hfresh hmessage => exact (hrequest _ hmessage rfl hfresh).elim
  | reattached hfresh hmessage => exact (hrequest _ hmessage rfl hfresh).elim
  | confirmed hfresh hmessage => exact (hrequest _ hmessage rfl hfresh).elim
  | detached hfresh hmessage => exact (hrequest _ hmessage rfl hfresh).elim
  | closed hfresh hmessage => exact (hrequest _ hmessage rfl hfresh).elim
  | _ => rfl

/-! ## How long an entry is held -/

/-- The entry is in the cache with at most `count` entries behind it. -/
def Held (entry : CompletedRequest) (count : ℕ) (s : ControlConnectionState) : Prop :=
  ∃ older newer, s.completed = older ++ entry :: newer ∧ newer.length ≤ count

theorem Held.of_completed {entry : CompletedRequest} {count : ℕ} (h : s.Held entry count)
    (heq : t.completed = s.completed) : t.Held entry count := by
  rw [Held, heq]
  exact h

/-- Pruning before the entry's time keeps it. -/
theorem Held.prune {entry : CompletedRequest} {count : ℕ} (h : s.Held entry count)
    (hnow : now_ms < entry.expires_at_ms) : (s.prune now_ms).Held entry count := by
  obtain ⟨older, newer, heq, hlen⟩ := h
  refine ⟨older.filter (fun e => now_ms < e.expires_at_ms),
    newer.filter (fun e => now_ms < e.expires_at_ms), ?_, ?_⟩
  · change s.completed.filter _ = _
    rw [heq, List.filter_append, List.filter_cons, if_pos (decide_eq_true hnow)]
  · exact (List.length_filter_le _ _).trans hlen

/-- One more request behind the entry does not push it out while the cache has more
places than that. -/
theorem Held.kept_append {entry : CompletedRequest} {count : ℕ} (h : s.Held entry count)
    (hroom : count + 1 < s.config.completed_request_capacity) (new : CompletedRequest) :
    ∃ older newer, s.kept ++ [new] = older ++ entry :: newer ∧ newer.length ≤ count + 1 := by
  obtain ⟨older, newer, heq, hlen⟩ := h
  have hnew : (newer ++ [new]).length ≤ count + 1 := by
    rw [List.length_append, List.length_singleton]
    omega
  rw [kept]
  split
  · next hfull =>
    -- a full cache has something older than the entry to drop
    have hne : older ≠ [] := by
      rintro rfl
      rw [heq, List.nil_append, List.length_cons] at hfull
      omega
    refine ⟨older.tail, newer ++ [new], ?_, hnew⟩
    rw [heq, List.tail_append_of_ne_nil hne, List.append_assoc, List.cons_append]
  · refine ⟨older, newer ++ [new], ?_, hnew⟩
    rw [heq, List.append_assoc, List.cons_append]

/-- One call: the entry stays, behind it comes what the call makes the gateway
remember. -/
theorem Held.apply {entry : CompletedRequest} {count : ℕ} (hs : s.Wellformed)
    (hrole : s.role = .Gateway) (h : s.Held entry count) (call : ControlCall)
    (hnow : call.now_ms < entry.expires_at_ms)
    (hroom : count + (if s.remembers call then 1 else 0) < s.config.completed_request_capacity) :
    (s.apply call).1.Held entry (count + if s.remembers call then 1 else 0) := by
  have heffect := s.apply_effect hs call
  generalize (s.apply call).1 = t at heffect ⊢
  generalize (s.apply call).2 = result at heffect
  have hmono : ∀ {u : ControlConnectionState}, u.Held entry count →
      u.Held entry (count + if s.remembers call then 1 else 0) := by
    rintro u ⟨older, newer, heq, hlen⟩
    exact ⟨older, newer, heq, by omega⟩
  cases heffect with
  | late_outbound => exact hmono (h.of_completed rfl)
  | late_inbound => exact hmono ((h.prune hnow).of_completed rfl)
  | client_outbound hclient =>
    rw [hrole] at hclient
    contradiction
  | gateway_outbound _ _ hsent =>
    refine hmono (h.of_completed ?_)
    cases hsent <;> rfl
  | client_inbound hclient =>
    rw [hrole] at hclient
    contradiction
  | @gateway_inbound frame now_ms _ _ _ hlive hreceived =>
    have hheld := h.prune hnow
    by_cases hremembers : s.remembers (.on_inbound frame now_ms)
    · have hfresh := hremembers.2.2.2
      have hrequest := hremembers.2.2.1
      obtain ⟨response, -, hcompleted⟩ :=
        hreceived.remembers hrequest (completed_action_prune_eq_none.mpr hfresh)
      rw [if_pos hremembers] at hroom ⊢
      rw [Held, hcompleted]
      exact hheld.kept_append hroom _
    · refine hmono (hheld.of_completed (hreceived.completed_eq ?_))
      rintro ⟨hrequest, hfresh⟩
      exact hremembers ⟨hrole, hlive, hrequest, completed_action_prune_eq_none.mp hfresh⟩

/-- A whole run holds an entry while it is young enough and fewer requests are
remembered than the cache has places. -/
theorem Held.run {entry : CompletedRequest} {count : ℕ} (hs : s.Wellformed)
    (hrole : s.role = .Gateway) (h : s.Held entry count) (calls : List ControlCall)
    (hnow : ∀ call ∈ calls, call.now_ms < entry.expires_at_ms)
    (hroom : count + s.remember_count calls < s.config.completed_request_capacity) :
    (s.run calls).Held entry (count + s.remember_count calls) := by
  induction calls generalizing s count with
  | nil => exact h
  | cons call calls ih =>
    rw [remember_count] at hroom ⊢
    have hadvance := apply_advance hs call
    have happly := h.apply hs hrole call (hnow call List.mem_cons_self) (by omega)
    rw [← Nat.add_assoc] at hroom ⊢
    exact ih (hadvance.wellformed hs) (hadvance.role.trans hrole) happly
      (fun c hc => hnow c (List.mem_cons_of_mem call hc)) (hadvance.config ▸ hroom)

/-- A held entry answers its request, and nothing else happens. -/
theorem Held.replay {entry : CompletedRequest} {count : ℕ} (hs : s.PathLedger)
    (hrole : s.role = .Gateway) (h : s.Held entry count) (hlive : ¬ s.expires now_ms)
    (hnow : now_ms < entry.expires_at_ms) :
    s.on_inbound entry.request now_ms = (s.prune now_ms, .ok (.Replay entry.response)) := by
  obtain ⟨older, newer, heq, -⟩ := h.prune hnow
  have hmem : entry ∈ (s.prune now_ms).completed := by
    rw [heq]
    exact List.mem_append_right _ List.mem_cons_self
  have hcached : (s.prune now_ms).completed_action entry.request =
      some (.Replay entry.response) := by
    rw [completed_action, find?_key_eq_some (hs.prune now_ms).completed_ids hmem, Option.map_some,
      if_pos rfl]
  rw [s.on_inbound_of_live hlive, hrole]
  dsimp only
  rw [gateway_inbound, hcached]

/-- **A request has its effect once.** Sent again while its entry lives and fewer
requests than the cache has places were remembered in between, it is answered with
the same frame and changes nothing. -/
theorem retransmission_replays (hs : s.Reachable) (hrole : s.role = .Gateway)
    {first_ms : ℕ} (hrequest : frame.message.is_request) (hlive : ¬ s.expires first_ms)
    (hfresh : ¬ s.remembered frame.transaction_id first_ms) {action : ControlAction}
    {response : ControlFrame} (haction : (s.on_inbound frame first_ms).2 = .ok action)
    (hanswer : action.answer = some response) {calls : List ControlCall}
    (hclock : ∀ call ∈ calls, call.now_ms ≤ now_ms)
    (hcount : (s.on_inbound frame first_ms).1.remember_count calls <
      s.config.completed_request_capacity)
    (hlate : now_ms < saturatingAdd first_ms s.config.completed_request_ttl_ms)
    (hlive' : ¬ ((s.on_inbound frame first_ms).1.run calls).expires now_ms) :
    (((s.on_inbound frame first_ms).1.run calls).on_inbound frame now_ms).2 =
        .ok (.Replay response) ∧
      Unchanged ((s.on_inbound frame first_ms).1.run calls)
        (((s.on_inbound frame first_ms).1.run calls).on_inbound frame now_ms).1 := by
  have hwell := hs.wellformed
  have heffect := s.apply_effect hwell (.on_inbound frame first_ms)
  have hadvance := heffect.advance hwell
  have hafter : (s.on_inbound frame first_ms).1.Reachable := hs.run [.on_inbound frame first_ms]
  rw [apply_on_inbound] at heffect hadvance
  rw [haction] at heffect
  generalize (s.on_inbound frame first_ms).1 = u at *
  -- the first delivery left an entry, the run holds it
  have hheld : u.Held (s.remembered_entry frame response first_ms) 0 := by
    cases heffect with
    | late_inbound hexpires => exact absurd hexpires hlive
    | client_inbound hclient =>
      rw [hrole] at hclient
      contradiction
    | gateway_inbound _ _ hreceived =>
      obtain ⟨response', hanswer', hcompleted⟩ :=
        hreceived.remembers hrequest (completed_action_prune_eq_none.mpr hfresh)
      obtain rfl := Option.some.inj (hanswer'.symm.trans hanswer)
      exact ⟨_, [], hcompleted, le_rfl⟩
  have hurole : u.role = .Gateway := hadvance.role.trans hrole
  have hrun := hheld.run hafter.wellformed hurole calls
    (fun call hmem => (hclock call hmem).trans_lt hlate)
    (by rw [Nat.zero_add, hadvance.config]; exact hcount)
  have hend := hafter.run calls
  obtain ⟨results, hexec⟩ := u.exec_run calls
  have hrole' := (exec_advance hafter.wellformed hexec).role.trans hurole
  have hreplay := hrun.replay (hend.pathLedger hrole') hrole' hlive' hlate
  change (u.run calls).on_inbound frame now_ms = _ at hreplay
  rw [hreplay]
  exact ⟨rfl, rfl, rfl, rfl, rfl, rfl, rfl⟩

/-- An attach sent again after a path report and an acknowledgement. -/
theorem retransmission_replays_sample :
    let s := Sample.gateway.run [.on_inbound (Sample.hello 1) 0]
    let t := (s.on_inbound (Sample.attach 2 0x66 7) 1).1.run
      [.on_inbound (Sample.health 3 1 7) 2, .on_inbound (ack 9) 3]
    (t.on_inbound (Sample.attach 2 0x66 7) 4).2 =
        .ok (.Replay ⟨2, .PathAttached Sample.session ⟨1⟩ 7⟩) ∧
      Unchanged t (t.on_inbound (Sample.attach 2 0x66 7) 4).1 :=
  retransmission_replays (Sample.gateway_fresh.reachable.run _) rfl rfl (by decide) (by decide)
    rfl rfl (by decide) (by decide) (by decide) (by decide)

/-- At the end of the clock's range the time of an entry is cut off: a request answered
one millisecond before `u64::MAX` is processed a second time at `u64::MAX`. -/
theorem retransmission_at_clock_end :
    ¬ ∀ (s : ControlConnectionState) (frame : ControlFrame) (first_ms now_ms : ℕ)
      (action : ControlAction) (response : ControlFrame) (calls : List ControlCall),
      s.Reachable → s.role = .Gateway → frame.message.is_request → ¬ s.expires first_ms →
      ¬ s.remembered frame.transaction_id first_ms →
      (s.on_inbound frame first_ms).2 = .ok action → action.answer = some response →
      (∀ call ∈ calls, first_ms ≤ call.now_ms ∧ call.now_ms ≤ now_ms) →
      (s.on_inbound frame first_ms).1.remember_count calls <
        s.config.completed_request_capacity →
      first_ms ≤ now_ms → now_ms ≤ u64Max →
      now_ms < first_ms + s.config.completed_request_ttl_ms →
      ((s.on_inbound frame first_ms).1.run calls).phase = .Closed →
      (((s.on_inbound frame first_ms).1.run calls).on_inbound frame now_ms).2 =
        .ok (.Replay response) := by
  intro hall
  have hreplay := hall
    (Sample.gateway.run [.on_inbound (Sample.hello 1) 0, .on_inbound (Sample.close 2) 1])
    (Sample.close 3) (u64Max - 1) u64Max _ _ [] (Sample.gateway_fresh.reachable.run _) rfl rfl
    (by decide) (by decide) rfl rfl (fun _ hmem => absurd hmem List.not_mem_nil) (by decide)
    (by decide) le_rfl (by decide) (by decide)
  have haction := Except.ok.inj hreplay
  contradiction

end ControlConnectionState

end StreamGuard.Control
