/-
When a control exchange comes to rest.

A delivery takes one frame off a stream and may put one answer on the other. A request
outweighs its answer, and an answer is worth something only until it is delivered: that
makes every sequence of deliveries finite, as long as no answer is answered. The
gateway answers an answer at most once, by a reject; a client that is not Active
answers every answer, and then the two can go on for ever.
-/
import StreamGuard.Protocol.ControlPair
import StreamGuard.Protocol.ControlReplay
import Mathlib.Algebra.Group.Action.Defs
import Mathlib.Algebra.Order.BigOperators.Group.List

set_option autoImplicit false

namespace StreamGuard.Control

open StreamGuard StreamGuard.Lib

namespace ControlConnectionState

variable {s t : ControlConnectionState} {frame : ControlFrame} {now_ms : ℕ}

/-! ## Answers to answers -/

theorem ClientInbound.reply_is_answer {action : ControlAction}
    (h : s.ClientInbound frame now_ms t action) {reply : ControlFrame}
    (hreply : action.answer = some reply) : reply.message.is_answer := by
  cases h with
  | rejected =>
    obtain rfl := Option.some.inj hreply
    rfl
  | updated =>
    obtain rfl := Option.some.inj hreply
    rfl
  | closed =>
    obtain rfl := Option.some.inj hreply
    rfl
  | _ => contradiction

/-- An Active client takes an answer without a word. -/
theorem ClientInbound.answer_eq_none {action : ControlAction}
    (h : s.ClientInbound frame now_ms t action) (hactive : s.phase = .Active)
    (hanswer : frame.message.is_answer) : action.answer = none := by
  cases h with
  | rejected hno =>
    rw [hno hactive] at hanswer
    contradiction
  | updated hmessage =>
    rw [hmessage] at hanswer
    contradiction
  | closed hmessage =>
    rw [hmessage] at hanswer
    contradiction
  | _ => rfl

theorem not_is_answer_of_is_request {message : ControlMessage} (h : message.is_request) :
    message.is_answer = false := by
  cases message <;> first | rfl | contradiction

/-- The cache holds answers to requests only. -/
def Requests (s : ControlConnectionState) : Prop :=
  ∀ entry ∈ s.completed, entry.request.message.is_request

/-- A gateway answers an answer by an answer, if at all. -/
theorem GatewayInbound.reply_is_answer {action : ControlAction} (hs : s.Requests)
    (h : s.GatewayInbound frame now_ms t action) (hanswer : frame.message.is_answer)
    {reply : ControlFrame} (hreply : action.answer = some reply) : reply.message.is_answer := by
  have hrequest : frame.message.is_request = false := by
    by_contra hrequest
    rw [not_is_answer_of_is_request (Bool.of_not_eq_false hrequest)] at hanswer
    contradiction
  have hno : ∀ message, frame.message = message → message.is_request → False := by
    rintro message rfl hyes
    rw [hrequest] at hyes
    contradiction
  cases h with
  | cached hcached =>
    obtain ⟨entry, hmem, -, rfl⟩ := completed_action_eq_some hcached
    split at hreply
    · next hsame => exact (hno _ (congrArg ControlFrame.message hsame).symm (hs entry hmem)).elim
    · obtain rfl := Option.some.inj hreply
      rfl
  | refused _ hyes => exact (hno _ rfl hyes).elim
  | admitted _ hmessage => exact (hno _ hmessage rfl).elim
  | attached _ hmessage => exact (hno _ hmessage rfl).elim
  | reattached _ hmessage => exact (hno _ hmessage rfl).elim
  | confirmed _ hmessage => exact (hno _ hmessage rfl).elim
  | detached _ hmessage => exact (hno _ hmessage rfl).elim
  | closed _ hmessage => exact (hno _ hmessage rfl).elim
  | acknowledged => contradiction
  | declined => contradiction
  | unsolicited =>
    obtain rfl := Option.some.inj hreply
    rfl

theorem Effect.requests {call : ControlCall} {result : ControlResult} (hs : s.Requests)
    (h : s.Effect call t result) : t.Requests := by
  have hprune : ∀ now_ms, (s.prune now_ms).Requests :=
    fun _ entry hmem => hs entry (mem_prune_completed.mp hmem).1
  cases h with
  | late_outbound => exact hs
  | @late_inbound _ now_ms => exact hprune now_ms
  | client_outbound _ _ hsent => cases hsent <;> exact hs
  | gateway_outbound _ _ hsent => cases hsent <;> exact hs
  | @client_inbound _ now_ms _ _ _ _ hreceived => cases hreceived <;> exact hprune now_ms
  | @gateway_inbound frame now_ms _ _ _ _ hreceived =>
    by_cases hnew : frame.message.is_request ∧ (s.prune now_ms).completed_action frame = none
    · obtain ⟨response, -, hcompleted⟩ := hreceived.remembers hnew.1 hnew.2
      intro entry hmem
      rw [hcompleted] at hmem
      rcases List.mem_append.mp hmem with hold | hmem
      · exact hprune now_ms entry ((s.prune now_ms).kept_sublist.subset hold)
      · obtain rfl := List.mem_singleton.mp hmem
        exact hnew.1
    · rw [Requests, hreceived.completed_eq hnew]
      exact hprune now_ms

theorem Reachable.requests (h : s.Reachable) : s.Requests := by
  obtain ⟨s₀, calls, results, hfresh, hrun⟩ := h
  have hend := exec_invariant (I := fun u => u.Wellformed ∧ u.Requests) ?_
    ⟨hfresh.wellformed, ?_⟩ hrun
  · exact hend.2
  · rintro u call u' o ⟨hwell, hrequests⟩ hstep
    obtain ⟨rfl, -⟩ := step_eq_some.mp hstep
    have heffect := u.apply_effect hwell call
    exact ⟨(heffect.advance hwell).wellformed hwell, heffect.requests hrequests⟩
  · obtain ⟨_, _, _, rfl, -, -⟩ := hfresh.eq_initial
    exact fun _ hmem => absurd hmem List.not_mem_nil

end ControlConnectionState

/-- The event delivers a frame, at the given clock reading. -/
def PairEvent.delivers (now_ms : ℕ) : PairEvent → Prop
  | .client_receives now => now = now_ms
  | .gateway_receives now => now = now_ms
  | _ => False

instance (now_ms : ℕ) : ∀ event : PairEvent, Decidable (event.delivers now_ms)
  | .client_receives now => inferInstanceAs (Decidable (now = now_ms))
  | .gateway_receives now => inferInstanceAs (Decidable (now = now_ms))
  | .client_sends .. | .gateway_sends .. => inferInstanceAs (Decidable False)

namespace ControlPair

open ControlConnectionState

variable {p q : ControlPair} {sent : List ControlFrame} {event : PairEvent}

/-! ## The two endpoints of a run -/

/-- Both endpoints are in states their own runs arrive at. -/
structure Endpoints (p : ControlPair) : Prop where
  client : p.client.Reachable
  gateway : p.gateway.Reachable
  client_role : p.client.role = .Client
  gateway_role : p.gateway.role = .Gateway

theorem Endpoints.call_client (h : p.Endpoints) (call : ControlCall)
    (to_gateway to_client : List ControlFrame) :
    Endpoints ⟨(p.client.apply call).1, p.gateway, to_gateway, to_client⟩ where
  client := h.client.run [call]
  gateway := h.gateway
  client_role := (apply_advance h.client.wellformed call).role.trans h.client_role
  gateway_role := h.gateway_role

theorem Endpoints.call_gateway (h : p.Endpoints) (call : ControlCall)
    (to_gateway to_client : List ControlFrame) :
    Endpoints ⟨p.client, (p.gateway.apply call).1, to_gateway, to_client⟩ where
  client := h.client
  gateway := h.gateway.run [call]
  client_role := h.client_role
  gateway_role := (apply_advance h.gateway.wellformed call).role.trans h.gateway_role

theorem Endpoints.step (h : p.Endpoints) (hstep : step p event = some (q, sent)) :
    q.Endpoints := by
  cases event with
  | client_sends frame now_ms =>
    obtain ⟨rfl, -⟩ := step_inj hstep
    exact h.call_client (.on_outbound frame now_ms) _ _
  | gateway_sends frame now_ms =>
    obtain ⟨rfl, -⟩ := step_inj hstep
    exact h.call_gateway (.on_outbound frame now_ms) _ _
  | client_receives now_ms =>
    obtain ⟨frame, _, _, -, rfl⟩ := client_receives_eq_some hstep
    exact h.call_client (.on_inbound frame now_ms) _ _
  | gateway_receives now_ms =>
    obtain ⟨frame, _, _, -, rfl⟩ := gateway_receives_eq_some hstep
    exact h.call_gateway (.on_inbound frame now_ms) _ _

theorem Reachable.endpoints (h : p.Reachable) : p.Endpoints := by
  obtain ⟨p₀, events, sent, hfresh, hrun⟩ := h
  refine exec_invariant (I := Endpoints) (fun _ _ _ _ hi hs => hi.step hs) ?_ hrun
  exact ⟨hfresh.client.reachable, hfresh.gateway.reachable, hfresh.client_role,
    hfresh.gateway_role⟩

/-! ## Deliveries -/

/-- How much a frame on its way to the client, or to the gateway, can still cause. -/
def work_to_client (frame : ControlFrame) : ℕ := if frame.message.is_answer then 1 else 3

def work_to_gateway (frame : ControlFrame) : ℕ := if frame.message.is_answer then 2 else 4

def work (p : ControlPair) : ℕ :=
  (p.to_client.map work_to_client).sum + (p.to_gateway.map work_to_gateway).sum

def in_flight (p : ControlPair) : ℕ := p.to_gateway.length + p.to_client.length

/-- The delivery brings an acknowledgement or a reject to a client that is not Active, or
whose admission is over. -/
def stray_answer (p : ControlPair) : PairEvent → Prop
  | .client_receives now_ms => (p.client.phase ≠ .Active ∨ p.client.expires now_ms) ∧
      ∃ frame ∈ p.to_client.head?, frame.message.is_answer
  | _ => False

instance (p : ControlPair) : ∀ event, Decidable (p.stray_answer event)
  | .client_receives _ => inferInstanceAs (Decidable (_ ∧ ∃ _ ∈ _, _))
  | .gateway_receives _ | .client_sends .. | .gateway_sends .. => inferInstanceAs (Decidable False)

theorem sum_map_le {weight : ControlFrame → ℕ} {bound : ℕ} (h : ∀ frame, weight frame ≤ bound)
    (frames : List ControlFrame) : (frames.map weight).sum ≤ frames.length * bound := by
  have hle := List.sum_le_card_nsmul (frames.map weight) bound ?_
  · rw [List.length_map, smul_eq_mul] at hle
    exact hle
  · intro n hmem
    obtain ⟨frame, -, rfl⟩ := List.mem_map.mp hmem
    exact h frame

theorem work_le (p : ControlPair) : p.work ≤ 4 * p.in_flight := by
  have hclient : ∀ frame, work_to_client frame ≤ 4 := by
    intro frame
    rw [work_to_client]
    split <;> omega
  have hgateway : ∀ frame, work_to_gateway frame ≤ 4 := by
    intro frame
    rw [work_to_gateway]
    split <;> omega
  have hto_client := sum_map_le hclient p.to_client
  have hto_gateway := sum_map_le hgateway p.to_gateway
  rw [work, in_flight]
  omega

/-- The work of at most one answer is bounded by the bound on each. -/
theorem sum_reply_frames_le {weight : ControlFrame → ℕ} {bound : ℕ}
    {result : Except ControlStateError ControlAction}
    (h : ∀ action reply, result = .ok action → action.answer = some reply → weight reply ≤ bound) :
    ((reply_frames result).map weight).sum ≤ bound := by
  cases result with
  | error => exact Nat.zero_le _
  | ok action =>
    rw [reply_frames]
    cases hanswer : action.answer with
    | none => exact Nat.zero_le _
    | some reply =>
      rw [Option.toList_some, List.map_singleton, List.sum_singleton]
      exact h action reply rfl hanswer

/-- What a client answers to a frame, unless it is a stray answer, weighs less than the
frame. -/
theorem client_reply_work (h : p.Endpoints) (frame : ControlFrame) (now_ms : ℕ)
    (hstray : frame.message.is_answer → p.client.phase = .Active ∧ ¬ p.client.expires now_ms) :
    ((reply_frames (p.client.on_inbound frame now_ms).2).map work_to_gateway).sum <
      work_to_client frame := by
  have heffect := p.client.apply_effect h.client.wellformed (.on_inbound frame now_ms)
  rw [apply_on_inbound] at heffect
  generalize (p.client.on_inbound frame now_ms).1 = client at heffect
  generalize (p.client.on_inbound frame now_ms).2 = result at heffect ⊢
  cases hanswer : frame.message.is_answer with
  | true =>
    obtain ⟨hactive, hlive⟩ := hstray hanswer
    rw [work_to_client, if_pos hanswer]
    refine Nat.lt_succ_of_le (sum_reply_frames_le ?_)
    intro action reply hresult hreply
    cases heffect with
    | late_inbound hexpires => exact absurd hexpires hlive
    | client_inbound _ _ hreceived =>
      obtain rfl := Except.ok.inj hresult
      rw [hreceived.answer_eq_none hactive hanswer] at hreply
      contradiction
    | gateway_inbound hgateway =>
      rw [h.client_role] at hgateway
      contradiction
  | false =>
    rw [work_to_client, hanswer]
    refine Nat.lt_succ_of_le (sum_reply_frames_le ?_)
    intro action reply hresult hreply
    have hreject : reply.message.is_answer := by
      cases heffect with
      | late_inbound =>
        obtain rfl := Except.ok.inj hresult
        obtain rfl := Option.some.inj hreply
        rfl
      | client_inbound _ _ hreceived =>
        obtain rfl := Except.ok.inj hresult
        exact hreceived.reply_is_answer hreply
      | gateway_inbound hgateway =>
        rw [h.client_role] at hgateway
        contradiction
    rw [work_to_gateway, if_pos hreject]

/-- What a gateway answers to a frame weighs less than the frame. -/
theorem gateway_reply_work (h : p.Endpoints) (frame : ControlFrame) (now_ms : ℕ) :
    ((reply_frames (p.gateway.on_inbound frame now_ms).2).map work_to_client).sum <
      work_to_gateway frame := by
  have heffect := p.gateway.apply_effect h.gateway.wellformed (.on_inbound frame now_ms)
  have hrequests := h.gateway.requests
  rw [apply_on_inbound] at heffect
  generalize (p.gateway.on_inbound frame now_ms).1 = gateway at heffect
  generalize (p.gateway.on_inbound frame now_ms).2 = result at heffect ⊢
  cases hanswer : frame.message.is_answer with
  | true =>
    rw [work_to_gateway, if_pos hanswer]
    refine Nat.lt_succ_of_le (sum_reply_frames_le ?_)
    intro action reply hresult hreply
    have hreject : reply.message.is_answer := by
      cases heffect with
      | late_inbound =>
        obtain rfl := Except.ok.inj hresult
        obtain rfl := Option.some.inj hreply
        rfl
      | client_inbound hclient =>
        rw [h.gateway_role] at hclient
        contradiction
      | gateway_inbound _ _ hreceived =>
        obtain rfl := Except.ok.inj hresult
        refine hreceived.reply_is_answer ?_ hanswer hreply
        exact fun entry hmem => hrequests entry (mem_prune_completed.mp hmem).1
    rw [work_to_client, if_pos hreject]
  | false =>
    rw [work_to_gateway, hanswer]
    refine Nat.lt_succ_of_le (sum_reply_frames_le ?_)
    intro action reply _ _
    rw [work_to_client]
    split <;> omega

/-- A delivery that is no stray answer leaves less to do. -/
theorem work_step (h : p.Endpoints) {now_ms : ℕ} (hdelivers : event.delivers now_ms)
    (hstray : ¬ p.stray_answer event) (hstep : step p event = some (q, sent)) :
    q.work < p.work := by
  cases event with
  | client_sends => exact hdelivers.elim
  | gateway_sends => exact hdelivers.elim
  | client_receives now =>
    obtain ⟨frame, rest, hto_client, -, rfl⟩ := client_receives_eq_some hstep
    have hreply := client_reply_work h frame now ?_
    · rw [work, work, hto_client]
      simp only [List.map_cons, List.sum_cons, List.map_append, List.sum_append]
      omega
    · intro hanswer
      by_contra hno
      refine hstray ⟨?_, frame, by rw [hto_client]; rfl, hanswer⟩
      by_cases hactive : p.client.phase = .Active
      · refine .inr ?_
        by_contra hlive
        exact hno ⟨hactive, hlive⟩
      · exact .inl hactive
  | gateway_receives now =>
    obtain ⟨frame, rest, hto_gateway, -, rfl⟩ := gateway_receives_eq_some hstep
    have hreply := gateway_reply_work h frame now
    rw [work, work, hto_gateway]
    simp only [List.map_cons, List.sum_cons, List.map_append, List.sum_append]
    omega

/-- Each delivery of a run uses up work. -/
theorem length_add_work_le (h : p.Endpoints) {now_ms : ℕ} {events : List PairEvent}
    (hdelivers : ∀ event ∈ events, event.delivers now_ms)
    (hstray : Along step (fun p event => ¬ p.stray_answer event) p events)
    (hrun : exec step p events = some (q, sent)) : events.length + q.work ≤ p.work := by
  induction events generalizing p sent with
  | nil =>
    obtain ⟨rfl, -⟩ := step_inj hrun
    rw [List.length_nil, Nat.zero_add]
  | cons event events ih =>
    obtain ⟨p', o, o', hstep, hrest, rfl⟩ := exec_cons_eq_some.mp hrun
    obtain ⟨hnot, halong⟩ := (along_cons hstep).mp hstray
    have hless := work_step h (hdelivers event List.mem_cons_self) hnot hstep
    have hih := ih (h.step hstep) (fun e he => hdelivers e (List.mem_cons_of_mem event he)) halong
      hrest
    rw [List.length_cons]
    omega

/-- **Exchanges come to rest.** From every reachable state every sequence of deliveries
is finite, with at most four deliveries for each frame in flight, as long as no
acknowledgement or reject reaches a client that is not Active. -/
theorem deliveries_finite (hp : p.Reachable) {now_ms : ℕ} {events : List PairEvent}
    (hdelivers : ∀ event ∈ events, event.delivers now_ms)
    (hstray : Along step (fun p event => ¬ p.stray_answer event) p events)
    (hrun : exec step p events = some (q, sent)) : events.length ≤ 4 * p.in_flight := by
  have hwork := length_add_work_le hp.endpoints hdelivers hstray hrun
  have hle := p.work_le
  omega

/-- A hello and its answer. -/
theorem deliveries_finite_sample : ∃ p sent, exec step Sample.pair
    [.client_sends (Sample.hello 1) 0] = some (p, sent) ∧
      [PairEvent.gateway_receives 0, .client_receives 0].length ≤ 4 * p.in_flight := by
  refine ⟨_, _, rfl, ?_⟩
  have hreachable : Reachable _ := ⟨Sample.pair, [.client_sends (Sample.hello 1) 0], _,
    Sample.pair_fresh, rfl⟩
  have hdelivers : ∀ event ∈ [PairEvent.gateway_receives 0, .client_receives 0],
      event.delivers 0 := by decide
  exact deliveries_finite hreachable hdelivers (by decide) rfl

/-! ## Exchanges without end -/

/-- Every frame that reaches a closed client is answered. -/
theorem client_reply_of_closed (h : p.Endpoints) (hclosed : p.client.phase = .Closed)
    (frame : ControlFrame) (now_ms : ℕ) :
    (p.client.on_inbound frame now_ms).1.phase = .Closed ∧
      ∃ reply, reply_frames (p.client.on_inbound frame now_ms).2 = [reply] := by
  have hwell := h.client.wellformed
  have heffect := p.client.apply_effect hwell (.on_inbound frame now_ms)
  rw [apply_on_inbound] at heffect
  refine ⟨((heffect.advance hwell).closed hclosed).phase.trans hclosed, ?_⟩
  generalize (p.client.on_inbound frame now_ms).1 = client at heffect
  generalize (p.client.on_inbound frame now_ms).2 = result at heffect ⊢
  -- every arm that answers nothing has found the client Active
  have hphase : ∀ phase, phase ≠ .Closed → p.client.phase = phase → False := by
    rintro phase hne rfl
    exact hne hclosed
  cases heffect with
  | late_inbound => exact ⟨_, rfl⟩
  | gateway_inbound hgateway =>
    rw [h.client_role] at hgateway
    contradiction
  | client_inbound _ _ hreceived =>
    cases hreceived with
    | rejected => exact ⟨_, rfl⟩
    | admitted _ h => exact (hphase .AwaitAdmit (by decide) h).elim
    | attached _ h => exact (hphase .Active (by decide) h.1).elim
    | updated => exact ⟨_, rfl⟩
    | closed => exact ⟨_, rfl⟩
    | detached _ h => exact (hphase .Active (by decide) h).elim
    | settled _ h => exact (hphase .Active (by decide) h).elim

/-- Every frame that reaches a closed gateway is answered. -/
theorem gateway_reply_of_closed (h : p.Endpoints) (hclosed : p.gateway.phase = .Closed)
    (frame : ControlFrame) (now_ms : ℕ) :
    (p.gateway.on_inbound frame now_ms).1.phase = .Closed ∧
      ∃ reply, reply_frames (p.gateway.on_inbound frame now_ms).2 = [reply] := by
  have hwell := h.gateway.wellformed
  have heffect := p.gateway.apply_effect hwell (.on_inbound frame now_ms)
  rw [apply_on_inbound] at heffect
  refine ⟨((heffect.advance hwell).closed hclosed).phase.trans hclosed, ?_⟩
  generalize (p.gateway.on_inbound frame now_ms).1 = gateway at heffect
  generalize (p.gateway.on_inbound frame now_ms).2 = result at heffect ⊢
  have hactive : p.gateway.phase = .Active → False := by
    intro h
    rw [hclosed] at h
    contradiction
  cases heffect with
  | late_inbound => exact ⟨_, rfl⟩
  | client_inbound hclient =>
    rw [h.gateway_role] at hclient
    contradiction
  | @gateway_inbound _ _ _ action _ _ hreceived =>
    cases hreceived with
    | cached hcached =>
      cases action with
      | None => exact (completed_action_ne_None hcached).elim
      | Reply reply => exact ⟨reply, rfl⟩
      | Replay reply => exact ⟨reply, rfl⟩
    | acknowledged _ _ h => exact (hactive h).elim
    | declined _ _ h => exact (hactive h).elim
    | _ => exact ⟨_, rfl⟩

/-- Both ends are closed and a frame is in flight. -/
structure ClosedExchange (p : ControlPair) : Prop where
  endpoints : p.Endpoints
  client : p.client.phase = .Closed
  gateway : p.gateway.phase = .Closed
  in_flight : p.in_flight ≠ 0

/-- A delivery that is possible, to the client first. -/
def next_delivery (p : ControlPair) (now_ms : ℕ) : PairEvent :=
  if p.to_client = [] then .gateway_receives now_ms else .client_receives now_ms

theorem next_delivery_delivers (p : ControlPair) (now_ms : ℕ) :
    (p.next_delivery now_ms).delivers now_ms := by
  rw [next_delivery]
  split
  · rfl
  · rfl

/-- Between closed ends a delivery leaves as many frames in flight as there were. -/
theorem ClosedExchange.next (h : p.ClosedExchange) (now_ms : ℕ) :
    ∃ q, step p (p.next_delivery now_ms) = some (q, []) ∧ q.ClosedExchange := by
  rw [next_delivery]
  cases hto_client : p.to_client with
  | nil =>
    rw [if_pos rfl]
    cases hto_gateway : p.to_gateway with
    | nil =>
      refine (h.in_flight ?_).elim
      rw [ControlPair.in_flight, hto_client, hto_gateway]
      rfl
    | cons frame rest =>
      obtain ⟨hclosed, reply, hreply⟩ := gateway_reply_of_closed h.endpoints h.gateway frame now_ms
      have hstep : step p (.gateway_receives now_ms) =
          some (⟨p.client, (p.gateway.on_inbound frame now_ms).1, rest,
            p.to_client ++ reply_frames (p.gateway.on_inbound frame now_ms).2⟩, []) := by
        rw [step, hto_gateway]
      refine ⟨_, hstep, h.endpoints.step hstep, h.client, hclosed, ?_⟩
      rw [ControlPair.in_flight]
      dsimp only
      rw [hreply, List.length_append, List.length_singleton]
      omega
  | cons frame rest =>
    rw [if_neg (List.cons_ne_nil frame rest)]
    obtain ⟨hclosed, reply, hreply⟩ := client_reply_of_closed h.endpoints h.client frame now_ms
    have hstep : step p (.client_receives now_ms) =
        some (⟨(p.client.on_inbound frame now_ms).1, p.gateway,
          p.to_gateway ++ reply_frames (p.client.on_inbound frame now_ms).2, rest⟩, []) := by
      rw [step, hto_client]
    refine ⟨_, hstep, h.endpoints.step hstep, hclosed, h.gateway, ?_⟩
    rw [ControlPair.in_flight]
    dsimp only
    rw [hreply, List.length_append, List.length_singleton]
    omega

/-- The state after `n` deliveries, each the next one possible. -/
def drive (p : ControlPair) (now_ms : ℕ) : ℕ → ControlPair
  | 0 => p
  | n + 1 => ((step (p.drive now_ms n) ((p.drive now_ms n).next_delivery now_ms)).map (·.1)).getD p

/-- **Two closed ends with a frame in flight never come to rest**: the sequence of
deliveries goes on for ever. -/
theorem ClosedExchange.endless (h : p.ClosedExchange) (now_ms : ℕ) :
    ∃ events : ℕ → PairEvent, (∀ n, (events n).delivers now_ms) ∧
      ∀ n, (exec step p ((List.range n).map events)).isSome := by
  refine ⟨fun n => (p.drive now_ms n).next_delivery now_ms,
    fun n => next_delivery_delivers _ now_ms, ?_⟩
  intro n
  have hdrive : (p.drive now_ms n).ClosedExchange ∧
      exec step p ((List.range n).map (fun n => (p.drive now_ms n).next_delivery now_ms)) =
        some (p.drive now_ms n, []) := by
    induction n with
    | zero => exact ⟨h, rfl⟩
    | succ n ih =>
      obtain ⟨hclosed, hrun⟩ := ih
      obtain ⟨q, hstep, hq⟩ := hclosed.next now_ms
      have hnext : p.drive now_ms (n + 1) = q := by
        rw [drive, hstep]
        rfl
      rw [hnext, List.range_succ, List.map_append, List.map_singleton]
      exact ⟨hq, exec_append hrun (exec_singleton hstep)⟩
  rw [hdrive.2]
  rfl

/-- The client closes the session, and the two ends reject each other's frames from then
on. -/
theorem close_never_quiesces :
    ¬ ∀ (p : ControlPair) (now_ms : ℕ), p.Reachable → ¬ ∃ events : ℕ → PairEvent,
      (∀ n, (events n).delivers now_ms) ∧
        ∀ n, (exec step p ((List.range n).map events)).isSome := by
  intro hquiesces
  have hclose : ∃ p sent, exec step Sample.pair [.client_sends (Sample.hello 1) 0,
      .gateway_receives 0, .client_receives 0, .client_sends (Sample.close 2) 1,
      .gateway_receives 1] = some (p, sent) ∧ p.client.phase = .Closed ∧
      p.gateway.phase = .Closed ∧ p.in_flight ≠ 0 := ⟨_, _, rfl, rfl, rfl, by decide⟩
  obtain ⟨p, sent, hrun, hclient, hgateway, hflight⟩ := hclose
  have hreachable : p.Reachable := ⟨Sample.pair, _, _, Sample.pair_fresh, hrun⟩
  exact hquiesces p 1 hreachable
    (ClosedExchange.endless ⟨hreachable.endpoints, hclient, hgateway, hflight⟩ 1)

end ControlPair

end StreamGuard.Control
