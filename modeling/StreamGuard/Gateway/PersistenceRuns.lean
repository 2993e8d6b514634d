/-
Runs of the persistence owner.

Whatever callers, worker and `stop` do in between, the owner is a serial server: the works
that ran are the first of those that were accepted, in that order, each of them once, and
the store and the replies are those of running them alone (`Orderly`). Each call has one
number and one end, and what it is told is true of its work (`Tracked`).
-/
import StreamGuard.Gateway.PersistenceOwner

set_option autoImplicit false

namespace StreamGuard.Gateway

open StreamGuard StreamGuard.Lib

variable {σ α : Type*}

/-! ## What is seen of a run -/

def OwnerEvent.accepted? : OwnerEvent σ α → Option (ℕ × Work σ α)
  | .accepted id work => some (id, work)
  | _ => none

def OwnerEvent.ran? : OwnerEvent σ α → Option (ℕ × Option α)
  | .ran id result => some (id, result)
  | _ => none

def OwnerEvent.lost? : OwnerEvent σ α → Option (ℕ × Work σ α)
  | .lost id work => some (id, work)
  | _ => none

def OwnerEvent.returned? : OwnerEvent σ α → Option (ℕ × Except PersistenceError α)
  | .returned id result => some (id, result)
  | _ => none

def OwnerEvent.cancelled? : OwnerEvent σ α → Option ℕ
  | .cancelled id => some id
  | _ => none

/-- The end of a call, returned or cancelled. -/
def OwnerEvent.ended? : OwnerEvent σ α → Option ℕ
  | .returned id _ | .cancelled id => some id
  | _ => none

/-- Only the first answer counts. -/
theorem Execute.answer_answer (reply : PersistenceReply α) (call : Execute σ α) :
    (call.answer reply).answer reply = call.answer reply := by
  cases call with
  | cloned work => rfl
  | queued r => cases r with
    | pending => cases reply <;> rfl
    | sent | dropped => rfl
  | waiting r => cases r with
    | pending => cases reply <;> rfl
    | sent | dropped => rfl

namespace PersistenceOwner

/-- The works that were let into the channel, in that order. -/
def accepted (events : List (OwnerEvent σ α)) : List (ℕ × Work σ α) :=
  events.filterMap OwnerEvent.accepted?

/-- The works that ran, with their results. -/
def ran (events : List (OwnerEvent σ α)) : List (ℕ × Option α) :=
  events.filterMap OwnerEvent.ran?

/-- The works that went with the channel. -/
def lost (events : List (OwnerEvent σ α)) : List (ℕ × Work σ α) :=
  events.filterMap OwnerEvent.lost?

def returned (events : List (OwnerEvent σ α)) : List (ℕ × Except PersistenceError α) :=
  events.filterMap OwnerEvent.returned?

/-- The calls that were dropped while they waited. -/
def cancelled (events : List (OwnerEvent σ α)) : List ℕ :=
  events.filterMap OwnerEvent.cancelled?

/-- The calls that came to an end. -/
def ended (events : List (OwnerEvent σ α)) : List ℕ := events.filterMap OwnerEvent.ended?

/-- What is accepted and has not run: the work of the worker and the channel. -/
def pending (s : PersistenceOwner σ α) : List (ℕ × Work σ α) := s.worker.current ++ s.queue

section Seen

variable {events more : List (OwnerEvent σ α)}

theorem accepted_append : accepted (events ++ more) = accepted events ++ accepted more :=
  List.filterMap_append

theorem ran_append : ran (events ++ more) = ran events ++ ran more := List.filterMap_append

theorem lost_append : lost (events ++ more) = lost events ++ lost more := List.filterMap_append

theorem returned_append : returned (events ++ more) = returned events ++ returned more :=
  List.filterMap_append

theorem ended_append : ended (events ++ more) = ended events ++ ended more := List.filterMap_append

end Seen

variable {s s' : PersistenceOwner σ α} {label : OwnerLabel σ α}
  {events new : List (OwnerEvent σ α)} {store : σ}

theorem filterMap_unwind {β : Type*} (s : PersistenceOwner σ α) {f : OwnerEvent σ α → Option β}
    (hf : ∀ id work, f (.lost id work) = none) : s.unwind.2.filterMap f = [] := by
  refine List.filterMap_eq_nil_iff.mpr ?_
  intro event hevent
  obtain ⟨w, -, rfl⟩ := List.mem_map.mp hevent
  exact hf w.1 w.2

/-- Nothing but the lost works is seen of an unwinding. -/
theorem unwind_seen (s : PersistenceOwner σ α) : accepted s.unwind.2 = [] ∧ ran s.unwind.2 = [] ∧
    lost s.unwind.2 = s.queue ∧ returned s.unwind.2 = [] ∧ ended s.unwind.2 = [] := by
  refine ⟨filterMap_unwind s fun _ _ => rfl, filterMap_unwind s fun _ _ => rfl, ?_,
    filterMap_unwind s fun _ _ => rfl, filterMap_unwind s fun _ _ => rfl⟩
  rw [lost, unwind, List.filterMap_map]
  exact List.filterMap_some

/-- Control is seen in the returns of `stop` only. -/
theorem Control.seen (h : s.Control s' new) : accepted new = [] ∧ ran new = [] ∧ lost new = [] ∧
    returned new = [] ∧ ended new = [] := by
  cases h with
  | _ => exact ⟨rfl, rfl, rfl, rfl, rfl⟩

/-- And it leaves the service as it is. -/
structure SameService (s s' : PersistenceOwner σ α) : Prop where
  config : s'.config = s.config
  queue : s'.queue = s.queue
  worker : s'.worker = s.worker
  calls : s'.calls = s.calls
  next_call : s'.next_call = s.next_call
  store : s'.store = s.store

theorem Control.same_service (h : s.Control s' new) : s.SameService s' := by
  cases h with
  | _ => exact ⟨rfl, rfl, rfl, rfl, rfl, rfl⟩

/-! ## The order of service -/

/-- The accepted works are those that ran, in order, then those that wait, or that were
lost. -/
structure Orderly (store : σ) (s : PersistenceOwner σ α) (events : List (OwnerEvent σ α)) :
    Prop where
  log : ∃ done, accepted events = done ++ s.pending ++ lost events ∧
    serve store done = (s.store, ran events)
  lost : s.worker ≠ .panicked → lost events = []
  gone : s.worker.gone = true → s.queue = []
  capacity : s.queue.length ≤ s.config.queue_capacity

theorem start_orderly (config : PersistenceConfig) (store : σ) :
    Orderly store (start config store : PersistenceOwner σ α) [] :=
  ⟨⟨[], rfl, rfl⟩, fun _ => rfl, fun _ => rfl, Nat.zero_le _⟩

/-- A step that touches neither worker nor channel, and shows nothing of them. -/
theorem Orderly.frame (h : Orderly store s events) (hseen : accepted new = [] ∧ ran new = [] ∧
      PersistenceOwner.lost new = []) (hworker : s'.worker = s.worker) (hqueue : s'.queue = s.queue)
    (hstore : s'.store = s.store) (hconfig : s'.config = s.config) :
    Orderly store s' (events ++ new) := by
  obtain ⟨haccepted, hran, hlost⟩ := hseen
  obtain ⟨done, hlog, hserve⟩ := h.log
  refine ⟨⟨done, ?_, ?_⟩, ?_, ?_, ?_⟩
  · rw [accepted_append, lost_append, haccepted, hlost, List.append_nil, List.append_nil, hlog,
      pending, pending, hworker, hqueue]
  · rw [ran_append, hran, List.append_nil, hserve, hstore]
  · rw [hworker, lost_append, hlost, List.append_nil]
    exact h.lost
  · rw [hworker, hqueue]
    exact h.gone
  · rw [hqueue, hconfig]
    exact h.capacity

/-- The end of a work: it joins those that ran. -/
theorem Orderly.finished (h : Orderly store s events) {id : ℕ} {work : Work σ α}
    (hbusy : s.worker = .busy id work) (hworker : s'.worker.current = [])
    (halive : s'.worker.gone = false) (hqueue : s'.queue = s.queue)
    (hstore : s'.store = (work s.store).1) (hconfig : s'.config = s.config) :
    Orderly store s' (events ++ [.ran id (work s.store).2]) := by
  obtain ⟨done, hlog, hserve⟩ := h.log
  have hlost := h.lost (by rw [hbusy]; simp)
  have hseen : accepted [OwnerEvent.ran id (work s.store).2] = ([] : List (ℕ × Work σ α)) ∧
      PersistenceOwner.lost [OwnerEvent.ran id (work s.store).2] = ([] : List (ℕ × Work σ α)) ∧
      ran [(OwnerEvent.ran id (work s.store).2 : OwnerEvent σ α)] =
        [(id, (work s.store).2)] := ⟨rfl, rfl, rfl⟩
  refine ⟨⟨done ++ [(id, work)], ?_, ?_⟩, ?_, ?_, ?_⟩
  · rw [accepted_append, lost_append, hseen.1, hseen.2.1, List.append_nil, List.append_nil, hlog,
      pending, pending, hbusy, hworker, hqueue, Worker.current, List.nil_append]
    simp only [List.append_assoc]
  · rw [serve_concat, hserve, ran_append, hseen.2.2, hstore]
  · intro _
    rw [lost_append, hseen.2.1, List.append_nil, hlost]
  · intro hgone
    rw [halive] at hgone
    contradiction
  · rw [hqueue, hconfig]
    exact h.capacity

theorem Orderly.step (h : Orderly store s events) (hs : s.Steps label s' new) :
    Orderly store s' (events ++ new) := by
  cases hs with
  | opens | refused | leaves | submits | cancels =>
    exact h.frame ⟨rfl, rfl, rfl⟩ rfl rfl rfl rfl
  | @accepts id work hcall halive hroom =>
    obtain ⟨done, hlog, hserve⟩ := h.log
    -- a channel that still takes something has lost nothing
    have hlost := h.lost (by
      intro hpanicked
      rw [hpanicked] at halive
      contradiction)
    refine ⟨⟨done, ?_, ?_⟩, ?_, ?_, ?_⟩
    · rw [accepted_append, lost_append, hlog, hlost]
      simp [accepted, OwnerEvent.accepted?, PersistenceOwner.lost, OwnerEvent.lost?, pending]
    · rw [ran_append, hserve]
      simp [ran, OwnerEvent.ran?]
    · intro _
      rw [lost_append, hlost]
      rfl
    · intro hgone
      rw [halive] at hgone
      contradiction
    · dsimp only
      rw [List.length_append, List.length_singleton]
      exact hroom
  | @recv id work queue hidle hqueue =>
    obtain ⟨done, hlog, hserve⟩ := h.log
    have hlost := h.lost (by rw [hidle]; simp)
    rw [List.append_nil]
    refine ⟨⟨done, ?_, hserve⟩, fun _ => hlost, ?_, ?_⟩
    · rw [hlog, pending, pending, hidle, hqueue]
      rfl
    · intro hgone
      contradiction
    · have hcapacity := h.capacity
      rw [hqueue, List.length_cons] at hcapacity
      exact Nat.le_of_succ_le hcapacity
  | runs hbusy hresult =>
    rw [← hresult]
    exact h.finished hbusy rfl rfl rfl rfl rfl
  | panics hbusy hresult =>
    rw [← hresult]
    exact h.finished hbusy rfl rfl rfl rfl rfl
  | unwinds hunwinding =>
    obtain ⟨done, hlog, hserve⟩ := h.log
    have hlost := h.lost (by rw [hunwinding]; simp)
    obtain ⟨haccepted, hran, hqueue, -⟩ := s.unwind_seen
    -- what was pending is lost, and nothing is pending any more
    refine ⟨⟨done, ?_, ?_⟩, ?_, fun _ => rfl, Nat.zero_le _⟩
    · rw [accepted_append, lost_append, haccepted, hqueue, hlog, hlost, pending, pending,
        hunwinding]
      simp [unwind, Worker.current]
    · rw [ran_append, hran, List.append_nil, hserve]
      rfl
    · intro hne
      exact absurd rfl hne
  | exits hidle hqueue hclosed hcalls =>
    obtain ⟨done, hlog, hserve⟩ := h.log
    have hlost := h.lost (by rw [hidle]; simp)
    rw [List.append_nil]
    refine ⟨⟨done, ?_, hserve⟩, fun _ => hlost, fun _ => hqueue, h.capacity⟩
    rw [hlog, pending, pending, hidle]
    rfl
  | control hcontrol =>
    obtain ⟨haccepted, hran, hlost, -⟩ := hcontrol.seen
    have hsame := hcontrol.same_service
    exact h.frame ⟨haccepted, hran, hlost⟩ hsame.worker hsame.queue hsame.store hsame.config

/-! ## The outcome of a call -/

/-- What a reply channel says of the work of its call. -/
def Says (s : PersistenceOwner σ α) (events : List (OwnerEvent σ α)) (id : ℕ) :
    PersistenceReply α → Prop
  | .pending => id ∈ s.pending.map Prod.fst
  | .sent result => (id, some result) ∈ ran events
  | .dropped => (id, none) ∈ ran events ∨ id ∈ (PersistenceOwner.lost events).map Prod.fst

/-- Where a call in progress is. -/
def Standing (s : PersistenceOwner σ α) (events : List (OwnerEvent σ α)) (id : ℕ) :
    Execute σ α → Prop
  | .cloned _ => id ∉ (accepted events).map Prod.fst
  | .queued reply | .waiting reply => id ∈ (accepted events).map Prod.fst ∧ s.Says events id reply

/-- What the outcome of a call says of its work. -/
def Outcome (events : List (OwnerEvent σ α)) (id : ℕ) : Except PersistenceError α → Prop
  | .ok result => (id, some result) ∈ ran events
  | .error .Full => id ∉ (accepted events).map Prod.fst
  | .error .Closed => id ∉ (accepted events).map Prod.fst ∨ (id, none) ∈ ran events ∨
      id ∈ (PersistenceOwner.lost events).map Prod.fst
  | .error .Timeout => id ∈ (accepted events).map Prod.fst
  | .error .Unavailable => False

/-- Every call has one number and one end. -/
structure Tracked (s : PersistenceOwner σ α) (events : List (OwnerEvent σ α)) : Prop where
  calls : ∀ {id call}, s.calls.lookup id = some call →
    id < s.next_call ∧ id ∉ ended events ∧ s.Standing events id call
  ended_issued : ∀ {id}, id ∈ ended events → id < s.next_call
  accepted_issued : ∀ {id}, id ∈ (accepted events).map Prod.fst → id < s.next_call
  ended_once : (ended events).Nodup
  accepted_once : ((accepted events).map Prod.fst).Nodup
  outcome : ∀ {id result}, (id, result) ∈ returned events →
    id ∈ ended events ∧ Outcome events id result

theorem start_tracked (config : PersistenceConfig) (store : σ) :
    Tracked (start config store : PersistenceOwner σ α) [] := by
  refine ⟨?_, ?_, ?_, List.nodup_nil, List.nodup_nil, ?_⟩
  · intro id call hcall
    simp [start] at hcall
  · intro id hid
    simp [ended] at hid
  · intro id hid
    simp [accepted] at hid
  · intro id result hr
    simp [returned] at hr

section Later

variable {id : ℕ}

theorem not_accepted_later (h : id ∉ (accepted events).map Prod.fst)
    (hnew : id ∉ (accepted new).map Prod.fst) : id ∉ (accepted (events ++ new)).map Prod.fst := by
  rw [accepted_append, List.map_append, List.mem_append]
  exact not_or.mpr ⟨h, hnew⟩

theorem accepted_later (h : id ∈ (accepted events).map Prod.fst) :
    id ∈ (accepted (events ++ new)).map Prod.fst := by
  rw [accepted_append, List.map_append]
  exact List.mem_append_left _ h

theorem ran_later {result : Option α} (h : (id, result) ∈ ran events) :
    (id, result) ∈ ran (events ++ new) := by
  rw [ran_append]
  exact List.mem_append_left _ h

theorem lost_later (h : id ∈ (PersistenceOwner.lost events).map Prod.fst) :
    id ∈ (PersistenceOwner.lost (events ++ new)).map Prod.fst := by
  rw [lost_append, List.map_append]
  exact List.mem_append_left _ h

/-- What a reply says stays true, while a work that was to run still is. -/
theorem Says.later {reply : PersistenceReply α} (h : s.Says events id reply)
    (hpending : id ∈ s.pending.map Prod.fst → id ∈ s'.pending.map Prod.fst) :
    s'.Says (events ++ new) id reply := by
  cases reply with
  | pending => exact hpending h
  | sent result => exact ran_later h
  | dropped => exact h.imp ran_later lost_later

theorem Standing.later {call : Execute σ α} (h : s.Standing events id call)
    (hnew : id ∉ (accepted new).map Prod.fst)
    (hpending : id ∈ s.pending.map Prod.fst → id ∈ s'.pending.map Prod.fst) :
    s'.Standing (events ++ new) id call := by
  cases call with
  | cloned work => exact not_accepted_later h hnew
  | queued reply => exact ⟨accepted_later h.1, h.2.later hpending⟩
  | waiting reply => exact ⟨accepted_later h.1, h.2.later hpending⟩

theorem Standing.same {call : Execute σ α} (h : s.Standing events id call)
    (hpending : s'.pending = s.pending) : s'.Standing events id call := by
  have hsays : ∀ {reply : PersistenceReply α}, s.Says events id reply →
      s'.Says events id reply := by
    intro reply hreply
    cases reply with
    | pending =>
      rw [Says, hpending]
      exact hreply
    | sent result => exact hreply
    | dropped => exact hreply
  cases call with
  | cloned work => exact h
  | queued reply => exact ⟨h.1, hsays h.2⟩
  | waiting reply => exact ⟨h.1, hsays h.2⟩

/-- A reply that is delivered leaves nobody waiting, and says what is true. -/
theorem Standing.answered {call : Execute σ α} {reply : PersistenceReply α}
    (h : s.Standing events id call)
    (hnew : id ∉ (accepted new).map Prod.fst) (hreply : s'.Says (events ++ new) id reply) :
    s'.Standing (events ++ new) id (call.answer reply) := by
  have hsays : ∀ {r : PersistenceReply α}, s.Says events id r →
      s'.Says (events ++ new) id (reply.answer r) := by
    intro r hr
    cases r with
    | pending => exact hreply
    | sent result => exact ran_later hr
    | dropped => exact hr.imp ran_later lost_later
  cases call with
  | cloned work => exact not_accepted_later h hnew
  | queued r => exact ⟨accepted_later h.1, hsays h.2⟩
  | waiting r => exact ⟨accepted_later h.1, hsays h.2⟩

theorem Outcome.later {result : Except PersistenceError α} (h : Outcome events id result)
    (hnew : id ∉ (accepted new).map Prod.fst) : Outcome (events ++ new) id result := by
  cases result with
  | ok r => exact ran_later h
  | error e =>
    cases e with
    | Full => exact not_accepted_later h hnew
    | Closed =>
      rcases h with hnot | hran | hlost
      · exact .inl (not_accepted_later hnot hnew)
      · exact .inr (.inl (ran_later hran))
      · exact .inr (.inr (lost_later hlost))
    | Timeout => exact accepted_later h
    | Unavailable => exact h.elim

/-- The outcome of a call that leaves is what its standing says. -/
theorem Leaves.outcome {call : Execute σ α} {metrics : PersistenceMetrics}
    {result : Except PersistenceError α} (h : s.Leaves call metrics result)
    (hstanding : s.Standing events id call) : Outcome events id result := by
  cases h with
  | disconnected work hgone => exact .inl hstanding
  | full work hfull => exact hstanding
  | answered r => exact hstanding.2
  | dropped => exact .inr hstanding.2
  | timed_out reply => exact hstanding.1

end Later

/-! ### Delivery -/

theorem lookup_deliver (reply : PersistenceReply α) (calls : Map ℕ (Execute σ α)) (id k : ℕ) :
    (deliver reply calls id).lookup k =
      if k = id then (calls.lookup k).map (Execute.answer reply) else calls.lookup k := by
  rw [deliver]
  cases hcall : calls.lookup id with
  | none =>
    dsimp only
    by_cases hk : k = id
    · rw [if_pos hk, hk, hcall, Option.map_none]
    · rw [if_neg hk]
  | some call =>
    dsimp only
    rw [AList.lookup_insert_of]
    by_cases hk : k = id
    · rw [if_pos hk, if_pos hk, hk, hcall, Option.map_some]
    · rw [if_neg hk, if_neg hk]

theorem lookup_deliver_all (reply : PersistenceReply α) (ids : List ℕ)
    (calls : Map ℕ (Execute σ α)) (k : ℕ) :
    (ids.foldl (deliver reply) calls).lookup k =
      if k ∈ ids then (calls.lookup k).map (Execute.answer reply) else calls.lookup k := by
  induction ids generalizing calls with
  | nil => simp
  | cons id ids ih =>
    rw [List.foldl_cons, ih, lookup_deliver]
    by_cases hk : k = id
    · rw [if_pos hk, if_pos (List.mem_cons.mpr (.inl hk)), Option.map_map]
      have htwice : Execute.answer reply ∘ Execute.answer reply =
          (Execute.answer reply : Execute σ α → Execute σ α) :=
        funext (Execute.answer_answer reply)
      rw [htwice, ite_self]
    · rw [if_neg hk]
      simp only [List.mem_cons, hk, false_or]

/-! ### The steps -/

section Steps

variable {id : ℕ}

/-- A step that shows nothing of calls or works and keeps what waits. -/
theorem Tracked.frame (h : Tracked s events) (hcalls : s'.calls = s.calls)
    (hnext : s'.next_call = s.next_call) (hpending : s'.pending = s.pending)
    (haccepted : accepted new = []) (hended : ended new = []) (hreturned : returned new = []) :
    Tracked s' (events ++ new) := by
  have hnew : ∀ id, id ∉ (accepted new).map Prod.fst := by simp [haccepted]
  have hends : ended (events ++ new) = ended events := by
    rw [ended_append, hended, List.append_nil]
  refine ⟨?_, ?_, ?_, ?_, ?_, ?_⟩
  · intro id call hcall
    rw [hcalls] at hcall
    obtain ⟨hissued, hgone, hstanding⟩ := h.calls hcall
    rw [hnext, hends]
    exact ⟨hissued, hgone, hstanding.later (hnew id) (by rw [hpending]; exact fun hmem => hmem)⟩
  · rw [hnext, hends]
    exact h.ended_issued
  · rw [hnext, accepted_append, haccepted, List.append_nil]
    exact h.accepted_issued
  · rw [hends]
    exact h.ended_once
  · rw [accepted_append, haccepted, List.append_nil]
    exact h.accepted_once
  · intro id result hr
    rw [returned_append, hreturned, List.append_nil] at hr
    obtain ⟨hmem, houtcome⟩ := h.outcome hr
    rw [hends]
    exact ⟨hmem, houtcome.later (hnew id)⟩

/-- A call that comes to its end. -/
theorem Tracked.ends (h : Tracked s events) (hissued : id < s'.next_call)
    (hgone : id ∉ ended events)
    (hcalls : ∀ {k call}, s'.calls.lookup k = some call → k ≠ id ∧ s.calls.lookup k = some call)
    (hnext : s.next_call ≤ s'.next_call) (hpending : s'.pending = s.pending)
    (hended : ended new = [id]) (haccepted : accepted new = [])
    (houtcome : ∀ {k result}, (k, result) ∈ returned new → k = id ∧ Outcome events id result) :
    Tracked s' (events ++ new) := by
  have hnew : ∀ k, k ∉ (accepted new).map Prod.fst := by simp [haccepted]
  have hends : ended (events ++ new) = ended events ++ [id] := by rw [ended_append, hended]
  refine ⟨?_, ?_, ?_, ?_, ?_, ?_⟩
  · intro k call hcall
    obtain ⟨hne, hcall⟩ := hcalls hcall
    obtain ⟨hk, hkgone, hstanding⟩ := h.calls hcall
    refine ⟨lt_of_lt_of_le hk hnext, ?_,
      hstanding.later (hnew k) (by rw [hpending]; exact fun hmem => hmem)⟩
    rw [hends, List.mem_append, List.mem_singleton]
    exact not_or.mpr ⟨hkgone, hne⟩
  · intro k hk
    rw [hends, List.mem_append, List.mem_singleton] at hk
    rcases hk with hk | rfl
    · exact lt_of_lt_of_le (h.ended_issued hk) hnext
    · exact hissued
  · rw [accepted_append, haccepted, List.append_nil]
    exact fun hmem => lt_of_lt_of_le (h.accepted_issued hmem) hnext
  · rw [hends]
    exact List.nodup_append.mpr ⟨h.ended_once, List.nodup_singleton id, by
      intro a ha b hb
      rw [List.mem_singleton.mp hb]
      rintro rfl
      exact hgone ha⟩
  · rw [accepted_append, haccepted, List.append_nil]
    exact h.accepted_once
  · intro k result hr
    rw [returned_append, List.mem_append] at hr
    rw [hends]
    rcases hr with hr | hr
    · obtain ⟨hmem, hbefore⟩ := h.outcome hr
      exact ⟨List.mem_append_left _ hmem, hbefore.later (hnew k)⟩
    · obtain ⟨rfl, hnow⟩ := houtcome hr
      exact ⟨List.mem_append_right _ (List.mem_singleton_self k), hnow.later (hnew k)⟩

theorem Tracked.leave (h : Tracked s events) {call : Execute σ α}
    (hcall : s.calls.lookup id = some call) (metrics : PersistenceMetrics)
    (hended : ended new = [id]) (haccepted : accepted new = [])
    (houtcome : ∀ {k result}, (k, result) ∈ returned new → k = id ∧ Outcome events id result) :
    Tracked (s.leave id metrics) (events ++ new) := by
  obtain ⟨hissued, hgone, -⟩ := h.calls hcall
  refine h.ends hissued hgone ?_ (le_refl s.next_call) rfl hended haccepted houtcome
  intro k call' hcall'
  change (s.calls.erase id).lookup k = some call' at hcall'
  refine ⟨?_, AList.lookup_of_erase hcall'⟩
  rintro rfl
  rw [AList.lookup_erase] at hcall'
  contradiction

/-- A call that finds no sender ends at once. -/
theorem Tracked.refused (h : Tracked s events) (metrics : PersistenceMetrics) :
    Tracked { s with next_call := s.next_call + 1, metrics := metrics }
      (events ++ [.returned s.next_call (.error .Closed)]) := by
  refine h.ends (Nat.lt_succ_self _) (fun hmem => lt_irrefl _ (h.ended_issued hmem)) ?_
    (Nat.le_succ _) rfl rfl rfl ?_
  · intro k call hcall
    exact ⟨(h.calls hcall).1.ne, hcall⟩
  · intro k result hr
    obtain ⟨rfl, rfl⟩ := Prod.mk.inj (List.mem_singleton.mp hr)
    exact ⟨rfl, .inl fun hmem => lt_irrefl _ (h.accepted_issued hmem)⟩

/-- A work that ends: its call is answered, if it is still there. -/
theorem Tracked.finished (h : Tracked s events) {work : Work σ α} (reply : PersistenceReply α)
    (hbusy : s.worker = .busy id work) (hworker : s'.worker.current = [])
    (hqueue : s'.queue = s.queue) (hcalls : s'.calls = deliver reply s.calls id)
    (hnext : s'.next_call = s.next_call) {result : Option α}
    (hreply : s'.Says (events ++ [.ran id result]) id reply) :
    Tracked s' (events ++ [.ran id result]) := by
  have hends : ended (events ++ [.ran id result]) = ended events := by
    rw [ended_append]
    exact List.append_nil _
  have haccepted : accepted (events ++ [.ran id result]) = accepted events := by
    rw [accepted_append]
    exact List.append_nil _
  have hreturned : returned (events ++ [.ran id result]) = returned events := by
    rw [returned_append]
    exact List.append_nil _
  have hnew : ∀ k, k ∉ (accepted [(OwnerEvent.ran id result : OwnerEvent σ α)]).map Prod.fst := by
    simp [accepted, OwnerEvent.accepted?]
  refine ⟨?_, ?_, ?_, ?_, ?_, ?_⟩
  -- its call has the reply now, the others stand as before
  · intro k call hcall
    rw [hcalls, lookup_deliver] at hcall
    rw [hnext, hends]
    by_cases hk : k = id
    · rw [if_pos hk] at hcall
      obtain ⟨old, hold, rfl⟩ := Option.map_eq_some_iff.mp hcall
      obtain ⟨hissued, hgone, hstanding⟩ := h.calls hold
      subst hk
      exact ⟨hissued, hgone, hstanding.answered (hnew k) hreply⟩
    · rw [if_neg hk] at hcall
      obtain ⟨hissued, hgone, hstanding⟩ := h.calls hcall
      refine ⟨hissued, hgone, hstanding.later (hnew k) ?_⟩
      rw [pending, pending, hbusy, hworker, hqueue, Worker.current]
      intro hmem
      simpa [hk] using hmem
  · rw [hnext, hends]
    exact h.ended_issued
  · rw [hnext, haccepted]
    exact h.accepted_issued
  · rw [hends]
    exact h.ended_once
  · rw [haccepted]
    exact h.accepted_once
  · intro k r hr
    rw [hreturned] at hr
    obtain ⟨hmem, houtcome⟩ := h.outcome hr
    rw [hends]
    exact ⟨hmem, houtcome.later (hnew k)⟩

theorem Tracked.opens (h : Tracked s events) (work : Work σ α) :
    Tracked { s with
      calls := s.calls.insert s.next_call (.cloned work)
      next_call := s.next_call + 1 } events := by
  refine ⟨?_, ?_, ?_, h.ended_once, h.accepted_once, h.outcome⟩
  · intro k call hcall
    rcases AList.of_lookup_insert hcall with hcall | ⟨rfl, rfl⟩
    · obtain ⟨hissued, hgone, hstanding⟩ := h.calls hcall
      exact ⟨Nat.lt_succ_of_lt hissued, hgone, hstanding.same rfl⟩
    · exact ⟨Nat.lt_succ_self _, fun hmem => lt_irrefl _ (h.ended_issued hmem),
        fun hmem => lt_irrefl _ (h.accepted_issued hmem)⟩
  · exact fun hmem => Nat.lt_succ_of_lt (h.ended_issued hmem)
  · exact fun hmem => Nat.lt_succ_of_lt (h.accepted_issued hmem)

/-- A work that is let into the channel. -/
theorem Tracked.accepts (h : Tracked s events) {work : Work σ α}
    (hcall : s.calls.lookup id = some (.cloned work)) :
    Tracked { s with
      queue := s.queue ++ [(id, work)]
      calls := s.calls.insert id (.queued .pending) } (events ++ [.accepted id work]) := by
  have hends : ended (events ++ [.accepted id work]) = ended events := by
    rw [ended_append]
    exact List.append_nil _
  have haccepted : (accepted (events ++ [.accepted id work])).map Prod.fst =
      (accepted events).map Prod.fst ++ [id] := by
    rw [accepted_append, List.map_append]
    rfl
  have hreturned : returned (events ++ [.accepted id work]) = returned events := by
    rw [returned_append]
    exact List.append_nil _
  have hnew : ∀ k, k ≠ id → k ∉ (accepted [OwnerEvent.accepted id work]).map Prod.fst :=
    fun k hk hmem => hk (List.mem_singleton.mp hmem)
  obtain ⟨hissued, hgone, hstanding⟩ := h.calls hcall
  refine ⟨?_, ?_, ?_, ?_, ?_, ?_⟩
  · intro k call hk
    change (s.calls.insert id (.queued .pending)).lookup k = some call at hk
    rw [hends]
    rw [AList.lookup_insert_of] at hk
    by_cases hid : k = id
    · rw [if_pos hid, Option.some.injEq] at hk
      subst hid hk
      refine ⟨hissued, hgone, ?_, ?_⟩
      · rw [haccepted]
        exact List.mem_append_right _ (List.mem_singleton_self k)
      · refine List.mem_map.mpr ⟨(k, work), ?_, rfl⟩
        exact List.mem_append_right _ (List.mem_append_right _ (List.mem_singleton_self _))
    · rw [if_neg hid] at hk
      obtain ⟨hk, hkgone, hkstanding⟩ := h.calls hk
      refine ⟨hk, hkgone, hkstanding.later (hnew k hid) ?_⟩
      rw [pending, pending, ← List.append_assoc]
      intro hmem
      rw [List.map_append]
      exact List.mem_append_left _ hmem
  · rw [hends]
    exact h.ended_issued
  · intro k hk
    rw [haccepted, List.mem_append, List.mem_singleton] at hk
    rcases hk with hk | rfl
    · exact h.accepted_issued hk
    · exact hissued
  · rw [hends]
    exact h.ended_once
  -- a call that is only cloned was not accepted before
  · rw [haccepted]
    exact List.nodup_append.mpr ⟨h.accepted_once, List.nodup_singleton id, by
      intro a ha b hb
      rw [List.mem_singleton.mp hb]
      rintro rfl
      exact hstanding ha⟩
  · intro k result hr
    rw [hreturned] at hr
    obtain ⟨hmem, houtcome⟩ := h.outcome hr
    rw [hends]
    refine ⟨hmem, houtcome.later (hnew k ?_)⟩
    rintro rfl
    exact hgone hmem

theorem Tracked.submits (h : Tracked s events) {reply : PersistenceReply α}
    (metrics : PersistenceMetrics)
    (hcall : s.calls.lookup id = some (.queued reply)) :
    Tracked { s with calls := s.calls.insert id (.waiting reply), metrics := metrics } events := by
  refine ⟨?_, h.ended_issued, h.accepted_issued, h.ended_once, h.accepted_once, h.outcome⟩
  intro k call hk
  rcases AList.of_lookup_insert hk with hk | ⟨rfl, rfl⟩
  · obtain ⟨hissued, hgone, hstanding⟩ := h.calls hk
    exact ⟨hissued, hgone, hstanding.same rfl⟩
  · obtain ⟨hissued, hgone, hstanding⟩ := h.calls hcall
    have hwaiting : s.Standing events k (.waiting reply) := hstanding
    exact ⟨hissued, hgone, hwaiting.same rfl⟩

/-- The channel goes, and every call that waits for one of its works hears of it. -/
theorem Tracked.unwinds (h : Tracked s events) (hunwinding : s.worker = .unwinding) :
    Tracked s.unwind.1 (events ++ s.unwind.2) := by
  obtain ⟨haccepted, hran, hlost, hreturned, hended⟩ := s.unwind_seen
  have hnew : ∀ k, k ∉ (accepted s.unwind.2).map Prod.fst := by simp [haccepted]
  have hends : ended (events ++ s.unwind.2) = ended events := by
    rw [ended_append, hended, List.append_nil]
  have hpending : s.pending = s.queue := by
    rw [pending, hunwinding]
    rfl
  refine ⟨?_, ?_, ?_, ?_, ?_, ?_⟩
  · intro k call hcall
    change ((s.queue.map Prod.fst).foldl (deliver .dropped) s.calls).lookup k = some call at hcall
    rw [lookup_deliver_all] at hcall
    rw [hends]
    -- only the calls of works in the channel hear of it
    by_cases hk : k ∈ s.queue.map Prod.fst
    · rw [if_pos hk] at hcall
      obtain ⟨old, hold, rfl⟩ := Option.map_eq_some_iff.mp hcall
      obtain ⟨hissued, hgone, hstanding⟩ := h.calls hold
      refine ⟨hissued, hgone, hstanding.answered (hnew k) (.inr ?_)⟩
      rw [lost_append, hlost, List.map_append]
      exact List.mem_append_right _ hk
    · rw [if_neg hk] at hcall
      obtain ⟨hissued, hgone, hstanding⟩ := h.calls hcall
      refine ⟨hissued, hgone, hstanding.later (hnew k) fun hmem => ?_⟩
      rw [hpending] at hmem
      exact absurd hmem hk
  · rw [hends]
    exact h.ended_issued
  · rw [accepted_append, haccepted, List.append_nil]
    exact h.accepted_issued
  · rw [hends]
    exact h.ended_once
  · rw [accepted_append, haccepted, List.append_nil]
    exact h.accepted_once
  · intro k result hr
    rw [returned_append, hreturned, List.append_nil] at hr
    obtain ⟨hmem, houtcome⟩ := h.outcome hr
    rw [hends]
    exact ⟨hmem, houtcome.later (hnew k)⟩

theorem Tracked.step (h : Tracked s events) (hs : s.Steps label s' new) :
    Tracked s' (events ++ new) := by
  cases hs with
  | opens work hopen =>
    rw [List.append_nil]
    exact h.opens work
  | refused work hclosed => exact h.refused _
  | @leaves label id call metrics result hcall hleaves =>
    refine h.leave hcall metrics rfl rfl ?_
    intro k result' hr
    obtain ⟨rfl, rfl⟩ := Prod.mk.inj (List.mem_singleton.mp hr)
    exact ⟨rfl, hleaves.outcome (h.calls hcall).2.2⟩
  | accepts hcall halive hroom => exact h.accepts hcall
  | submits hcall =>
    rw [List.append_nil]
    exact h.submits _ hcall
  | cancels hcall => exact h.leave hcall _ rfl rfl (by simp [returned, OwnerEvent.returned?])
  | recv hidle hqueue =>
    refine h.frame rfl rfl ?_ rfl rfl rfl
    rw [pending, pending, hidle, hqueue]
    rfl
  | @runs id work result hbusy hresult =>
    refine h.finished (.sent result) hbusy ?_ ?_ ?_ ?_ ?_
    · rfl
    · rfl
    · rfl
    · rfl
    · rw [Says, ran_append]
      exact List.mem_append_right _ (List.mem_singleton_self _)
  | @panics id work hbusy hresult =>
    refine h.finished .dropped hbusy ?_ ?_ ?_ ?_ ?_
    · rfl
    · rfl
    · rfl
    · rfl
    · rw [Says, ran_append]
      exact .inl (List.mem_append_right _ (List.mem_singleton_self _))
  | unwinds hunwinding => exact h.unwinds hunwinding
  | exits hidle hqueue hclosed hcalls =>
    refine h.frame rfl rfl ?_ rfl rfl rfl
    rw [pending, pending, hidle]
    rfl
  | control hcontrol =>
    obtain ⟨haccepted, -, -, hreturned, hended⟩ := hcontrol.seen
    have hsame := hcontrol.same_service
    refine h.frame hsame.calls hsame.next_call ?_ haccepted hended hreturned
    rw [pending, pending, hsame.worker, hsame.queue]

end Steps

end PersistenceOwner

end StreamGuard.Gateway
