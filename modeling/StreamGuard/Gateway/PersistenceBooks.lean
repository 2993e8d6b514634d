/-
What a run of the persistence owner keeps beside the order of its works.

Each call is counted under its one outcome (`Counted`), a worker that left its loop left
nothing behind (`Shut`), and call number `i` brings the work of the `i`-th `execute`
(`Numbered`). `Serial` has all that every run keeps.
-/
import StreamGuard.Gateway.PersistenceRuns

set_option autoImplicit false

namespace StreamGuard.Gateway

open StreamGuard StreamGuard.Lib

variable {σ α : Type*}

namespace PersistenceOwner

variable {s s' : PersistenceOwner σ α} {label : OwnerLabel σ α}
  {events new : List (OwnerEvent σ α)} {store : σ}

/-! ## The counters -/

/-- The call failed with this error. -/
def fails (e : PersistenceError) (r : ℕ × Except PersistenceError α) : Bool :=
  match r.2 with
  | .error e' => decide (e' = e)
  | .ok _ => false

def succeeds (r : ℕ × Except PersistenceError α) : Bool := r.2.isOk

/-- One where the work of the call is in the channel and not counted. -/
def uncounted : Execute σ α → ℕ
  | .queued _ => 1
  | .cloned _ | .waiting _ => 0

/-- Every outcome is counted under its name, and every call is open or has one. -/
structure Counted (s : PersistenceOwner σ α) (events : List (OwnerEvent σ α)) : Prop where
  submitted : s.metrics.submitted + s.calls.sum (fun _ call => uncounted call) =
    (accepted events).length
  completed : s.metrics.completed = (returned events).countP succeeds
  full_dropped : s.metrics.full_dropped = (returned events).countP (fails .Full)
  timed_out : s.metrics.timed_out = (returned events).countP (fails .Timeout)
  closed : s.metrics.closed = (returned events).countP (fails .Closed)
  calls : s.next_call = (ended events).length + s.calls.len

theorem start_counted (config : PersistenceConfig) (store : σ) :
    Counted (start config store : PersistenceOwner σ α) [] :=
  ⟨rfl, rfl, rfl, rfl, rfl, rfl⟩

/-- A delivery changes no stage. -/
theorem sum_deliver {f : Execute σ α → ℕ} {reply : PersistenceReply α}
    (hf : ∀ call, f (Execute.answer reply call) = f call) (calls : Map ℕ (Execute σ α)) (id : ℕ) :
    (deliver reply calls id).sum (fun _ call => f call) = calls.sum (fun _ call => f call) := by
  rw [deliver]
  cases hcall : calls.lookup id with
  | none => rfl
  | some call =>
    have hsum := AList.sum_insert_add (w := call.answer reply) (fun _ call => f call) hcall
    rw [hf] at hsum
    exact Nat.add_left_cancel hsum

theorem uncounted_answer (reply : PersistenceReply α) (call : Execute σ α) :
    uncounted (call.answer reply) = uncounted call := by
  cases call with
  | _ => rfl

theorem len_deliver (reply : PersistenceReply α) (calls : Map ℕ (Execute σ α)) (id : ℕ) :
    (deliver reply calls id).len = calls.len := by
  rw [deliver]
  cases hcall : calls.lookup id with
  | none => rfl
  | some call => exact AList.len_insert_of_mem (AList.mem_of_lookup hcall)

theorem deliver_all_stages (reply : PersistenceReply α) (ids : List ℕ)
    (calls : Map ℕ (Execute σ α)) :
    (ids.foldl (deliver reply) calls).sum (fun _ call => uncounted call) =
        calls.sum (fun _ call => uncounted call) ∧
      (ids.foldl (deliver reply) calls).len = calls.len := by
  induction ids generalizing calls with
  | nil => exact ⟨rfl, rfl⟩
  | cons id ids ih =>
    obtain ⟨hsum, hlen⟩ := ih (deliver reply calls id)
    exact ⟨hsum.trans (sum_deliver (uncounted_answer reply) calls id),
      hlen.trans (len_deliver reply calls id)⟩

/-- A step that shows nothing of the calls, and keeps their number and stages. -/
theorem Counted.frame (h : Counted s events) (haccepted : accepted new = [])
    (hreturned : returned new = []) (hended : ended new = [])
    (hsum : s'.calls.sum (fun _ call => uncounted call) =
      s.calls.sum (fun _ call => uncounted call))
    (hlen : s'.calls.len = s.calls.len) (hnext : s'.next_call = s.next_call)
    (hmetrics : ∃ timeouts, s'.metrics = { s.metrics with shutdown_timed_out := timeouts }) :
    Counted s' (events ++ new) := by
  obtain ⟨timeouts, hmetrics⟩ := hmetrics
  refine ⟨?_, ?_, ?_, ?_, ?_, ?_⟩
  · rw [accepted_append, haccepted, List.append_nil, hsum, hmetrics]
    exact h.submitted
  · rw [returned_append, hreturned, List.append_nil, hmetrics]
    exact h.completed
  · rw [returned_append, hreturned, List.append_nil, hmetrics]
    exact h.full_dropped
  · rw [returned_append, hreturned, List.append_nil, hmetrics]
    exact h.timed_out
  · rw [returned_append, hreturned, List.append_nil, hmetrics]
    exact h.closed
  · rw [ended_append, hended, List.append_nil, hlen, hnext]
    exact h.calls

/-- What a result adds to the counters. -/
structure Counts (m m' : PersistenceMetrics) (r : ℕ × Except PersistenceError α) : Prop where
  submitted : m'.submitted = m.submitted
  completed : m'.completed = m.completed + (succeeds r).toNat
  full_dropped : m'.full_dropped = m.full_dropped + (fails .Full r).toNat
  timed_out : m'.timed_out = m.timed_out + (fails .Timeout r).toNat
  closed : m'.closed = m.closed + (fails .Closed r).toNat

theorem Leaves.counts {call : Execute σ α} {metrics : PersistenceMetrics}
    {result : Except PersistenceError α} (h : s.Leaves call metrics result) (id : ℕ) :
    Counts s.metrics metrics (id, result) := by
  cases h with
  | _ => exact ⟨rfl, rfl, rfl, rfl, rfl⟩

/-- No call leaves before it is counted. -/
theorem Leaves.uncounted_eq {call : Execute σ α} {metrics : PersistenceMetrics}
    {result : Except PersistenceError α} (h : s.Leaves call metrics result) :
    uncounted call = 0 := by
  cases h with
  | _ => rfl

theorem countP_concat {β : Type*} (p : β → Bool) (l : List β) (b : β) :
    (l ++ [b]).countP p = l.countP p + (p b).toNat := by
  rw [List.countP_append]
  cases hb : p b with
  | false => simp [hb]
  | true => simp [hb]

/-- A call that returns is counted under its result. -/
theorem Counted.returns (h : Counted s events) {id : ℕ} {result : Except PersistenceError α}
    (hcounts : Counts s.metrics s'.metrics (id, result))
    (hsum : s'.calls.sum (fun _ call => uncounted call) =
      s.calls.sum (fun _ call => uncounted call))
    (hcalls : s'.next_call + s.calls.len = s.next_call + 1 + s'.calls.len) :
    Counted s' (events ++ [.returned id result]) := by
  have hreturned : returned (events ++ [.returned id result]) = returned events ++ [(id, result)] :=
    returned_append
  have haccepted : accepted (events ++ [.returned id result]) = accepted events := by
    rw [accepted_append]
    exact List.append_nil _
  have hended : ended (events ++ [.returned id result]) = ended events ++ [id] := ended_append
  refine ⟨?_, ?_, ?_, ?_, ?_, ?_⟩
  · rw [haccepted, hsum, hcounts.submitted]
    exact h.submitted
  · rw [hreturned, countP_concat, hcounts.completed, h.completed]
  · rw [hreturned, countP_concat, hcounts.full_dropped, h.full_dropped]
  · rw [hreturned, countP_concat, hcounts.timed_out, h.timed_out]
  · rw [hreturned, countP_concat, hcounts.closed, h.closed]
  · rw [hended, List.length_append, List.length_singleton]
    have hbefore := h.calls
    omega

theorem Counted.step (h : Counted s events) (htracked : Tracked s events)
    (hs : s.Steps label s' new) : Counted s' (events ++ new) := by
  cases hs with
  | opens work hopen =>
    -- numbers are given out once
    have hnew : s.next_call ∉ s.calls := by
      intro hmem
      obtain ⟨call, hcall⟩ := AList.mem_iff_lookup.mp hmem
      exact lt_irrefl _ (htracked.calls hcall).1
    rw [List.append_nil]
    refine ⟨?_, h.completed, h.full_dropped, h.timed_out, h.closed, ?_⟩
    · dsimp only
      rw [AList.sum_insert_of_notMem _ _ hnew, uncounted, Nat.zero_add]
      exact h.submitted
    · dsimp only
      rw [AList.len_insert_of_notMem hnew, h.calls, Nat.add_assoc]
  | refused work hclosed =>
    refine h.returns ⟨rfl, rfl, rfl, rfl, rfl⟩ rfl ?_
    rfl
  | @leaves label id call metrics result hcall hleaves =>
    have hsum := AList.sum_erase (fun _ call => uncounted call) hcall
    have hlen := AList.len_erase (AList.mem_of_lookup hcall)
    rw [hleaves.uncounted_eq, Nat.zero_add] at hsum
    refine h.returns (hleaves.counts id) hsum ?_
    change s.next_call + s.calls.len = s.next_call + 1 + (s.calls.erase id).len
    omega
  | @accepts id work hcall halive hroom =>
    -- in the channel, and not among the submitted yet
    have hsum := AList.sum_insert_add (w := .queued .pending) (fun _ call => uncounted call) hcall
    rw [uncounted, uncounted, Nat.zero_add] at hsum
    have haccepted : (accepted (events ++ [.accepted id work])).length =
        (accepted events).length + 1 := by
      rw [accepted_append, List.length_append]
      rfl
    have hreturned : returned (events ++ [.accepted id work]) = returned events := by
      rw [returned_append]
      exact List.append_nil _
    have hended : ended (events ++ [.accepted id work]) = ended events := by
      rw [ended_append]
      exact List.append_nil _
    refine ⟨?_, ?_, ?_, ?_, ?_, ?_⟩
    · rw [haccepted, ← h.submitted]
      dsimp only
      omega
    · rw [hreturned]
      exact h.completed
    · rw [hreturned]
      exact h.full_dropped
    · rw [hreturned]
      exact h.timed_out
    · rw [hreturned]
      exact h.closed
    · rw [hended]
      dsimp only
      rw [AList.len_insert_of_mem (AList.mem_of_lookup hcall)]
      exact h.calls
  | @submits id reply hcall =>
    have hsum := AList.sum_insert_add (w := .waiting reply) (fun _ call => uncounted call) hcall
    rw [uncounted, uncounted, Nat.zero_add] at hsum
    have hsubmitted := h.submitted
    rw [List.append_nil]
    refine ⟨?_, h.completed, h.full_dropped, h.timed_out, h.closed, ?_⟩
    · dsimp only
      omega
    · dsimp only
      rw [AList.len_insert_of_mem (AList.mem_of_lookup hcall)]
      exact h.calls
  | @cancels id reply hcall =>
    have hsum := AList.sum_erase (fun _ call => uncounted call) hcall
    have hlen := AList.len_erase (AList.mem_of_lookup hcall)
    rw [uncounted, Nat.zero_add] at hsum
    have hended : ended (events ++ [.cancelled id]) = ended events ++ [id] := ended_append
    have haccepted : accepted (events ++ [.cancelled id]) = accepted events := by
      rw [accepted_append]
      exact List.append_nil _
    have hreturned : returned (events ++ [.cancelled id]) = returned events := by
      rw [returned_append]
      exact List.append_nil _
    refine ⟨?_, ?_, ?_, ?_, ?_, ?_⟩
    · rw [haccepted, ← h.submitted]
      exact congrArg (s.metrics.submitted + ·) hsum
    · rw [hreturned]
      exact h.completed
    · rw [hreturned]
      exact h.full_dropped
    · rw [hreturned]
      exact h.timed_out
    · rw [hreturned]
      exact h.closed
    · rw [hended, List.length_append, List.length_singleton]
      change s.next_call = (ended events).length + 1 + (s.calls.erase id).len
      have hcalls := h.calls
      omega
  | recv | exits => exact h.frame rfl rfl rfl rfl rfl rfl ⟨_, rfl⟩
  | @runs id work result hbusy hresult =>
    exact h.frame rfl rfl rfl (sum_deliver (uncounted_answer _) s.calls id)
      (len_deliver _ s.calls id) rfl ⟨_, rfl⟩
  | @panics id work hbusy hresult =>
    exact h.frame rfl rfl rfl (sum_deliver (uncounted_answer _) s.calls id)
      (len_deliver _ s.calls id) rfl ⟨_, rfl⟩
  | unwinds hunwinding =>
    obtain ⟨haccepted, -, -, hreturned, hended⟩ := s.unwind_seen
    obtain ⟨hsum, hlen⟩ := deliver_all_stages .dropped (s.queue.map Prod.fst) s.calls
    exact h.frame haccepted hreturned hended hsum hlen rfl ⟨_, rfl⟩
  | control hcontrol =>
    obtain ⟨haccepted, -, -, hreturned, hended⟩ := hcontrol.seen
    have hsame := hcontrol.same_service
    refine h.frame haccepted hreturned hended (by rw [hsame.calls]) (by rw [hsame.calls])
      hsame.next_call ?_
    cases hcontrol with
    | _ => exact ⟨_, rfl⟩

/-! ## Shutdown -/

/-- Once the handle is out of the owner no new call gets a sender, and a worker that left
its loop left nothing behind. -/
structure Shut (s : PersistenceOwner σ α) (events : List (OwnerEvent σ α)) : Prop where
  exited : s.worker = .exited → s.tx = false ∧ s.calls = ∅ ∧ s.queue = []
  closed : s.handle ≠ .held ∨ s.closing ≠ 0 ∨ s.alive = false → s.tx = false
  joined : .stopped true ∈ events → s.worker = .exited
  timeouts : s.metrics.shutdown_timed_out ≤ if s.handle = .taken then 1 else 0

theorem start_shut (config : PersistenceConfig) (store : σ) :
    Shut (start config store : PersistenceOwner σ α) [] := by
  refine ⟨by simp [start], by simp [start], by simp, by simp [start]⟩

/-- Nothing happens to a worker that left its loop. -/
theorem Shut.frame (h : Shut s events) (hworker : s.worker ≠ .exited)
    (hnew : OwnerEvent.stopped true ∉ new) (hworker' : s'.worker ≠ .exited)
    (htx : s'.tx = s.tx) (hhandle : s'.handle = s.handle) (hclosing : s'.closing = s.closing)
    (halive : s'.alive = s.alive)
    (htimeouts : s'.metrics.shutdown_timed_out = s.metrics.shutdown_timed_out) :
    Shut s' (events ++ new) := by
  refine ⟨fun hexited => absurd hexited hworker', ?_, ?_, ?_⟩
  · rw [htx, hhandle, hclosing, halive]
    exact h.closed
  · intro hmem
    rcases List.mem_append.mp hmem with hmem | hmem
    · exact absurd (h.joined hmem) hworker
    · exact absurd hmem hnew
  · rw [htimeouts, hhandle]
    exact h.timeouts

theorem Shut.calls_ne (h : Shut s events) {id : ℕ} {call : Execute σ α}
    (hcall : s.calls.lookup id = some call) : s.worker ≠ .exited := by
  intro hexited
  rw [(h.exited hexited).2.1] at hcall
  simp at hcall

theorem Shut.control (h : Shut s events) (hs : s.Control s' new) : Shut s' (events ++ new) := by
  have hold : ∀ {b}, OwnerEvent.stopped true ∈ events ++ [.stopped b] → b = false →
      s.worker = .exited := by
    intro b hmem hb
    rcases List.mem_append.mp hmem with hmem | hmem
    · exact h.joined hmem
    · rw [List.mem_singleton, hb] at hmem
      simp at hmem
  have htimeouts := h.timeouts
  cases hs with
  | stop =>
    rw [List.append_nil]
    exact ⟨fun hexited => ⟨rfl, (h.exited hexited).2⟩, fun _ => rfl, h.joined, htimeouts⟩
  | take_handle hclosing hheld =>
    rw [List.append_nil]
    have hclosed := h.closed (.inr (.inl (by omega)))
    refine ⟨h.exited, fun _ => hclosed, h.joined, ?_⟩
    rw [hheld] at htimeouts
    exact htimeouts
  | nothing_to_join hclosing hheld =>
    exact ⟨h.exited, fun _ => h.closed (.inl hheld), fun hmem => hold hmem rfl, htimeouts⟩
  | joined hjoining hexited =>
    have hclosed := h.closed (.inl (by rw [hjoining]; simp))
    refine ⟨h.exited, fun _ => hclosed, fun _ => hexited, ?_⟩
    rw [hjoining] at htimeouts
    exact le_trans htimeouts (Nat.zero_le _)
  | unjoined hjoining =>
    have hclosed := h.closed (.inl (by rw [hjoining]; simp))
    refine ⟨h.exited, fun _ => hclosed, fun hmem => hold hmem rfl, ?_⟩
    rw [hjoining] at htimeouts
    -- there is one join at most
    exact Nat.succ_le_succ htimeouts
  | abandoned hjoining =>
    have hclosed := h.closed (.inl (by rw [hjoining]; simp))
    rw [List.append_nil]
    refine ⟨h.exited, fun _ => hclosed, h.joined, ?_⟩
    rw [hjoining] at htimeouts
    exact le_trans htimeouts (Nat.zero_le _)
  | drop hidle =>
    rw [List.append_nil]
    refine ⟨fun hexited => ⟨rfl, (h.exited hexited).2⟩, fun _ => rfl, h.joined, ?_⟩
    refine le_trans htimeouts ?_
    split
    · exact le_refl 1
    · exact Nat.zero_le _

theorem Leaves.timeouts {call : Execute σ α} {metrics : PersistenceMetrics}
    {result : Except PersistenceError α} (h : s.Leaves call metrics result) :
    metrics.shutdown_timed_out = s.metrics.shutdown_timed_out := by
  cases h with
  | _ => rfl

theorem Shut.step (h : Shut s events) (hs : s.Steps label s' new) : Shut s' (events ++ new) := by
  cases hs with
  | opens work hopen =>
    -- a worker leaves after the sender, so it could not be cloned
    have hworker : s.worker ≠ .exited := by
      intro hexited
      rw [(h.exited hexited).1] at hopen
      contradiction
    exact h.frame hworker (by simp) hworker rfl rfl rfl rfl rfl
  | refused work hclosed =>
    refine ⟨h.exited, h.closed, ?_, h.timeouts⟩
    intro hmem
    exact h.joined (by simpa using hmem)
  | leaves hcall hleaves =>
    exact h.frame (h.calls_ne hcall) (by simp) (h.calls_ne hcall) rfl rfl rfl rfl hleaves.timeouts
  | accepts hcall halive hroom =>
    exact h.frame (h.calls_ne hcall) (by simp) (h.calls_ne hcall) rfl rfl rfl rfl rfl
  | submits hcall =>
    exact h.frame (h.calls_ne hcall) (by simp) (h.calls_ne hcall) rfl rfl rfl rfl rfl
  | cancels hcall =>
    exact h.frame (h.calls_ne hcall) (by simp) (h.calls_ne hcall) rfl rfl rfl rfl rfl
  | recv hidle hqueue =>
    exact h.frame (by rw [hidle]; simp) (by simp) (by simp) rfl rfl rfl rfl rfl
  | runs hbusy hresult =>
    exact h.frame (by rw [hbusy]; simp) (by simp) (by simp) rfl rfl rfl rfl rfl
  | panics hbusy hresult =>
    exact h.frame (by rw [hbusy]; simp) (by simp) (by simp) rfl rfl rfl rfl rfl
  | unwinds hunwinding =>
    refine h.frame (by rw [hunwinding]; simp) ?_ (by simp [unwind]) rfl rfl rfl rfl rfl
    intro hmem
    obtain ⟨w, -, hw⟩ := List.mem_map.mp hmem
    contradiction
  | exits hidle hqueue hclosed hcalls =>
    rw [List.append_nil]
    exact ⟨fun _ => ⟨hclosed, hcalls, hqueue⟩, h.closed, fun _ => rfl, h.timeouts⟩
  | control hcontrol => exact h.control hcontrol

/-! ## Runs -/

/-- What holds after every run. -/
structure Serial (store : σ) (s : PersistenceOwner σ α) (events : List (OwnerEvent σ α)) :
    Prop where
  orderly : Orderly store s events
  tracked : Tracked s events
  counted : Counted s events
  shut : Shut s events

theorem Serial.step (h : Serial store s events) (hs : s.step label = some (s', new)) :
    Serial store s' (events ++ new) := by
  have hsteps := step_steps hs
  exact ⟨h.orderly.step hsteps, h.tracked.step hsteps, h.counted.step h.tracked hsteps,
    h.shut.step hsteps⟩

theorem Serial.run (h : Serial store s events) {labels : List (OwnerLabel σ α)}
    (hrun : exec PersistenceOwner.step s labels = some (s', new)) :
    Serial store s' (events ++ new) :=
  exec_along_induct (C := fun _ _ => True) (P := Serial store)
    (fun _ _ _ _ _ h _ hs => h.step hs) h (along_true _ _) hrun

theorem run_serial {config : PersistenceConfig} {labels : List (OwnerLabel σ α)}
    (hrun : exec PersistenceOwner.step (start config store) labels = some (s, events)) :
    Serial store s events := by
  have hstart : Serial store (start config store : PersistenceOwner σ α) [] :=
    ⟨start_orderly config store, start_tracked config store, start_counted config store,
      start_shut config store⟩
  simpa using hstart.run hrun

/-! ### The numbers of the calls -/

def executed? : OwnerLabel σ α → Option (Work σ α)
  | .execute work => some work
  | _ => none

/-- The works that `execute` is called with, in that order. -/
def executed (labels : List (OwnerLabel σ α)) : List (Work σ α) := labels.filterMap executed?

/-- The number of a call is its place among all calls. -/
structure Numbered (works : List (Work σ α)) (s : PersistenceOwner σ α)
    (events : List (OwnerEvent σ α)) : Prop where
  next_call : s.next_call = works.length
  cloned : ∀ {id work}, s.calls.lookup id = some (.cloned work) → works[id]? = some work
  accepted : ∀ {id work}, (id, work) ∈ accepted events → works[id]? = some work

/-- A step of another kind than `execute` that opens no call and accepts nothing. -/
theorem Numbered.frame {works : List (Work σ α)} (h : Numbered works s events)
    (haccepted : PersistenceOwner.accepted new = []) (hnext : s'.next_call = s.next_call)
    (hcloned : ∀ {id work}, s'.calls.lookup id = some (.cloned work) →
      s.calls.lookup id = some (.cloned work)) : Numbered works s' (events ++ new) := by
  refine ⟨hnext.trans h.next_call, fun hcall => h.cloned (hcloned hcall), ?_⟩
  rw [accepted_append, haccepted, List.append_nil]
  exact h.accepted

theorem answer_cloned {reply : PersistenceReply α} {call : Execute σ α} {work : Work σ α}
    (h : call.answer reply = .cloned work) : call = .cloned work := by
  cases call with
  | cloned work' => exact h
  | queued r | waiting r => contradiction

/-- A delivery turns no call back. -/
theorem deliver_all_cloned {reply : PersistenceReply α} (ids : List ℕ)
    {calls : Map ℕ (Execute σ α)} {id : ℕ} {call : Execute σ α}
    (h : (ids.foldl (deliver reply) calls).lookup id = some call) :
    ∃ old, calls.lookup id = some old ∧ ∀ work, call = .cloned work → old = .cloned work := by
  rw [lookup_deliver_all] at h
  split at h
  · obtain ⟨old, hold, rfl⟩ := Option.map_eq_some_iff.mp h
    exact ⟨old, hold, fun work hwork => answer_cloned hwork⟩
  · exact ⟨call, h, fun work hwork => hwork⟩

/-- Only `execute` opens a call. -/
theorem Numbered.other {works : List (Work σ α)} (h : Numbered works s events)
    (hlabel : executed? label = none) (hs : s.Steps label s' new) :
    Numbered works s' (events ++ new) := by
  have hdelivered : ∀ (ids : List ℕ) {reply : PersistenceReply α} {id : ℕ} {work : Work σ α},
      (ids.foldl (deliver reply) s.calls).lookup id = some (.cloned work) →
      s.calls.lookup id = some (.cloned work) := by
    intro ids reply id work hcall
    obtain ⟨old, hold, hsame⟩ := deliver_all_cloned ids hcall
    rw [hold, hsame work rfl]
  cases hs with
  | opens | refused => contradiction
  | leaves | cancels => exact h.frame rfl rfl AList.lookup_of_erase
  | @accepts id work hcall halive hroom =>
    refine ⟨h.next_call, ?_, ?_⟩
    · intro k work' hk
      rcases AList.of_lookup_insert hk with hk | ⟨-, hk⟩
      · exact h.cloned hk
      · contradiction
    · rw [accepted_append]
      intro k work' hk
      rcases List.mem_append.mp hk with hk | hk
      · exact h.accepted hk
      · obtain ⟨rfl, rfl⟩ := Prod.mk.inj (List.mem_singleton.mp hk)
        exact h.cloned hcall
  | @submits id reply hcall =>
    refine h.frame rfl rfl ?_
    intro k work hk
    rcases AList.of_lookup_insert hk with hk | ⟨-, hk⟩
    · exact hk
    · contradiction
  | recv | exits => exact h.frame rfl rfl fun hcall => hcall
  | @runs id | @panics id => exact h.frame rfl rfl fun hcall => hdelivered [id] hcall
  | unwinds hunwinding => exact h.frame s.unwind_seen.1 rfl fun hcall => hdelivered _ hcall
  | control hcontrol =>
    have hsame := hcontrol.same_service
    exact h.frame hcontrol.seen.1 hsame.next_call (by rw [hsame.calls]; exact fun hcall => hcall)

theorem Numbered.execute {works : List (Work σ α)} (h : Numbered works s events) (work : Work σ α) :
    Numbered (works ++ [work]) (s.execute work).1 (events ++ (s.execute work).2) := by
  have hold : ∀ {id : ℕ} {w : Work σ α}, works[id]? = some w → (works ++ [work])[id]? = some w := by
    intro id w hw
    rw [List.getElem?_append_left (List.getElem?_eq_some_iff.mp hw).1, hw]
  rw [PersistenceOwner.execute]
  split
  · refine ⟨by simp [h.next_call], ?_, ?_⟩
    · intro id w hcall
      rcases AList.of_lookup_insert hcall with hcall | ⟨rfl, hw⟩
      · exact hold (h.cloned hcall)
      · obtain rfl := Execute.cloned.inj hw
        rw [h.next_call]
        exact List.getElem?_concat_length
    · rw [List.append_nil]
      exact fun hmem => hold (h.accepted hmem)
  · refine ⟨by simp [h.next_call], fun hcall => hold (h.cloned hcall), ?_⟩
    rw [accepted_append]
    intro id w hmem
    exact hold (h.accepted (by simpa [PersistenceOwner.accepted, OwnerEvent.accepted?] using hmem))

theorem Numbered.run {works : List (Work σ α)} {labels : List (OwnerLabel σ α)}
    (h : Numbered works s events) (hrun : exec PersistenceOwner.step s labels = some (s', new)) :
    Numbered (works ++ executed labels) s' (events ++ new) := by
  induction labels generalizing s works events new with
  | nil =>
    obtain ⟨rfl, rfl⟩ := step_inj hrun
    rw [executed, List.filterMap_nil, List.append_nil, List.append_nil]
    exact h
  | cons label labels ih =>
    obtain ⟨t, seen, later, hs, hrest, rfl⟩ := exec_cons_eq_some.mp hrun
    rw [← List.append_assoc]
    cases hlabel : executed? label with
    | none =>
      rw [executed, List.filterMap_cons_none hlabel]
      exact ih (h.other hlabel (step_steps hs)) hrest
    | some work =>
      rw [executed, List.filterMap_cons_some hlabel, List.append_cons]
      refine ih ?_ hrest
      cases label with
      | execute work' =>
        obtain rfl := Option.some.inj hlabel
        rw [PersistenceOwner.step] at hs
        obtain ⟨-, hs⟩ := Option.ite_none_right_eq_some.mp hs
        obtain ⟨rfl, rfl⟩ := step_inj hs
        exact h.execute work'
      | _ => contradiction

/-- A work in the channel is the one its call came with. -/
theorem accepted_executed {config : PersistenceConfig} {labels : List (OwnerLabel σ α)} {id : ℕ}
    {work : Work σ α}
    (hrun : exec PersistenceOwner.step (start config store) labels = some (s, events))
    (hmem : (id, work) ∈ accepted events) : (executed labels)[id]? = some work := by
  have hstart : Numbered [] (start config store : PersistenceOwner σ α) [] := by
    refine ⟨rfl, ?_, ?_⟩
    · intro id work hcall
      simp [start] at hcall
    · intro id work hmem
      simp [PersistenceOwner.accepted] at hmem
  have hall := hstart.run hrun
  rw [List.nil_append, List.nil_append] at hall
  exact hall.accepted hmem

end PersistenceOwner

end StreamGuard.Gateway
