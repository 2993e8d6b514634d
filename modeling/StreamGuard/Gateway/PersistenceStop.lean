/-
What the persistence owner promises.

It serves accepted works as if one after another, tells callers the truth about them, and
counts each call once. A `stop` whose join came to its end has seen every accepted work run.
What is accepted is served without a step of any caller.
-/
import StreamGuard.Gateway.PersistenceBooks

set_option autoImplicit false

namespace StreamGuard.Gateway

open StreamGuard StreamGuard.Lib

variable {σ α : Type*}

namespace PersistenceOwner

variable {s s' : PersistenceOwner σ α} {label : OwnerLabel σ α}
  {events new : List (OwnerEvent σ α)} {store : σ} {config : PersistenceConfig}
  {labels more : List (OwnerLabel σ α)}

/-! ## The order of service -/

/-- The works that ran are as many as their results. -/
theorem Orderly.take_ran (h : Orderly store s events) :
    serve store ((accepted events).take (ran events).length) = (s.store, ran events) ∧
      (accepted events).drop (ran events).length = s.pending ++ PersistenceOwner.lost events := by
  obtain ⟨done, hlog, hserve⟩ := h.log
  have hlen : (ran events).length = done.length := by
    rw [← serve_length store done, hserve]
  rw [hlen, hlog, List.append_assoc]
  exact ⟨by rw [List.take_left, hserve], List.drop_left⟩

/-- **The owner is a serial server.** Whatever callers, worker and `stop` do in between,
the works that ran are the first of the accepted ones, in their order and each once; the
store and the results are those of running them alone; and what was accepted beyond them is
with the worker or in the channel, which holds no more than the hard cap, or went with a
worker that panicked. -/
theorem owner_serves_in_order
    (hrun : exec PersistenceOwner.step (start config store) labels = some (s, events)) :
    serve store ((accepted events).take (ran events).length) = (s.store, ran events) ∧
      (accepted events).drop (ran events).length = s.pending ++ lost events ∧
      ((accepted events).map Prod.fst).Nodup ∧
      (lost events ≠ [] → s.worker = .panicked) ∧
      s.queue.length ≤ PERSISTENCE_QUEUE_HARD_CAP := by
  have h := run_serial hrun
  obtain ⟨hserve, hrest⟩ := h.orderly.take_ran
  refine ⟨hserve, hrest, h.tracked.accepted_once, ?_, ?_⟩
  · intro hlost
    by_contra hworker
    exact hlost (h.orderly.lost hworker)
  · have hcapacity := h.orderly.capacity
    have hok := s.config.capacity_ok
    omega

/-- Appends to a log, and reports the position. -/
def append_entry (entry : ℕ) : Work (List ℕ) ℕ := fun log => (log ++ [entry], some log.length)

/-- The first call gives up before its work runs, the second waits, and a `stop` comes while
both works are in the channel. -/
def timeout_labels : List (OwnerLabel (List ℕ) ℕ) :=
  [.execute (append_entry 5), .try_send 0, .submit 0, .timeout 0, .execute (append_entry 7),
    .try_send 1, .submit 1, .stop, .take_handle, .recv, .finish, .recv, .finish, .answer 1, .exit,
    .join]

/-- The work that nobody waited for ran as well, and first. -/
theorem owner_serves_in_order_timeout : ∃ s events,
    exec PersistenceOwner.step (start .default_config []) timeout_labels = some (s, events) ∧
      serve [] ((accepted events).take (ran events).length) = (s.store, ran events) ∧
      s.store = [5, 7] := by
  obtain ⟨s, events, hrun, hstore⟩ : ∃ s events,
      exec PersistenceOwner.step (start .default_config []) timeout_labels = some (s, events) ∧
        s.store = [5, 7] := ⟨_, _, rfl, rfl⟩
  exact ⟨s, events, hrun, (owner_serves_in_order hrun).1, hstore⟩

/-! ## What callers are told -/

/-- The results of a service have the names of its works, each once. -/
theorem ran_once (h : Serial store s events) : ((ran events).map Prod.fst).Nodup ∧
    ∀ id ∈ (PersistenceOwner.lost events).map Prod.fst, id ∉ (ran events).map Prod.fst := by
  obtain ⟨done, hlog, hserve⟩ := h.orderly.log
  have hnames : (ran events).map Prod.fst = done.map Prod.fst := by
    rw [← serve_names store done, hserve]
  have hnodup := h.tracked.accepted_once
  rw [hlog, List.map_append, List.map_append, List.append_assoc] at hnodup
  obtain ⟨hdone, -, hapart⟩ := List.nodup_append.mp hnodup
  rw [hnames]
  refine ⟨hdone, fun id hlost hid => ?_⟩
  exact hapart id hid id (List.mem_append_right _ hlost) rfl

/-- A result is one of four, or the owner has made one up. -/
theorem length_returned (l : List (ℕ × Except PersistenceError α)) :
    l.length = l.countP succeeds + l.countP (fails .Full) + l.countP (fails .Timeout) +
      l.countP (fails .Closed) + l.countP (fails .Unavailable) := by
  induction l with
  | nil => rfl
  | cons r l ih =>
    obtain ⟨id, result⟩ := r
    simp only [List.length_cons, List.countP_cons]
    rcases result with e | result
    · cases e with
      | _ =>
        simp [succeeds, fails, Except.isOk, Except.toBool]
        omega
    · simp [succeeds, fails, Except.isOk, Except.toBool]
      omega

theorem length_ended (events : List (OwnerEvent σ α)) :
    (ended events).length = (returned events).length + (cancelled events).length := by
  induction events with
  | nil => rfl
  | cons event events ih =>
    rw [ended, returned, cancelled] at ih ⊢
    cases event with
    | returned id result =>
      simp only [List.filterMap_cons, OwnerEvent.ended?, OwnerEvent.returned?,
        OwnerEvent.cancelled?, List.length_cons]
      omega
    | cancelled id =>
      simp only [List.filterMap_cons, OwnerEvent.ended?, OwnerEvent.returned?,
        OwnerEvent.cancelled?, List.length_cons]
      omega
    | accepted id work => exact ih
    | ran id result => exact ih
    | lost id work => exact ih
    | stopped joined => exact ih

theorem Tracked.never_unavailable (h : Tracked s events) :
    (returned events).countP (fails .Unavailable) = 0 := by
  refine List.countP_eq_zero.mpr ?_
  rintro ⟨id, result⟩ hr
  have houtcome := (h.outcome hr).2
  rcases result with e | r
  · cases e with
    | Unavailable => exact houtcome.elim
    | Full | Timeout | Closed => simp [fails]
  · simp [fails]

/-- A result that a caller got is that of its work. -/
theorem Serial.returned_ok (h : Serial store s events) {id : ℕ} {result : α}
    (hr : (id, .ok result) ∈ returned events) : (id, some result) ∈ ran events :=
  (h.tracked.outcome hr).2

/-- **What a caller is told is true of its work, and every call is counted once.** A result
is that of the work; after `Full` the work never runs, and after `Closed` it never ran to its
end. At any moment each call that began is in progress, was dropped while it waited, or is
counted under the one outcome it had. -/
theorem owner_outcomes
    (hrun : exec PersistenceOwner.step (start config store) labels = some (s, events)) :
    (∀ id result, (id, .ok result) ∈ returned events → (id, some result) ∈ ran events) ∧
      (∀ id, (id, .error .Full) ∈ returned events → id ∉ (ran events).map Prod.fst) ∧
      (∀ id result, (id, .error .Closed) ∈ returned events → (id, some result) ∉ ran events) ∧
      (ended events).Nodup ∧
      s.metrics.submitted + s.calls.sum (fun _ call => uncounted call) =
        (accepted events).length ∧
      s.next_call = s.metrics.completed + s.metrics.full_dropped + s.metrics.timed_out +
        s.metrics.closed + (cancelled events).length + s.calls.len := by
  have h := run_serial hrun
  obtain ⟨hran, hlost⟩ := ran_once h
  have hsub : ∀ id, id ∈ (ran events).map Prod.fst → id ∈ (accepted events).map Prod.fst := by
    intro id hid
    obtain ⟨done, hlog, hserve⟩ := h.orderly.log
    rw [hlog, List.append_assoc, List.map_append, ← serve_names store done, hserve]
    exact List.mem_append_left _ hid
  refine ⟨?_, ?_, ?_, h.tracked.ended_once, h.counted.submitted, ?_⟩
  · intro id result hr
    exact h.returned_ok hr
  · intro id hr hid
    exact (h.tracked.outcome hr).2 (hsub id hid)
  · intro id result hr hmem
    have hid : id ∈ (ran events).map Prod.fst := List.mem_map.mpr ⟨_, hmem, rfl⟩
    -- not accepted, or it panicked, or it was lost with the channel
    rcases (h.tracked.outcome hr).2 with hnot | hnone | hgone
    · exact hnot (hsub id hid)
    · have hsame := List.inj_on_of_nodup_map hran hmem hnone rfl
      simp at hsame
    · exact hlost id hgone hid
  · have hcalls := h.counted.calls
    have hreturned := length_returned (returned events)
    rw [length_ended, hreturned, h.tracked.never_unavailable, ← h.counted.completed,
      ← h.counted.full_dropped, ← h.counted.timed_out, ← h.counted.closed] at hcalls
    omega

theorem owner_outcomes_timeout : ∃ s events,
    exec PersistenceOwner.step (start .default_config []) timeout_labels = some (s, events) ∧
      (1, some 1) ∈ ran events ∧ (ended events).Nodup ∧ s.metrics.timed_out = 1 := by
  obtain ⟨s, events, hrun, hanswer, htimed⟩ : ∃ s events,
      exec PersistenceOwner.step (start .default_config []) timeout_labels = some (s, events) ∧
        (1, .ok 1) ∈ returned events ∧ s.metrics.timed_out = 1 :=
    ⟨_, _, rfl, .tail _ (.head _), rfl⟩
  have h := owner_outcomes hrun
  exact ⟨s, events, hrun, h.1 1 1 hanswer, h.2.2.2.1, htimed⟩

/-! ## Stopping -/

/-- **A joined stop has served everything.** Where a `stop` saw the worker leave its loop,
every accepted work has run and none is lost, no call is in progress, and nothing changes the
store after that. -/
theorem joined_stop_served
    (hrun : exec PersistenceOwner.step (start config store) labels = some (s, events))
    (hjoined : .stopped true ∈ events) :
    serve store (accepted events) = (s.store, ran events) ∧ lost events = [] ∧ s.calls = ∅ := by
  have h := run_serial hrun
  have hexited := h.shut.joined hjoined
  obtain ⟨-, hcalls, hqueue⟩ := h.shut.exited hexited
  obtain ⟨done, hlog, hserve⟩ := h.orderly.log
  have hlost := h.orderly.lost (by rw [hexited]; simp)
  rw [pending, hexited, hqueue, hlost, List.append_nil] at hlog
  have hdone : accepted events = done := hlog.trans (List.append_nil done)
  exact ⟨by rw [hdone, hserve], hlost, hcalls⟩

theorem joined_stop_served_timeout : ∃ s events,
    exec PersistenceOwner.step (start .default_config []) timeout_labels = some (s, events) ∧
      serve [] (accepted events) = (s.store, ran events) := by
  obtain ⟨s, events, hrun, hjoined⟩ : ∃ s events,
      exec PersistenceOwner.step (start .default_config []) timeout_labels = some (s, events) ∧
        .stopped true ∈ events :=
    ⟨_, _, rfl, .tail _ (.tail _ (.tail _ (.tail _ (.tail _ (.tail _ (.head _))))))⟩
  exact ⟨s, events, hrun, (joined_stop_served hrun hjoined).1⟩

/-! ## The worker by itself -/

def of_worker : OwnerLabel σ α → Bool
  | .recv | .finish | .unwind => true
  | _ => false

/-- The worker alone gets to the end of what is accepted. -/
def Drains (s : PersistenceOwner σ α) : Prop :=
  ∃ more t new, (∀ label ∈ more, of_worker label = true) ∧
    exec PersistenceOwner.step s more = some (t, new) ∧ t.pending = []

theorem Drains.cons (h : Drains s') (hlabel : of_worker label = true)
    (hs : s.step label = some (s', new)) : Drains s := by
  obtain ⟨more, t, seen, hmore, hrun, ht⟩ := h
  exact ⟨label :: more, t, new ++ seen, List.forall_mem_cons.mpr ⟨hlabel, hmore⟩,
    exec_cons_eq_some.mpr ⟨s', new, seen, hs, hrun, rfl⟩, ht⟩

theorem drains_of_pending (h : s.pending = []) : Drains s := ⟨[], s, [], by simp, rfl, h⟩

theorem drains_of_unwinding (h : s.worker = .unwinding) : Drains s := by
  have hs : s.step .unwind = some (s.unwind.1, s.unwind.2) := by
    rw [PersistenceOwner.step, h]
  exact Drains.cons (drains_of_pending rfl) rfl hs

theorem drains_of_busy {id : ℕ} {work : Work σ α} (h : s.worker = .busy id work)
    (hidle : ∀ t : PersistenceOwner σ α, t.worker = .idle → t.queue = s.queue → Drains t) :
    Drains s := by
  have hs : s.step .finish = some ((s.finish id work).1, (s.finish id work).2) := by
    rw [PersistenceOwner.step, h]
  refine Drains.cons ?_ rfl hs
  rw [finish]
  dsimp only
  split
  · exact hidle _ rfl rfl
  · exact drains_of_unwinding rfl

/-- The induction is on the channel: the worker takes one work off it, and runs it. -/
theorem drains_of_idle (queue : List (ℕ × Work σ α)) (h : s.worker = .idle)
    (hqueue : s.queue = queue) : Drains s := by
  induction queue generalizing s with
  | nil => exact drains_of_pending (by rw [pending, h, hqueue]; rfl)
  | cons w queue ih =>
    obtain ⟨id, work⟩ := w
    have hs : s.step .recv = some ({ s with worker := .busy id work, queue }, []) := by
      rw [PersistenceOwner.step, h, hqueue]
    exact Drains.cons (drains_of_busy rfl fun t ht hq => ih ht hq) rfl hs

theorem Orderly.drains (h : Orderly store s events) : Drains s := by
  cases hworker : s.worker with
  | idle => exact drains_of_idle s.queue hworker rfl
  | busy id work => exact drains_of_busy hworker fun t ht hq => drains_of_idle s.queue ht hq
  | unwinding => exact drains_of_unwinding hworker
  | exited => exact drains_of_pending (by rw [pending, hworker, h.gone (by rw [hworker]; rfl)]; rfl)
  | panicked =>
    exact drains_of_pending (by rw [pending, hworker, h.gone (by rw [hworker]; rfl)]; rfl)

/-- A call that waits goes on waiting while only the worker moves. -/
theorem worker_keeps_waiting {id : ℕ} (hwait : ∃ reply, s.calls.lookup id = some (.waiting reply))
    (hlabel : of_worker label = true) (hs : s.step label = some (s', new)) :
    ∃ reply, s'.calls.lookup id = some (.waiting reply) := by
  obtain ⟨reply, hcall⟩ := hwait
  -- a delivery leaves the call waiting, be it its own or not
  have hdeliver : ∀ (r : PersistenceReply α) (ids : List ℕ),
      ∃ reply, (ids.foldl (deliver r) s.calls).lookup id = some (.waiting reply) := by
    intro r ids
    rw [lookup_deliver_all]
    split
    · exact ⟨r.answer reply, by rw [hcall]; rfl⟩
    · exact ⟨reply, hcall⟩
  cases label with
  | recv =>
    rw [PersistenceOwner.step] at hs
    split at hs
    · obtain ⟨rfl, -⟩ := step_inj hs
      exact ⟨reply, hcall⟩
    · contradiction
  | finish =>
    rw [PersistenceOwner.step] at hs
    split at hs
    · next k work hbusy =>
      have hfinish := Option.some.inj hs
      rw [finish] at hfinish
      dsimp only at hfinish
      split at hfinish
      · obtain ⟨rfl, -⟩ := Prod.mk.inj hfinish
        exact hdeliver _ [k]
      · obtain ⟨rfl, -⟩ := Prod.mk.inj hfinish
        exact hdeliver _ [k]
    · contradiction
  | unwind =>
    rw [PersistenceOwner.step] at hs
    split at hs
    · obtain ⟨rfl, -⟩ := step_inj hs
      exact hdeliver _ _
    · contradiction
  | _ => contradiction

/-- **No caller waits on the queue for ever.** From any state that a run reaches, the worker
alone, without a step of any caller or of `stop`, comes to the end of what is accepted, and
then every call that waited finds its answer. -/
theorem worker_drains
    (hrun : exec PersistenceOwner.step (start config store) labels = some (s, events)) :
    ∃ more t new, (∀ label ∈ more, of_worker label = true) ∧
      exec PersistenceOwner.step s more = some (t, new) ∧ t.pending = [] ∧
      ∀ id reply, s.calls.lookup id = some (.waiting reply) →
        ∃ u result, t.step (.answer id) = some (u, [.returned id result]) := by
  have h := run_serial hrun
  obtain ⟨more, t, new, hmore, hdrain, hpending⟩ := h.orderly.drains
  refine ⟨more, t, new, hmore, hdrain, hpending, ?_⟩
  intro id reply hcall
  obtain ⟨reply', hwait⟩ := exec_along_invariant
    (C := fun _ label => of_worker label = true)
    (I := fun s => ∃ reply, s.calls.lookup id = some (.waiting reply))
    (fun _ _ _ _ hwait hlabel hs => worker_keeps_waiting hwait hlabel hs) ⟨reply, hcall⟩
    (along_of_forall s hmore) hdrain
  -- a reply that is still to come belongs to a work in the channel
  have hsays := ((h.run hdrain).tracked.calls hwait).2.2.2
  cases reply' with
  | pending =>
    rw [Says, hpending] at hsays
    simp at hsays
  | sent result =>
    have hanswer : t.step (.answer id) = some (t.leave id
        { t.metrics with completed := t.metrics.completed + 1 }, [.returned id (.ok result)]) := by
      rw [PersistenceOwner.step, hwait]
    exact ⟨_, _, hanswer⟩
  | dropped =>
    have hanswer : t.step (.answer id) = some (t.leave id
        { t.metrics with closed := t.metrics.closed + 1 }, [.returned id (.error .Closed)]) := by
      rw [PersistenceOwner.step, hwait]
    exact ⟨_, _, hanswer⟩

theorem worker_drains_waiting : ∃ (s : PersistenceOwner (List ℕ) ℕ) (more : _) (t : _) (new : _),
    exec PersistenceOwner.step (start .default_config [])
        [.execute (append_entry 5), .try_send 0, .submit 0] =
          some (s, [.accepted 0 (append_entry 5)]) ∧
      exec PersistenceOwner.step s more = some (t, new) ∧ t.pending = [] := by
  obtain ⟨s, hrun⟩ : ∃ s, exec PersistenceOwner.step (start .default_config [])
      [.execute (append_entry 5), .try_send 0, .submit 0] =
        some (s, [.accepted 0 (append_entry 5)]) := ⟨_, rfl⟩
  obtain ⟨more, t, new, -, hdrain, hpending, -⟩ := worker_drains hrun
  exact ⟨s, more, t, new, hrun, hdrain, hpending⟩

end PersistenceOwner

end StreamGuard.Gateway
