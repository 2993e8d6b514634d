/-
What is left of a path that the rescan loop has removed (`streamguard-service/src/client.rs`).

The tables of a path are filled by its three tasks, each step under one lock, and the loop empties
them when it removes the path. So nothing is left exactly if no task of the path goes on and no
probe of it is outstanding: the loop aborts the tasks that it has spawned itself, not those of
`start`, and it leaves the probes to a reader that it has just aborted.

Here the loop adds and removes one path at a time, with the steps of the tasks in between. A task
that is being polled while it is aborted runs on until it waits for something.
-/
import StreamGuard.Lib.Notices
import StreamGuard.V1.RescanRuns

set_option autoImplicit false

namespace StreamGuard.V1

open StreamGuard StreamGuard.Lib

variable {F : Type} [F32 F]

/-! ## The engine with its probes -/

structure ProbedEngine (F : Type) where
  engine : ClientEngine F
  /-- When each probe was sent that has no reply yet. -/
  pending_probes : Map (PathId × U32) ℕ

/-- What a task does under one lock, or as it ends. -/
inductive TaskStep (F : Type) where
  /-- `probe_loop` is about to send a probe. -/
  | Probes (id : U32) (now : ℕ)
  /-- It counts the probes that have waited for too long. -/
  | Expires (now timeout : ℕ)
  /-- A measurement is recorded: of a reply, of lost probes or of the throughput. -/
  | Measures (metrics : PathMetrics F)
  /-- `reader_loop` has the reply to a probe. -/
  | Resolves (id : U32)
  /-- It clears the count of missed probes. -/
  | Answered
  /-- `record_health` starts the clock of a path that has come up. -/
  | Clocks (now : ℕ)
  /-- Too many probes were missed. -/
  | Unanswered (orders : Orders F)
  /-- The connection fails: the task reports the path and ends. -/
  | Fails (orders : Orders F)
  /-- The task ends otherwise. -/
  | Stops

/-- The tasks that have such a step. -/
def TaskStep.of : TaskStep F → TaskKind → Bool
  | .Probes _ _, kind => kind = .Probe
  | .Expires _ _, kind => kind = .Probe
  | .Measures _, kind => kind ≠ .Keepalive
  | .Resolves _, kind => kind = .Reader
  | .Answered, kind => kind = .Reader
  | .Clocks _, kind => kind = .Reader
  | .Unanswered _, kind => kind = .Probe
  | .Fails _, _ => true
  | .Stops, _ => true

inductive RemovalEvent (F : Type) where
  /-- The rescan loop has dialled a path. -/
  | Adds (path_id : PathId) (iface : Interface) (dialled : Dialled)
  /-- The rescan loop removes a path. -/
  | Removes (path_id : PathId) (polled : List PathTask)
  | Runs (task : PathTask) (step : TaskStep F)
  /-- A round of `uplink_loop`. -/
  | Round (orders orders' : Orders F)

namespace ProbedEngine

def task_step (s : ProbedEngine F) (task : PathTask) : TaskStep F → ProbedEngine F
  | .Probes id now => { s with pending_probes := s.pending_probes.insert (task.path_id, id) now }
  | .Expires now timeout =>
    let lost := fun (probe : PathId × U32) sent =>
      decide (probe.1 = task.path_id ∧ timeout ≤ now - sent)
    let misses := (s.engine.probe_misses.lookup task.path_id).getD 0 +
      (s.pending_probes.retain lost).len
    { engine := { s.engine with
        probe_misses := s.engine.probe_misses.insert task.path_id (min misses (2 ^ 32 - 1)) }
      pending_probes := s.pending_probes.retain (fun probe sent => !lost probe sent) }
  | .Measures metrics =>
    { s with engine := { s.engine with shared := { s.engine.shared with
      metrics := s.engine.shared.metrics.insert task.path_id metrics } } }
  | .Resolves id => { s with pending_probes := s.pending_probes.erase (task.path_id, id) }
  | .Answered =>
    { s with engine := { s.engine with
      probe_misses := s.engine.probe_misses.insert task.path_id 0 } }
  | .Clocks now =>
    { s with engine := { s.engine with
      health_changed_at := s.engine.health_changed_at.insert task.path_id now } }
  | .Unanswered orders =>
    { s with engine := (ClientEngine.fail_path { s.engine with
      probe_misses := s.engine.probe_misses.erase task.path_id } orders task.path_id).1 }
  | .Fails orders =>
    { s with engine := (ClientEngine.fail_path { s.engine with
      running := s.engine.running.erase task } orders task.path_id).1 }
  | .Stops => { s with engine := { s.engine with running := s.engine.running.erase task } }

/-- A removal. The aborted tasks in `polled` go on for the moment. -/
def remove_path (s : ProbedEngine F) (path_id : PathId) (polled : List PathTask) :
    ProbedEngine F :=
  let removed := s.engine.remove_path path_id
  { s with engine := { removed with
    running := s.engine.running.filter (fun t => t ∈ removed.running ∨ t ∈ polled) } }

def step (s : ProbedEngine F) : RemovalEvent F → ProbedEngine F
  | .Adds path_id iface dialled => { s with engine := s.engine.add_path path_id iface dialled }
  | .Removes path_id polled => s.remove_path path_id polled
  | .Runs task step =>
    if task ∈ s.engine.running ∧ step.of task.kind = true then s.task_step task step else s
  | .Round orders orders' =>
    { s with engine := { s.engine with shared := (s.engine.shared.steer orders orders').1 } }

/-- The bound paths. -/
def bound (s : ProbedEngine F) : Map PathId Connection := s.engine.shared.session.paths

/-- Nothing is there of a path that is not bound. And every task is on the connection that its path
is bound to, so none acts on a path that has been added again. -/
structure Clean (s : ProbedEngine F) : Prop where
  running : ∀ t ∈ s.engine.running, s.bound.lookup t.path_id = some t.transport
  metrics : ∀ p ∈ s.engine.shared.metrics, p ∈ s.bound
  names : ∀ p ∈ s.engine.path_names, p ∈ s.bound
  misses : ∀ p ∈ s.engine.probe_misses, p ∈ s.bound
  clocks : ∀ p ∈ s.engine.health_changed_at, p ∈ s.bound
  probes : ∀ probe ∈ s.pending_probes, probe.1 ∈ s.bound

/-- A removal is complete if the tasks of the path that still run are the loop's own and wait for
something, and no probe of it is outstanding. -/
def Complete : RemovalEvent F → ProbedEngine F → Prop
  | .Removes path_id polled, s =>
    (∀ t ∈ s.engine.running, t.path_id = path_id →
      s.engine.tracked.lookup path_id = some t.transport ∧ t ∉ polled) ∧
    ∀ id, (path_id, id) ∉ s.pending_probes
  | _, _ => True

/-! ## What fills the tables -/

/-- The three tasks of a path are those on its connection. -/
theorem mem_tasks {t : PathTask} {path_id : PathId} {transport : Connection} :
    t ∈ tasks path_id transport ↔ t.path_id = path_id ∧ t.transport = transport := by
  obtain ⟨kind, p, c⟩ := t
  cases kind with
  | Reader => simp [tasks]
  | Keepalive => simp [tasks]
  | Probe => simp [tasks]

section Steps

variable {s s' : ProbedEngine F} {path_id : PathId} {polled : List PathTask}

/-- A step that adds to the tables, and starts tasks, for bound paths only. -/
structure Keeps (s s' : ProbedEngine F) : Prop where
  bound : ∀ {p c}, s.bound.lookup p = some c → s'.bound.lookup p = some c
  running : ∀ t ∈ s'.engine.running,
    t ∈ s.engine.running ∨ s'.bound.lookup t.path_id = some t.transport
  metrics : ∀ p ∈ s'.engine.shared.metrics, p ∈ s.engine.shared.metrics ∨ p ∈ s'.bound
  names : ∀ p ∈ s'.engine.path_names, p ∈ s.engine.path_names ∨ p ∈ s'.bound
  misses : ∀ p ∈ s'.engine.probe_misses, p ∈ s.engine.probe_misses ∨ p ∈ s'.bound
  clocks : ∀ p ∈ s'.engine.health_changed_at, p ∈ s.engine.health_changed_at ∨ p ∈ s'.bound
  probes : ∀ probe ∈ s'.pending_probes, probe ∈ s.pending_probes ∨ probe.1 ∈ s'.bound

omit [F32 F] in
theorem Keeps.refl (s : ProbedEngine F) : Keeps s s :=
  ⟨fun h => h, fun _ => .inl, fun _ => .inl, fun _ => .inl, fun _ => .inl, fun _ => .inl,
    fun _ => .inl⟩

omit [F32 F] in
theorem Keeps.mem_bound (h : Keeps s s') {p : PathId} (hp : p ∈ s.bound) : p ∈ s'.bound := by
  obtain ⟨c, hc⟩ := AList.mem_iff_lookup.mp hp
  exact AList.mem_of_lookup (h.bound hc)

omit [F32 F] in
theorem Clean.keeps (h : s.Clean) (hkeeps : Keeps s s') : s'.Clean where
  running t ht := (hkeeps.running t ht).elim (fun hold => hkeeps.bound (h.running t hold)) id
  metrics p hp := (hkeeps.metrics p hp).elim (fun hold => hkeeps.mem_bound (h.metrics p hold)) id
  names p hp := (hkeeps.names p hp).elim (fun hold => hkeeps.mem_bound (h.names p hold)) id
  misses p hp := (hkeeps.misses p hp).elim (fun hold => hkeeps.mem_bound (h.misses p hold)) id
  clocks p hp := (hkeeps.clocks p hp).elim (fun hold => hkeeps.mem_bound (h.clocks p hold)) id
  probes probe hp := (hkeeps.probes probe hp).elim
    (fun hold => hkeeps.mem_bound (h.probes probe hold)) id

omit [F32 F] in
theorem mem_or_of_insert {K V : Type} [DecidableEq K] {m : Map K V} {k k' : K} {v : V} {P : Prop}
    (hP : k' = k → P) (h : k' ∈ m.insert k v) : k' ∈ m ∨ P := by
  rcases (AList.mem_insert _).mp h with hsame | hold
  · exact .inr (hP hsame)
  · exact .inl hold

/-! ### The announcements -/

theorem tell_metrics {shared : Shared F} {orders : Orders F} {next : PathId} :
    (shared.tell orders next).1.metrics = shared.metrics := by
  simp only [Shared.tell]
  rw [Shared.advertise_weights_metrics, Shared.announce_path_metrics]

theorem steer_metrics {shared : Shared F} {orders orders' : Orders F} :
    (shared.steer orders orders').1.metrics = shared.metrics := by
  simp only [Shared.steer]
  split
  · rw [tell_metrics]
  · rfl

/-- A failover writes the entry of the dead path. -/
theorem mem_fail_path_metrics {shared : Shared F} {orders : Orders F} {dead p : PathId}
    (h : p ∈ (shared.fail_path orders dead).1.metrics) : p ∈ shared.metrics ∨ p = dead := by
  have hfail : ∀ p ∈ (shared.fail dead).1.metrics, p ∈ shared.metrics ∨ p = dead := by
    intro p hp
    rw [Shared.fail] at hp
    split at hp
    · exact .inl hp
    · dsimp only at hp
      split at hp
      · exact mem_or_of_insert id hp
      · exact mem_or_of_insert id hp
  rw [Shared.fail_path] at h
  split at h
  · next heq =>
    rw [heq] at hfail
    exact hfail p h
  · next heq =>
    rw [heq] at hfail
    rw [tell_metrics] at h
    exact hfail p h

/-! ### The steps -/

/-- A report of a bound path writes its entry in the metrics. -/
theorem Keeps.fail_path (h : Keeps s s') (orders : Orders F) (hbound : path_id ∈ s'.bound) :
    Keeps s { s' with engine := (s'.engine.fail_path orders path_id).1 } := by
  rw [ClientEngine.fail_path]
  split
  · exact h
  · have hpaths := (s'.engine.shared.fail_path_same orders path_id).1
    have hsame : ProbedEngine.bound { s' with engine := { s'.engine with
        shared := (s'.engine.shared.fail_path orders path_id).1
        health_changed_at := s'.engine.health_changed_at.erase path_id } } = s'.bound := hpaths
    refine ⟨?_, ?_, ?_, ?_, ?_, ?_, ?_⟩
    · rw [hsame]
      exact h.bound
    · rw [hsame]
      exact h.running
    · rw [hsame]
      intro p hp
      rcases mem_fail_path_metrics hp with hold | rfl
      · exact h.metrics p hold
      · exact .inr hbound
    · rw [hsame]
      exact h.names
    · rw [hsame]
      exact h.misses
    · rw [hsame]
      exact fun p hp => h.clocks p (AList.mem_erase.mp hp).2
    · rw [hsame]
      exact h.probes

/-- A task fills the tables of its path. -/
theorem keeps_task_step {task : PathTask} (hbound : task.path_id ∈ s.bound) (step : TaskStep F) :
    Keeps s (s.task_step task step) := by
  have hkeeps := Keeps.refl s
  cases step with
  | Probes id now =>
    refine { hkeeps with probes := fun probe hp => mem_or_of_insert ?_ hp }
    rintro rfl
    exact hbound
  | Expires now timeout =>
    refine { hkeeps with misses := fun p hp => mem_or_of_insert ?_ hp, probes := ?_ }
    · rintro rfl
      exact hbound
    · intro probe hp
      obtain ⟨sent, hsent⟩ := AList.mem_iff_lookup.mp hp
      exact .inl (AList.mem_of_lookup (AList.lookup_retain_eq_some.mp hsent).1)
  | Measures metrics =>
    refine { hkeeps with metrics := fun p hp => mem_or_of_insert ?_ hp }
    rintro rfl
    exact hbound
  | Resolves id => exact { hkeeps with probes := fun probe hp => .inl (AList.mem_erase.mp hp).2 }
  | Answered =>
    refine { hkeeps with misses := fun p hp => mem_or_of_insert ?_ hp }
    rintro rfl
    exact hbound
  | Clocks now =>
    refine { hkeeps with clocks := fun p hp => mem_or_of_insert ?_ hp }
    rintro rfl
    exact hbound
  | Unanswered orders =>
    have herased : Keeps s { s with engine := { s.engine with
        probe_misses := s.engine.probe_misses.erase task.path_id } } :=
      { hkeeps with misses := fun p hp => .inl (AList.mem_erase.mp hp).2 }
    exact herased.fail_path orders hbound
  | Fails orders =>
    have hstopped : Keeps s { s with engine := { s.engine with
        running := s.engine.running.erase task } } :=
      { hkeeps with running := fun t ht => .inl (List.mem_of_mem_erase ht) }
    exact hstopped.fail_path orders hbound
  | Stops => exact { hkeeps with running := fun t ht => .inl (List.mem_of_mem_erase ht) }

theorem keeps_adds (iface : Interface) (dialled : Dialled) :
    Keeps s { s with engine := s.engine.add_path path_id iface dialled } := by
  unfold ClientEngine.add_path
  split
  · exact .refl s
  · next accredited transport =>
    split
    · exact .refl s
    · unfold Session.add_path
      by_cases hbound : path_id ∈ s.engine.shared.session.paths
      · rw [if_pos hbound]
        exact .refl s
      · rw [if_neg hbound]
        -- its tasks are on the connection that it has just been bound to
        have hfresh : s.bound.lookup path_id = none := AList.lookup_eq_none.mpr hbound
        have hown : ∀ {p}, p = path_id → p ∈ s.bound.insert path_id transport := by
          rintro p rfl
          exact (AList.mem_insert _).mpr (.inl rfl)
        refine ⟨?_, ?_, ?_, ?_, fun _ => .inl, fun _ => .inl, fun _ => .inl⟩
        · exact fun hl => AList.lookup_insert_new hfresh hl
        · intro t ht
          refine (List.mem_append.mp ht).imp id fun ht => ?_
          obtain ⟨hpath, htransport⟩ := mem_tasks.mp ht
          rw [hpath, htransport]
          exact AList.lookup_insert _
        · intro p hp
          dsimp only at hp
          split at hp
          · exact .inl hp
          · exact mem_or_of_insert hown hp
        · exact fun p hp => mem_or_of_insert hown hp

theorem keeps_round (orders orders' : Orders F) :
    Keeps s { s with engine := { s.engine with
      shared := (s.engine.shared.steer orders orders').1 } } := by
  have hpaths := (s.engine.shared.steer_same orders orders').1
  have hsame : bound { s with engine := { s.engine with
      shared := (s.engine.shared.steer orders orders').1 } } = s.bound := hpaths
  refine ⟨?_, fun _ => .inl, ?_, fun _ => .inl, fun _ => .inl, fun _ => .inl, fun _ => .inl⟩
  · rw [hsame]
    exact id
  · intro p hp
    rw [steer_metrics] at hp
    exact .inl hp

/-! ## What empties them -/

theorem bound_remove_path (p : PathId) : (s.remove_path path_id polled).bound.lookup p =
    if p = path_id then none else s.bound.lookup p := by
  have hpaths := (ClientEngine.removes_remove_path s.engine path_id).paths p
  simp only [List.mem_singleton] at hpaths
  exact hpaths

theorem mem_bound_remove_path {p : PathId} (hne : p ≠ path_id) (hp : p ∈ s.bound) :
    p ∈ (s.remove_path path_id polled).bound := by
  obtain ⟨c, hc⟩ := AList.mem_iff_lookup.mp hp
  refine AList.mem_of_lookup (v := c) ?_
  rw [bound_remove_path, if_neg hne, hc]

/-- A table of bound paths that the removal erases the path from is one of bound paths. -/
theorem erased_bound {V : Type} {m : Map PathId V} (h : ∀ p ∈ m, p ∈ s.bound) :
    ∀ p ∈ m.erase path_id, p ∈ (s.remove_path path_id polled).bound := by
  intro p hp
  obtain ⟨hne, hold⟩ := AList.mem_erase.mp hp
  exact mem_bound_remove_path hne (h p hold)

/-- A task of the path goes on unless the loop has spawned it and it waits for something. -/
theorem mem_running_remove_path {t : PathTask} : t ∈ (s.remove_path path_id polled).engine.running ↔
    t ∈ s.engine.running ∧ ¬ (t.path_id = path_id ∧
      s.engine.tracked.lookup path_id = some t.transport ∧ t ∉ polled) := by
  show t ∈ s.engine.running.filter
    (fun t => t ∈ (s.engine.remove_path path_id).running ∨ t ∈ polled) ↔ _
  rw [List.mem_filter, decide_eq_true_eq, ClientEngine.remove_path]
  refine and_congr_right fun ht => ?_
  dsimp only
  cases htracked : s.engine.tracked.lookup path_id with
  | none => simp [ht]
  | some transport =>
    simp only [List.mem_filter, ht, true_and, decide_eq_true_eq, mem_tasks, Option.some.injEq]
    rw [eq_comm (a := transport)]
    tauto

/-- **A removal leaves nothing** exactly if it is complete. -/
theorem clean_remove_path_iff (h : s.Clean) : (s.remove_path path_id polled).Clean ↔
    Complete (F := F) (.Removes path_id polled) s := by
  constructor
  · intro hclean
    refine ⟨?_, ?_⟩
    · -- a task that goes on would be one of a path that is not bound
      intro t ht hpath
      by_contra hgoes
      have hrunning := hclean.running t
        (mem_running_remove_path.mpr ⟨ht, fun hstops => hgoes hstops.2⟩)
      rw [bound_remove_path, if_pos hpath] at hrunning
      contradiction
    · intro id hid
      obtain ⟨c, hc⟩ := AList.mem_iff_lookup.mp (hclean.probes (path_id, id) hid)
      rw [bound_remove_path, if_pos rfl] at hc
      contradiction
  · rintro ⟨htasks, hprobes⟩
    refine ⟨?_, ?_, ?_, ?_, ?_, ?_⟩
    · intro t ht
      obtain ⟨hold, hgoes⟩ := mem_running_remove_path.mp ht
      have hne : t.path_id ≠ path_id := fun hpath => hgoes ⟨hpath, htasks t hold hpath⟩
      rw [bound_remove_path, if_neg hne]
      exact h.running t hold
    · exact erased_bound h.metrics
    · exact erased_bound h.names
    · exact erased_bound h.misses
    · exact erased_bound h.clocks
    · intro probe hp
      refine mem_bound_remove_path ?_ (h.probes probe hp)
      rintro rfl
      exact hprobes probe.2 hp

theorem clean_step_iff (h : s.Clean) (e : RemovalEvent F) : (s.step e).Clean ↔ Complete e s := by
  cases e with
  | Adds path_id iface dialled => exact iff_of_true (h.keeps (keeps_adds iface dialled)) trivial
  | Removes path_id polled => exact clean_remove_path_iff h
  | Runs task step =>
    refine iff_of_true ?_ trivial
    rw [ProbedEngine.step]
    split
    · next hruns =>
      exact h.keeps (keeps_task_step (AList.mem_of_lookup (h.running task hruns.1)) step)
    · exact h
  | Round orders orders' => exact iff_of_true (h.keeps (keeps_round orders orders')) trivial

end Steps

/-! ## From the start -/

omit [F32 F] in
/-- The paths of `start` are bound to their connections. -/
theorem bound_of_bind_paths {session session' : Session F} {paths : List (PathId × Connection)}
    (h : paths.foldlM Shared.bind_path session = .ok session') :
    (∀ {p c}, session.paths.lookup p = some c → session'.paths.lookup p = some c) ∧
      ∀ e ∈ paths, session'.paths.lookup e.1 = some e.2 := by
  induction paths generalizing session with
  | nil =>
    obtain rfl := Except.ok.inj h
    exact ⟨id, by simp⟩
  | cons e paths ih =>
    rw [List.foldlM_cons] at h
    cases hbind : Shared.bind_path session e with
    | error error =>
      rw [hbind] at h
      contradiction
    | ok next =>
      rw [hbind] at h
      obtain ⟨hkept, hall⟩ := ih h
      have hadd : e.1 ∉ session.paths ∧ next.paths = session.paths.insert e.1 e.2 := by
        rw [Shared.bind_path, Session.add_path] at hbind
        split at hbind
        · contradiction
        · next hfresh =>
          obtain rfl := Except.ok.inj hbind
          exact ⟨hfresh, rfl⟩
      refine ⟨?_, ?_⟩
      · intro p c hl
        refine hkept ?_
        rw [hadd.2]
        exact AList.lookup_insert_new (AList.lookup_eq_none.mpr hadd.1) hl
      · rw [List.forall_mem_cons]
        refine ⟨hkept ?_, hall⟩
        rw [hadd.2]
        exact AList.lookup_insert _

theorem clean_start {session_id : SessionId} {scan : List Interface} {dial : ℕ → Connection}
    {threshold : F} {e : ClientEngine F}
    (h : ClientEngine.start session_id scan dial threshold = .ok e) :
    (⟨e, ∅⟩ : ProbedEngine F).Clean := by
  rw [ClientEngine.start] at h
  dsimp only at h
  split at h
  · contradiction
  · split at h
    · contradiction
    · next shared hshared =>
      obtain rfl := Except.ok.inj h
      generalize hids : (PathMap.new.ids_for (filter_candidates scan)).2 = ids at hshared ⊢
      generalize hpaths : (ids.map Prod.fst).zipIdx.map (fun e => (e.1, dial e.2)) = paths
        at hshared ⊢
      -- the names are those of the ids, and the paths come from the same list
      rw [Shared.start] at hshared
      cases hsession : paths.foldlM Shared.bind_path (Session.new session_id) with
      | error error =>
        rw [hsession] at hshared
        contradiction
      | ok session =>
        rw [hsession] at hshared
        obtain rfl := Except.ok.inj hshared
        have hbound := (bound_of_bind_paths hsession).2
        refine ⟨?_, by simp, ?_, by simp, by simp, by simp⟩
        · intro t ht
          obtain ⟨path, hpath, ht⟩ := List.mem_flatMap.mp ht
          obtain ⟨hid, htransport⟩ := mem_tasks.mp ht
          rw [hid, htransport]
          exact hbound path hpath
        · intro p hp
          obtain ⟨name, hname⟩ := AList.mem_iff_lookup.mp hp
          rcases AList.of_lookup_foldl_insert hname with hnone | ⟨entry, hentry, rfl, -⟩
          · simp at hnone
          · have hfst : entry.1 ∈ paths.map Prod.fst := by
              rw [← hpaths, List.map_map]
              have hmem : entry.1 ∈ ids.map Prod.fst := List.mem_map_of_mem hentry
              obtain ⟨i, hi, hget⟩ := List.mem_iff_getElem.mp hmem
              refine List.mem_map.mpr ⟨(entry.1, i), ?_, rfl⟩
              exact List.mem_zipIdx_iff_getElem?.mpr (List.getElem?_eq_some_iff.mpr ⟨hi, hget⟩)
            obtain ⟨path, hpath, hsame⟩ := List.mem_map.mp hfst
            rw [← hsame]
            exact AList.mem_of_lookup (hbound path hpath)

/-- **Removals leave nothing**, in all states of a run, exactly if all of them are complete. -/
theorem removal_leaves_nothing_iff {session_id : SessionId} {scan : List Interface}
    {dial : ℕ → Connection} {threshold : F} {e : ClientEngine F}
    (hstart : ClientEngine.start session_id scan dial threshold = .ok e)
    (events : List (RemovalEvent F)) :
    (∀ n, ((events.take n).foldl step (⟨e, ∅⟩ : ProbedEngine F)).Clean) ↔
      ∀ n event, events[n]? = some event →
        Complete event ((events.take n).foldl step (⟨e, ∅⟩ : ProbedEngine F)) :=
  forall_take_iff (f := step) (I := fun _ => True) (P := Clean) (C := Complete)
    (fun _ event _ h => ⟨trivial, clean_step_iff h event⟩) trivial (clean_start hstart) events

/-! ### Sample runs -/

/-- The engine on two interfaces. -/
def two_nics : Except StartError (ClientEngine Exact) :=
  ClientEngine.start ⟨1⟩ [nic "eth0" 2, nic "wlan0" 3] Connection.mk (some 0)

/-- A run of the engine leads to what `P` says. -/
def leads_to (events : List (RemovalEvent Exact)) (P : ProbedEngine Exact → Bool) : Bool :=
  match two_nics with
  | .error _ => false
  | .ok e => P (events.foldl step ⟨e, ∅⟩)

theorem of_leads_to (events : List (RemovalEvent Exact)) {P : ProbedEngine Exact → Bool}
    (h : leads_to events P = true) :
    ∃ e, two_nics = .ok e ∧ P (events.foldl step (⟨e, ∅⟩ : ProbedEngine Exact)) = true := by
  rw [leads_to] at h
  split at h
  · contradiction
  · next e hstart => exact ⟨e, hstart, h⟩

/-- A third interface comes and goes, its probes answered. -/
def comes_and_goes : List (RemovalEvent Exact) :=
  [.Adds ⟨2⟩ (nic "usb0" 4) (redialled 2), .Runs ⟨.Probe, ⟨2⟩, ⟨12⟩⟩ (.Probes 0 1000),
    .Runs ⟨.Reader, ⟨2⟩, ⟨12⟩⟩ (.Resolves 0), .Removes ⟨2⟩ []]

theorem removal_leaves_nothing_sample : ∃ e, two_nics = .ok e ∧
    ∀ n, ((comes_and_goes.take n).foldl step (⟨e, ∅⟩ : ProbedEngine Exact)).Clean := by
  obtain ⟨e, hstart, hrun⟩ := of_leads_to (comes_and_goes.take 3)
    (P := fun s => decide (∀ t ∈ s.engine.running, t.path_id = ⟨2⟩ →
        s.engine.tracked.lookup ⟨2⟩ = some t.transport ∧ t ∉ ([] : List PathTask)) &&
      decide (s.pending_probes.keys = []))
    (by decide)
  rw [Bool.and_eq_true, decide_eq_true_eq, decide_eq_true_eq] at hrun
  refine ⟨e, hstart, (removal_leaves_nothing_iff hstart comes_and_goes).mpr ?_⟩
  intro n event hevent
  match n with
  | 0 | 1 | 2 =>
    obtain rfl := Option.some.inj hevent
    trivial
  | 3 =>
    obtain rfl := Option.some.inj hevent
    refine ⟨hrun.1, fun id hid => ?_⟩
    have hkey := AList.mem_keys.mp hid
    rw [hrun.2] at hkey
    contradiction
  | n + 4 => contradiction

/-- The second path of the start is removed and added again, and the old reader finds its
connection closed. -/
def old_reader_fails : List (RemovalEvent Exact) :=
  [.Removes ⟨1⟩ [], .Adds ⟨1⟩ (nic "wlan0" 3) (redialled 1),
    .Runs ⟨.Reader, ⟨1⟩, ⟨1⟩⟩ (.Fails ⟨.stored, .stored⟩)]

/-- The path of the start is bound to its new connection, and marked unreachable by the reader of
the old one. -/
theorem old_reader_marks_new_path : ∃ e, two_nics = .ok e ∧
    (old_reader_fails.foldl step (⟨e, ∅⟩ : ProbedEngine Exact)).bound.lookup ⟨1⟩ = some ⟨11⟩ ∧
      ((old_reader_fails.foldl step (⟨e, ∅⟩ : ProbedEngine Exact)).engine.shared.metrics.lookup
        ⟨1⟩).map PathMetrics.reachable = some false ∧
      ¬ ((old_reader_fails.take 1).foldl step (⟨e, ∅⟩ : ProbedEngine Exact)).Clean := by
  obtain ⟨e, hstart, hrun⟩ := of_leads_to old_reader_fails
    (P := fun s => decide (s.bound.lookup ⟨1⟩ = some ⟨11⟩) &&
      decide ((s.engine.shared.metrics.lookup ⟨1⟩).map PathMetrics.reachable = some false))
    (by decide)
  obtain ⟨e', hstart', hrun'⟩ := of_leads_to (old_reader_fails.take 1)
    (P := fun s => decide (⟨.Reader, ⟨1⟩, ⟨1⟩⟩ ∈ s.engine.running) &&
      decide (s.bound.lookup ⟨1⟩ = none)) (by decide)
  obtain rfl := Except.ok.inj (hstart.symm.trans hstart')
  rw [Bool.and_eq_true, decide_eq_true_eq, decide_eq_true_eq] at hrun hrun'
  refine ⟨e, hstart, hrun.1, hrun.2, ?_⟩
  intro hclean
  have hbound := hclean.running _ hrun'.1
  rw [hrun'.2] at hbound
  contradiction

end ProbedEngine

end StreamGuard.V1
