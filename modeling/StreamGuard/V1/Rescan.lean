/-
The client engine and its rescan loop: `streamguard-service/src/client.rs`, with the start of the
engine in `streamguard-service/src/main.rs`.

The engine is started on the interfaces of a first scan, and every five seconds the loop looks
again: it dials the candidates whose path number is not in the session's table, and removes the
paths whose number has not been a candidate for a while. It has a numbering of its own, which
begins empty, and it goes by the table alone. Whether a path still works is a matter of its
connection and its tasks, which the loop does not look at: a reader whose connection has
ended reports the failure and stops, and the path stays in the table.
-/
import StreamGuard.Lib.Fold
import StreamGuard.V1.Client
import StreamGuard.V1.PathMap

set_option autoImplicit false

namespace StreamGuard.V1

open StreamGuard StreamGuard.Lib

/-! ## The engine -/

/-- The three tasks of a path: `reader_loop`, `keepalive_loop` and `probe_loop`. -/
inductive TaskKind where
  | Reader
  | Keepalive
  | Probe
  deriving DecidableEq

structure PathTask where
  kind : TaskKind
  path_id : PathId
  transport : Connection
  deriving DecidableEq

/-- The shared state, the state of the rescan loop, and what runs. -/
structure ClientEngine (F : Type) where
  shared : Shared F
  path_names : Map PathId String
  probe_misses : Map PathId ℕ
  health_changed_at : Map PathId ℕ
  /-- `Counters::paths`. -/
  paths : ℕ
  path_map : PathMap
  /-- The tasks that the loop has spawned, by the connection they are on. -/
  tracked : Map PathId Connection
  absent_for : Map PathId ℕ
  running : List PathTask
  /-- The connections that have ended. -/
  ended : List Connection

/-- `RESCAN_GRACE_TICKS`. -/
def RESCAN_GRACE_TICKS : ℕ := 2

/-- What dialling a path comes to: an error of the connection or of the bootstrap, or the
session that the gateway accredits. -/
abbrev Dialled := Except Error (SessionId × Connection)

/-- The tasks of a path. -/
def tasks (path_id : PathId) (transport : Connection) : List PathTask :=
  [⟨.Reader, path_id, transport⟩, ⟨.Keepalive, path_id, transport⟩, ⟨.Probe, path_id, transport⟩]

inductive StartError where
  /-- No network interfaces discovered. -/
  | NoInterfaces
  | Failed (error : Error)

namespace ClientEngine

variable {F : Type} [F32 F]

/-- `main` up to `start`, where every path of the first scan has been dialled with success. The
names of the paths are set when the engine has started. -/
def start (session_id : SessionId) (scan : List Interface) (dial : ℕ → Connection)
    (threshold : F) : Except StartError (ClientEngine F) :=
  let chosen := filter_candidates scan
  if chosen.isEmpty then .error .NoInterfaces
  else
    let ids := (PathMap.new.ids_for chosen).2
    let paths := (ids.map Prod.fst).zipIdx.map (fun e => (e.1, dial e.2))
    match Shared.start session_id paths threshold with
    | .error e => .error (.Failed e)
    | .ok shared => .ok
      { shared
        path_names := ids.foldl (fun names e => names.insert e.1 e.2.id) ∅
        probe_misses := ∅
        health_changed_at := ∅
        paths := paths.length
        path_map := .new
        tracked := ∅
        absent_for := ∅
        running := paths.flatMap (fun e => tasks e.1 e.2)
        ended := [] }

/-! ## The rescan -/

/-- A dialled path is bound, its tasks are started, and it counts as reachable unless it has
been measured. -/
def add_path (e : ClientEngine F) (path_id : PathId) (iface : Interface) (dialled : Dialled) :
    ClientEngine F :=
  match dialled with
  | .error _ => e
  | .ok (accredited, transport) =>
    if accredited ≠ e.shared.session.session_id then e
    else match e.shared.session.add_path transport path_id with
      | (_, .error _) => e
      | (session, .ok ()) =>
        { e with
          shared := { e.shared with
            session
            metrics := if path_id ∈ e.shared.metrics then e.shared.metrics
              else e.shared.metrics.insert path_id { PathMetrics.default with reachable := true } }
          path_names := e.path_names.insert path_id iface.id
          paths := session.path_count
          tracked := e.tracked.insert path_id transport
          running := e.running ++ tasks path_id transport }

/-- The candidates that are not in the snapshot of the table are dialled in turn. -/
def add_new (current_paths : List PathId) (dial : ℕ → Dialled) :
    ℕ → ClientEngine F → List (PathId × Interface) → ClientEngine F
  | _, e, [] => e
  | i, e, (path_id, iface) :: rest =>
    add_new current_paths dial (i + 1)
      (if path_id ∈ current_paths then e else e.add_path path_id iface (dial i)) rest

/-- A gone path leaves the session and all tables, and its tasks are aborted if the loop has
spawned them. -/
def remove_path (e : ClientEngine F) (path_id : PathId) : ClientEngine F :=
  let session := (e.shared.session.remove_path path_id).1
  { e with
    shared := { e.shared with session, metrics := e.shared.metrics.erase path_id }
    path_names := e.path_names.erase path_id
    probe_misses := e.probe_misses.erase path_id
    health_changed_at := e.health_changed_at.erase path_id
    paths := session.path_count
    tracked := e.tracked.erase path_id
    absent_for := e.absent_for.erase path_id
    running := match e.tracked.lookup path_id with
      | some transport => e.running.filter (fun t => t ∉ tasks path_id transport)
      | none => e.running }

/-- The snapshot's paths that are no candidates. -/
def to_remove (current_paths candidates : List PathId) : List PathId :=
  current_paths.filter (fun path_id => path_id ∉ candidates)

/-- The ticks a path has been absent, after this tick. -/
def absent_after (current_paths candidates : List PathId) (absent_for : Map PathId ℕ) :
    Map PathId ℕ :=
  current_paths.foldl (fun counts path_id => counts.insert path_id
    (if path_id ∈ to_remove current_paths candidates then (counts.lookup path_id).getD 0 + 1
    else 0)) absent_for

/-- The paths that have been absent for long enough. -/
def remove_now (current_paths candidates : List PathId) (absent_for : Map PathId ℕ) :
    List PathId :=
  (to_remove current_paths candidates).filter (fun path_id => RESCAN_GRACE_TICKS ≤
    ((absent_after current_paths candidates absent_for).lookup path_id).getD 0)

/-- The path numbers of the candidates of a tick. -/
def candidate_paths (e : ClientEngine F) (scan : List Interface) : List PathId :=
  (e.path_map.ids_for (filter_candidates scan)).2.map Prod.fst

/-- The first half of a tick: the candidates are numbered, and new ones are dialled. -/
def add_candidates (e : ClientEngine F) (scan : List Interface) (dial : ℕ → Dialled) :
    ClientEngine F :=
  let ids := e.path_map.ids_for (filter_candidates scan)
  add_new e.shared.session.path_ids dial 0 { e with path_map := ids.1 } ids.2

/-- One tick of the loop, after a scan that succeeded. The snapshot of the table is from its
beginning. -/
def rescan (e : ClientEngine F) (scan : List Interface) (dial : ℕ → Dialled) : ClientEngine F :=
  let current_paths := e.shared.session.path_ids
  let candidates := e.candidate_paths scan
  let added := e.add_candidates scan dial
  (remove_now current_paths candidates added.absent_for).foldl remove_path
    { added with absent_for := absent_after current_paths candidates added.absent_for }

/-- `fail_path`, with what it tells the gateway. -/
def fail_path (e : ClientEngine F) (orders : Orders F) (dead : PathId) :
    ClientEngine F × List (PathId × ControlMsg F) :=
  if (e.shared.metrics.lookup dead).any (fun m => !m.reachable) = true then (e, [])
  else
    let failed := e.shared.fail_path orders dead
    ({ e with shared := failed.1, health_changed_at := e.health_changed_at.erase dead }, failed.2)

/-! ## What a rescan changes -/

section Rescan

variable {e e' : ClientEngine F} {path_id : PathId} {iface : Interface} {transport : Connection}
  {current_paths candidates gone : List PathId} {dial : ℕ → Dialled}
  {ids : List (PathId × Interface)}

/-- The fields that adding and removing paths leave alone. -/
structure Frame (e e' : ClientEngine F) : Prop where
  session_id : e'.shared.session.session_id = e.shared.session.session_id
  path_map : e'.path_map = e.path_map
  ended : e'.ended = e.ended

theorem path_id_of_mem_tasks {t : PathTask} (h : t ∈ tasks path_id transport) :
    t.path_id = path_id := by
  simp only [tasks, List.mem_cons, List.not_mem_nil, or_false] at h
  rcases h with rfl | rfl | rfl <;> rfl

omit [F32 F] in
theorem Frame.refl (e : ClientEngine F) : Frame e e := ⟨rfl, rfl, rfl⟩

omit [F32 F] in
theorem Frame.trans {e'' : ClientEngine F} (h : Frame e e') (h' : Frame e' e'') : Frame e e'' :=
  ⟨h'.session_id.trans h.session_id, h'.path_map.trans h.path_map, h'.ended.trans h.ended⟩

/-- **What adding paths does**: the table, the names and the tasks grow by candidates that were
dialled with success. -/
structure Adds (current_paths : List PathId) (dial : ℕ → Dialled)
    (ids : List (PathId × Interface)) (e e' : ClientEngine F) : Prop where
  frame : Frame e e'
  absent_for : e'.absent_for = e.absent_for
  kept : ∀ {p c}, e.shared.session.paths.lookup p = some c →
    e'.shared.session.paths.lookup p = some c
  fresh : ∀ {p c}, e'.shared.session.paths.lookup p = some c →
    e.shared.session.paths.lookup p = some c ∨ p ∈ ids.map Prod.fst ∧
      (∃ i, dial i = .ok (e.shared.session.session_id, c)) ∧ tasks p c ⊆ e'.running
  running : e.running ⊆ e'.running
  started : ∀ t ∈ e'.running, t ∈ e.running ∨ e.shared.session.paths.lookup t.path_id = none
  names : ∀ {p name}, e'.path_names.lookup p = some name →
    e.path_names.lookup p = some name ∨ ∃ iface, (p, iface) ∈ ids ∧ iface.id = name
  all : (∀ i, ∃ c, dial i = .ok (e.shared.session.session_id, c)) →
    ∀ p ∈ ids.map Prod.fst, p ∉ current_paths → p ∈ e'.shared.session.paths

omit [F32 F] in
/-- Nothing is added, and a candidate that should have been is bound. -/
theorem Adds.refl {ids : List (PathId × Interface)}
    (hall : (∀ i, ∃ c, dial i = .ok (e.shared.session.session_id, c)) →
      ∀ p ∈ ids.map Prod.fst, p ∉ current_paths → p ∈ e.shared.session.paths) :
    Adds current_paths dial ids e e :=
  ⟨.refl e, rfl, fun h => h, .inl, List.Subset.refl _, fun _ => .inl, .inl, hall⟩

omit [F32 F] in
theorem Adds.cons {e₁ : ClientEngine F} (h : Adds current_paths dial [(path_id, iface)] e e₁)
    (h' : Adds current_paths dial ids e₁ e') :
    Adds current_paths dial ((path_id, iface) :: ids) e e' := by
  refine ⟨h.frame.trans h'.frame, h'.absent_for.trans h.absent_for, fun hl => h'.kept (h.kept hl),
    ?_, fun t ht => h'.running (h.running ht), ?_, ?_, ?_⟩
  · intro p c hl
    rcases h'.fresh hl with hl | ⟨hp, hdial, htasks⟩
    · rcases h.fresh hl with hl | ⟨hp, hdial, htasks⟩
      · exact .inl hl
      · refine .inr ⟨?_, hdial, fun t ht => h'.running (htasks ht)⟩
        rw [List.mem_singleton.mp hp]
        exact List.mem_cons_self
    · rw [h.frame.session_id] at hdial
      exact .inr ⟨List.mem_cons_of_mem _ hp, hdial, htasks⟩
  · intro t ht
    rcases h'.started t ht with ht | hnone
    · exact h.started t ht
    · refine .inr (Option.eq_none_iff_forall_ne_some.mpr fun c hc => ?_)
      rw [h.kept hc] at hnone
      contradiction
  · intro p name hl
    rcases h'.names hl with hl | ⟨iface', hmem, rfl⟩
    · rcases h.names hl with hl | ⟨iface', hmem, rfl⟩
      · exact .inl hl
      · exact .inr ⟨iface', List.mem_cons.mpr (.inl (List.mem_singleton.mp hmem)), rfl⟩
    · exact .inr ⟨iface', List.mem_cons_of_mem _ hmem, rfl⟩
  · intro hall p hp hnew
    rcases List.mem_cons.mp hp with heq | hp
    · have hbound := h.all hall p (List.mem_singleton.mpr heq) hnew
      obtain ⟨c, hc⟩ := AList.mem_iff_lookup.mp hbound
      exact AList.mem_of_lookup (h'.kept hc)
    · refine h'.all ?_ p hp hnew
      rwa [h.frame.session_id]

/-- One candidate. -/
theorem adds_add_path (current_paths : List PathId) (e : ClientEngine F) (path_id : PathId)
    (iface : Interface) (i : ℕ) :
    Adds current_paths dial [(path_id, iface)] e (e.add_path path_id iface (dial i)) := by
  unfold add_path
  cases hdial : dial i with
  | error error =>
    refine .refl fun hall => ?_
    obtain ⟨c, hc⟩ := hall i
    rw [hdial] at hc
    contradiction
  | ok dialled =>
    obtain ⟨accredited, transport⟩ := dialled
    dsimp only
    by_cases hsession : accredited = e.shared.session.session_id
    · rw [if_neg (not_not.mpr hsession)]
      unfold Session.add_path
      by_cases hbound : path_id ∈ e.shared.session.paths
      · rw [if_pos hbound]
        refine .refl fun _ p hp _ => ?_
        rw [List.mem_singleton.mp hp]
        exact hbound
      · rw [if_neg hbound]
        have hfresh : e.shared.session.paths.lookup path_id = none :=
          AList.lookup_eq_none.mpr hbound
        refine ⟨⟨rfl, rfl, rfl⟩, rfl, ?_, ?_, List.subset_append_left _ _, ?_, ?_, ?_⟩
        · intro p c hl
          refine AList.lookup_insert_new ?_ hl
          exact hfresh
        · intro p c hl
          rcases AList.of_lookup_insert hl with hl | ⟨rfl, rfl⟩
          · exact .inl hl
          · refine .inr ⟨List.mem_singleton.mpr rfl, ⟨i, ?_⟩, List.subset_append_right _ _⟩
            rw [hdial, hsession]
        · intro t ht
          refine (List.mem_append.mp ht).imp id fun ht => ?_
          rw [path_id_of_mem_tasks ht]
          exact hfresh
        · intro p name hl
          rcases AList.of_lookup_insert hl with hl | ⟨rfl, rfl⟩
          · exact .inl hl
          · exact .inr ⟨iface, List.mem_singleton.mpr rfl, rfl⟩
        · intro _ p hp _
          rw [List.mem_singleton.mp hp]
          exact (AList.mem_insert _).mpr (.inl rfl)
    · rw [if_pos hsession]
      refine .refl fun hall => ?_
      obtain ⟨c, hc⟩ := hall i
      rw [hdial] at hc
      exact absurd (congrArg Prod.fst (Except.ok.inj hc)) hsession

theorem adds_add_new (current_paths : List PathId) (dial : ℕ → Dialled)
    (ids : List (PathId × Interface)) (i : ℕ) (e : ClientEngine F) :
    Adds current_paths dial ids e (add_new current_paths dial i e ids) := by
  induction ids generalizing i e with
  | nil => exact .refl (by simp)
  | cons entry ids ih =>
    obtain ⟨path_id, iface⟩ := entry
    unfold add_new
    by_cases hcurrent : path_id ∈ current_paths
    · rw [if_pos hcurrent]
      refine Adds.cons (.refl ?_) (ih (i + 1) e)
      intro _ p hp hnew
      rw [List.mem_singleton.mp hp] at hnew
      exact absurd hcurrent hnew
    · rw [if_neg hcurrent]
      exact (adds_add_path current_paths e path_id iface i).cons (ih (i + 1) _)

/-- **What removing paths does**: their entries and the tasks that the loop knows go, and nothing
else does. -/
structure Removes (gone : List PathId) (e e' : ClientEngine F) : Prop where
  frame : Frame e e'
  paths : ∀ p, e'.shared.session.paths.lookup p =
    if p ∈ gone then none else e.shared.session.paths.lookup p
  names : ∀ {p name}, e'.path_names.lookup p = some name → e.path_names.lookup p = some name
  absent_for : ∀ p, p ∉ gone → e'.absent_for.lookup p = e.absent_for.lookup p
  running : ∀ t ∈ e.running, t.path_id ∉ gone → t ∈ e'.running
  stopped : e'.running ⊆ e.running

theorem removes_remove_path (e : ClientEngine F) (path_id : PathId) :
    Removes [path_id] e (e.remove_path path_id) := by
  refine ⟨⟨?_, rfl, rfl⟩, ?_, AList.lookup_of_erase, ?_, ?_, ?_⟩
  · show (e.shared.session.remove_path path_id).1.session_id = _
    unfold Session.remove_path
    split <;> rfl
  · intro p
    show (e.shared.session.remove_path path_id).1.paths.lookup p = _
    unfold Session.remove_path
    simp only [List.mem_singleton]
    by_cases hbound : path_id ∈ e.shared.session.paths
    · rw [if_neg (not_not.mpr hbound)]
      exact AList.lookup_erase_of
    · rw [if_pos hbound]
      by_cases hp : p = path_id
      · rw [if_pos hp, hp]
        exact AList.lookup_eq_none.mpr hbound
      · rw [if_neg hp]
  · intro p hp
    exact AList.lookup_erase_ne (by simpa using hp)
  · intro t ht hp
    show t ∈ match e.tracked.lookup path_id with
      | some transport => e.running.filter (fun t => t ∉ tasks path_id transport)
      | none => e.running
    cases e.tracked.lookup path_id with
    | none => exact ht
    | some transport =>
      -- the tasks of another path are not aborted
      refine List.mem_filter.mpr ⟨ht, decide_eq_true ?_⟩
      intro hmem
      exact hp (List.mem_singleton.mpr (path_id_of_mem_tasks hmem))
  · show (match e.tracked.lookup path_id with
      | some transport => e.running.filter (fun t => t ∉ tasks path_id transport)
      | none => e.running) ⊆ e.running
    split
    · exact List.filter_subset_self _
    · exact List.Subset.refl _

theorem removes_foldl (gone : List PathId) (e : ClientEngine F) :
    Removes gone e (gone.foldl remove_path e) := by
  induction gone generalizing e with
  | nil =>
    refine ⟨.refl e, ?_, fun h => h, fun _ _ => rfl, fun _ h _ => h, List.Subset.refl _⟩
    simp
  | cons path_id gone ih =>
    have hone := removes_remove_path e path_id
    have hrest := ih (e.remove_path path_id)
    refine ⟨hone.frame.trans hrest.frame, ?_, fun hl => hone.names (hrest.names hl), ?_, ?_,
      fun t ht => hone.stopped (hrest.stopped ht)⟩
    · intro p
      rw [List.foldl_cons, hrest.paths, hone.paths]
      by_cases hp : p = path_id <;> simp [hp]
    · intro p hp
      rw [List.mem_cons, not_or] at hp
      exact (hrest.absent_for p hp.2).trans (hone.absent_for p (by simpa using hp.1))
    · intro t ht hp
      rw [List.mem_cons, not_or] at hp
      exact hrest.running t (hone.running t ht (by simpa using hp.1)) hp.2

/-- The count of one path after a tick. -/
theorem absent_after_lookup (hnodup : current_paths.Nodup) (counts : Map PathId ℕ) (p : PathId) :
    (absent_after current_paths candidates counts).lookup p =
      if p ∈ current_paths then
        some (if p ∈ candidates then 0 else (counts.lookup p).getD 0 + 1)
      else counts.lookup p := by
  have hother : ∀ (counts : Map PathId ℕ) (path_id : PathId), path_id ≠ p →
      (counts.insert path_id (if path_id ∈ to_remove current_paths candidates then
        (counts.lookup path_id).getD 0 + 1 else 0)).lookup p = counts.lookup p :=
    fun _ _ hne => AList.lookup_insert_ne hne.symm
  rw [absent_after]
  by_cases hp : p ∈ current_paths
  · obtain ⟨before, hbefore, hfold⟩ := foldl_view_of_mem (fun path_id : PathId => path_id)
      (fun counts : Map PathId ℕ => counts.lookup p) hother counts (by rwa [List.map_id']) hp rfl
    rw [if_pos hp, hfold, AList.lookup_insert, hbefore]
    by_cases hcandidate : p ∈ candidates
    · simp [to_remove, hcandidate]
    · simp [to_remove, hcandidate, hp]
  · rw [if_neg hp]
    exact foldl_view_of_notMem (fun path_id : PathId => path_id)
      (fun counts : Map PathId ℕ => counts.lookup p) hother current_paths counts
      (by rwa [List.map_id'])

/-- A path is removed when it has been absent for long enough. -/
theorem mem_remove_now (hnodup : current_paths.Nodup) {counts : Map PathId ℕ} {p : PathId} :
    p ∈ remove_now current_paths candidates counts ↔ p ∈ current_paths ∧ p ∉ candidates ∧
      RESCAN_GRACE_TICKS ≤ (counts.lookup p).getD 0 + 1 := by
  unfold remove_now to_remove
  rw [List.mem_filter, List.mem_filter, decide_eq_true_eq, decide_eq_true_eq, and_assoc]
  refine and_congr_right fun hcurrent => and_congr_right fun hnot => ?_
  rw [absent_after_lookup hnodup, if_pos hcurrent, if_neg hnot]
  rfl

/-- **What a tick does.** Candidates stay and get bound, and a path that is none stays while its
absence is short. -/
structure Rescans (scan : List Interface) (dial : ℕ → Dialled) (e e' : ClientEngine F) : Prop where
  session_id : e'.shared.session.session_id = e.shared.session.session_id
  ended : e'.ended = e.ended
  path_map : e'.path_map = (e.path_map.ids_for (filter_candidates scan)).1
  kept : ∀ {p c}, p ∈ e.candidate_paths scan → e.shared.session.paths.lookup p = some c →
    e'.shared.session.paths.lookup p = some c
  fresh : ∀ {p c}, e'.shared.session.paths.lookup p = some c →
    e.shared.session.paths.lookup p = some c ∨ p ∈ e.candidate_paths scan ∧
      (∃ i, dial i = .ok (e.shared.session.session_id, c)) ∧ tasks p c ⊆ e'.running
  running : ∀ t ∈ e.running, t.path_id ∈ e.candidate_paths scan → t ∈ e'.running
  started : ∀ t ∈ e'.running, t ∈ e.running ∨ e.shared.session.paths.lookup t.path_id = none
  names : ∀ {p name}, e'.path_names.lookup p = some name → e.path_names.lookup p = some name ∨
    ∃ iface, (p, iface) ∈ (e.path_map.ids_for (filter_candidates scan)).2 ∧ iface.id = name
  all : (∀ i, ∃ c, dial i = .ok (e.shared.session.session_id, c)) →
    ∀ p ∈ e.candidate_paths scan, p ∈ e'.shared.session.paths
  absent : ∀ p ∈ e'.shared.session.paths, p ∉ e.candidate_paths scan →
    (e.absent_for.lookup p).getD 0 + 1 < RESCAN_GRACE_TICKS ∧
      e'.absent_for.lookup p = some ((e.absent_for.lookup p).getD 0 + 1)

/-- The two halves of a tick. -/
theorem rescan_halves (e : ClientEngine F) (scan : List Interface) (dial : ℕ → Dialled) :
    ∃ added : ClientEngine F, Adds e.shared.session.path_ids dial
        (e.path_map.ids_for (filter_candidates scan)).2
        { e with path_map := (e.path_map.ids_for (filter_candidates scan)).1 } added ∧
      Removes (remove_now e.shared.session.path_ids (e.candidate_paths scan) e.absent_for)
        { added with
          absent_for :=
            absent_after e.shared.session.path_ids (e.candidate_paths scan) e.absent_for }
        (e.rescan scan dial) := by
  have hadds := adds_add_new e.shared.session.path_ids dial
    (e.path_map.ids_for (filter_candidates scan)).2 0
    { e with path_map := (e.path_map.ids_for (filter_candidates scan)).1 }
  refine ⟨e.add_candidates scan dial, hadds, ?_⟩
  have hcounts : (e.add_candidates scan dial).absent_for = e.absent_for := hadds.absent_for
  have hremoves : Removes (remove_now e.shared.session.path_ids (e.candidate_paths scan)
      (e.add_candidates scan dial).absent_for)
      { e.add_candidates scan dial with
        absent_for := absent_after e.shared.session.path_ids (e.candidate_paths scan)
          (e.add_candidates scan dial).absent_for }
      (e.rescan scan dial) := removes_foldl _ _
  rwa [hcounts] at hremoves

theorem rescans_rescan (e : ClientEngine F) (scan : List Interface) (dial : ℕ → Dialled) :
    Rescans scan dial e (e.rescan scan dial) := by
  have hcurrent (p : PathId) : p ∈ e.shared.session.path_ids ↔ p ∈ e.shared.session.paths :=
    AList.mem_keys
  obtain ⟨added, hadds, hremoves⟩ := rescan_halves e scan dial
  generalize e.rescan scan dial = e' at hremoves ⊢
  have hgone {p : PathId} :
      p ∈ remove_now e.shared.session.path_ids (e.candidate_paths scan) e.absent_for ↔
        p ∈ e.shared.session.path_ids ∧ p ∉ e.candidate_paths scan ∧
          RESCAN_GRACE_TICKS ≤ (e.absent_for.lookup p).getD 0 + 1 :=
    mem_remove_now e.shared.session.paths.keys_nodup
  generalize remove_now e.shared.session.path_ids (e.candidate_paths scan) e.absent_for = gone
    at hgone hremoves
  have hstays {p : PathId} (hp : p ∈ e.candidate_paths scan) : p ∉ gone :=
    fun hmem => (hgone.mp hmem).2.1 hp
  have hlookup {p : PathId} (hp : p ∉ gone) :
      e'.shared.session.paths.lookup p = added.shared.session.paths.lookup p := by
    rw [hremoves.paths, if_neg hp]
  have hleft {p : PathId} {c : Connection} (hl : e'.shared.session.paths.lookup p = some c) :
      p ∉ gone := by
    intro hp
    rw [hremoves.paths, if_pos hp] at hl
    contradiction
  refine ⟨hremoves.frame.session_id.trans hadds.frame.session_id,
    hremoves.frame.ended.trans hadds.frame.ended,
    hremoves.frame.path_map.trans hadds.frame.path_map,
    ?_, ?_, ?_, ?_, fun hl => hadds.names (hremoves.names hl), ?_, ?_⟩
  · intro p c hp hl
    rw [hlookup (hstays hp)]
    exact hadds.kept hl
  · intro p c hl
    have hadded := hl
    rw [hlookup (hleft hl)] at hadded
    refine (hadds.fresh hadded).imp id fun ⟨hp, hdial, htasks⟩ => ⟨hp, hdial, fun t ht => ?_⟩
    refine hremoves.running t (htasks ht) ?_
    rw [path_id_of_mem_tasks ht]
    exact hstays hp
  · intro t ht hp
    exact hremoves.running t (hadds.running ht) (hstays hp)
  · intro t ht
    exact hadds.started t (hremoves.stopped ht)
  · intro hall p hp
    have hbound : p ∈ added.shared.session.paths := by
      by_cases hold : p ∈ e.shared.session.paths
      · obtain ⟨c, hc⟩ := AList.mem_iff_lookup.mp hold
        exact AList.mem_of_lookup (hadds.kept hc)
      · exact hadds.all hall p hp (fun hmem => hold ((hcurrent p).mp hmem))
    obtain ⟨c, hc⟩ := AList.mem_iff_lookup.mp hbound
    exact AList.mem_of_lookup ((hlookup (hstays hp)).trans hc)
  · intro p hbound hp
    obtain ⟨c, hc⟩ := AList.mem_iff_lookup.mp hbound
    have hshort := hleft hc
    -- it was in the snapshot, and was not absent for long enough
    have hold : p ∈ e.shared.session.path_ids := by
      refine (hcurrent p).mpr ?_
      rw [hlookup hshort] at hc
      rcases hadds.fresh hc with hl | ⟨hcandidate, -⟩
      · exact AList.mem_of_lookup hl
      · exact absurd hcandidate hp
    refine ⟨Nat.lt_of_not_le fun hlong => hshort (hgone.mpr ⟨hold, hp, hlong⟩), ?_⟩
    rw [hremoves.absent_for p hshort]
    refine (absent_after_lookup e.shared.session.paths.keys_nodup e.absent_for p).trans ?_
    rw [if_neg hp]
    exact if_pos hold

end Rescan

end ClientEngine

/-! ## The machine -/

/-- What happens to the engine. -/
inductive EngineEvent (F : Type) where
  /-- A tick of the rescan loop. -/
  | Rescan (scan : Except Error (List Interface)) (dial : ℕ → Dialled)
  /-- A connection ends. -/
  | Ends (transport : Connection)
  /-- A task reports its path and stops. The connection need not have ended: a reader stops at a
  datagram that is no envelope as well. -/
  | Fails (task : PathTask) (orders : Orders F)
  /-- A path has answered too few probes. -/
  | Unanswered (path_id : PathId) (orders : Orders F)
  /-- A path is measured. -/
  | Measures (path_id : PathId) (metrics : PathMetrics F)
  /-- A round of `uplink_loop`. -/
  | Round (orders orders' : Orders F)

namespace EngineEvent

variable {F : Type} [F32 F]

/-- One event, with what the gateway is told. -/
def step (e : ClientEngine F) :
    EngineEvent F → Option (ClientEngine F × List (PathId × ControlMsg F))
  | .Rescan (.error _) _ => some (e, [])
  | .Rescan (.ok scan) dial => some (e.rescan scan dial, [])
  | .Ends transport => some ({ e with ended := transport :: e.ended }, [])
  | .Fails task orders =>
    if task ∈ e.running then
      some (ClientEngine.fail_path { e with running := e.running.erase task } orders
        task.path_id)
    else none
  | .Unanswered path_id orders =>
    if ∃ task ∈ e.running, task.kind = .Probe ∧ task.path_id = path_id then
      some (ClientEngine.fail_path { e with probe_misses := e.probe_misses.erase path_id } orders
        path_id)
    else none
  | .Measures path_id metrics =>
    some ({ e with shared := { e.shared with
      metrics := e.shared.metrics.insert path_id metrics } }, [])
  | .Round orders orders' =>
    let steered := e.shared.steer orders orders'
    some ({ e with shared := steered.1 }, steered.2)

omit [F32 F] in
/-- The identities of the interfaces that a tick takes as candidates. -/
def candidates : EngineEvent F → List String
  | .Rescan (.ok scan) _ => (filter_candidates scan).map (·.id)
  | _ => []

end EngineEvent

end StreamGuard.V1
