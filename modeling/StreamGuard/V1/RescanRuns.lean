/-
What comes of the rescans in the long run.

The numbers at the start and those of the rescans are given out by two maps. They are one
numbering exactly if the rescans meet the interfaces in the order of the first scan, as far as
that goes, and there are numbers enough. And under an interface set that does not change the
table becomes that of the candidates, but a path of it that has stopped working stays as it is.
-/
import StreamGuard.V1.Rescan

set_option autoImplicit false

namespace StreamGuard.V1

open StreamGuard StreamGuard.Lib

/-! ## What one event changes -/

section Shared

variable {F : Type} [F32 F] {s : Shared F} {orders orders' : Orders F} {path_id next : PathId}

@[simp] theorem Shared.tell_session : (s.tell orders next).1.session = s.session := by
  simp [Shared.tell]

omit [F32 F] in
@[simp] theorem Session.set_active_path_session_id {session : Session F} :
    (session.set_active_path path_id).1.session_id = session.session_id := by
  rw [Session.set_active_path]
  split
  · rfl
  · rfl

/-- A session has the paths and the number of another. -/
def Session.SamePaths (session session' : Session F) : Prop :=
  session'.paths = session.paths ∧ session'.session_id = session.session_id

/-- A failover moves the active path only. -/
theorem Shared.fail_path_same (s : Shared F) (orders : Orders F) (dead : PathId) :
    s.session.SamePaths (s.fail_path orders dead).1.session := by
  have hfail : s.session.SamePaths (s.fail dead).1.session := by
    rw [Shared.fail]
    split
    · exact ⟨rfl, rfl⟩
    · dsimp only
      split
      · exact ⟨rfl, rfl⟩
      · exact ⟨Session.set_active_path_paths, Session.set_active_path_session_id⟩
  rw [Shared.fail_path]
  split
  · next heq => rwa [heq] at hfail
  · next heq =>
    rw [heq] at hfail
    rwa [Shared.tell_session]

/-- And so does a round of the uplink. -/
theorem Shared.steer_same (s : Shared F) (orders orders' : Orders F) :
    s.session.SamePaths (s.steer orders orders').1.session := by
  rw [Shared.steer]
  dsimp only
  split
  · rw [Shared.tell_session]
    exact ⟨Session.set_active_path_paths, Session.set_active_path_session_id⟩
  · exact ⟨rfl, rfl⟩

end Shared

section Engine

variable {F : Type} [F32 F] {e e' t : ClientEngine F} {event : EngineEvent F}
  {events : List (EngineEvent F)} {told : List (PathId × ControlMsg F)}
  {scan : List Interface} {dial : ℕ → Dialled} {order started : List String}

/-- The event is a tick whose scan succeeds. -/
def EngineEvent.scans : EngineEvent F → Bool
  | .Rescan (.ok _) _ => true
  | _ => false

/-- **What an event other than a tick does**: a connection ends, or a task stops. -/
structure Quiet (event : EngineEvent F) (e e' : ClientEngine F) : Prop where
  candidates : event.candidates = []
  scans : event.scans = false
  session : e.shared.session.SamePaths e'.shared.session
  path_map : e'.path_map = e.path_map
  path_names : e'.path_names = e.path_names
  absent_for : e'.absent_for = e.absent_for
  ended : ∀ c, c ∈ e'.ended ↔ c ∈ e.ended ∨ event = .Ends c
  stopped : e'.running ⊆ e.running
  running : ∀ t ∈ e.running, (∀ orders, event ≠ .Fails t orders) → t ∈ e'.running

omit [F32 F] in
theorem Quiet.refl (hcandidates : event.candidates = []) (hscans : event.scans = false)
    (hends : ∀ c, event ≠ .Ends c) : Quiet event e e :=
  ⟨hcandidates, hscans, ⟨rfl, rfl⟩, rfl, rfl, rfl, by simp [hends], List.Subset.refl _,
    fun _ h _ => h⟩

/-- A failover is quiet if what precedes it is. -/
theorem Quiet.fail_path (h : Quiet event e e') (orders : Orders F) (dead : PathId) :
    Quiet event e (e'.fail_path orders dead).1 := by
  rw [ClientEngine.fail_path]
  split
  · exact h
  · obtain ⟨hpaths, hsession⟩ := e'.shared.fail_path_same orders dead
    exact { h with session := ⟨hpaths.trans h.session.1, hsession.trans h.session.2⟩ }

/-- **What an event does.** -/
theorem step_cases (h : event.step e = some (e', told)) :
    (∃ scan dial, event = .Rescan (.ok scan) dial ∧ ClientEngine.Rescans scan dial e e') ∨
      Quiet event e e' := by
  cases event with
  | Rescan scan dial =>
    cases scan with
    | error error =>
      obtain ⟨rfl, -⟩ := step_inj h
      exact .inr (.refl rfl rfl (by simp))
    | ok scan =>
      obtain ⟨rfl, -⟩ := step_inj h
      exact .inl ⟨scan, dial, rfl, e.rescans_rescan scan dial⟩
  | Ends transport =>
    obtain ⟨rfl, -⟩ := step_inj h
    refine .inr ⟨rfl, rfl, ⟨rfl, rfl⟩, rfl, rfl, rfl, ?_, List.Subset.refl _, fun _ h _ => h⟩
    intro c
    rw [List.mem_cons, or_comm, EngineEvent.Ends.injEq, eq_comm]
  | Fails task orders =>
    rw [EngineEvent.step] at h
    split at h
    · obtain rfl : _ = e' := congrArg Prod.fst (Option.some.inj h)
      refine .inr (Quiet.fail_path ?_ orders task.path_id)
      refine ⟨rfl, rfl, ⟨rfl, rfl⟩, rfl, rfl, rfl, by simp, List.erase_subset, ?_⟩
      intro t ht hother
      have hne : t ≠ task := by
        rintro rfl
        exact hother orders rfl
      exact (List.mem_erase_of_ne hne).mpr ht
    · contradiction
  | Unanswered path_id orders =>
    rw [EngineEvent.step] at h
    split at h
    · obtain rfl : _ = e' := congrArg Prod.fst (Option.some.inj h)
      refine .inr (Quiet.fail_path ?_ orders path_id)
      exact ⟨rfl, rfl, ⟨rfl, rfl⟩, rfl, rfl, rfl, by simp, List.Subset.refl _, fun _ h _ => h⟩
    · contradiction
  | Measures path_id metrics =>
    obtain ⟨rfl, -⟩ := step_inj h
    exact .inr ⟨rfl, rfl, ⟨rfl, rfl⟩, rfl, rfl, rfl, by simp, List.Subset.refl _, fun _ h _ => h⟩
  | Round orders orders' =>
    obtain ⟨rfl, -⟩ := step_inj h
    exact .inr ⟨rfl, rfl, e.shared.steer_same orders orders', rfl, rfl, rfl, by simp,
      List.Subset.refl _, fun _ h _ => h⟩

/-! ## One interface, one path -/

/-- The map of `main` after the first scan. -/
def first_map (scan : List Interface) : PathMap := (PathMap.new.ids_for (filter_candidates scan)).1

/-- The interfaces of the first scan in their order. -/
def first_order (scan : List Interface) : List String :=
  first_seen [] ((filter_candidates scan).map (·.id))

/-- The interfaces of the rescans in the order in which they first appear. -/
def rescan_order (events : List (EngineEvent F)) : List String :=
  first_seen [] (events.flatMap EngineEvent.candidates)

/-- The candidates that a tick dials. -/
def ClientEngine.dials (e : ClientEngine F) (scan : List Interface) : List Interface :=
  ((e.path_map.ids_for (filter_candidates scan)).2.filter
    (fun c => c.1 ∉ e.shared.session.path_ids)).map Prod.snd

/-- The path of an interface that is a candidate is not removed, and none is dialled for it. -/
def KeepsPresent (e : ClientEngine F) : EngineEvent F → Prop
  | .Rescan (.ok scan) dial => ∀ iface ∈ filter_candidates scan, ∀ path_id transport,
      e.path_names.lookup path_id = some iface.id →
      e.shared.session.paths.lookup path_id = some transport →
      (e.rescan scan dial).shared.session.paths.lookup path_id = some transport ∧
        iface ∉ e.dials scan
  | _ => True

/-- **One interface, one path**, over a run from `e` to `t`: the map of the start and that of the
rescans number alike, no number is changed, and no present interface loses its path. -/
structure OnePath (scan : List Interface) (e : ClientEngine F) (events : List (EngineEvent F))
    (t : ClientEngine F) : Prop where
  agree : ∀ {i p q}, (first_map scan).by_interface.lookup i = some p →
    t.path_map.by_interface.lookup i = some q → p = q
  apart : ∀ {i j p},
    (first_map scan).by_interface.lookup i = some p ∨ t.path_map.by_interface.lookup i = some p →
    (first_map scan).by_interface.lookup j = some p ∨ t.path_map.by_interface.lookup j = some p →
    i = j
  keeps : ∀ {before after s told i p}, events = before ++ after →
    exec EngineEvent.step e before = some (s, told) →
    s.path_map.by_interface.lookup i = some p → t.path_map.by_interface.lookup i = some p
  present : Along EngineEvent.step KeepsPresent e events

omit [F32 F] in
theorem numbers_first_map (scan : List Interface) : (first_map scan).Numbers (first_order scan) :=
  PathMap.numbers_new.ids_for _

/-- The map has numbered in some order, and a path is named for the interface whose number it has
in one of the two maps. -/
structure Named (started order : List String) (e : ClientEngine F) : Prop where
  numbers : e.path_map.Numbers order
  names : ∀ {p name}, e.path_names.lookup p = some name →
    Assigned PathMap.path_id started name p ∨ Assigned PathMap.path_id order name p

theorem named_start {session_id : SessionId} {dial : ℕ → Connection} {threshold : F}
    (h : ClientEngine.start session_id scan dial threshold = .ok e) :
    Named (first_order scan) [] e := by
  rw [ClientEngine.start] at h
  dsimp only at h
  split at h
  · contradiction
  · split at h
    · contradiction
    · obtain rfl := Except.ok.inj h
      refine ⟨PathMap.numbers_new, fun hl => .inl ?_⟩
      rcases AList.of_lookup_foldl_insert hl with hnone | ⟨⟨p, iface⟩, hmem, rfl, rfl⟩
      · simp at hnone
      · exact ((numbers_first_map scan).lookup _ _).mp (PathMap.lookup_of_mem_ids_for hmem)

theorem Named.step (h : Named started order e) (hs : event.step e = some (e', told)) :
    Named started (first_seen order event.candidates) e' := by
  rcases step_cases hs with ⟨scan, dial, rfl, hrescans⟩ | hquiet
  · have hnumbers := h.numbers.ids_for (filter_candidates scan)
    refine ⟨hrescans.path_map ▸ hnumbers, fun hl => ?_⟩
    rcases hrescans.names hl with hl | ⟨iface, hmem, rfl⟩
    · exact (h.names hl).imp id (fun hold => hold.mono (prefix_first_seen _ _))
    · exact .inr ((hnumbers.lookup _ _).mp (PathMap.lookup_of_mem_ids_for hmem))
  · rw [hquiet.candidates]
    refine ⟨hquiet.path_map ▸ h.numbers, fun hl => h.names ?_⟩
    rwa [hquiet.path_names] at hl

theorem Named.run (h : Named started order e)
    (hrun : exec EngineEvent.step e events = some (t, told)) :
    Named started (first_seen order (events.flatMap EngineEvent.candidates)) t := by
  induction events generalizing e order told with
  | nil =>
    obtain ⟨rfl, -⟩ := step_inj hrun
    exact h
  | cons event events ih =>
    obtain ⟨e₁, o, o', hs, hrest, -⟩ := exec_cons_eq_some.mp hrun
    rw [List.flatMap_cons, first_seen_append]
    exact ih (h.step hs) hrest

/-- Where the maps number alike, an interface has the number of its path in both. -/
theorem Named.keeps_present (h : Named started order e)
    (hone : OneToOne PathMap.path_id started (first_seen order event.candidates)) :
    KeepsPresent e event := by
  cases event with
  | Rescan scan dial =>
    cases scan with
    | error error => trivial
    | ok scan =>
      intro iface hiface path_id transport hname hbound
      have hnumbers := h.numbers.ids_for (filter_candidates scan)
      have hgets {p : PathId}
          (hmem : (p, iface) ∈ (e.path_map.ids_for (filter_candidates scan)).2) : p = path_id := by
        have hnew := (hnumbers.lookup _ _).mp (PathMap.lookup_of_mem_ids_for hmem)
        rcases h.names hname with hold | hold
        · exact (hone.agree hold hnew).symm
        · exact hnew.unique hnumbers.nodup (hold.mono (prefix_first_seen _ _))
      constructor
      · obtain ⟨p, hp⟩ := PathMap.exists_mem_ids_for e.path_map hiface
        refine (e.rescans_rescan scan dial).kept ?_ hbound
        rw [← hgets hp]
        exact List.mem_map_of_mem hp
      · intro hdials
        obtain ⟨⟨p, _⟩, hmem, rfl⟩ := List.mem_map.mp hdials
        obtain ⟨hmem, hnew⟩ := List.mem_filter.mp hmem
        rw [decide_eq_true_eq, hgets hmem] at hnew
        exact hnew (AList.mem_keys.mpr (AList.mem_of_lookup hbound))
  | _ => trivial

theorem Named.along_keeps_present (h : Named started order e)
    (hrun : exec EngineEvent.step e events = some (t, told))
    (hone : OneToOne PathMap.path_id started
      (first_seen order (events.flatMap EngineEvent.candidates))) :
    Along EngineEvent.step KeepsPresent e events := by
  induction events generalizing e order told with
  | nil => trivial
  | cons event events ih =>
    obtain ⟨e₁, o, o', hs, hrest, -⟩ := exec_cons_eq_some.mp hrun
    rw [List.flatMap_cons, first_seen_append] at hone
    exact (along_cons hs).mpr ⟨h.keeps_present (hone.mono_right (prefix_first_seen _ _)),
      ih (h.step hs) hrest hone⟩

/-- A number that the rescans have given stays. -/
theorem step_keeps {i : String} {p : PathId} (hs : event.step e = some (e', told))
    (hl : e.path_map.by_interface.lookup i = some p) :
    e'.path_map.by_interface.lookup i = some p := by
  rcases step_cases hs with ⟨scan, dial, rfl, hrescans⟩ | hquiet
  · rw [hrescans.path_map]
    exact PathMap.ids_for_keeps hl _
  · rwa [hquiet.path_map]

/-! ### Sample runs -/

/-- An adapter with a gateway. -/
def nic (id : String) (ifindex : UInt32) : Interface :=
  ⟨id, ifindex, .Ethernet, .Up, some (.V4 0)⟩

/-- Ticks in which no dialling succeeds. -/
def ticks (rescans : List (List Interface)) : List (EngineEvent Exact) :=
  rescans.map (fun scan => .Rescan (.ok scan) (fun _ => .error (.Transport "closed")))

/-- New connections for all paths. -/
def redialled (i : ℕ) : Dialled := .ok (⟨1⟩, ⟨10 + i⟩)

/-- A start on a scan, and a run that leads to what `P` says. -/
def replayed (scan : List Interface) (events : List (EngineEvent Exact))
    (P : ClientEngine Exact → ClientEngine Exact → Prop) [∀ e t, Decidable (P e t)] : Bool :=
  match ClientEngine.start ⟨1⟩ scan Connection.mk (some 0 : Exact) with
  | .error _ => false
  | .ok e => (exec EngineEvent.step e events).any (fun r => decide (P e r.1))

theorem of_replayed {scan : List Interface} {events : List (EngineEvent Exact)}
    (P : ClientEngine Exact → ClientEngine Exact → Prop) [∀ e t, Decidable (P e t)]
    (h : replayed scan events P = true) :
    ∃ e t told, ClientEngine.start ⟨1⟩ scan Connection.mk (some 0 : Exact) = .ok e ∧
      exec EngineEvent.step e events = some (t, told) ∧ P e t := by
  rw [replayed] at h
  split at h
  · contradiction
  · next e hstart =>
    cases hrun : exec EngineEvent.step e events with
    | none =>
      rw [hrun] at h
      contradiction
    | some r =>
      rw [hrun] at h
      exact ⟨e, r.1, r.2, hstart, hrun, of_decide_eq_true h⟩

/-- **When one interface has one path.** -/
theorem one_interface_one_path_iff {session_id : SessionId} {dial : ℕ → Connection} {threshold : F}
    (hstart : ClientEngine.start session_id scan dial threshold = .ok e)
    (hrun : exec EngineEvent.step e events = some (t, told)) :
    OnePath scan e events t ↔
      (first_order scan).length ≤ 256 ∧ (rescan_order events).length ≤ 256 ∧
        (first_order scan <+: rescan_order events ∨ rescan_order events <+: first_order scan) := by
  have hnamed := named_start hstart
  have hnumbers : t.path_map.Numbers (rescan_order events) := (hnamed.run hrun).numbers
  have hfirst := numbers_first_map scan
  rw [← oneToOne_iff hfirst.nodup hnumbers.nodup PathMap.path_id_inj PathMap.path_id_clash]
  constructor
  · intro h
    refine ⟨?_, ?_⟩
    · intro i p q hp hq
      exact h.agree ((hfirst.lookup i p).mpr hp) ((hnumbers.lookup i q).mpr hq)
    · intro i j p hi hj
      rw [← hfirst.lookup, ← hnumbers.lookup] at hi hj
      exact h.apart hi hj
  · intro h
    refine ⟨?_, ?_, ?_, hnamed.along_keeps_present hrun h⟩
    · intro i p q hp hq
      exact h.agree ((hfirst.lookup i p).mp hp) ((hnumbers.lookup i q).mp hq)
    · intro i j p hi hj
      rw [hfirst.lookup, hnumbers.lookup] at hi hj
      exact h.apart hi hj
    · intro before after s os i p hsplit hbefore hl
      rw [hsplit] at hrun
      obtain ⟨_, hafter⟩ := exec_of_append hrun hbefore
      exact exec_invariant (I := fun e => e.path_map.by_interface.lookup i = some p)
        (fun _ _ _ _ hl hs => step_keeps hs hl) hl hafter

/-- An interface may go away for a time, and another with it. -/
theorem one_interface_one_path_sample : ∃ e t told,
    ClientEngine.start ⟨1⟩ [nic "eth0" 2, nic "wlan0" 3] Connection.mk (some 0 : Exact) = .ok e ∧
    exec EngineEvent.step e
      (ticks [[nic "eth0" 2], [nic "wlan0" 3], [nic "wlan0" 3, nic "eth0" 2]]) = some (t, told) ∧
    OnePath [nic "eth0" 2, nic "wlan0" 3] e
      (ticks [[nic "eth0" 2], [nic "wlan0" 3], [nic "wlan0" 3, nic "eth0" 2]]) t := by
  obtain ⟨e, t, told, hstart, hrun, -⟩ := of_replayed (fun _ _ => True)
    (show replayed [nic "eth0" 2, nic "wlan0" 3]
      (ticks [[nic "eth0" 2], [nic "wlan0" 3], [nic "wlan0" 3, nic "eth0" 2]]) _ = true
      by decide)
  exact ⟨e, t, told, hstart, hrun, (one_interface_one_path_iff hstart hrun).mpr
    ⟨by decide, by decide, by decide⟩⟩

/-- **An interface goes away before the first rescan**, and the other one gets its number: its own
path is removed, and the one that stays is that of the interface that went away. -/
theorem one_interface_two_paths : ∃ e t told,
    ClientEngine.start ⟨1⟩ [nic "eth0" 2, nic "wlan0" 3] Connection.mk (some 0 : Exact) = .ok e ∧
    exec EngineEvent.step e (ticks [[nic "wlan0" 3], [nic "wlan0" 3]]) = some (t, told) ∧
    (e.path_names.lookup ⟨1⟩ = some "wlan0" ∧ e.shared.session.path_ids = [⟨1⟩, ⟨0⟩] ∧
      t.path_map.by_interface.lookup "wlan0" = some ⟨0⟩ ∧ t.shared.session.path_ids = [⟨0⟩]) ∧
    ¬ OnePath [nic "eth0" 2, nic "wlan0" 3] e (ticks [[nic "wlan0" 3], [nic "wlan0" 3]]) t := by
  obtain ⟨e, t, told, hstart, hrun, hobserved⟩ := of_replayed
    (fun e t => e.path_names.lookup ⟨1⟩ = some "wlan0" ∧
      e.shared.session.path_ids = [⟨1⟩, ⟨0⟩] ∧
      t.path_map.by_interface.lookup "wlan0" = some ⟨0⟩ ∧ t.shared.session.path_ids = [⟨0⟩])
    (show replayed [nic "eth0" 2, nic "wlan0" 3] (ticks [[nic "wlan0" 3], [nic "wlan0" 3]]) _ = true
      by decide)
  refine ⟨e, t, told, hstart, hrun, hobserved, fun h => ?_⟩
  have hfirst : (first_map [nic "eth0" 2, nic "wlan0" 3]).by_interface.lookup "wlan0" =
      some ⟨1⟩ := by decide
  exact absurd (h.agree hfirst hobserved.2.2.1) (by decide)

/-! ## A set that does not change -/

/-- A path is bound to a connection that has not ended, and its reader runs. -/
def Live (e : ClientEngine F) (path_id : PathId) : Prop :=
  ∃ transport, e.shared.session.paths.lookup path_id = some transport ∧
    transport ∉ e.ended ∧ ⟨.Reader, path_id, transport⟩ ∈ e.running

/-- The table is that of the candidates, and every path in it works. -/
structure Converged (candidates : List PathId) (e : ClientEngine F) : Prop where
  table : ∀ path_id, path_id ∈ e.shared.session.paths ↔ path_id ∈ candidates
  live : ∀ path_id ∈ candidates, Live e path_id

/-- The interface set is that of `scan`, all dialling succeeds, and no candidate's path fails: its
connection does not end, and its reader stops at nothing else. -/
def Settled (scan : List Interface) (candidates : List PathId) (e : ClientEngine F) :
    EngineEvent F → Prop
  | .Rescan (.ok scan') dial =>
    (∀ i, i ∈ (filter_candidates scan').map (·.id) ↔ i ∈ (filter_candidates scan).map (·.id)) ∧
      ∀ i, ∃ transport, dial i = .ok (e.shared.session.session_id, transport) ∧
        transport ∉ e.ended
  | .Ends transport => ∀ path_id ∈ candidates,
      e.shared.session.paths.lookup path_id ≠ some transport
  | .Fails task _ => task.kind = .Reader → task.path_id ∈ candidates →
      e.shared.session.paths.lookup task.path_id = some task.transport → task.transport ∈ e.ended
  | _ => True

omit [F32 F] in
/-- The candidates' numbers of a tick are those that the map has for them afterwards. -/
theorem mem_candidate_paths {e : ClientEngine F} {path_id : PathId} :
    path_id ∈ e.candidate_paths scan ↔ ∃ i ∈ (filter_candidates scan).map (·.id),
      (e.path_map.ids_for (filter_candidates scan)).1.by_interface.lookup i = some path_id := by
  constructor
  · intro h
    obtain ⟨⟨p, iface⟩, hmem, rfl⟩ := List.mem_map.mp h
    have hiface : iface ∈ filter_candidates scan := by
      rw [← PathMap.map_snd_ids_for e.path_map (filter_candidates scan)]
      exact List.mem_map_of_mem hmem
    exact ⟨iface.id, List.mem_map_of_mem hiface, PathMap.lookup_of_mem_ids_for hmem⟩
  · rintro ⟨i, hi, hl⟩
    obtain ⟨iface, hiface, rfl⟩ := List.mem_map.mp hi
    obtain ⟨p, hp⟩ := PathMap.exists_mem_ids_for e.path_map hiface
    have hsame := PathMap.lookup_of_mem_ids_for hp
    rw [hl] at hsame
    rw [Option.some.inj hsame]
    exact List.mem_map_of_mem hp

/-- After `n` ticks: the candidates have their numbers and are bound, and another path that is
left has been absent in all of them. -/
structure Settling (scan : List Interface) (candidates : List PathId) (n : ℕ)
    (e : ClientEngine F) : Prop where
  numbered : ∀ i ∈ (filter_candidates scan).map (·.id), ∃ p,
    e.path_map.by_interface.lookup i = some p
  named : ∀ p, p ∈ candidates ↔ ∃ i ∈ (filter_candidates scan).map (·.id),
    e.path_map.by_interface.lookup i = some p
  bound : ∀ p ∈ candidates, p ∈ e.shared.session.paths
  absent : ∀ p ∈ e.shared.session.paths, p ∉ candidates →
    n < RESCAN_GRACE_TICKS ∧ n ≤ (e.absent_for.lookup p).getD 0

section Settling

variable {scan' : List Interface} {dial : ℕ → Dialled} {candidates : List PathId} {n : ℕ}

omit [F32 F] in
/-- One tick. -/
theorem settling_rescan (hrescans : ClientEngine.Rescans scan' dial e e')
    (hsettled : Settled scan candidates e (.Rescan (.ok scan') dial))
    (hsame : ∀ p, p ∈ e.candidate_paths scan' ↔ p ∈ candidates)
    (habsent : ∀ p ∈ e.shared.session.paths, p ∉ candidates →
      n ≤ (e.absent_for.lookup p).getD 0) :
    Settling scan candidates (n + 1) e' := by
  obtain ⟨hset, hdials⟩ := hsettled
  refine ⟨?_, ?_, ?_, ?_⟩
  · intro i hi
    obtain ⟨iface, hiface, rfl⟩ := List.mem_map.mp ((hset i).mpr hi)
    obtain ⟨p, hp⟩ := PathMap.exists_mem_ids_for e.path_map hiface
    rw [hrescans.path_map]
    exact ⟨p, PathMap.lookup_of_mem_ids_for hp⟩
  · intro p
    rw [← hsame, mem_candidate_paths, hrescans.path_map]
    simp only [hset]
  · intro p hp
    refine hrescans.all (fun i => ?_) p ((hsame p).mpr hp)
    obtain ⟨transport, hdial, -⟩ := hdials i
    exact ⟨transport, hdial⟩
  · intro p hbound hp
    obtain ⟨hshort, hcount⟩ := hrescans.absent p hbound (fun hmem => hp ((hsame p).mp hmem))
    obtain ⟨transport, hl⟩ := AList.mem_iff_lookup.mp hbound
    have hold : p ∈ e.shared.session.paths := by
      rcases hrescans.fresh hl with hl | ⟨hmem, -⟩
      · exact AList.mem_of_lookup hl
      · exact absurd ((hsame p).mp hmem) hp
    have hticks := habsent p hold hp
    rw [hcount, Option.getD_some]
    omega

omit [F32 F] in
/-- The next tick finds the same candidates. -/
theorem Settling.same (h : Settling scan candidates n e)
    (hset : ∀ i, i ∈ (filter_candidates scan').map (·.id) ↔
      i ∈ (filter_candidates scan).map (·.id)) (p : PathId) :
    p ∈ e.candidate_paths scan' ↔ p ∈ candidates := by
  rw [mem_candidate_paths, h.named]
  simp only [hset]
  constructor
  · rintro ⟨i, hi, hl⟩
    obtain ⟨q, hq⟩ := h.numbered i hi
    rw [PathMap.ids_for_keeps hq] at hl
    obtain rfl := Option.some.inj hl
    exact ⟨i, hi, hq⟩
  · rintro ⟨i, hi, hl⟩
    exact ⟨i, hi, PathMap.ids_for_keeps hl _⟩

theorem Settling.step (h : Settling scan candidates n e)
    (hsettled : Settled scan candidates e event) (hs : event.step e = some (e', told)) :
    Settling scan candidates (n + event.scans.toNat) e' := by
  rcases step_cases hs with ⟨scan', dial, rfl, hrescans⟩ | hquiet
  · exact settling_rescan hrescans hsettled (h.same hsettled.1)
      (fun p hbound hp => (h.absent p hbound hp).2)
  · rw [hquiet.scans]
    refine ⟨?_, ?_, ?_, ?_⟩
    · rw [hquiet.path_map]
      exact h.numbered
    · rw [hquiet.path_map]
      exact h.named
    · rw [hquiet.session.1]
      exact h.bound
    · rw [hquiet.session.1, hquiet.absent_for]
      exact h.absent

/-- The paths of candidates that are in the table work. -/
def Works (candidates : List PathId) (e : ClientEngine F) : Prop :=
  ∀ p ∈ candidates, p ∈ e.shared.session.paths → Live e p

omit [F32 F] in
/-- A tick leaves the paths it finds as they are, and what it dials works. -/
theorem works_rescan (hrescans : ClientEngine.Rescans scan' dial e e')
    (hsettled : Settled scan candidates e (.Rescan (.ok scan') dial))
    (hsame : ∀ p, p ∈ e.candidate_paths scan' ↔ p ∈ candidates) :
    Works candidates e' ↔ Works candidates e := by
  constructor
  · intro h p hp hbound
    obtain ⟨transport, hl⟩ := AList.mem_iff_lookup.mp hbound
    have hkept := hrescans.kept ((hsame p).mpr hp) hl
    obtain ⟨transport', hl', hlive, hreads⟩ := h p hp (AList.mem_of_lookup hkept)
    obtain rfl := Option.some.inj (hkept.symm.trans hl')
    rw [hrescans.ended] at hlive
    refine ⟨transport, hl, hlive, (hrescans.started _ hreads).resolve_right ?_⟩
    simp [hl]
  · intro h p hp hbound
    obtain ⟨transport, hl⟩ := AList.mem_iff_lookup.mp hbound
    rcases hrescans.fresh hl with hold | ⟨-, ⟨i, hdial⟩, htasks⟩
    · obtain ⟨transport', hl', hlive, hreads⟩ := h p hp (AList.mem_of_lookup hold)
      obtain rfl := Option.some.inj (hold.symm.trans hl')
      refine ⟨transport, hl, ?_, hrescans.running _ hreads ((hsame p).mpr hp)⟩
      rwa [hrescans.ended]
    · obtain ⟨transport', hdial', hlive⟩ := hsettled.2 i
      rw [hdial] at hdial'
      obtain rfl : transport = transport' := congrArg Prod.snd (Except.ok.inj hdial')
      refine ⟨transport, hl, ?_, htasks List.mem_cons_self⟩
      rwa [hrescans.ended]

omit [F32 F] in
/-- No other event makes a path work, or stops one that is to stay. -/
theorem Quiet.works (hquiet : Quiet event e e') (hsettled : Settled scan candidates e event) :
    Works candidates e' ↔ Works candidates e := by
  unfold Works Live
  rw [hquiet.session.1]
  constructor
  · intro h p hp hbound
    obtain ⟨transport, hl, hlive, hreads⟩ := h p hp hbound
    rw [hquiet.ended, not_or] at hlive
    exact ⟨transport, hl, hlive.1, hquiet.stopped hreads⟩
  · intro h p hp hbound
    obtain ⟨transport, hl, hlive, hreads⟩ := h p hp hbound
    refine ⟨transport, hl, ?_, hquiet.running _ hreads ?_⟩
    · rw [hquiet.ended, not_or]
      refine ⟨hlive, ?_⟩
      rintro rfl
      exact hsettled p hp hl
    · rintro orders rfl
      exact hlive (hsettled rfl hp hl)

/-- What the events after the first tick come to. -/
theorem Settling.run (h : Settling scan candidates n e)
    (hsettled : Along EngineEvent.step (Settled scan candidates) e events)
    (hrun : exec EngineEvent.step e events = some (t, told)) :
    Settling scan candidates (n + events.countP EngineEvent.scans) t ∧
      (Works candidates t ↔ Works candidates e) := by
  induction events generalizing e n told with
  | nil =>
    obtain ⟨rfl, -⟩ := step_inj hrun
    exact ⟨h, Iff.rfl⟩
  | cons event events ih =>
    obtain ⟨e₁, o, o', hs, hrest, -⟩ := exec_cons_eq_some.mp hrun
    obtain ⟨hnow, hlater⟩ := (along_cons hs).mp hsettled
    have hworks : Works candidates e₁ ↔ Works candidates e := by
      rcases step_cases hs with ⟨scan', dial, rfl, hrescans⟩ | hquiet
      · exact works_rescan hrescans hnow (h.same hnow.1)
      · exact hquiet.works hnow
    obtain ⟨hsettling, hrestworks⟩ := ih (h.step hnow hs) hlater hrest
    refine ⟨?_, hrestworks.trans hworks⟩
    rw [List.countP_cons, Nat.add_comm (events.countP _), ← Nat.add_assoc]
    cases hscans : event.scans with
    | true => simpa [hscans] using hsettling
    | false => simpa [hscans] using hsettling

end Settling

/-- Ticks on one scan are settled, if the dialling succeeds. -/
theorem along_settled {dial : ℕ → Dialled} {candidates : List PathId} {n : ℕ}
    (hdials : ∀ i, ∃ transport, dial i = .ok (e.shared.session.session_id, transport) ∧
      transport ∉ e.ended) :
    Along EngineEvent.step (Settled scan candidates) e
      (List.replicate n (.Rescan (.ok scan) dial)) := by
  induction n generalizing e with
  | zero => trivial
  | succ n ih =>
    have hrescans := e.rescans_rescan scan dial
    refine (along_cons rfl).mpr ⟨⟨fun _ => Iff.rfl, hdials⟩, ih ?_⟩
    rw [hrescans.session_id, hrescans.ended]
    exact hdials

/-- **When the rescans converge.** -/
theorem rescan_converges_iff {dial : ℕ → Dialled}
    (hrun : exec EngineEvent.step e (.Rescan (.ok scan) dial :: events) = some (t, told))
    (hsettled : Along EngineEvent.step (Settled scan (e.candidate_paths scan)) e
      (.Rescan (.ok scan) dial :: events))
    (hticks : RESCAN_GRACE_TICKS ≤
      (EngineEvent.Rescan (.ok scan) dial :: events).countP EngineEvent.scans) :
    Converged (e.candidate_paths scan) t ↔
      ∀ path_id ∈ e.candidate_paths scan, path_id ∈ e.shared.session.paths → Live e path_id := by
  obtain ⟨e₁, o, o', hs, hrest, -⟩ := exec_cons_eq_some.mp hrun
  obtain ⟨hnow, hlater⟩ := (along_cons hs).mp hsettled
  obtain ⟨rfl, -⟩ := step_inj hs
  have hrescans := e.rescans_rescan scan dial
  have hfirst := settling_rescan (n := 0) hrescans hnow (fun _ => Iff.rfl) (by simp)
  obtain ⟨hsettling, hworks⟩ := hfirst.run hlater hrest
  have hworks' := hworks.trans (works_rescan hrescans hnow (fun _ => Iff.rfl))
  refine Iff.trans ?_ hworks'
  constructor
  · intro h p hp _
    exact h.live p hp
  · intro h
    refine ⟨fun p => ⟨fun hbound => ?_, hsettling.bound p⟩,
      fun p hp => h p hp (hsettling.bound p hp)⟩
    -- another path is gone by now
    by_contra hp
    have hlong := (hsettling.absent p hbound hp).1
    simp only [List.countP_cons, EngineEvent.scans] at hticks
    simp at hticks
    omega

/-- A second adapter is plugged in. -/
theorem rescan_converges_sample : ∃ e t told,
    ClientEngine.start ⟨1⟩ [nic "eth0" 2] Connection.mk (some 0 : Exact) = .ok e ∧
    exec EngineEvent.step e
      (List.replicate 2 (.Rescan (.ok [nic "eth0" 2, nic "usb0" 5]) redialled)) = some (t, told) ∧
    Converged (e.candidate_paths [nic "eth0" 2, nic "usb0" 5]) t := by
  obtain ⟨e, t, told, hstart, hrun, hsession, hended, hbound, hpaths, hrunning⟩ := of_replayed
    (fun e _ => e.shared.session.session_id = ⟨1⟩ ∧ e.ended = [] ∧
      e.shared.session.paths.lookup ⟨0⟩ = some ⟨0⟩ ∧ e.shared.session.path_ids = [⟨0⟩] ∧
      e.running = tasks ⟨0⟩ ⟨0⟩)
    (show replayed [nic "eth0" 2]
      (List.replicate 2 (.Rescan (.ok [nic "eth0" 2, nic "usb0" 5]) redialled)) _ = true
      by decide)
  refine ⟨e, t, told, hstart, hrun, (rescan_converges_iff hrun ?_ (by decide)).mpr ?_⟩
  · refine along_settled (n := 2) ?_
    simp [redialled, hsession, hended]
  · intro path_id _ hmem
    have hpath : path_id ∈ e.shared.session.path_ids := AList.mem_keys.mpr hmem
    rw [hpaths, List.mem_singleton] at hpath
    rw [hpath]
    exact ⟨⟨0⟩, hbound, by simp [hended], by simp [hrunning, tasks]⟩

/-- **A path that has failed stays as it is**: its connection has ended, its reader has stopped, and
its interface is there, but the ticks find it in the table. -/
theorem failed_path_stays : ∃ e₀ e t told told',
    ClientEngine.start ⟨1⟩ [nic "eth0" 2] Connection.mk (some 0 : Exact) = .ok e₀ ∧
    exec EngineEvent.step e₀ [.Ends ⟨0⟩, .Fails ⟨.Reader, ⟨0⟩, ⟨0⟩⟩ ⟨.stored, .stored⟩] =
      some (e, told) ∧
    exec EngineEvent.step e (List.replicate (RESCAN_GRACE_TICKS + 1)
      (.Rescan (.ok [nic "eth0" 2]) redialled)) = some (t, told') ∧
    Along EngineEvent.step (Settled [nic "eth0" 2] (e.candidate_paths [nic "eth0" 2])) e
      (List.replicate (RESCAN_GRACE_TICKS + 1) (.Rescan (.ok [nic "eth0" 2]) redialled)) ∧
    ¬ Converged (e.candidate_paths [nic "eth0" 2]) t := by
  obtain ⟨e₀, e, told, hstart, hfails, hsession, hended, hcandidate⟩ := of_replayed
    (fun _ e => e.shared.session.session_id = ⟨1⟩ ∧ e.ended = [⟨0⟩] ∧
      e.candidate_paths [nic "eth0" 2] = [⟨0⟩])
    (show replayed [nic "eth0" 2]
      [.Ends ⟨0⟩, .Fails ⟨.Reader, ⟨0⟩, ⟨0⟩⟩ ⟨.stored, .stored⟩] _ = true by decide)
  obtain ⟨e₀', t, told₁, hstart', hrun, hbound, hstill⟩ := of_replayed
    (fun _ t => t.shared.session.paths.lookup ⟨0⟩ = some ⟨0⟩ ∧ t.ended = [⟨0⟩])
    (show replayed [nic "eth0" 2] ([.Ends ⟨0⟩, .Fails ⟨.Reader, ⟨0⟩, ⟨0⟩⟩ ⟨.stored, .stored⟩] ++
      List.replicate (RESCAN_GRACE_TICKS + 1) (.Rescan (.ok [nic "eth0" 2]) redialled)) _ = true
      by decide)
  obtain rfl := Except.ok.inj (hstart.symm.trans hstart')
  obtain ⟨told', hticks⟩ := exec_of_append hrun hfails
  refine ⟨e₀, e, t, told, told', hstart, hfails, hticks, along_settled ?_, fun h => ?_⟩
  · simp [redialled, hsession, hended]
  · obtain ⟨transport, hl, hlive, -⟩ := h.live ⟨0⟩ (by simp [hcandidate])
    obtain rfl := Option.some.inj (hbound.symm.trans hl)
    simp [hstill] at hlive

end Engine

end StreamGuard.V1
