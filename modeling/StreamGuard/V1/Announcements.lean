/-
Announcements of the client that may not get through (`streamguard-service/src/client.rs`).

`announce_path` and `advertise_weights` note what they announce before they send it, and the note
is also their gate: what it says is not announced again. Here a call past its gate is an
announcement on its way, so the uplink loop and a path that fails may announce at once, and every
send has an outcome of its own.

The note of a send that fails is never taken back. The main result is exact about the runs in which
nothing is suppressed that the gateway lacks.
-/
import StreamGuard.Lib.Notices
import StreamGuard.V1.Client

set_option autoImplicit false

namespace StreamGuard.V1

open StreamGuard StreamGuard.Lib

variable {F : Type} [F32 F]

/-! ## The two halves of `advertise_weights` -/

namespace Shared

/-- The snapshot: where to send, and the shares; none if there are fewer than two. -/
def draft_weights (s : Shared F) (orders : Orders F) :
    Shared F × Option (PathId × List (UInt8 × F)) :=
  let scheduler := s.updated orders
  let weights := scheduler.normalized_weights
  ({ s with scheduler },
    if weights.length < 2 then none
    else (scheduler.preferred_path s.session.active_path).map
      (fun preferred => (preferred, weights)))

/-- The gate: whether the shares are announced. -/
def gate_weights (s : Shared F) (weights : List (UInt8 × F)) : Shared F × Bool :=
  if weights_changed s.notified_weights weights = true then
    ({ s with notified_weights := some weights }, true)
  else (s, false)

/-- Both halves with nothing in between. -/
def advertise_in_halves (s : Shared F) (orders : Orders F) :
    Shared F × Option (PathId × ControlMsg F) :=
  let drafted := s.draft_weights orders
  match drafted.2 with
  | none => (drafted.1, none)
  | some d =>
    let gated := drafted.1.gate_weights d.2
    (gated.1,
      if gated.2 = true then some (d.1, .WeightSet (d.2.map (fun w => (⟨w.1⟩, w.2)))) else none)

theorem advertise_weights_eq (s : Shared F) (orders : Orders F) :
    s.advertise_weights orders = s.advertise_in_halves orders := by
  simp only [advertise_weights, advertise_in_halves, draft_weights]
  by_cases hfew : (s.updated orders).normalized_weights.length < 2
  · simp [hfew]
  · cases hpreferred : (s.updated orders).preferred_path s.session.active_path with
    | none => simp [hfew]
    | some preferred =>
      simp only [hfew, ↓reduceIte, Option.map_some, gate_weights]
      by_cases hchanged :
          weights_changed s.notified_weights (s.updated orders).normalized_weights = true
      · simp [hchanged]
      · simp [hchanged]

end Shared

/-! ## Announcements on their way -/

/-- The client, its calls of the two functions, and what the gateway was last sent. -/
structure Announcer (F : Type) where
  shared : Shared F
  /-- Calls of `advertise_weights` with their snapshot, before the gate. -/
  drafts : List (PathId × List (UInt8 × F))
  /-- Calls of `announce_path` past the gate. -/
  selects : List PathId
  /-- Calls of `advertise_weights` past the gate. -/
  sets : List (PathId × List (UInt8 × F))
  told_path : Option PathId
  told_weights : Option (List (UInt8 × F))

/-- Each step holds one lock. -/
inductive Announcing (F : Type) where
  /-- Whatever else the client does with its session, measurements and scheduler. -/
  | work (session : Session F) (metrics : Map PathId (PathMetrics F))
      (scheduler : WeightedBondingScheduler F)
  | announce (path : PathId)
  | select_sent (i : ℕ) (answer : Except Error Unit)
  | draft (orders : Orders F)
  | gate (i : ℕ)
  | set_sent (i : ℕ) (answer : Except Error Unit)

namespace Announcer

/-- Nothing has been announced. -/
def start (shared : Shared F) : Announcer F :=
  ⟨shared, [], [], [], shared.notified, shared.notified_weights⟩

/-- `send_on` is `Ok` for the announcement of a path. -/
def select_ok (s : Announcer F) (i : ℕ) (answer : Except Error Unit) : Bool :=
  s.selects[i]?.any (fun path => taken s.shared.session path answer)

/-- The same for a weight set. More than 255 entries do not encode, which is a panic. -/
def set_ok (s : Announcer F) (i : ℕ) (answer : Except Error Unit) : Bool :=
  s.sets[i]?.any (fun d => decide (d.2.length ≤ 255) && taken s.shared.session d.1 answer)

def step (s : Announcer F) : Announcing F → Announcer F
  | .work session metrics scheduler =>
    { s with shared := { s.shared with session, metrics, scheduler } }
  | .announce path =>
    let announced := s.shared.announce_path path
    { s with
      shared := announced.1
      selects := if announced.2.isSome = true then s.selects ++ [path] else s.selects }
  | .select_sent i answer =>
    match s.selects[i]? with
    | none => s
    | some path =>
      -- the note of `announce_path` stays as it is, whatever the answer
      { s with
        selects := s.selects.eraseIdx i
        told_path := if s.select_ok i answer = true then some path else s.told_path }
  | .draft orders =>
    let drafted := s.shared.draft_weights orders
    { s with shared := drafted.1, drafts := s.drafts ++ drafted.2.toList }
  | .gate i =>
    match s.drafts[i]? with
    | none => s
    | some d =>
      let gated := s.shared.gate_weights d.2
      { s with
        shared := gated.1
        drafts := s.drafts.eraseIdx i
        sets := if gated.2 = true then s.sets ++ [d] else s.sets }
  | .set_sent i answer =>
    match s.sets[i]? with
    | none => s
    | some d =>
      { s with
        sets := s.sets.eraseIdx i
        told_weights := if s.set_ok i answer = true then some d.2 else s.told_weights }

/-- With no announcement in progress the client has noted what the gateway was last sent, and
whatever that is not is announced. -/
structure Informed (s : Announcer F) : Prop where
  path : s.selects = [] → s.shared.notified = s.told_path
  weights : s.sets = [] → s.shared.notified_weights = s.told_weights
  announces : s.selects = [] → ∀ path, s.told_path ≠ some path →
    (s.shared.announce_path path).2 = some (path, .PathSelect path.get)
  advertises : s.sets = [] → ∀ weights, weights_changed s.told_weights weights = true →
    (s.shared.gate_weights weights).2 = true

/-! ### As gates -/

def path_gate (s : Announcer F) : Gate PathId := ⟨s.shared.notified, s.told_path, s.selects⟩

def weight_gate (s : Announcer F) : Gate (List (UInt8 × F)) :=
  ⟨s.shared.notified_weights, s.told_weights, s.sets.map Prod.snd⟩

variable {s : Announcer F}

omit [F32 F] in
theorem announce_path_news {shared : Shared F} {path : PathId} (h : shared.notified ≠ some path) :
    shared.announce_path path =
      ({ shared with notified := some path }, some (path, .PathSelect path.get)) := by
  rw [Shared.announce_path, if_neg h]

theorem informed_iff : s.Informed ↔ s.path_gate.Truthful ∧ s.weight_gate.Truthful := by
  have hsets : s.weight_gate.pending = [] ↔ s.sets = [] := List.map_eq_nil_iff
  constructor
  · intro h
    exact ⟨h.path, fun hnone => h.weights (hsets.mp hnone)⟩
  · rintro ⟨hpath, hweights⟩
    refine ⟨hpath, fun hnone => hweights (hsets.mpr hnone), ?_, ?_⟩
    · intro hnone path hlacks
      have hnotified : s.shared.notified = s.told_path := hpath hnone
      rw [announce_path_news (by rwa [hnotified])]
    · intro hnone weights hchanged
      have hnotified : s.shared.notified_weights = s.told_weights := hweights (hsets.mpr hnone)
      rw [← hnotified] at hchanged
      simp [Shared.gate_weights, hchanged]

/-- The news of `announce_path`. -/
def new_path (held : Option PathId) (path : PathId) : Bool := decide (held ≠ some path)

/-- What a step is for the gate of the paths. -/
def path_event (s : Announcer F) : Announcing F → Option (Gate.Event PathId)
  | .announce path => some (.offer path)
  | .select_sent i answer => some (.finish i (s.select_ok i answer))
  | .work _ _ _ => none
  | .draft _ => none
  | .gate _ => none
  | .set_sent _ _ => none

/-- And for the gate of the weights. -/
def weight_event (s : Announcer F) : Announcing F → Option (Gate.Event (List (UInt8 × F)))
  | .gate i => s.drafts[i]?.map (fun d => .offer d.2)
  | .set_sent i answer => some (.finish i (s.set_ok i answer))
  | .work _ _ _ => none
  | .announce _ => none
  | .select_sent _ _ => none
  | .draft _ => none

theorem path_gate_step (s : Announcer F) (e : Announcing F) :
    (s.step e).path_gate = (s.path_event e).elim s.path_gate (s.path_gate.step new_path) := by
  cases e with
  | work session metrics scheduler => rfl
  | announce path =>
    by_cases hsame : s.shared.notified = some path
    · simp [step, path_event, path_gate, Gate.step, new_path, Shared.announce_path, hsame]
    · simp [step, path_event, path_gate, Gate.step, new_path, Shared.announce_path, hsame]
  | select_sent i answer =>
    cases hpath : s.selects[i]? with
    | none => simp [step, path_event, path_gate, Gate.step, hpath]
    | some path => simp [step, path_event, path_gate, Gate.step, hpath]
  | draft orders => rfl
  | gate i =>
    cases hdraft : s.drafts[i]? with
    | none => simp [step, path_event, hdraft]
    | some d =>
      simp only [step, path_event, path_gate, hdraft, Shared.gate_weights, Option.elim_none]
      split
      · rfl
      · rfl
  | set_sent i answer =>
    cases hset : s.sets[i]? with
    | none => simp [step, path_event, hset]
    | some d => simp [step, path_event, path_gate, hset]

theorem weight_gate_step (s : Announcer F) (e : Announcing F) :
    (s.step e).weight_gate =
      (s.weight_event e).elim s.weight_gate (s.weight_gate.step weights_changed) := by
  cases e with
  | work session metrics scheduler => rfl
  | announce path =>
    by_cases hsame : s.shared.notified = some path
    · simp [step, weight_event, weight_gate, Shared.announce_path, hsame]
    · simp [step, weight_event, weight_gate, Shared.announce_path, hsame]
  | select_sent i answer =>
    cases hpath : s.selects[i]? with
    | none => simp [step, weight_event, hpath]
    | some path => simp [step, weight_event, weight_gate, hpath]
  | draft orders => rfl
  | gate i =>
    cases hdraft : s.drafts[i]? with
    | none => simp [step, weight_event, hdraft]
    | some d =>
      by_cases hchanged : weights_changed s.shared.notified_weights d.2 = true
      · simp [step, weight_event, weight_gate, Gate.step, Shared.gate_weights, hdraft, hchanged]
      · simp [step, weight_event, weight_gate, Gate.step, Shared.gate_weights, hdraft, hchanged]
  | set_sent i answer =>
    cases hset : s.sets[i]? with
    | none => simp [step, weight_event, weight_gate, Gate.step, hset]
    | some d => simp [step, weight_event, weight_gate, Gate.step, hset, List.eraseIdx_map]

/-! ## What is never suppressed -/

/-- The calls of the two functions that had something new to tell, and what became of them. -/
structure History (F : Type) where
  path : Period PathId
  weights : Period (List (UInt8 × F))

def History.start (shared : Shared F) : History F :=
  ⟨.start shared.notified, .start shared.notified_weights⟩

/-- A step of the client, with its history. -/
def remember (s : Announcer F × History F) (e : Announcing F) : Announcer F × History F :=
  (s.1.step e,
    { path := (s.1.path_event e).elim s.2.path (s.2.path.after new_path)
      weights := (s.1.weight_event e).elim s.2.weights (s.2.weights.after weights_changed) })

/-- Where the last send of its kind in flight ends, a send of the value announced last has succeeded
since nothing was in flight, and all that ended behind it failed. Or all have failed, and that value
had been the one announced last before. -/
def Delivers (e : Announcing F) (s : Announcer F × History F) : Prop :=
  (∀ own, s.1.path_event e = some own → s.2.path.Settles own) ∧
    ∀ own, s.1.weight_event e = some own → s.2.weights.Settles own

/-- The gates are what the history has made of them. -/
def Explained (s : Announcer F × History F) : Prop :=
  s.2.path.Explains s.1.path_gate ∧ s.2.weights.Explains s.1.weight_gate

/-- A gate after a step that may not be one of its own. -/
theorem explains_elim {V : Type} (news : Option V → V → Bool) {p : Period V} {g : Gate V}
    (h : p.Explains g) (htruthful : g.Truthful) (e : Option (Gate.Event V)) :
    (e.elim p (p.after news)).Explains (e.elim g (g.step news)) ∧
      ((e.elim g (g.step news)).Truthful ↔ ∀ own, e = some own → p.Settles own) := by
  cases e with
  | none => exact ⟨h, iff_of_true htruthful (by simp)⟩
  | some own =>
    have hown : (g.step news own).Truthful ↔ p.Settles own := h.truthful_iff htruthful own
    exact ⟨h.after htruthful own, by simpa using hown⟩

theorem informed_step_iff {s : Announcer F × History F} (h : Explained s) (hinformed : s.1.Informed)
    (e : Announcing F) :
    Explained (remember s e) ∧ ((remember s e).1.Informed ↔ Delivers e s) := by
  obtain ⟨hpath, hweights⟩ := informed_iff.mp hinformed
  obtain ⟨hpath', hpath_iff⟩ := explains_elim new_path h.1 hpath (s.1.path_event e)
  obtain ⟨hweights', hweights_iff⟩ :=
    explains_elim weights_changed h.2 hweights (s.1.weight_event e)
  simp only [Explained, remember, informed_iff, path_gate_step, weight_gate_step, Delivers]
  exact ⟨⟨hpath', hweights'⟩, and_congr hpath_iff hweights_iff⟩

theorem fst_foldl_remember (s : Announcer F × History F) (events : List (Announcing F)) :
    (events.foldl remember s).1 = events.foldl step s.1 := by
  induction events generalizing s with
  | nil => rfl
  | cons e events ih => exact ih (remember s e)

/-- **Nothing is suppressed that the gateway lacks**, in all states of a run, exactly if the sends
of what was announced last get through. -/
theorem informed_run_iff (shared : Shared F) (events : List (Announcing F)) :
    (∀ n, ((events.take n).foldl step (start shared)).Informed) ↔
      ∀ n e, events[n]? = some e →
        Delivers e ((events.take n).foldl remember (start shared, .start shared)) := by
  rw [← forall_take_iff (f := remember) (I := Explained) (P := fun s => s.1.Informed) (C := Delivers)
    (fun _ e h hinformed => informed_step_iff h hinformed e)
    ⟨Period.explains_start _, Period.explains_start _⟩
    (informed_iff.mpr ⟨fun _ => rfl, fun _ => rfl⟩) events]
  simp only [fst_foldl_remember]

/-- A client with the paths 0 and 1 that has told the gateway of path 0. -/
def on_path_zero : Announcer Exact :=
  start
    { session := (((Session.new ⟨1⟩).add_path ⟨7⟩ ⟨0⟩).1.add_path ⟨8⟩ ⟨1⟩).1
      metrics := ∅
      notified := some ⟨0⟩
      redundancy_loss_threshold := some 0
      scheduler := .new
      notified_weights := none }

/-- The announcement of path 1 fails in the transport. -/
def failed_select : List (Announcing Exact) :=
  [.announce ⟨1⟩, .select_sent 0 (.error (.Transport "closed"))]

/-- The gateway still sends on path 0, and path 1 is not announced again. -/
theorem failed_select_is_final :
    (failed_select.foldl step on_path_zero).selects = [] ∧
      (failed_select.foldl step on_path_zero).told_path = some ⟨0⟩ ∧
      ((failed_select.foldl step on_path_zero).shared.announce_path ⟨1⟩).2 = none ∧
      ¬ (failed_select.foldl step on_path_zero).Informed := by
  have hnotified : (failed_select.foldl step on_path_zero).shared.notified = some ⟨1⟩ := rfl
  have htold : (failed_select.foldl step on_path_zero).told_path = some ⟨0⟩ := rfl
  refine ⟨rfl, htold, ?_, ?_⟩
  · rw [Shared.announce_path, if_pos hnotified]
  · intro h
    have hpath := h.path rfl
    rw [hnotified, htold] at hpath
    contradiction

end Announcer

end StreamGuard.V1
