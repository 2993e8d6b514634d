/-
The V1 session of `sg-session/src/lib.rs`.

One session is the tunnel of one device: its bound paths, one packet counter, one
reorder buffer, and on the gateway the shares of the downlink that the client has
published. Client and gateway use the same type. `Instant`s are milliseconds.
-/
import StreamGuard.V1.Envelope
import StreamGuard.V1.ReorderBuffer
import StreamGuard.V1.Scheduler

set_option autoImplicit false

namespace StreamGuard.V1

open StreamGuard StreamGuard.Lib

structure DownlinkBonds (F : Type) where
  scheduler : WeightedBondingScheduler F
  expires_at : ℕ

structure Session (F : Type) where
  session_id : SessionId
  out_seq : Sequencer
  reorder : ReorderBuffer
  paths : Map PathId Connection
  active_path : Option PathId
  downlink : Option (DownlinkBonds F)

/-- `DOWNLINK_WEIGHT_TTL`. -/
def DOWNLINK_WEIGHT_TTL : ℕ := 10000

def not_bound (path_id : PathId) : Error :=
  .Transport ("path " ++ toString path_id.get.toNat ++ " not bound")

namespace Session

variable {F : Type} [F32 F]

def new (session_id : SessionId) : Session F :=
  ⟨session_id, .new, .new 128, ∅, none, none⟩

def add_path (s : Session F) (transport : Connection) (path_id : PathId) :
    Session F × Except Error Unit :=
  if path_id ∈ s.paths then
    (s, .error (.Transport ("path " ++ toString path_id.get.toNat ++ " already bound")))
  else
    ({ s with
        active_path := if s.active_path = none then some path_id else s.active_path
        paths := s.paths.insert path_id transport }, .ok ())

def has_path (s : Session F) (path_id : PathId) : Bool := path_id ∈ s.paths

def path_ids (s : Session F) : List PathId := s.paths.keys

def path_count (s : Session F) : ℕ := s.paths.len

def set_active_path (s : Session F) (path_id : PathId) : Session F × Except Error Unit :=
  if path_id ∉ s.paths then (s, .error (not_bound path_id))
  else ({ s with active_path := some path_id }, .ok ())

/-- The lowest path number. -/
def lowest (paths : List PathId) : Option PathId := ((paths.map (·.get)).min?).map PathId.mk

/-- The adopted shares without those of unbound paths; no bond if none is left. -/
def prune (paths : Map PathId Connection) (bonds : DownlinkBonds F) : Option (DownlinkBonds F) :=
  let kept := bonds.scheduler.normalized_weights.filter (fun w => (⟨w.1⟩ : PathId) ∈ paths)
  if kept.isEmpty = true then none
  else some { bonds with scheduler := bonds.scheduler.adopt_weights kept }

def remove_path (s : Session F) (path_id : PathId) : Session F × Bool :=
  if path_id ∉ s.paths then (s, false)
  else
    let paths := s.paths.erase path_id
    ({ s with
        paths
        active_path := if s.active_path = some path_id then lowest paths.keys else s.active_path
        downlink := s.downlink.bind (prune paths) }, true)

def next_sequence (s : Session F) : Session F × Sequence :=
  ({ s with out_seq := s.out_seq.next_sequence.1 }, s.out_seq.next_sequence.2)

def enqueue_incoming (s : Session F) (seq : Sequence) (payload : Bytes) :
    Session F × ReorderOutcome :=
  ({ s with reorder := (s.reorder.deliver seq payload).1 }, (s.reorder.deliver seq payload).2)

/-- The entries of a weight set that `adopt_downlink_weights` takes over. -/
def adoptable (paths : Map PathId Connection) (weights : List (PathId × F)) : List (UInt8 × F) :=
  (weights.filter (fun w => decide (w.1 ∈ paths) && F32.is_finite w.2 &&
    F32.lt (F32.literal 0) w.2)).map (fun w => (w.1.get, w.2))

def adopt_downlink_weights (s : Session F) (weights : List (PathId × F)) (now ttl : ℕ) :
    Session F × ℕ :=
  let adopted := adoptable s.paths weights
  if 0 < adopted.length then
    let scheduler := (s.downlink.map (·.scheduler)).getD .new
    ({ s with downlink := some ⟨scheduler.adopt_weights adopted, now + ttl⟩ }, adopted.length)
  else ({ s with downlink := none }, adopted.length)

/-- `downlink_weights_fresh` at the time `now`. -/
def downlink_weights_fresh (s : Session F) (now : ℕ) : Bool :=
  s.downlink.any (fun bonds => decide (now < bonds.expires_at))

/-- `downlink_decide` at the time `now`. -/
def downlink_decide (s : Session F) (now : ℕ) : Session F × Option PathId :=
  match s.downlink with
  | none => (s, none)
  | some bonds =>
    if bonds.expires_at ≤ now then ({ s with downlink := none }, none)
    else
      let decided := bonds.scheduler.decide
      ({ s with downlink := some { bonds with scheduler := decided.1 } },
        match decided.2 with
        | .Send path => some ⟨path⟩
        | .Skip => none
        | .Duplicate _ _ => none)

/-- `send_on`, given what the transport of the path answers. -/
def send_on (s : Session F) (path_id : PathId) (sent : Except Error Unit) : Except Error Unit :=
  match s.paths.lookup path_id with
  | none => .error (not_bound path_id)
  | some _ => sent

/-- The egress of the downlink: `downlink_decide`, else `active_path`. -/
def egress (s : Session F) (now : ℕ) : Session F × Option PathId :=
  let decided := s.downlink_decide now
  (decided.1, decided.2 <|> decided.1.active_path)

/-! ### What the calls leave alone -/

omit [F32 F] in
@[simp] theorem set_active_path_out_seq (s : Session F) (path : PathId) :
    (s.set_active_path path).1.out_seq = s.out_seq := by
  rw [Session.set_active_path]
  split
  · rfl
  · rfl

@[simp] theorem downlink_decide_out_seq (s : Session F) (now : ℕ) :
    (s.downlink_decide now).1.out_seq = s.out_seq := by
  rw [downlink_decide]
  split
  · rfl
  · split
    · rfl
    · rfl

@[simp] theorem egress_out_seq (s : Session F) (now : ℕ) :
    (s.egress now).1.out_seq = s.out_seq := downlink_decide_out_seq s now

/-- The egress does not depend on the packet number. -/
theorem egress_next_sequence (s : Session F) (now : ℕ) :
    (s.next_sequence.1.egress now).2 = (s.egress now).2 := by
  cases hdownlink : s.downlink with
  | none => simp [egress, downlink_decide, next_sequence, hdownlink]
  | some bonds =>
    simp only [egress, downlink_decide, next_sequence, hdownlink]
    split
    · rfl
    · rfl

/-! ### Where the downlink can go -/

/-- The adopted shares give the path a weight. -/
def weighs (s : Session F) (path : PathId) : Bool :=
  s.downlink.any (fun bonds =>
    decide (path.get ∈ bonds.scheduler.normalized_weights.map Prod.fst))

variable {s : Session F} {path other : PathId} {now ttl : ℕ} {transport : Connection}
  {weights : List (PathId × F)}

theorem weighs_eq_true : s.weighs path = true ↔ ∃ bonds, s.downlink = some bonds ∧
    path.get ∈ bonds.scheduler.normalized_weights.map Prod.fst := by
  rw [weighs, Option.any_eq_true]
  simp only [decide_eq_true_eq]

/-- The same bonds, or none. -/
theorem downlink_decide_cases (s : Session F) (now : ℕ) :
    ((s.downlink_decide now).1.downlink = none ∧ (s.downlink_decide now).2 = none) ∨
      ∃ bonds bonds', s.downlink = some bonds ∧
        (s.downlink_decide now).1.downlink = some bonds' ∧
        bonds'.scheduler.weights = bonds.scheduler.weights ∧
        ∀ path, (s.downlink_decide now).2 = some path →
          path.get ∈ bonds.scheduler.normalized_weights.map Prod.fst := by
  cases hdownlink : s.downlink with
  | none => simp [downlink_decide, hdownlink]
  | some bonds =>
    by_cases hexpired : bonds.expires_at ≤ now
    · simp [downlink_decide, hdownlink, hexpired]
    · right
      refine ⟨bonds, { bonds with scheduler := bonds.scheduler.decide.1 }, rfl, ?_⟩
      simp only [downlink_decide, hdownlink, hexpired, ↓reduceIte, true_and]
      rcases bonds.scheduler.decide_cases with ⟨-, hskip⟩ | ⟨path, hmem, hsend, hweights⟩
      · simp [hskip]
      · refine ⟨hweights, ?_⟩
        intro path' hpath
        rw [hsend] at hpath
        rw [← Option.some.inj hpath]
        exact hmem

@[simp] theorem downlink_decide_active_path :
    (s.downlink_decide now).1.active_path = s.active_path := by
  rw [downlink_decide]
  split
  · rfl
  · split
    · rfl
    · rfl

@[simp] theorem egress_active_path : (s.egress now).1.active_path = s.active_path :=
  downlink_decide_active_path

/-- The shares decide for a path with weight. -/
theorem weighs_of_decide (h : (s.downlink_decide now).2 = some path) : s.weighs path = true := by
  rcases s.downlink_decide_cases now with ⟨-, hnone⟩ | ⟨bonds, -, hdownlink, -, -, hmem⟩
  · rw [hnone] at h
    contradiction
  · exact weighs_eq_true.mpr ⟨bonds, hdownlink, hmem path h⟩

/-- The egress is the active path or one with weight. -/
theorem egress_ne (hactive : s.active_path ≠ some path) (hweighs : s.weighs path = false) :
    (s.egress now).2 ≠ some path := by
  cases hdecided : (s.downlink_decide now).2 with
  | none => simpa [egress, hdecided] using hactive
  | some chosen =>
    intro hegress
    have hchosen : chosen = path := by simpa [egress, hdecided] using hegress
    rw [hchosen] at hdecided
    rw [weighs_of_decide hdecided] at hweighs
    contradiction

/-- A decision brings no weight. -/
theorem weighs_of_egress (h : (s.egress now).1.weighs path = true) : s.weighs path = true := by
  obtain ⟨bonds, hbonds, hmem⟩ := weighs_eq_true.mp h
  rcases s.downlink_decide_cases now with ⟨hnone, -⟩ | ⟨old, new, hold, hnew, hweights, -⟩
  · simp [egress, hnone] at hbonds
  · have hsame : new = bonds := Option.some.inj (hnew.symm.trans hbonds)
    subst hsame
    refine weighs_eq_true.mpr ⟨old, hold, ?_⟩
    rw [WeightedBondingScheduler.normalized_weights, hweights] at hmem
    exact hmem

/-- What is adopted was in the weight set, as a positive number. -/
theorem of_weighs_adopt (h : (s.adopt_downlink_weights weights now ttl).1.weighs path = true) :
    ∃ w, (path, w) ∈ weights ∧ F32.lt (F32.literal 0) w = true := by
  obtain ⟨bonds, hbonds, hmem⟩ := weighs_eq_true.mp h
  simp only [adopt_downlink_weights] at hbonds
  split at hbonds
  · obtain rfl := Option.some.inj hbonds
    obtain ⟨entry, hentry, hpath⟩ := List.mem_map.mp hmem
    obtain ⟨v, hv, hpositive⟩ := WeightedBondingScheduler.of_lookup_adopt_weights
      (WeightedBondingScheduler.mem_normalized_weights.mp hentry).1
    obtain ⟨w, hw, hsame⟩ := List.mem_map.mp hv
    obtain ⟨hget, rfl⟩ := Prod.mk.inj hsame
    refine ⟨w.2, ?_, hpositive⟩
    have hw1 : w.1 = path := by
      obtain ⟨⟨get⟩, weight⟩ := w
      exact congrArg PathId.mk (hget.trans hpath)
    rw [← hw1]
    exact (List.mem_filter.mp hw).1
  · contradiction

@[simp] theorem adopt_active_path :
    (s.adopt_downlink_weights weights now ttl).1.active_path = s.active_path := by
  simp only [adopt_downlink_weights]
  split
  · rfl
  · rfl

/-- Removing a path brings no weight. -/
theorem weighs_of_remove_path (h : (s.remove_path other).1.weighs path = true) :
    s.weighs path = true := by
  by_cases hbound : other ∉ s.paths
  · simpa [remove_path, hbound] using h
  · obtain ⟨bonds, hbonds, hmem⟩ := weighs_eq_true.mp h
    simp only [remove_path, hbound, ↓reduceIte, Option.bind_eq_some_iff] at hbonds
    obtain ⟨old, hold, hpruned⟩ := hbonds
    rw [prune] at hpruned
    -- what is kept is adopted anew, from among what had weight
    split at hpruned
    · contradiction
    · obtain rfl := Option.some.inj hpruned
      obtain ⟨entry, hentry, hpath⟩ := List.mem_map.mp hmem
      obtain ⟨v, hv, -⟩ := WeightedBondingScheduler.of_lookup_adopt_weights
        (WeightedBondingScheduler.mem_normalized_weights.mp hentry).1
      refine weighs_eq_true.mpr ⟨old, hold, List.mem_map.mpr ⟨_, List.mem_of_mem_filter hv, ?_⟩⟩
      exact hpath

omit [F32 F] in
/-- A path that is bound becomes the active one if there is none. -/
theorem add_path_active_path (h : s.has_path path = false) :
    (s.add_path transport path).1.active_path = (s.active_path <|> some path) := by
  have hbound : path ∉ s.paths := by simpa [has_path] using h
  simp only [add_path, hbound, ↓reduceIte]
  cases s.active_path with
  | none => rfl
  | some active => rfl

omit [F32 F] in
theorem add_path_downlink : (s.add_path transport path).1.downlink = s.downlink := by
  rw [add_path]
  split
  · rfl
  · rfl

omit [F32 F] in
theorem has_path_add_path : (s.add_path transport path).1.has_path path = true := by
  rw [add_path]
  split
  next hbound => simpa [has_path] using hbound
  · simp [has_path]

omit [F32 F] in
@[simp] theorem set_active_path_downlink :
    (s.set_active_path path).1.downlink = s.downlink := by
  rw [set_active_path]
  split
  · rfl
  · rfl

omit [F32 F] in
@[simp] theorem set_active_path_paths : (s.set_active_path path).1.paths = s.paths := by
  rw [set_active_path]
  split
  · rfl
  · rfl

omit [F32 F] in
theorem set_active_path_active_path (h : s.has_path path = true) :
    (s.set_active_path path).1.active_path = some path := by
  have hbound : path ∈ s.paths := by simpa [has_path] using h
  simp [set_active_path, hbound]

/-! ### The active path -/

omit [F32 F] in
theorem add_path_of_bound (h : s.has_path path = true) : (s.add_path transport path).1 = s := by
  have hbound : path ∈ s.paths := by simpa [has_path] using h
  simp [add_path, hbound]

omit [F32 F] in
theorem set_active_path_of_unbound (h : s.has_path path = false) :
    (s.set_active_path path).1 = s := by
  have hunbound : path ∉ s.paths := by simpa [has_path] using h
  simp [set_active_path, hunbound]

theorem remove_path_of_unbound (h : s.has_path path = false) : (s.remove_path path).1 = s := by
  have hunbound : path ∉ s.paths := by simpa [has_path] using h
  simp [remove_path, hunbound]

/-- A session with paths has an active one. -/
def Pointed (s : Session F) : Prop := s.active_path = none → ∀ path, s.has_path path = false

omit [F32 F] in
theorem pointed_new {session_id : SessionId} : (Session.new (F := F) session_id).Pointed := by
  intro _ path
  simp [has_path, new]

omit [F32 F] in
theorem Pointed.add_path (h : s.Pointed) : (s.add_path transport path).1.Pointed := by
  by_cases hbound : s.has_path path = true
  · rw [add_path_of_bound hbound]
    exact h
  · intro hnone
    rw [add_path_active_path (Bool.eq_false_iff.mpr hbound)] at hnone
    cases hactive : s.active_path with
    | none => simp [hactive] at hnone
    | some active => simp [hactive] at hnone

omit [F32 F] in
theorem Pointed.set_active_path (h : s.Pointed) : (s.set_active_path path).1.Pointed := by
  by_cases hbound : s.has_path path = true
  · intro hnone
    rw [set_active_path_active_path hbound] at hnone
    contradiction
  · rw [set_active_path_of_unbound (Bool.eq_false_iff.mpr hbound)]
    exact h

theorem Pointed.adopt (h : s.Pointed) :
    (s.adopt_downlink_weights weights now ttl).1.Pointed := by
  simp only [adopt_downlink_weights]
  split
  · exact h
  · exact h

theorem Pointed.egress (h : s.Pointed) : (s.egress now).1.Pointed := by
  simp only [Session.egress, downlink_decide]
  split
  · exact h
  · split
    · exact h
    · exact h

omit [F32 F] in
/-- There is a lowest path unless there is none. -/
theorem lowest_eq_none {paths : List PathId} : lowest paths = none ↔ paths = [] := by
  rw [lowest, Option.map_eq_none_iff, List.min?_eq_none_iff, List.map_eq_nil_iff]

/-- The active path behind a removal. -/
theorem remove_path_active_path (h : s.has_path path = true) :
    (s.remove_path path).1.active_path =
      if s.active_path = some path then lowest (s.paths.erase path).keys else s.active_path := by
  have hbound : path ∈ s.paths := by simpa [has_path] using h
  simp [remove_path, hbound]

theorem Pointed.remove_path (h : s.Pointed) : (s.remove_path path).1.Pointed := by
  by_cases hbound : s.has_path path = true
  · intro hnone other
    have hmem : path ∈ s.paths := by simpa [has_path] using hbound
    have hpaths : (s.remove_path path).1.paths = s.paths.erase path := by
      simp [Session.remove_path, hmem]
    rw [remove_path_active_path hbound] at hnone
    rw [has_path, hpaths, decide_eq_false_iff_not, AList.mem_keys]
    by_cases hactive : s.active_path = some path
    · rw [if_pos hactive, lowest_eq_none] at hnone
      simp [hnone]
    · rw [if_neg hactive] at hnone
      have := h hnone path
      rw [hbound] at this
      contradiction
  · rw [remove_path_of_unbound (Bool.eq_false_iff.mpr hbound)]
    exact h

/-- The active path is bound. -/
def Aimed (s : Session F) : Prop := ∀ path, s.active_path = some path → s.has_path path = true

omit [F32 F] in
theorem aimed_new {session_id : SessionId} : (Session.new (F := F) session_id).Aimed := by
  intro path h
  simp [new] at h

omit [F32 F] in
theorem Aimed.add_path (h : s.Aimed) : (s.add_path transport path).1.Aimed := by
  by_cases hbound : s.has_path path = true
  · rw [add_path_of_bound hbound]
    exact h
  · intro active hactive
    rw [add_path_active_path (Bool.eq_false_iff.mpr hbound)] at hactive
    cases hold : s.active_path with
    | none =>
      have hsame : path = active := by simpa [hold] using hactive
      rw [← hsame]
      exact has_path_add_path
    | some old =>
      have hunbound : path ∉ s.paths := by simpa [has_path] using hbound
      have hsame : old = active := by simpa [hold] using hactive
      have hmem : active ∈ s.paths := by simpa [has_path] using h active (hsame ▸ hold)
      simp [Session.add_path, hunbound, has_path, hmem]

omit [F32 F] in
theorem Aimed.set_active_path (h : s.Aimed) : (s.set_active_path path).1.Aimed := by
  by_cases hbound : s.has_path path = true
  · intro active hactive
    rw [set_active_path_active_path hbound] at hactive
    rw [← Option.some.inj hactive, has_path, set_active_path_paths]
    exact hbound
  · rw [set_active_path_of_unbound (Bool.eq_false_iff.mpr hbound)]
    exact h

omit [F32 F] in
theorem mem_of_lowest {paths : List PathId} (h : lowest paths = some path) : path ∈ paths := by
  obtain ⟨get, hget, rfl⟩ := Option.map_eq_some_iff.mp h
  obtain ⟨p, hp, rfl⟩ := List.mem_map.mp (List.min?_mem hget)
  exact hp

theorem Aimed.remove_path (h : s.Aimed) : (s.remove_path path).1.Aimed := by
  by_cases hbound : s.has_path path = true
  · intro active hactive
    have hmem : path ∈ s.paths := by simpa [has_path] using hbound
    have hpaths : (s.remove_path path).1.paths = s.paths.erase path := by
      simp [Session.remove_path, hmem]
    rw [remove_path_active_path hbound] at hactive
    rw [has_path, hpaths, decide_eq_true_eq, AList.mem_keys]
    by_cases hcurrent : s.active_path = some path
    · -- the lowest of the paths that remain
      rw [if_pos hcurrent] at hactive
      exact mem_of_lowest hactive
    · rw [if_neg hcurrent] at hactive
      rw [← AList.mem_keys, AList.mem_erase]
      refine ⟨?_, by simpa [has_path] using h active hactive⟩
      rintro rfl
      exact hcurrent hactive
  · rw [remove_path_of_unbound (Bool.eq_false_iff.mpr hbound)]
    exact h

end Session

/-! ## Packets on their way out -/

/-- The packet of one round, with its number. -/
structure Draft where
  payload : Bytes
  sequence : Sequence
  session_id : SessionId

def Draft.envelope (d : Draft) (packet_type : PacketType) (path_id : PathId) : Envelope :=
  { version := VERSION
    packet_type
    flags := 0
    path_id
    session_id := d.session_id
    sequence := d.sequence
    timestamp_ms := 0
    payload := d.payload }

/-- What a transport takes of one envelope, given its answer. -/
def accepted {F : Type} (session : Session F) (sent : Except Error Unit) (envelope : Envelope) :
    List Envelope :=
  match session.send_on envelope.path_id sent with
  | .ok _ => [envelope]
  | .error _ => []

/-- A transport takes the envelope. -/
def taken {F : Type} (session : Session F) (path : PathId) : Except Error Unit → Bool
  | .ok _ => session.has_path path
  | .error _ => false

section Packets

variable {F : Type} {session : Session F} {sent : Except Error Unit} {envelope : Envelope}

theorem eq_of_mem_accepted {e : Envelope} (h : e ∈ accepted session sent envelope) :
    e = envelope := by
  rw [accepted] at h
  split at h
  · exact List.mem_singleton.mp h
  · contradiction

theorem accepted_data (session : Session F) (d : Draft) (path : PathId) (sent : Except Error Unit) :
    (accepted session sent (d.envelope .Data path)).filterMap Envelope.data_number =
      if taken session path sent = true then [d.sequence.get] else [] := by
  have hpath : (d.envelope .Data path).path_id = path := rfl
  rw [accepted, Session.send_on, hpath]
  by_cases hbound : path ∈ session.paths
  · obtain ⟨transport, hlookup⟩ := AList.mem_iff_lookup.mp hbound
    cases sent with
    | ok _ => simp [hlookup, taken, Session.has_path, hbound, Envelope.data_number, Draft.envelope]
    | error _ => simp [hlookup, taken]
  · cases sent with
    | ok _ => simp [AList.lookup_eq_none.mpr hbound, taken, Session.has_path, hbound]
    | error _ => simp [AList.lookup_eq_none.mpr hbound, taken]

theorem accepted_not_data (h : envelope.packet_type ≠ .Data) :
    (accepted session sent envelope).filterMap Envelope.data_number = [] := by
  rw [accepted]
  split
  · simp [Envelope.data_number, h]
  · rfl

end Packets

/-- `SessionManager`: sessions by their wire-compatible ID. -/
abbrev SessionManager (F : Type) := Map SessionId (Session F)

namespace SessionManager

variable {F : Type} [F32 F]

/-- The session `get_or_create` returns a reference to; writing it back is an `insert`. -/
def get_or_create (sessions : SessionManager F) (id : SessionId) : Session F :=
  (sessions.lookup id).getD (.new id)

end SessionManager

end StreamGuard.V1
