/-
The state that the tasks of the V1 client share, and what they tell the gateway:
`streamguard-service/src/client.rs`.

The client knows the health of its paths, the gateway does not. `announce_path` tells it
which path to send on, `advertise_weights` which shares, and each is silent if it would
repeat itself. `fail_path` marks a path as dead. An announcement is given here by the path it
goes out on and the message; what becomes of it is for the machines that use it.
-/
import StreamGuard.V1.ControlMsg
import StreamGuard.V1.Session

set_option autoImplicit false

namespace StreamGuard.V1

open StreamGuard StreamGuard.Lib

structure Shared (F : Type) where
  session : Session F
  metrics : Map PathId (PathMetrics F)
  notified : Option PathId
  redundancy_loss_threshold : F
  scheduler : WeightedBondingScheduler F
  notified_weights : Option (List (UInt8 × F))

variable {F : Type} [F32 F]

/-! ## Control envelopes -/

/-- A control envelope of the client; it carries the number 0. The payload is expected to
encode. -/
def control_envelope (path_id : PathId) (session_id : SessionId) (msg : ControlMsg F) :
    Outcome Error Envelope :=
  match (msg.map F32.to_bits).encode with
  | .error _ => .panic
  | .ok payload => .ok
    { version := VERSION
      packet_type := .Control
      flags := 0
      path_id
      session_id
      sequence := ⟨0⟩
      timestamp_ms := 0
      payload }

/-- What a transport takes of an announcement. -/
def transmit (session : Session F) (sent : Except Error Unit) (session_id : SessionId) :
    Option (PathId × ControlMsg F) → Outcome Error (List Envelope)
  | none => .ok []
  | some (path_id, msg) => do
    let envelope ← control_envelope path_id session_id msg
    return accepted session sent envelope

section Transmit

variable {session : Session F} {sent : Except Error Unit} {session_id : SessionId}
  {envelope : Envelope} {announcement : Option (PathId × ControlMsg F)}

theorem control_envelope_cases (path_id : PathId) (session_id : SessionId) (msg : ControlMsg F) :
    ((msg.map F32.to_bits).Fits ∧ ∃ envelope, envelope.packet_type = .Control ∧
        envelope.path_id = path_id ∧
        ControlMsg.decode envelope.payload = .ok (msg.map F32.to_bits) ∧
        control_envelope path_id session_id msg = .ok envelope) ∨
      (¬ (msg.map F32.to_bits).Fits ∧ control_envelope path_id session_id msg = .panic) := by
  unfold control_envelope
  cases hencode : (msg.map F32.to_bits).encode with
  | ok payload =>
    exact .inl ⟨(ControlMsg.encode_eq_ok.mp hencode).1, _, rfl, rfl,
      ControlMsg.decode_of_encode hencode, rfl⟩
  | error e =>
    refine .inr ⟨?_, rfl⟩
    intro hfits
    rw [ControlMsg.encode_eq_ok.mpr ⟨hfits, rfl⟩] at hencode
    contradiction

/-- An announcement that the wire holds is transmitted, and is not data; another panics. -/
theorem transmit_cases (session : Session F) (sent : Except Error Unit) (session_id : SessionId)
    (announcement : Option (PathId × ControlMsg F)) :
    ((∀ m, announcement = some m → (m.2.map F32.to_bits).Fits) ∧
        ∃ taken, taken.filterMap Envelope.data_number = [] ∧
          transmit session sent session_id announcement = .ok taken) ∨
      ((∃ m, announcement = some m ∧ ¬ (m.2.map F32.to_bits).Fits) ∧
        transmit session sent session_id announcement = .panic) := by
  cases announcement with
  | none => exact .inl ⟨by simp, [], rfl, rfl⟩
  | some m =>
    obtain ⟨path_id, msg⟩ := m
    rcases control_envelope_cases path_id session_id msg with
      ⟨hfits, envelope, htype, -, -, hok⟩ | ⟨hlong, hpanic⟩
    · refine .inl ⟨by simpa using hfits, accepted session sent envelope, ?_, ?_⟩
      · exact accepted_not_data (by simp [htype])
      · simp only [transmit, hok]
        rfl
    · refine .inr ⟨⟨_, rfl, hlong⟩, ?_⟩
      simp only [transmit, hpanic]
      rfl

end Transmit

/-! ## What the gateway is told -/

/-- `WEIGHT_REFRESH_DELTA`. -/
def WEIGHT_REFRESH_DELTA : F := F32.literal 0.02

/-- One pair of `weights_changed`. -/
def moved (a b : UInt8 × F) : Bool :=
  decide (a.1 ≠ b.1) || F32.lt WEIGHT_REFRESH_DELTA (F32.abs (a.2 - b.2))

def weights_changed (prev : Option (List (UInt8 × F))) (next : List (UInt8 × F)) : Bool :=
  match prev with
  | none => true
  | some prev =>
    decide (prev.length ≠ next.length) || (prev.zip next).any (fun e => moved e.1 e.2)

namespace Shared

/-- One path of `start`. -/
def bind_path (session : Session F) (path : PathId × Connection) : Except Error (Session F) :=
  let bound := session.add_path path.2 path.1
  bound.2.map (fun _ => bound.1)

/-- `start`: every path is bound in the given order, the first is the active one. -/
def start (session_id : SessionId) (paths : List (PathId × Connection)) (threshold : F) :
    Except Error (Shared F) := do
  let session ← paths.foldlM bind_path (.new session_id)
  return ⟨session, ∅, session.active_path, threshold, .new, none⟩

/-- `announce_path`: a message for the transport of the path, if the path is news. -/
def announce_path (s : Shared F) (path_id : PathId) :
    Shared F × Option (PathId × ControlMsg F) :=
  if s.notified = some path_id then (s, none)
  else ({ s with notified := some path_id }, some (path_id, .PathSelect path_id.get))

/-- The scheduler with the shares by the present health of the bound paths. -/
def updated (s : Shared F) (orders : Orders F) : WeightedBondingScheduler F :=
  s.scheduler.update_from orders s.session.path_ids s.metrics

/-- `advertise_weights`. -/
def advertise_weights (s : Shared F) (orders : Orders F) :
    Shared F × Option (PathId × ControlMsg F) :=
  let scheduler := s.updated orders
  let weights := scheduler.normalized_weights
  let s := { s with scheduler }
  if weights.length < 2 then (s, none)
  else match scheduler.preferred_path s.session.active_path with
    | none => (s, none)
    | some preferred =>
      if weights_changed s.notified_weights weights = true then
        ({ s with notified_weights := some weights },
          some (preferred, .WeightSet (weights.map (fun w => (⟨w.1⟩, w.2)))))
      else (s, none)

/-- A path is bound, and measured as eligible if it was measured. -/
def eligible (s : Shared F) (path : PathId) : Bool :=
  s.session.has_path path && (s.metrics.lookup path).all (·.is_eligible)

/-! ## Failover -/

/-- How `choose_path` ranks a path. One that was not measured counts as good as the
worst eligible one. -/
def rank (metrics : Map PathId (PathMetrics F)) (path : UInt8) : F :=
  match metrics.lookup ⟨path⟩ with
  | some m => if m.is_eligible = true then m.score else F32.literal (-1)
  | none => F32.literal 0

/-- One candidate of `choose_path`: a higher rank wins, and an equal one if it is that of the
current path. -/
def choose (metrics : Map PathId (PathMetrics F)) (current : Option PathId)
    (best : Option (UInt8 × F)) (path : UInt8) : Option (UInt8 × F) :=
  let score := rank metrics path
  match best with
  | none => some (path, score)
  | some b =>
    if F32.lt b.2 score = true then some (path, score)
    else if F32.eq score b.2 = true ∧ current = some ⟨path⟩ ∧ current ≠ some ⟨b.1⟩ then
      some (path, score)
    else best

def choose_path (metrics : Map PathId (PathMetrics F)) (paths : List PathId)
    (current : Option PathId) : Option PathId :=
  (((paths.map (·.get)).insertionSort (· ≤ ·)).foldl (choose metrics current) none).map
    (fun b => ⟨b.1⟩)

/-- `fail_path` up to the choice of a successor: the path to steer the gateway to, if the
active path moved. Nothing happens if the path is known to be dead. -/
def fail (s : Shared F) (dead : PathId) : Shared F × Option PathId :=
  if (s.metrics.lookup dead).any (fun m => !m.reachable) = true then (s, none)
  else
    let metrics := s.metrics.insert dead { PathMetrics.default with reachable := false }
    let prev := s.session.active_path
    match choose_path metrics s.session.path_ids prev with
    | none => ({ s with metrics }, none)
    | some best =>
      ({ s with metrics, session := (s.session.set_active_path best).1 },
        if prev ≠ none ∧ prev ≠ some best then some best else none)

/-- The two announcements, one after the other. -/
def tell (s : Shared F) (orders : Orders F) (next : PathId) :
    Shared F × List (PathId × ControlMsg F) :=
  let announced := s.announce_path next
  let advertised := announced.1.advertise_weights orders
  (advertised.1, announced.2.toList ++ advertised.2.toList)

/-- `fail_path`, with what it tells the gateway. -/
def fail_path (s : Shared F) (orders : Orders F) (dead : PathId) :
    Shared F × List (PathId × ControlMsg F) :=
  match s.fail dead with
  | (s, none) => (s, [])
  | (s, some next) => s.tell orders next

/-- What a round of `uplink_loop` does to the state and tells the gateway, before it sends its
packet. -/
def steer (s : Shared F) (orders orders' : Orders F) : Shared F × List (PathId × ControlMsg F) :=
  let s := { s with session := s.session.next_sequence.1 }
  let decided := (s.updated orders).decide
  let s := { s with scheduler := decided.1 }
  match decided.2, decided.1.preferred_path s.session.active_path with
  | .Send _, some preferred =>
    tell { s with session := (s.session.set_active_path preferred).1 } orders' preferred
  | _, _ => (s, [])

/-! ## What the announcements leave alone -/

variable {s : Shared F} {orders : Orders F} {path_id : PathId}

omit [F32 F] in
@[simp] theorem announce_path_session : (s.announce_path path_id).1.session = s.session := by
  rw [announce_path]
  split
  · rfl
  · rfl

/-- Of the engine it writes the scheduler and what was published. -/
theorem advertise_weights_state (s : Shared F) (orders : Orders F) :
    ∃ notified, (s.advertise_weights orders).1 =
      { s with scheduler := s.updated orders, notified_weights := notified } := by
  simp only [advertise_weights]
  split
  · exact ⟨s.notified_weights, rfl⟩
  · split
    · exact ⟨s.notified_weights, rfl⟩
    · split
      · exact ⟨some (s.updated orders).normalized_weights, rfl⟩
      · exact ⟨s.notified_weights, rfl⟩

@[simp] theorem advertise_weights_session :
    (s.advertise_weights orders).1.session = s.session := by
  obtain ⟨notified, hstate⟩ := s.advertise_weights_state orders
  rw [hstate]

omit [F32 F] in
theorem add_path_out_seq {session : Session F} {transport : Connection} {path : PathId} :
    (session.add_path transport path).1.out_seq = session.out_seq := by
  rw [Session.add_path]
  split
  · rfl
  · rfl

omit [F32 F] in
/-- What a new session has and binding a path keeps, the session has at the start. -/
theorem foldlM_bind_path {P : Session F → Prop}
    (hadd : ∀ session transport path, P session → P (session.add_path transport path).1)
    {paths : List (PathId × Connection)} {session session' : Session F} (hP : P session)
    (h : paths.foldlM bind_path session = .ok session') : P session' := by
  induction paths generalizing session with
  | nil =>
    obtain rfl := Except.ok.inj h
    exact hP
  | cons path paths ih =>
    rw [List.foldlM_cons] at h
    cases hbound : bind_path session path with
    | error e =>
      rw [hbound] at h
      contradiction
    | ok bound =>
      rw [hbound] at h
      refine ih ?_ h
      rw [bind_path] at hbound
      cases hadded : (session.add_path path.2 path.1).2 with
      | error e =>
        rw [hadded] at hbound
        contradiction
      | ok _ =>
        rw [hadded] at hbound
        obtain rfl := Except.ok.inj hbound
        exact hadd session path.2 path.1 hP

theorem start_eq_ok {session_id : SessionId} {paths : List (PathId × Connection)}
    {threshold : F} (h : start session_id paths threshold = .ok s) :
    ∃ session, paths.foldlM bind_path (.new session_id) = .ok session ∧
      s = ⟨session, ∅, session.active_path, threshold, .new, none⟩ := by
  rw [start] at h
  cases hfold : paths.foldlM bind_path (Session.new (F := F) session_id) with
  | error e =>
    rw [hfold] at h
    contradiction
  | ok session =>
    rw [hfold] at h
    exact ⟨session, rfl, (Except.ok.inj h).symm⟩

/-- A client that has just started has drawn no number. -/
theorem start_out_seq {session_id : SessionId} {paths : List (PathId × Connection)}
    {threshold : F} (h : start session_id paths threshold = .ok s) :
    s.session.out_seq = .new := by
  obtain ⟨session, hfold, rfl⟩ := start_eq_ok h
  refine foldlM_bind_path (P := fun session => session.out_seq = .new) ?_ rfl hfold
  intro session transport path hnew
  rw [add_path_out_seq, hnew]

/-- Its active path is bound. -/
theorem start_aimed {session_id : SessionId} {paths : List (PathId × Connection)}
    {threshold : F} (h : start session_id paths threshold = .ok s) : s.session.Aimed := by
  obtain ⟨session, hfold, rfl⟩ := start_eq_ok h
  exact foldlM_bind_path (fun _ _ _ haimed => haimed.add_path) Session.aimed_new hfold

/-- A path announcement is short. -/
theorem announce_path_fits {m : PathId × ControlMsg F} (h : (s.announce_path path_id).2 = some m) :
    (m.2.map F32.to_bits).Fits := by
  rw [announce_path] at h
  split at h
  · contradiction
  · obtain rfl := Option.some.inj h
    simp [ControlMsg.map, ControlMsg.Fits]

@[simp] theorem advertise_weights_metrics :
    (s.advertise_weights orders).1.metrics = s.metrics := by
  obtain ⟨notified, hstate⟩ := s.advertise_weights_state orders
  rw [hstate]

omit [F32 F] in
@[simp] theorem announce_path_metrics : (s.announce_path path_id).1.metrics = s.metrics := by
  rw [announce_path]
  split
  · rfl
  · rfl

/-- Eligibility is a matter of the paths and their measurements. -/
theorem eligible_congr {s' : Shared F} (hpaths : s'.session.paths = s.session.paths)
    (hmetrics : s'.metrics = s.metrics) (path : PathId) : s'.eligible path = s.eligible path := by
  rw [eligible, eligible, Session.has_path, Session.has_path, hpaths, hmetrics]

/-- What is advertised is a weight set. -/
theorem advertise_weights_msg {m : PathId × ControlMsg F}
    (h : (s.advertise_weights orders).2 = some m) :
    m.2 = .WeightSet ((s.updated orders).normalized_weights.map (fun w => (⟨w.1⟩, w.2))) := by
  simp only [advertise_weights] at h
  split at h
  · contradiction
  · split at h
    · contradiction
    · split at h
      · simp [← Option.some.inj h]
      · contradiction

/-! ## Whom the announcements name -/

theorem of_foldl_choose {metrics : Map PathId (PathMetrics F)} {current : Option PathId}
    {paths : List UInt8} {best : Option (UInt8 × F)} {b : UInt8 × F}
    (h : paths.foldl (choose metrics current) best = some b) : best = some b ∨ b.1 ∈ paths := by
  induction paths generalizing best with
  | nil => exact .inl h
  | cons path paths ih =>
    rcases ih h with hkept | hmem
    · simp only [choose] at hkept
      have hown : some (path, rank metrics path) = some b → b.1 ∈ path :: paths := by
        intro hsame
        rw [← Option.some.inj hsame]
        exact List.mem_cons_self
      split at hkept
      · exact .inr (hown hkept)
      · split at hkept
        · exact .inr (hown hkept)
        · split at hkept
          · exact .inr (hown hkept)
          · exact .inl hkept
    · exact .inr (List.mem_cons_of_mem path hmem)

/-- `choose_path` picks one of the paths. -/
theorem mem_of_choose_path {metrics : Map PathId (PathMetrics F)} {paths : List PathId}
    {current : Option PathId} {path : PathId} (h : choose_path metrics paths current = some path) :
    path ∈ paths := by
  obtain ⟨b, hb, rfl⟩ := Option.map_eq_some_iff.mp h
  rcases of_foldl_choose hb with hnone | hmem
  · contradiction
  · obtain ⟨p, hp, hget⟩ := List.mem_map.mp (List.mem_insertionSort _ |>.mp hmem)
    rw [← hget]
    exact hp

/-! ## The path that takes over -/

section Ordered

variable [OrderedF32 F] {metrics : Map PathId (PathMetrics F)} {current : Option PathId}
  {paths seen : List UInt8} {path : UInt8} {best : Option (UInt8 × F)} {b : UInt8 × F}

/-- The path was not measured as ineligible. -/
def sound (metrics : Map PathId (PathMetrics F)) (path : UInt8) : Bool :=
  (metrics.lookup ⟨path⟩).all (·.is_eligible)

omit [OrderedF32 F] in
theorem rank_of_unsound (h : sound metrics path = false) :
    rank metrics path = F32.literal (-1) := by
  rw [sound] at h
  rw [rank]
  cases hlookup : metrics.lookup ⟨path⟩ with
  | none =>
    rw [hlookup] at h
    contradiction
  | some m =>
    have hineligible : m.is_eligible = false := by simpa [hlookup] using h
    simp [hineligible]

theorem rank_of_sound (h : sound metrics path = true) :
    F32.le (F32.literal 0) (rank metrics path) = true := by
  rw [sound] at h
  rw [rank]
  cases hlookup : metrics.lookup ⟨path⟩ with
  | none => exact OrderedF32.literal_nonneg (le_refl 0)
  | some m =>
    have heligible : m.is_eligible = true := by simpa [hlookup] using h
    simpa [heligible] using m.score_nonneg

/-- The best path so far is sound, or none of those seen is; then it is the current path, if
that was seen. -/
def Leads (metrics : Map PathId (PathMetrics F)) (current : Option PathId) (seen : List UInt8)
    (b : UInt8 × F) : Prop :=
  b.2 = rank metrics b.1 ∧ (sound metrics b.1 = true ∨
    ∀ p ∈ seen, sound metrics p = false ∧ (current = some ⟨p⟩ → p = b.1))

/-- A sound path takes the lead, or leaves it to a sound one. -/
theorem leads_of_sound {b₀ : UInt8 × F} (h₀ : Leads metrics current seen b₀)
    (hsound : sound metrics path = true) (h : choose metrics current (some b₀) path = some b) :
    Leads metrics current (seen ++ [path]) b := by
  obtain ⟨hrank, -⟩ := h₀
  simp only [choose] at h
  split at h
  · obtain rfl := Option.some.inj h
    exact ⟨rfl, .inl hsound⟩
  next hlt =>
    split at h
    · obtain rfl := Option.some.inj h
      exact ⟨rfl, .inl hsound⟩
    · obtain rfl := Option.some.inj h
      refine ⟨hrank, .inl ?_⟩
      -- an unsound one ranks below every sound one
      by_contra hunsound
      rw [hrank, rank_of_unsound (Bool.eq_false_iff.mpr hunsound)] at hlt
      exact hlt (OrderedF32.neg_one_lt (rank_of_sound hsound))

/-- An unsound path never takes the lead from a sound one, and from an unsound one only
if it is the current path. -/
theorem leads_of_unsound {b₀ : UInt8 × F} (h₀ : Leads metrics current seen b₀)
    (hunsound : sound metrics path = false)
    (h : choose metrics current (some b₀) path = some b) :
    Leads metrics current (seen ++ [path]) b := by
  obtain ⟨hrank, hleads⟩ := h₀
  have hrank' := rank_of_unsound hunsound
  simp only [choose, hrank'] at h
  by_cases hsound₀ : sound metrics b₀.1 = true
  · have hnonneg := rank_of_sound hsound₀
    rw [← hrank] at hnonneg
    have hne := OrderedF32.ne_of_lt (OrderedF32.neg_one_lt hnonneg)
    simp only [OrderedF32.not_lt_neg_one hnonneg, hne, Bool.false_eq_true, false_and,
      ↓reduceIte, Option.some.injEq] at h
    rw [← h]
    exact ⟨hrank, .inl hsound₀⟩
  · have hall := hleads.resolve_left hsound₀
    have hrank₀ := rank_of_unsound (Bool.eq_false_iff.mpr hsound₀)
    simp only [hrank, hrank₀, OrderedF32.lt_self, OrderedF32.literal_eq, true_and,
      Bool.false_eq_true, ↓reduceIte] at h
    split at h
    next hcurrent =>
      obtain rfl := Option.some.inj h
      refine ⟨hrank'.symm, .inr ?_⟩
      intro p hp
      rcases List.mem_append.mp hp with hp | hp
      · refine ⟨(hall p hp).1, fun hp' => ?_⟩
        exact congrArg PathId.get (Option.some.inj (hp'.symm.trans hcurrent.1))
      · rw [List.mem_singleton.mp hp]
        exact ⟨hunsound, fun _ => rfl⟩
    next hother =>
      obtain rfl := Option.some.inj h
      refine ⟨hrank, .inr ?_⟩
      intro p hp
      rcases List.mem_append.mp hp with hp | hp
      · exact hall p hp
      · rw [List.mem_singleton.mp hp]
        refine ⟨hunsound, fun hcurrent => ?_⟩
        -- the current path would have taken the lead
        by_contra hne
        refine hother ⟨hcurrent, ?_⟩
        rw [hcurrent]
        simp [hne]

theorem leads_choose (hbest : ∀ b, best = some b → Leads metrics current seen b)
    (hnone : best = none → seen = []) (h : choose metrics current best path = some b) :
    Leads metrics current (seen ++ [path]) b := by
  cases best with
  | none =>
    obtain rfl := Option.some.inj h
    refine ⟨rfl, ?_⟩
    by_cases hsound : sound metrics path = true
    · exact .inl hsound
    · refine .inr ?_
      simp [hnone rfl, hsound]
  | some b₀ =>
    by_cases hsound : sound metrics path = true
    · exact leads_of_sound (hbest b₀ rfl) hsound h
    · exact leads_of_unsound (hbest b₀ rfl) (Bool.eq_false_iff.mpr hsound) h

theorem leads_foldl (hbest : ∀ b, best = some b → Leads metrics current seen b)
    (hnone : best = none → seen = [])
    (h : paths.foldl (choose metrics current) best = some b) :
    Leads metrics current (seen ++ paths) b := by
  induction paths generalizing best seen with
  | nil =>
    rw [List.append_nil]
    exact hbest b h
  | cons path paths ih =>
    rw [List.foldl_cons] at h
    have hsome : choose metrics current best path ≠ none := by
      simp only [choose]
      split
      · simp
      · split
        · simp
        · split
          · simp
          · simp
    rw [show seen ++ path :: paths = (seen ++ [path]) ++ paths by simp]
    refine ih ?_ ?_ h
    · intro b hb
      exact leads_choose hbest hnone hb
    · intro hnil
      exact absurd hnil hsome

/-- `choose_path` moves on from a bound path to one that was not measured as ineligible, or not at
all. -/
theorem sound_of_choose_path {paths : List PathId} {next : PathId}
    (hcurrent : ∀ p, current = some p → p ∈ paths) (hsome : current ≠ none)
    (hmoves : current ≠ some next) (h : choose_path metrics paths current = some next) :
    sound metrics next.get = true := by
  obtain ⟨b, hb, rfl⟩ := Option.map_eq_some_iff.mp h
  have hleads : Leads metrics current ([] ++ (paths.map (·.get)).insertionSort (· ≤ ·)) b :=
    leads_foldl (by simp) (fun _ => rfl) hb
  refine hleads.2.resolve_right fun hall => ?_
  obtain ⟨active, hactive⟩ := Option.ne_none_iff_exists'.mp hsome
  have hmem : active.get ∈ [] ++ (paths.map (·.get)).insertionSort (· ≤ ·) :=
    List.mem_insertionSort _ |>.mpr (List.mem_map_of_mem (hcurrent active hactive))
  have hsame := (hall active.get hmem).2 hactive
  rw [hactive, ← hsame] at hmoves
  exact hmoves rfl

end Ordered

section Lawful

variable [LawfulF32 F]

theorem eligible_of_updated {path : PathId} {w : F}
    (hlookup : (s.updated orders).weights.lookup path.get = some w)
    (hweight : F32.le w (F32.literal 0) = false) : s.eligible path = true := by
  obtain ⟨hpath, hmeasured⟩ := WeightedBondingScheduler.eligible_of_weight hlookup hweight
  have hbound : path ∈ s.session.paths := AList.mem_keys.mp hpath
  rw [eligible, Session.has_path, decide_eq_true hbound, Bool.true_and, Option.all_eq_true]
  exact hmeasured

/-- The paths of a weight set are eligible. -/
theorem eligible_of_normalized {w : UInt8 × F} (h : w ∈ (s.updated orders).normalized_weights) :
    s.eligible ⟨w.1⟩ = true := by
  obtain ⟨hlookup, hpositive⟩ := WeightedBondingScheduler.mem_normalized_weights.mp h
  refine eligible_of_updated hlookup (Bool.eq_false_iff.mpr ?_)
  intro hle
  rw [LawfulF32.not_lt_of_le hle] at hpositive
  contradiction

/-- A preferred path is eligible. -/
theorem eligible_of_preferred {current : Option PathId} {path : PathId}
    (h : (s.updated orders).preferred_path current = some path) : s.eligible path = true := by
  obtain ⟨w, hlookup, hweight⟩ := WeightedBondingScheduler.of_preferred_path h
  exact eligible_of_updated hlookup hweight

end Lawful

end Shared

end StreamGuard.V1
