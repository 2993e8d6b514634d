/-
How the downlink leaves a path that failed.

The client tells the gateway two things: the path to send on (`PathSelect`) and the shares of all
paths (`WeightSet`). The gateway prefers the shares as long as they are fresh. When a path fails,
`fail_path` speaks up only if the active path moves, and its weight set goes out only if two other
paths have weight; so the gateway may go on sending to the dead path. And what another task
had decided before the failure may go out behind it.

A path is *owed* from the moment its failure is handled: `owe` keeps it with the number of messages
that are still to be followed before the egress must have left it, until a message names it that
was sent while the client held it to be eligible. `TakesWeight` and `TakesSelection` say which
steps take both from the path, and the main result is that in a run of such steps the egress is
never an owed path.
-/
import StreamGuard.V1.Joint

set_option autoImplicit false

namespace StreamGuard.V1

open StreamGuard StreamGuard.Lib

variable {F : Type} [F32 F]

/-! ## What is on its way -/

/-- The active path after one more message. -/
def select (F : Type) [F32 F] (active : Option PathId) (m : Rider) : Option PathId :=
  match heard F m.envelope with
  | some (.PathSelect path) => some ⟨path⟩
  | _ => active <|> some m.envelope.path_id

/-- The weight set has a positive entry for the path. -/
def shares (weights : List (PathId × F)) (d : PathId) : Bool :=
  weights.any (fun w => decide (w.1 = d) && F32.lt (F32.literal 0) w.2)

/-- Whether the path has a weight after one more message. -/
def weigh (F : Type) [F32 F] (d : PathId) (weighed : Bool) (m : Rider) : Bool :=
  match heard F m.envelope with
  | some (.WeightSet weights) => shares weights d
  | _ => weighed

/-- The message rides on the path, or selects it. -/
def points (F : Type) [F32 F] (e : Envelope) (d : PathId) : Bool :=
  decide (e.path_id = d) ||
    match heard F e with
    | some (.PathSelect path) => decide (path = d.get)
    | _ => false

/-- The message gives the path a weight. -/
def gives (F : Type) [F32 F] (e : Envelope) (d : PathId) : Bool :=
  match heard F e with
  | some (.WeightSet weights) => shares weights d
  | _ => false

/-- The message is about the path. -/
def names (F : Type) [F32 F] (e : Envelope) (d : PathId) : Bool := points F e d || gives F e d

/-- The active path once the gateway has followed a message. -/
def Session.obeys (g : Session F) (m : Rider) : Option PathId :=
  match heard F m.envelope with
  | some (.PathSelect path) => if g.has_path ⟨path⟩ = true then some ⟨path⟩ else g.active_path
  | _ => g.active_path

/-- After these messages the path has no weight at the gateway. -/
def Unweighed (d : PathId) (_ : Bool) (ms : List Rider) (g : Session F) : Prop :=
  ms.foldl (weigh F d) (g.weighs d) = false

instance (d : PathId) (arrived : Bool) (ms : List Rider) (g : Session F) :
    Decidable (Unweighed d arrived ms g) :=
  inferInstanceAs (Decidable (_ = _))

/-- After these messages it is not the active path. The path of the first one may have been seen
to. -/
def Deselected (d : PathId) (arrived : Bool) (ms : List Rider) (g : Session F) : Prop :=
  match arrived, ms with
  | true, m :: ms => ms.foldl (select F) (g.obeys m) ≠ some d
  | _, ms => ms.foldl (select F) g.active_path ≠ some d

instance (d : PathId) : ∀ (arrived : Bool) (ms : List Rider) (g : Session F),
    Decidable (Deselected d arrived ms g)
  | true, _ :: _, _ => inferInstanceAs (Decidable (_ ≠ _))
  | true, [], _ => inferInstanceAs (Decidable (_ ≠ _))
  | false, _, _ => inferInstanceAs (Decidable (_ ≠ _))

/-! ## Paths that are owed -/

/-- A path whose failure was handled. The egress must have left it when `due` more messages are
followed, until `back` more have arrived, if the client has named the path again. -/
structure Debt where
  path : PathId
  due : ℕ
  back : Option ℕ
  deriving DecidableEq

namespace Debt

/-- When `k` more messages are followed the path must have been left. -/
def spans (b : Debt) (k : ℕ) : Prop := b.due ≤ k ∧ ∀ r ∈ b.back, k < r

instance (b : Debt) (k : ℕ) : Decidable (b.spans k) := inferInstanceAs (Decidable (_ ∧ _))

/-- A message was followed. Nothing is owed any more if it named the path again. -/
def follow (b : Debt) : Option Debt :=
  if b.back = some 1 then none
  else some { b with due := b.due - 1, back := b.back.map (· - 1) }

/-- Of `n` messages on their way, the last ones were sent just now. -/
def hear (n : ℕ) (sent : List (Sent F)) (b : Debt) : Debt :=
  if b.back = none ∧ sent.any (fun x => names F x.envelope b.path && x.client.eligible b.path) then
    { b with back := some n }
  else b

end Debt

/-- Another bound path is eligible. -/
def Shared.survives (s : Shared F) (dead : PathId) : Bool :=
  s.session.path_ids.any (fun p => decide (p ≠ dead) && s.eligible p)

namespace Joint

/-- The path whose failure has been handled with this step. -/
def completes (j : Joint F) : JointEvent F → Option PathId
  | .Fail dead => if j.client.knows dead = true then some dead else none
  | .Choose i =>
    match j.failing[i]? with
    | some (dead, .Choosing) => if j.client.failover.2 = none then some dead else none
    | _ => none
  | .Tell who orders =>
    match j.telling who with
    | some t =>
      let told := t.step j.client orders
      match riders told.1 told.2.2 with
      | .ok _ => if told.2.1.over = true then j.dead_of who else none
      | _ => none
    | none => none
  | _ => none

/-- The path whose failure a call is handling that looks at the paths with this step. -/
def looks (j : Joint F) : JointEvent F → Option PathId
  | .Choose i => j.dead_of (some i)
  | .Tell who _ =>
    match j.telling who with
    | some .Drafting => j.dead_of who
    | _ => none
  | _ => none

/-- The session after the gateway binds or evicts a path. -/
def rebinds (j : Joint F) : JointEvent F → Option (Session F)
  | .Bind path transport => some (j.gateway.add_path transport path).1
  | .Evict path => some (j.gateway.remove_path path).1
  | _ => none

/-- The section sends a weight set: that fits the wire, and its path is bound. -/
def publishes (j : Joint F) : JointEvent F → Bool
  | .Tell who _ =>
    match j.telling who with
    | some (.Publishing preferred weights) =>
      decide (weights.length ≤ 255) && j.client.session.has_path preferred
    | _ => false
  | _ => false

/-- The section is to send a weight set that lists the path. -/
def lists (j : Joint F) (d : PathId) : JointEvent F → Bool
  | .Tell who _ =>
    match j.telling who with
    | some (.Publishing _ weights) => decide (d.get ∈ weights.map Prod.fst)
    | _ => false
  | _ => false

/-- The section is to send a message on the path. -/
def rides (j : Joint F) (d : PathId) : JointEvent F → Bool
  | .Tell who _ =>
    match j.telling who with
    | some (.Selecting next) => decide (next = d)
    | some (.Publishing preferred _) => decide (preferred = d)
    | _ => false
  | _ => false

end Joint

/-- What is owed after a step. -/
def owe (j : Joint F) (owed : List Debt) (e : JointEvent F) : List Debt :=
  match e with
  | .Arrive => owed.filter (fun b => decide (b.back ≠ some 1))
  | .Follow => owed.filterMap Debt.follow
  | e =>
    match j.step e with
    | none => owed
    | some (j', sent) =>
      ((j.completes e).filter j.client.survives).toList.map
          (fun dead => ⟨dead, j'.channel.length, none⟩) ++
        owed.map (.hear j'.channel.length sent)

/-! ## The conditions -/

/-- A path whose failure is being handled is not measured as eligible again when the call
chooses another one, and when it takes the shares. -/
def StaysDown (s : Joint F × List Debt) (e : JointEvent F) : Prop :=
  ∀ dead ∈ s.1.looks e, s.1.client.eligible dead = false

/-- A failure takes the weight from its path: the call ends with a weight set, or the last one,
be it adopted or on its way, has none of the path. And no task sends one behind it that lists the
path while that is not eligible. -/
def TakesWeight (s : Joint F × List Debt) (e : JointEvent F) : Prop :=
  (∀ dead ∈ s.1.completes e, s.1.client.survives dead = true → s.1.publishes e = false →
    Unweighed dead s.1.arrived s.1.channel s.1.gateway) ∧
  ∀ b ∈ s.2, b.back = none → s.1.lists b.path e = true → s.1.client.eligible b.path = true

/-- The gateway does not fall back to an owed path on its own, now or when it has followed what is
on its way. -/
def Steers (s : Joint F × List Debt) (g : Session F) : Prop :=
  ∀ b ∈ s.2, ∀ k ≤ s.1.channel.length, b.spans k →
    Deselected b.path s.1.arrived (s.1.channel.take k) g

instance (s : Joint F × List Debt) (g : Session F) : Decidable (Steers s g) :=
  inferInstanceAs (Decidable (∀ b ∈ s.2, ∀ k ≤ _, _ → _))

/-- A failure takes the selection from its path: when the call ends the last selection, be it in
force or on its way, is another path. No task selects the path behind it while that is not
eligible, and the gateway does not fall back to it. -/
def TakesSelection (s : Joint F × List Debt) (e : JointEvent F) : Prop :=
  (∀ dead ∈ s.1.completes e, s.1.client.survives dead = true →
    Deselected dead s.1.arrived s.1.channel s.1.gateway) ∧
  (∀ b ∈ s.2, b.back = none → s.1.rides b.path e = true → s.1.client.eligible b.path = true) ∧
  ∀ g ∈ s.1.rebinds e, Steers s g

instance (s : Joint F × List Debt) (e : JointEvent F) : Decidable (StaysDown s e) :=
  inferInstanceAs (Decidable (∀ _ ∈ _, _))

instance (s : Joint F × List Debt) (e : JointEvent F) : Decidable (TakesWeight s e) :=
  inferInstanceAs (Decidable ((∀ _ ∈ _, _ → _ → _) ∧ ∀ _ ∈ _, _ → _ → _))

instance (s : Joint F × List Debt) (e : JointEvent F) : Decidable (TakesSelection s e) :=
  inferInstanceAs (Decidable ((∀ _ ∈ _, _ → _) ∧ (∀ _ ∈ _, _ → _ → _) ∧ ∀ _ ∈ _, _))

/-! ### Messages at the gateway -/

section Gateway

variable {g : Session F} {d path : PathId} {ms : List Rider} {m : Rider} {now : ℕ}
  {active : Option PathId} {weighed weighed' : Bool}

/-- A selection is for the path it rides on. -/
def Rider.Own (F : Type) [F32 F] (m : Rider) : Prop :=
  ∀ path, heard F m.envelope = some (.PathSelect path) → m.envelope.path_id = ⟨path⟩

theorem select_ne (h : active ≠ some d) (hm : points F m.envelope d = false) :
    select F active m ≠ some d := by
  simp only [points, Bool.or_eq_false_iff, decide_eq_false_iff_not] at hm
  rw [select]
  split
  next path hheard =>
    intro hsame
    obtain rfl := Option.some.inj hsame
    simp [hheard] at hm
  · cases active with
    | none => exact fun hsame => hm.1 (Option.some.inj hsame)
    | some p => exact h

theorem weigh_eq_false (h : weighed = false) (hm : gives F m.envelope d = false) :
    weigh F d weighed m = false := by
  rw [gives] at hm
  rw [weigh]
  split
  next weights hheard => simpa [hheard] using hm
  · exact h

theorem foldl_weigh_mono (hle : weighed' = true → weighed = true)
    (h : ms.foldl (weigh F d) weighed' = true) : ms.foldl (weigh F d) weighed = true := by
  induction ms generalizing weighed weighed' with
  | nil => exact hle h
  | cons m ms ih =>
    refine ih ?_ h
    simp only [weigh]
    split
    · exact fun hshares => hshares
    · exact hle

/-- What a session does not gain leaves a path without weight. -/
theorem Unweighed.mono {g' : Session F} {arrived arrived' : Bool} (h : Unweighed d arrived ms g)
    (hle : g'.weighs d = true → g.weighs d = true) : Unweighed d arrived' ms g' := by
  rw [Unweighed, Bool.eq_false_iff] at h ⊢
  exact fun hweighed => h (foldl_weigh_mono hle hweighed)

theorem follow_active_path : (g.follow now m).active_path = g.obeys m := by
  simp only [Session.follow, Session.obeys]
  split
  next path hheard =>
    simp only [hheard]
    by_cases hbound : g.has_path ⟨path⟩ = true
    · rw [if_pos hbound, Session.set_active_path_active_path hbound]
    · rw [if_neg hbound, Session.set_active_path_of_unbound (Bool.eq_false_iff.mpr hbound)]
  next weights hheard => simp only [hheard, Session.adopt_active_path]
  next hselect _ =>
    split
    next path hheard => exact absurd hheard (hselect path)
    · rfl

theorem of_weighs_follow (h : (g.follow now m).weighs d = true) :
    weigh F d (g.weighs d) m = true := by
  rw [Session.follow] at h
  rw [weigh]
  split at h
  next path hheard => simpa [hheard, Session.weighs] using h
  next weights hheard =>
    simp only [hheard]
    obtain ⟨w, hw, hpositive⟩ := Session.of_weighs_adopt h
    exact List.any_eq_true.mpr ⟨(d, w), hw, by simp [hpositive]⟩
  next _ hweights =>
    split
    next weights hheard => exact absurd hheard (hweights weights)
    · exact h

theorem pointed_follow (h : g.Pointed) : (g.follow now m).Pointed := by
  rw [Session.follow]
  split
  · exact h.set_active_path
  · exact h.adopt
  · exact h

/-- Once its path is seen to, a message selects what it was to select. -/
theorem obeys_add_path (hown : m.Own F) (hpointed : g.Pointed) :
    (g.add_path m.connection m.envelope.path_id).1.obeys m = select F g.active_path m := by
  rw [Session.obeys, select]
  split
  next path hheard =>
    rw [hown path hheard]
    simp [Session.has_path_add_path]
  · by_cases hbound : g.has_path m.envelope.path_id = true
    · rw [Session.add_path_of_bound hbound]
      cases hactive : g.active_path with
      | none =>
        rw [hpointed hactive] at hbound
        contradiction
      | some active => rfl
    · exact Session.add_path_active_path (Bool.eq_false_iff.mpr hbound)

/-- Seeing to the path of a message moves no further than the message does. -/
theorem add_path_active_path_ne (hown : m.Own F) (h : g.active_path ≠ some d)
    (hm : select F g.active_path m ≠ some d) :
    (g.add_path m.connection m.envelope.path_id).1.active_path ≠ some d := by
  by_cases hbound : g.has_path m.envelope.path_id = true
  · rwa [Session.add_path_of_bound hbound]
  · rw [Session.add_path_active_path (Bool.eq_false_iff.mpr hbound)]
    rw [select] at hm
    split at hm
    next path hheard =>
      rw [hown path hheard]
      cases hactive : g.active_path with
      | none => exact hm
      | some active => rwa [hactive] at h
    · exact hm

theorem deselected_congr {g' : Session F} {arrived : Bool} (hactive : g'.active_path = g.active_path)
    (hpaths : g'.paths = g.paths) : Deselected d arrived ms g' ↔ Deselected d arrived ms g := by
  have hhas : ∀ p, g'.has_path p = g.has_path p := by
    intro p
    simp only [Session.has_path, hpaths]
  have hobeys : ∀ m, g'.obeys m = g.obeys m := by
    intro m
    simp only [Session.obeys, hhas, hactive]
  cases arrived with
  | false => simp only [Deselected, hactive]
  | true =>
    cases ms with
    | nil => simp only [Deselected, hactive]
    | cons m ms => simp only [Deselected, hobeys]

theorem egress_paths : (g.egress now).1.paths = g.paths := by
  simp only [Session.egress, Session.downlink_decide]
  split
  · rfl
  · split
    · rfl
    · rfl

/-- A message that does not touch the path leaves the property alone, and seeing to and following
one is what it foresees. -/
structure Foreseen (touches : Envelope → PathId → Bool)
    (holds : PathId → Bool → List Rider → Session F → Prop) : Prop where
  append {d : PathId} {arrived : Bool} {ms : List Rider} {m : Rider} {g : Session F} :
    holds d arrived ms g → (arrived = true → ms ≠ []) → touches m.envelope d = false →
    holds d arrived (ms ++ [m]) g
  arrive {d : PathId} {m : Rider} {g : Session F} : m.Own F → holds d false [] g →
    holds d false [m] g → holds d true [] (g.add_path m.connection m.envelope.path_id).1
  arrive_cons {d : PathId} {m : Rider} {ms : List Rider} {g : Session F} : m.Own F → g.Pointed →
    holds d false (m :: ms) g →
    holds d true (m :: ms) (g.add_path m.connection m.envelope.path_id).1
  follow {d : PathId} {m : Rider} {ms : List Rider} {g : Session F} {now : ℕ} :
    holds d true (m :: ms) g → holds d false ms (g.follow now m)

theorem unweighed_foreseen : Foreseen (gives F) (Unweighed (F := F)) where
  append h _ htouches := by
    rw [Unweighed, List.foldl_append]
    exact weigh_eq_false h htouches
  arrive _ h _ := h.mono fun hweighs => by
    rwa [Session.weighs, Session.add_path_downlink] at hweighs
  arrive_cons _ _ h := h.mono fun hweighs => by
    rwa [Session.weighs, Session.add_path_downlink] at hweighs
  follow h := by
    rw [Unweighed, Bool.eq_false_iff]
    intro hweighed
    have hbefore := foldl_weigh_mono of_weighs_follow hweighed
    rw [Unweighed, List.foldl_cons] at h
    rw [h] at hbefore
    contradiction

theorem deselected_foreseen : Foreseen (points F) (Deselected (F := F)) where
  append {d arrived ms m g} h hfirst htouches := by
    cases arrived with
    | false =>
      simp only [Deselected, List.foldl_append] at h ⊢
      exact select_ne h htouches
    | true =>
      obtain ⟨first, rest, rfl⟩ := List.exists_cons_of_ne_nil (hfirst rfl)
      simp only [Deselected, List.cons_append, List.foldl_append] at h ⊢
      exact select_ne h htouches
  arrive hown h hm := add_path_active_path_ne hown h hm
  arrive_cons hown hpointed h := by
    simp only [Deselected, obeys_add_path hown hpointed]
    exact h
  follow h := by
    simp only [Deselected, follow_active_path]
    exact h

end Gateway

/-! ### Messages of the client -/

section Client

variable {s : Shared F} {j : Joint F} {d : PathId} {m : Rider} {orders : Orders F}
  {path : PathId} {msg : ControlMsg F} {t : Telling F} {sent : List Rider}

/-- At most one envelope goes out, if the message encodes: on its path, with what was said. -/
theorem riders_cases (s : Shared F) (path : PathId) (msg : ControlMsg F) :
    (¬ (msg.map F32.to_bits).Fits ∧ riders s (some (path, msg)) = .panic) ∨
      (msg.map F32.to_bits).Fits ∧ ∃ sent, riders s (some (path, msg)) = .ok sent ∧
        ((s.session.has_path path = false ∧ sent = []) ∨
          s.session.has_path path = true ∧ ∃ m, sent = [m] ∧ m.envelope.path_id = path ∧
            heard F m.envelope = some ((msg.map F32.to_bits).map F32.of_bits)) := by
  rcases control_envelope_cases path s.session.session_id msg with
    ⟨hfits, e, -, hpath, hdecode, he⟩ | ⟨hlong, hpanic⟩
  · refine .inr ⟨hfits, (s.session.paths.lookup path).toList.map (fun c => ⟨c, e⟩), ?_, ?_⟩
    · simp only [riders, he]
      rfl
    · cases hlookup : s.session.paths.lookup path with
      | none =>
        have hunbound : path ∉ s.session.paths := AList.lookup_eq_none.mp hlookup
        exact .inl ⟨by simp [Session.has_path, hunbound], rfl⟩
      | some connection =>
        have hbound : path ∈ s.session.paths := AList.mem_of_lookup hlookup
        exact .inr ⟨by simp [Session.has_path, hbound], ⟨connection, e⟩, rfl, hpath,
          by simp [heard, hdecode]⟩
  · refine .inl ⟨hlong, ?_⟩
    simp only [riders, hpanic]
    rfl

/-- The shares as they go over the wire. -/
def wired (weights : List (UInt8 × F)) : List (PathId × F) :=
  weights.map (fun w => (⟨w.1⟩, F32.of_bits (F32.to_bits w.2)))

/-- What a section sends: nothing, a selection, or a weight set. -/
theorem telling_cases (h : riders (t.step s orders).1 (t.step s orders).2.2 = .ok sent) :
    sent = [] ∨ ∃ m, sent = [m] ∧
      ((∃ next, t = .Selecting next ∧ m.envelope.path_id = next ∧
          heard F m.envelope = some (.PathSelect next.get)) ∨
        ∃ preferred weights, t = .Publishing preferred weights ∧
          m.envelope.path_id = preferred ∧ heard F m.envelope =
            some (.WeightSet (wired weights))) := by
  cases t with
  | Selecting next =>
    rcases riders_cases s next (.PathSelect next.get) with
      ⟨-, hpanic⟩ | ⟨-, sent', hok, ⟨-, rfl⟩ | ⟨-, m, rfl, hpath, hheard⟩⟩
    · exact absurd (h.symm.trans hpanic) (by simp)
    · exact .inl (Outcome.ok.inj (h.symm.trans hok))
    · exact .inr ⟨m, Outcome.ok.inj (h.symm.trans hok), .inl ⟨next, rfl, hpath, hheard⟩⟩
  | Publishing preferred weights =>
    rcases riders_cases s preferred (.WeightSet (weights.map (fun w => (⟨w.1⟩, w.2)))) with
      ⟨-, hpanic⟩ | ⟨-, sent', hok, ⟨-, rfl⟩ | ⟨-, m, rfl, hpath, hheard⟩⟩
    · exact absurd (h.symm.trans hpanic) (by simp)
    · exact .inl (Outcome.ok.inj (h.symm.trans hok))
    · refine .inr ⟨m, Outcome.ok.inj (h.symm.trans hok), .inr ⟨preferred, weights, rfl, hpath, ?_⟩⟩
      rw [hheard, wired]
      simp [ControlMsg.map]
  | Announcing _ | Drafting | Gating _ _ | Told => exact .inl (Outcome.ok.inj h).symm

/-- A selection that the client sends is for the path it rides on. -/
theorem own_of_telling (h : riders (t.step s orders).1 (t.step s orders).2.2 = .ok sent)
    (hm : m ∈ sent) : m.Own F := by
  intro path hselect
  rcases telling_cases h with rfl | ⟨m', rfl, hcases⟩
  · contradiction
  obtain rfl := List.mem_singleton.mp hm
  rcases hcases with ⟨next, -, hpath, hheard⟩ | ⟨_, _, -, -, hheard⟩
  · obtain rfl := ControlMsg.PathSelect.inj (Option.some.inj (hheard.symm.trans hselect))
    exact hpath
  · exact absurd (hheard.symm.trans hselect) (by simp)

theorem gives_weight_set {weights : List (UInt8 × F)}
    (hheard : heard F m.envelope = some (.WeightSet (wired weights)))
    (hgives : gives F m.envelope d = true) : d.get ∈ weights.map Prod.fst := by
  simp only [gives, hheard, shares, wired, List.any_eq_true, List.mem_map, Bool.and_eq_true,
    decide_eq_true_eq] at hgives
  obtain ⟨_, ⟨w, hw, rfl⟩, rfl, -⟩ := hgives
  exact List.mem_map_of_mem hw

/-- What a section of the announcements does to the client. -/
theorem Telling.step_shared (t : Telling F) (s : Shared F) (orders : Orders F) :
    (t.step s orders).1.session = s.session ∧ (t.step s orders).1.metrics = s.metrics := by
  cases t with
  | Announcing next => exact ⟨Shared.announce_path_session, Shared.announce_path_metrics⟩
  | Gating preferred weights =>
    simp only [Telling.step, Shared.gate_weights]
    split
    · exact ⟨rfl, rfl⟩
    · exact ⟨rfl, rfl⟩
  | Selecting _ | Drafting | Publishing _ _ | Told => exact ⟨rfl, rfl⟩

/-- What the task has in hand does not name the path. -/
def Telling.Avoids (d : PathId) : Telling F → Prop
  | .Announcing next | .Selecting next => next ≠ d
  | .Gating preferred weights | .Publishing preferred weights =>
    preferred ≠ d ∧ d.get ∉ weights.map Prod.fst
  | .Drafting | .Told => True

/-- A snapshot that is taken while the path is not eligible leaves it out. -/
theorem Telling.Avoids.step [LawfulF32 F] (h : t.Avoids d)
    (hlooks : ∀ _ : t = .Drafting, s.eligible d = false) : (t.step s orders).2.1.Avoids d := by
  cases t with
  | Announcing next =>
    simp only [Telling.step]
    split
    · exact h
    · trivial
  | Drafting =>
    simp only [Telling.step, Shared.draft_weights]
    have hdown := hlooks rfl
    split
    · trivial
    · cases hpreferred : (s.updated orders).preferred_path s.session.active_path with
      | none => trivial
      | some preferred =>
        refine ⟨?_, fun hmem => ?_⟩
        · rintro rfl
          rw [Shared.eligible_of_preferred hpreferred] at hdown
          contradiction
        · obtain ⟨w, hw, hsame⟩ := List.mem_map.mp hmem
          rw [show d = ⟨w.1⟩ by rw [hsame], Shared.eligible_of_normalized hw] at hdown
          contradiction
  | Gating preferred weights =>
    simp only [Telling.step]
    split
    · exact h
    · trivial
  | Selecting _ | Publishing _ _ | Told => trivial

/-- What the task has in hand does not name the path, and its message does not either. -/
theorem Telling.Avoids.names (h : t.Avoids d)
    (hsent : riders (t.step s orders).1 (t.step s orders).2.2 = .ok sent) (hm : m ∈ sent) :
    names F m.envelope d = false := by
  rcases telling_cases hsent with rfl | ⟨m', rfl, hcases⟩
  · contradiction
  obtain rfl := List.mem_singleton.mp hm
  rcases hcases with ⟨next, rfl, hpath, hheard⟩ | ⟨preferred, weights, rfl, hpath, hheard⟩
  · have hne : next.get ≠ d.get := fun hsame => h (by cases next; cases d; exact congrArg _ hsame)
    simp [names, points, gives, hpath, hheard, hne, show next ≠ d from h]
  · have hgives : gives F m.envelope d = false :=
      Bool.eq_false_iff.mpr fun hgives => h.2 (gives_weight_set hheard hgives)
    simp [names, points, hgives, hpath, hheard, h.1]

end Client

/-! ## A run of both -/

section Run

variable {s s₁ : Joint F × List Debt} {j j' : Joint F} {d : PathId} {m : Rider} {e : JointEvent F}
  {o : List (Sent F)} {touches : Envelope → PathId → Bool} {t : Telling F} {who : Option ℕ}
  {orders : Orders F} {holds : PathId → Bool → List Rider → Session F → Prop}

/-- No call of `fail_path` has its own path in hand. -/
def Clear (failing : List (PathId × Failing F)) : Prop :=
  ∀ call ∈ failing, ∀ t, call.2 = .Tells t → t.Avoids call.1

/-- The debt is about messages that are on their way. -/
def Debt.Ahead (b : Debt) (n : ℕ) : Prop := b.due ≤ n ∧ ∀ r ∈ b.back, 0 < r ∧ r ≤ n

/-- What holds along every run. -/
structure Kept (s : Joint F × List Debt) : Prop where
  aimed : s.1.client.session.Aimed
  pointed : s.1.gateway.Pointed
  own : ∀ m ∈ s.1.channel, m.Own F
  first : s.1.arrived = true → s.1.channel ≠ []
  ahead : ∀ b ∈ s.2, b.Ahead s.1.channel.length
  clear : Clear s.1.failing

/-- What is owed is on its way. -/
def Waiting (holds : PathId → Bool → List Rider → Session F → Prop) (s : Joint F × List Debt) :
    Prop :=
  ∀ b ∈ s.2, ∀ k ≤ s.1.channel.length, b.spans k →
    holds b.path s.1.arrived (s.1.channel.take k) s.1.gateway

/-! ### Tasks -/

omit [F32 F] in
theorem avoids_of_telling (h : Clear j.failing) (ht : j.telling who = some t)
    (hd : j.dead_of who = some d) : t.Avoids d := by
  cases who with
  | none => contradiction
  | some i =>
    simp only [Joint.telling] at ht
    split at ht
    next call own hcall =>
      obtain rfl := Option.some.inj ht
      obtain rfl : call = d := by simpa [Joint.dead_of, hcall] using hd
      exact h _ (List.mem_of_getElem? hcall) own rfl
    · contradiction

omit [F32 F] in
theorem Clear.set {failing : List (PathId × Failing F)} {i : ℕ} {call : PathId × Failing F}
    (h : Clear failing) (hcall : ∀ t, call.2 = .Tells t → t.Avoids call.1) :
    Clear (failing.set i call) := by
  intro other hmem
  rcases List.mem_or_eq_of_mem_set hmem with hmem | rfl
  · exact h other hmem
  · exact hcall

omit [F32 F] in
/-- A task that goes on has nothing else in hand than what it goes on to. -/
theorem Clear.goes {round : Round F} {stage : Failing F} (h : Clear j.failing)
    (hstage : ∀ d t, j.dead_of who = some d → stage = .Tells t → t.Avoids d) :
    Clear (j.goes who round stage).failing := by
  cases who with
  | none => exact h
  | some i =>
    intro call hmem t ht
    obtain ⟨k, hk⟩ := List.mem_iff_getElem?.mp hmem
    rw [Joint.goes, List.getElem?_modify] at hk
    obtain ⟨old, hold, rfl⟩ := Option.map_eq_some_iff.mp hk
    by_cases hik : i = k
    · subst hik
      simp only [↓reduceIte] at ht ⊢
      exact hstage old.1 t (by simp [Joint.dead_of, hold]) ht
    · simp only [hik, ↓reduceIte] at ht ⊢
      exact h old (List.mem_of_getElem? hold) t ht

/-- The path that takes over from a dead one is another. -/
theorem ne_of_failover [OrderedF32 F] {client : Shared F} {next : PathId}
    (haimed : client.session.Aimed) (hdown : client.eligible d = false)
    (h : client.failover.2 = some next) : next ≠ d := by
  rintro rfl
  have hbound (path : PathId) :
      client.session.has_path path = true ↔ path ∈ client.session.path_ids := by
    rw [Session.has_path, decide_eq_true_eq, Session.path_ids, AList.mem_keys]
  simp only [Shared.failover] at h
  split at h
  · contradiction
  next best hchoose =>
    split at h
    next hmoved =>
      obtain rfl := Option.some.inj h
      -- it was not measured as ineligible, or the active path would have been kept
      have hsound : Shared.sound client.metrics best.get = true := by
        refine Shared.sound_of_choose_path ?_ hmoved.1 hmoved.2 hchoose
        exact fun path hactive => (hbound path).mp (haimed path hactive)
      have heligible : client.eligible best = true :=
        Bool.and_eq_true_iff.mpr ⟨(hbound best).mpr (Shared.mem_of_choose_path hchoose), hsound⟩
      rw [heligible] at hdown
      contradiction
    · contradiction

theorem aimed_failover {client : Shared F} (h : client.session.Aimed) :
    client.failover.1.session.Aimed := by
  simp only [Shared.failover]
  split
  · exact h
  · exact h.set_active_path

/-! ### The steps -/

theorem of_step_tell (h : j.step (.Tell who orders) = some (j', o)) :
    ∃ t, j.telling who = some t ∧ j.tell who orders t = (j', o) := by
  simp only [Joint.step] at h
  split at h
  next t ht =>
    split at h
    · contradiction
    · exact ⟨t, ht, Option.some.inj h⟩
  · contradiction

omit [F32 F] in
/-- A task that goes on leaves the rest alone. -/
theorem goes_eq (j : Joint F) (who : Option ℕ) (round : Round F) (stage : Failing F) :
    j.goes who round stage = { j with
      uplink := (j.goes who round stage).uplink, failing := (j.goes who round stage).failing } := by
  cases who with
  | none => rfl
  | some i => rfl

/-- A section of the announcements ends its task, or adds its message to the channel. -/
theorem tell_cases (j : Joint F) (who : Option ℕ) (orders : Orders F) (t : Telling F) :
    (riders (t.step j.client orders).1 (t.step j.client orders).2.2 = .panic ∧
      j.tell who orders t = (j.goes who .Ended .Ended, [])) ∨
    ∃ sent, riders (t.step j.client orders).1 (t.step j.client orders).2.2 = .ok sent ∧
      j.tell who orders t =
        ({ j.goes who (.of_telling (t.step j.client orders).2.1)
              (.Tells (t.step j.client orders).2.1) with
            client := (t.step j.client orders).1, channel := j.channel ++ sent },
          sent.map (fun m => ⟨(t.step j.client orders).1, m.envelope, j.dead_of who⟩)) := by
  cases hriders : riders (t.step j.client orders).1 (t.step j.client orders).2.2 with
  | ok sent => exact .inr ⟨sent, rfl, by simp only [Joint.tell, hriders]⟩
  | panic => exact .inl ⟨rfl, by simp only [Joint.tell, hriders]⟩
  | err e =>
    -- a message encodes, or its task panics
    cases hmsg : (t.step j.client orders).2.2 with
    | none =>
      rw [hmsg] at hriders
      contradiction
    | some msg =>
      rw [hmsg] at hriders
      rcases riders_cases (t.step j.client orders).1 msg.1 msg.2 with
        ⟨-, hpanic⟩ | ⟨-, sent, hok, -⟩
      · exact absurd (hriders.symm.trans hpanic) (by simp)
      · exact absurd (hriders.symm.trans hok) (by simp)

/-- The channel has grown by what was sent: one message, or none. -/
def Grown (j j' : Joint F) (o : List (Sent F)) : Prop :=
  j'.channel = j.channel ∧ o = [] ∨
    ∃ m x, j'.channel = j.channel ++ [m] ∧ o = [x] ∧ x.envelope = m.envelope ∧ m.Own F

theorem tell_grown (j : Joint F) (who : Option ℕ) (orders : Orders F) (t : Telling F) :
    (j.tell who orders t).1.gateway = j.gateway ∧ (j.tell who orders t).1.arrived = j.arrived ∧
      Grown j (j.tell who orders t).1 (j.tell who orders t).2 := by
  rcases tell_cases j who orders t with ⟨-, hends⟩ | ⟨sent, hsent, htold⟩
  · rw [hends, goes_eq]
    exact ⟨rfl, rfl, .inl ⟨rfl, rfl⟩⟩
  · rw [htold, goes_eq]
    refine ⟨rfl, rfl, ?_⟩
    rcases telling_cases hsent with rfl | ⟨m, rfl, -⟩
    · exact .inl ⟨List.append_nil _, rfl⟩
    · exact .inr ⟨m, _, rfl, rfl, rfl, own_of_telling hsent List.mem_cons_self⟩

/-- Nothing is sent, and nothing happens at the gateway. -/
def JointEvent.quiet : JointEvent F → Bool
  | .Tell _ _ | .Arrive | .Follow | .Bind _ _ | .Evict _ | .Packet => false
  | _ => true

/-- What a step does to the channel and at the gateway. -/
inductive Moved (j : Joint F) : JointEvent F → Joint F → List (Sent F) → Prop
  | quiet {e : JointEvent F} {j' : Joint F} (hquiet : e.quiet = true)
      (hchannel : j'.channel = j.channel) (harrived : j'.arrived = j.arrived)
      (hgateway : j'.gateway = j.gateway) : Moved j e j' []
  | tell {who : Option ℕ} {orders : Orders F} {t : Telling F} (ht : j.telling who = some t) :
      Moved j (.Tell who orders) (j.tell who orders t).1 (j.tell who orders t).2
  | arrive {m : Rider} {channel : List Rider} (harrived : j.arrived = false)
      (hchannel : j.channel = m :: channel) : Moved j .Arrive { j with
        gateway := (j.gateway.add_path m.connection m.envelope.path_id).1, arrived := true } []
  | follow {m : Rider} {channel : List Rider} (harrived : j.arrived = true)
      (hchannel : j.channel = m :: channel) : Moved j .Follow { j with
        gateway := j.gateway.follow j.now m, channel, arrived := false } []
  | rebind {e : JointEvent F} {g : Session F} (hg : j.rebinds e = some g) :
      Moved j e { j with gateway := g } []
  | packet : Moved j .Packet { j with gateway := (j.gateway.egress j.now).1 } []

/-- **What a step does.** The cases are the parties: only an announcement sends. -/
theorem moved_of_step (h : j.step e = some (j', o)) : Moved j e j' o := by
  cases e with
  | Tell who orders =>
    obtain ⟨t, ht, htell⟩ := of_step_tell h
    rw [show j' = (j.tell who orders t).1 by rw [htell],
      show o = (j.tell who orders t).2 by rw [htell]]
    exact .tell ht
  | Arrive =>
    simp only [Joint.step] at h
    split at h
    next m channel harrived hchannel =>
      obtain ⟨rfl, rfl⟩ := step_inj h
      exact .arrive harrived hchannel
    · contradiction
  | Follow =>
    simp only [Joint.step] at h
    split at h
    next m channel harrived hchannel =>
      obtain ⟨rfl, rfl⟩ := step_inj h
      exact .follow harrived hchannel
    · contradiction
  | Bind path transport | Evict path =>
    obtain ⟨rfl, rfl⟩ := step_inj h
    exact .rebind rfl
  | Packet =>
    obtain ⟨rfl, rfl⟩ := step_inj h
    exact .packet
  | Read | Decide orders | Move | Mark i | Choose i =>
    simp only [Joint.step] at h
    split at h
    · obtain ⟨rfl, rfl⟩ := step_inj h
      exact .quiet rfl rfl rfl rfl
    · contradiction
  | Fail dead =>
    simp only [Joint.step] at h
    split at h
    · obtain ⟨rfl, rfl⟩ := step_inj h
      exact .quiet rfl rfl rfl rfl
    · obtain ⟨rfl, rfl⟩ := step_inj h
      exact .quiet rfl rfl rfl rfl
  | Measure path metrics | Join path transport | Leave path | Wait ms =>
    obtain ⟨rfl, rfl⟩ := step_inj h
    exact .quiet rfl rfl rfl rfl

/-! ### What is owed -/

/-- What is owed after a step in which the gateway takes no message from the channel. -/
theorem of_mem_owe {b : Debt} (hstep : s.1.step e = some (j, o)) (harrive : e ≠ .Arrive)
    (hfollow : e ≠ .Follow) (hmem : b ∈ owe s.1 s.2 e) :
    (∃ dead, s.1.completes e = some dead ∧ s.1.client.survives dead = true ∧
        b = ⟨dead, j.channel.length, none⟩) ∨
      ∃ old ∈ s.2, b = old.hear j.channel.length o := by
  have howe : owe s.1 s.2 e = ((s.1.completes e).filter s.1.client.survives).toList.map
      (fun dead => ⟨dead, j.channel.length, none⟩) ++ s.2.map (.hear j.channel.length o) := by
    cases e with
    | Arrive => contradiction
    | Follow => contradiction
    | _ => simp only [owe, hstep]
  rw [howe] at hmem
  rcases List.mem_append.mp hmem with hnew | hold
  · obtain ⟨dead, hdead, rfl⟩ := List.mem_map.mp hnew
    obtain ⟨hdone, hsurvives⟩ := Option.filter_eq_some_iff.mp (Option.mem_toList.mp hdead)
    exact .inl ⟨dead, hdone, hsurvives, rfl⟩
  · obtain ⟨old, howed, rfl⟩ := List.mem_map.mp hold
    exact .inr ⟨old, howed, rfl⟩

theorem hear_cases (b : Debt) (n : ℕ) (o : List (Sent F)) :
    b.hear n o = { b with back := some n } ∧ b.back = none ∧ o ≠ [] ∨
      b.hear n o = b ∧ (b.back = none →
        ∀ x ∈ o, (names F x.envelope b.path && x.client.eligible b.path) = false) := by
  rw [Debt.hear]
  split
  next h =>
    refine .inl ⟨rfl, h.1, ?_⟩
    rintro rfl
    simp at h
  next h =>
    refine .inr ⟨rfl, fun hnone x hx => Bool.eq_false_iff.mpr fun hnamed => h ⟨hnone, ?_⟩⟩
    exact List.any_eq_true.mpr ⟨x, hx, hnamed⟩

/-- What is owed lies ahead. -/
theorem ahead_grow (h : ∀ b ∈ s.2, b.Ahead s.1.channel.length)
    (hstep : s.1.step e = some (j, o)) (harrive : e ≠ .Arrive) (hfollow : e ≠ .Follow)
    (hgrown : Grown s.1 j o) : ∀ b ∈ owe s.1 s.2 e, b.Ahead j.channel.length := by
  have hlen : s.1.channel.length ≤ j.channel.length ∧ (o ≠ [] → 0 < j.channel.length) := by
    rcases hgrown with ⟨hchannel, rfl⟩ | ⟨m, x, hchannel, -⟩
    · simp [hchannel]
    · simp [hchannel]
  intro b hmem
  rcases of_mem_owe hstep harrive hfollow hmem with ⟨dead, -, -, rfl⟩ | ⟨old, hold, rfl⟩
  · exact ⟨le_refl _, by simp⟩
  · obtain ⟨hdue, hback⟩ := h old hold
    rcases hear_cases old j.channel.length o with ⟨hheard, -, hspoken⟩ | ⟨hheard, -⟩
    · rw [hheard]
      refine ⟨hdue.trans hlen.1, fun r hr => ?_⟩
      obtain rfl := Option.some.inj hr
      exact ⟨hlen.2 hspoken, le_refl _⟩
    · rw [hheard]
      exact ⟨hdue.trans hlen.1, fun r hr => ⟨(hback r hr).1, (hback r hr).2.trans hlen.1⟩⟩

/-- What a step has to do for what is owed, besides letting the gateway take messages. -/
structure Settles (touches : Envelope → PathId → Bool)
    (holds : PathId → Bool → List Rider → Session F → Prop) (s : Joint F × List Debt)
    (e : JointEvent F) (j : Joint F) (o : List (Sent F)) : Prop where
  quiet : ∀ b ∈ s.2, b.back = none → ∀ x ∈ o,
    (names F x.envelope b.path && x.client.eligible b.path) = false →
    touches x.envelope b.path = false
  done : ∀ dead ∈ s.1.completes e, s.1.client.survives dead = true →
    holds dead s.1.arrived j.channel s.1.gateway
  gateway : ∀ g, s.1.rebinds e = some g ∨ g = (s.1.gateway.egress s.1.now).1 →
    ∀ b ∈ s.2, ∀ k ≤ s.1.channel.length, b.spans k →
      holds b.path s.1.arrived (s.1.channel.take k) g

/-- The client has taken a step, and may have sent a message. -/
theorem Waiting.grow (h : Waiting holds s) (hforeseen : Foreseen touches holds) (hkept : Kept s)
    (hsettles : Settles touches holds s e j o) (hstep : s.1.step e = some (j, o))
    (harrive : e ≠ .Arrive) (hfollow : e ≠ .Follow) (hgateway : j.gateway = s.1.gateway)
    (harrived : j.arrived = s.1.arrived) (hgrown : Grown s.1 j o) :
    Waiting holds (j, owe s.1 s.2 e) := by
  intro b hmem k hk hspans
  simp only [hgateway, harrived] at hk ⊢
  rcases of_mem_owe hstep harrive hfollow hmem with ⟨dead, hdone, hsurvives, rfl⟩ | ⟨old, hold, rfl⟩
  · -- a new debt is about the whole channel
    rw [List.take_of_length_le hspans.1]
    exact hsettles.done dead hdone hsurvives
  obtain ⟨hdue, hback⟩ := hkept.ahead old hold
  have hpath : (old.hear j.channel.length o).path = old.path := by
    rcases hear_cases old j.channel.length o with ⟨hheard, -⟩ | ⟨hheard, -⟩ <;> rw [hheard]
  have hspans_old : old.spans k := by
    rcases hear_cases old j.channel.length o with ⟨hheard, hnone, -⟩ | ⟨hheard, -⟩
    · rw [hheard] at hspans
      exact ⟨hspans.1, by simp [hnone]⟩
    · rwa [hheard] at hspans
  rw [hpath]
  by_cases hlen : k ≤ s.1.channel.length
  · have hbefore := h old hold k hlen hspans_old
    rcases hgrown with ⟨hchannel, -⟩ | ⟨m, -, hchannel, -⟩
    · rwa [hchannel]
    · rwa [hchannel, List.take_append_of_le_length hlen]
  -- the message that was just sent is the last of the `k`
  rcases hgrown with ⟨hchannel, -⟩ | ⟨m, x, hchannel, rfl, hx, -⟩
  · rw [hchannel] at hk
    exact absurd hk hlen
  have hlength : j.channel.length = s.1.channel.length + 1 := by simp [hchannel]
  have hlast : k = s.1.channel.length + 1 := by omega
  have hnone : old.back = none := by
    rw [Option.eq_none_iff_forall_not_mem]
    intro r hr
    have hr' := hspans_old.2 r hr
    have hr'' := (hback r hr).2
    omega
  have hunheard : (names F x.envelope old.path && x.client.eligible old.path) = false := by
    rcases hear_cases old j.channel.length [x] with ⟨hheard, -⟩ | ⟨-, hquiet⟩
    · rw [hheard] at hspans
      have hlt := hspans.2 _ rfl
      omega
    · exact hquiet hnone x (by simp)
  have htouches := hsettles.quiet old hold hnone x (by simp) hunheard
  rw [hx] at htouches
  rw [hchannel, List.take_of_length_le (by simp [hlast])]
  refine hforeseen.append ?_ hkept.first htouches
  have hall := h old hold s.1.channel.length (le_refl _) ⟨hdue, by simp [hnone]⟩
  rwa [List.take_length] at hall

/-- The gateway has bound or evicted a path, or sent a packet. -/
theorem Waiting.rebind {g : Session F} (h : Settles touches holds s e { s.1 with gateway := g } [])
    (hstep : s.1.step e = some ({ s.1 with gateway := g }, [])) (hnone : s.1.completes e = none)
    (hg : s.1.rebinds e = some g ∨ e = .Packet ∧ g = (s.1.gateway.egress s.1.now).1) :
    Waiting holds ({ s.1 with gateway := g }, owe s.1 s.2 e) := by
  intro b hmem k hk hspans
  have hgateway : s.1.rebinds e = some g ∨ g = (s.1.gateway.egress s.1.now).1 :=
    hg.imp_right And.right
  have htakes : e ≠ .Arrive ∧ e ≠ .Follow := by
    constructor <;> rintro rfl <;> simp [Joint.rebinds] at hg
  rcases of_mem_owe hstep htakes.1 htakes.2 hmem with ⟨dead, hdone, -⟩ | ⟨old, hold, rfl⟩
  · rw [hnone] at hdone
    contradiction
  · have hheard : old.hear s.1.channel.length ([] : List (Sent F)) = old := by simp [Debt.hear]
    rw [hheard] at hspans ⊢
    exact h.gateway g hgateway old hold k hk hspans

/-- The path of the next message is seen to. -/
theorem Waiting.arrive (h : Waiting holds s) (hforeseen : Foreseen touches holds) (hkept : Kept s)
    {channel : List Rider} (harrived : s.1.arrived = false) (hchannel : s.1.channel = m :: channel) :
    Waiting holds ({ s.1 with
      gateway := (s.1.gateway.add_path m.connection m.envelope.path_id).1, arrived := true },
        owe s.1 s.2 .Arrive) := by
  intro b hmem k hk hspans
  obtain ⟨hmem, hback⟩ := List.mem_filter.mp hmem
  have hback : b.back ≠ some 1 := of_decide_eq_true hback
  have hown := hkept.own m (by simp [hchannel])
  simp only [hchannel, List.length_cons] at hk ⊢
  cases k with
  | zero =>
    -- the message that arrives does not name the path, so it is one more to be waited for
    have hone : b.spans 1 := by
      refine ⟨hspans.1.trans (Nat.zero_le 1), fun r hr => ?_⟩
      have hpos := hspans.2 r hr
      have hne : r ≠ 1 := by
        rintro rfl
        exact hback hr
      omega
    have hnow := h b hmem 0 (Nat.zero_le _) hspans
    have hnext := h b hmem 1 (by simp [hchannel]) hone
    rw [harrived] at hnow hnext
    simp only [hchannel, List.take_succ_cons, List.take_zero] at hnow hnext ⊢
    exact hforeseen.arrive hown hnow hnext
  | succ k =>
    have hbefore := h b hmem (k + 1) (by rw [hchannel]; exact hk) hspans
    rw [harrived, hchannel, List.take_succ_cons] at hbefore
    rw [List.take_succ_cons]
    exact hforeseen.arrive_cons hown hkept.pointed hbefore

/-- The next message is followed. -/
theorem Waiting.follow (h : Waiting holds s) (hforeseen : Foreseen touches holds)
    {channel : List Rider} (harrived : s.1.arrived = true) (hchannel : s.1.channel = m :: channel) :
    Waiting holds ({ s.1 with
      gateway := s.1.gateway.follow s.1.now m, channel, arrived := false },
        owe s.1 s.2 .Follow) := by
  intro b hmem k hk hspans
  obtain ⟨old, hold, hb⟩ := List.mem_filterMap.mp hmem
  rw [Debt.follow] at hb
  split at hb
  · contradiction
  obtain rfl := Option.some.inj hb
  have hnext : old.spans (k + 1) := by
    refine ⟨Nat.sub_le_iff_le_add.mp hspans.1, fun r hr => ?_⟩
    have hlt := hspans.2 (r - 1) (by simp [show old.back = some r from hr])
    omega
  have hbefore := h old hold (k + 1) (by rw [hchannel]; exact Nat.succ_le_succ hk) hnext
  rw [harrived, hchannel, List.take_succ_cons] at hbefore
  exact hforeseen.follow hbefore

/-- The tasks of the client after a step. -/
theorem Kept.tasks [OrderedF32 F] (h : Kept s) (hdown : StaysDown s e)
    (hstep : s.1.step e = some (j, o)) : j.client.session.Aimed ∧ Clear j.failing := by
  cases e with
  | Read | Decide orders | Move =>
    simp only [Joint.step] at hstep
    split at hstep
    · obtain ⟨rfl, -⟩ := step_inj hstep
      refine ⟨?_, h.clear⟩
      first | exact h.aimed | exact h.aimed.set_active_path
    · contradiction
  | Fail dead =>
    simp only [Joint.step] at hstep
    split at hstep
    · obtain ⟨rfl, -⟩ := step_inj hstep
      exact ⟨h.aimed, h.clear⟩
    · obtain ⟨rfl, -⟩ := step_inj hstep
      refine ⟨h.aimed, fun call hmem t ht => ?_⟩
      rcases List.mem_append.mp hmem with hmem | hmem
      · exact h.clear call hmem t ht
      · rw [List.mem_singleton.mp hmem] at ht
        contradiction
  | Mark i =>
    simp only [Joint.step] at hstep
    split at hstep
    · obtain ⟨rfl, -⟩ := step_inj hstep
      exact ⟨h.aimed, h.clear.set (by simp)⟩
    · contradiction
  | Choose i =>
    simp only [Joint.step] at hstep
    split at hstep
    next dead hcall =>
      obtain ⟨rfl, -⟩ := step_inj hstep
      refine ⟨aimed_failover h.aimed, h.clear.set fun t ht => ?_⟩
      obtain rfl := Failing.Tells.inj ht
      cases hnext : s.1.client.failover.2 with
      | none => trivial
      | some next =>
        exact ne_of_failover h.aimed (hdown dead (by simp [Joint.looks, Joint.dead_of, hcall])) hnext
    · contradiction
  | Tell who orders =>
    obtain ⟨t, ht, htell⟩ := of_step_tell hstep
    rcases tell_cases s.1 who orders t with ⟨-, hends⟩ | ⟨sent, -, htold⟩
    · obtain ⟨rfl, -⟩ := Prod.mk.inj (hends.symm.trans htell)
      refine ⟨?_, h.clear.goes (by simp)⟩
      rw [goes_eq]
      exact h.aimed
    · obtain ⟨rfl, -⟩ := Prod.mk.inj (htold.symm.trans htell)
      refine ⟨?_, h.clear.goes fun d t' hd ht' => ?_⟩
      · simp only [(t.step_shared s.1.client orders).1]
        exact h.aimed
      · obtain rfl := Failing.Tells.inj ht'
        refine (avoids_of_telling h.clear ht hd).step fun hdraft => hdown d ?_
        simp only [Joint.looks, ht, hdraft]
        exact hd
  | Join path transport =>
    obtain ⟨rfl, -⟩ := step_inj hstep
    exact ⟨h.aimed.add_path, h.clear⟩
  | Leave path =>
    obtain ⟨rfl, -⟩ := step_inj hstep
    exact ⟨h.aimed.remove_path, h.clear⟩
  | Arrive | Follow =>
    simp only [Joint.step] at hstep
    split at hstep
    · obtain ⟨rfl, -⟩ := step_inj hstep
      exact ⟨h.aimed, h.clear⟩
    · contradiction
  | Measure _ _ | Bind _ _ | Evict _ | Packet | Wait _ =>
    obtain ⟨rfl, -⟩ := step_inj hstep
    exact ⟨h.aimed, h.clear⟩

theorem pointed_rebinds {g : Session F} (h : j.gateway.Pointed) (hg : j.rebinds e = some g) :
    g.Pointed := by
  cases e with
  | Bind path transport =>
    rw [← Option.some.inj hg]
    exact h.add_path
  | Evict path =>
    rw [← Option.some.inj hg]
    exact h.remove_path
  | _ => contradiction

/-- The channel and the gateway after a step. -/
theorem Kept.routes (h : Kept s) (hmoved : Moved s.1 e j o) :
    j.gateway.Pointed ∧ (∀ m ∈ j.channel, m.Own F) ∧ (j.arrived = true → j.channel ≠ []) := by
  cases hmoved with
  | quiet _ hchannel harrived hgateway =>
    rw [hchannel, harrived, hgateway]
    exact ⟨h.pointed, h.own, h.first⟩
  | @tell who orders t ht =>
    obtain ⟨hgateway, harrived, hgrown⟩ := tell_grown s.1 who orders t
    rw [hgateway, harrived]
    rcases hgrown with ⟨hchannel, -⟩ | ⟨m, x, hchannel, -, -, hown⟩
    · rw [hchannel]
      exact ⟨h.pointed, h.own, h.first⟩
    · rw [hchannel]
      refine ⟨h.pointed, fun m' hm' => ?_, by simp⟩
      rcases List.mem_append.mp hm' with hm' | hm'
      · exact h.own m' hm'
      · rwa [List.mem_singleton.mp hm']
  | arrive _ hchannel => exact ⟨h.pointed.add_path, h.own, fun _ => by simp [hchannel]⟩
  | follow _ hchannel =>
    exact ⟨pointed_follow h.pointed, fun m' hm' => h.own m' (by simp [hchannel, hm']), by simp⟩
  | rebind hg => exact ⟨pointed_rebinds h.pointed hg, h.own, h.first⟩
  | packet => exact ⟨h.pointed.egress, h.own, h.first⟩

/-- A message is followed, and what is owed comes nearer. -/
theorem Debt.Ahead.follow {b b' : Debt} {n : ℕ} (h : b.Ahead (n + 1)) (hb : b.follow = some b') :
    b'.Ahead n := by
  rw [Debt.follow] at hb
  split at hb
  · contradiction
  next hstill =>
    obtain rfl := Option.some.inj hb
    refine ⟨Nat.sub_le_iff_le_add.mpr h.1, fun r hr => ?_⟩
    obtain ⟨r', hr', rfl⟩ := Option.map_eq_some_iff.mp hr
    obtain ⟨hpos, hle⟩ := h.2 r' hr'
    have hne : r' ≠ 1 := by
      rintro rfl
      exact hstill hr'
    exact ⟨by omega, Nat.sub_le_iff_le_add.mpr hle⟩

/-- What is owed after a step. -/
theorem Kept.debts (h : Kept s) (hstep : s.1.step e = some (j, o)) :
    ∀ b ∈ owe s.1 s.2 e, b.Ahead j.channel.length := by
  have hgrow := ahead_grow h.ahead hstep
  cases moved_of_step hstep with
  | quiet hquiet hchannel =>
    refine hgrow ?_ ?_ (.inl ⟨hchannel, rfl⟩) <;> rintro rfl <;> contradiction
  | @tell who orders t ht => exact hgrow (by simp) (by simp) (tell_grown s.1 who orders t).2.2
  | arrive => exact fun b hb => h.ahead b (List.mem_filter.mp hb).1
  | follow _ hchannel =>
    intro b hb
    obtain ⟨old, hold, hb⟩ := List.mem_filterMap.mp hb
    have hahead := h.ahead old hold
    rw [hchannel] at hahead
    exact hahead.follow hb
  | rebind hg =>
    refine hgrow ?_ ?_ (.inl ⟨rfl, rfl⟩) <;> rintro rfl <;> contradiction
  | packet => exact hgrow (by simp) (by simp) (.inl ⟨rfl, rfl⟩)

/-- What a call of `fail_path` sends does not name its path. -/
theorem names_of_moved (h : Kept s) (hmoved : Moved s.1 e j o) :
    ∀ x ∈ o, ∀ d, x.dead = some d → names F x.envelope d = false := by
  intro x hx d hd
  cases hmoved with
  | @tell who orders t ht =>
    rcases tell_cases s.1 who orders t with ⟨-, hends⟩ | ⟨sent, hsent, htold⟩
    · rw [hends] at hx
      contradiction
    · rw [htold] at hx
      obtain ⟨m, hm, rfl⟩ := List.mem_map.mp hx
      exact (avoids_of_telling h.clear ht hd).names hsent hm
  | _ => contradiction

/-- **The step.** -/
theorem Kept.step [OrderedF32 F] (h : Kept s) (hdown : StaysDown s e)
    (hstep : withGhost owe Joint.step s e = some (s₁, o)) :
    Kept s₁ ∧ ∀ x ∈ o, ∀ d, x.dead = some d → names F x.envelope d = false := by
  obtain ⟨hjoint, howed⟩ := withGhost_eq_some.mp hstep
  obtain ⟨j, owed⟩ := s₁
  simp only at hjoint howed
  subst howed
  have hmoved := moved_of_step hjoint
  obtain ⟨haimed, hclear⟩ := h.tasks hdown hjoint
  obtain ⟨hpointed, hown, hfirst⟩ := h.routes hmoved
  exact ⟨⟨haimed, hpointed, hown, hfirst, h.debts hjoint, hclear⟩, names_of_moved h hmoved⟩

theorem Waiting.step (h : Waiting holds s) (hforeseen : Foreseen touches holds) (hkept : Kept s)
    (hsettles : ∀ j o, s.1.step e = some (j, o) → Settles touches holds s e j o)
    (hstep : withGhost owe Joint.step s e = some (s₁, o)) : Waiting holds s₁ := by
  obtain ⟨hjoint, howed⟩ := withGhost_eq_some.mp hstep
  obtain ⟨j, owed⟩ := s₁
  simp only at hjoint howed
  subst howed
  have hsettle := hsettles j o hjoint
  cases moved_of_step hjoint with
  | quiet hquiet hchannel harrived hgateway =>
    refine h.grow hforeseen hkept hsettle hjoint ?_ ?_ hgateway harrived (.inl ⟨hchannel, rfl⟩) <;>
      rintro rfl <;> contradiction
  | @tell who orders t ht =>
    obtain ⟨hgateway, harrived, hgrown⟩ := tell_grown s.1 who orders t
    exact h.grow hforeseen hkept hsettle hjoint (by simp) (by simp) hgateway harrived hgrown
  | arrive harrived hchannel => exact h.arrive hforeseen hkept harrived hchannel
  | follow harrived hchannel => exact h.follow hforeseen harrived hchannel
  | rebind hg =>
    refine .rebind hsettle hjoint ?_ (.inl hg)
    cases e with
    | Bind _ _ | Evict _ => rfl
    | _ => contradiction
  | packet => exact .rebind hsettle hjoint rfl (.inr ⟨rfl, rfl⟩)

/-! ### What the conditions do -/

/-- What a section sends it was to send, from a state with the paths and metrics it found. -/
theorem of_sent {x : Sent F} (hmoved : Moved j e j' o) (hx : x ∈ o) :
    (gives F x.envelope d = true → j.lists d e = true) ∧
      (points F x.envelope d = true → j.rides d e = true) ∧
      x.client.eligible d = j.client.eligible d := by
  cases hmoved with
  | quiet | arrive | follow | rebind | packet => contradiction
  | @tell who orders t ht =>
  obtain ⟨hsession, hmetrics⟩ := t.step_shared j.client orders
  rcases tell_cases j who orders t with ⟨-, hends⟩ | ⟨sent, hsent, htold⟩
  · rw [hends] at hx
    contradiction
  rw [htold] at hx
  obtain ⟨m, hm, rfl⟩ := List.mem_map.mp hx
  refine ⟨?_, ?_, Shared.eligible_congr (congrArg Session.paths hsession) hmetrics d⟩
  · intro hgives
    rcases telling_cases hsent with rfl | ⟨m', rfl, hcases⟩
    · contradiction
    obtain rfl := List.mem_singleton.mp hm
    rcases hcases with ⟨next, -, -, hheard⟩ | ⟨preferred, weights, rfl, -, hheard⟩
    · simp [gives, hheard] at hgives
    · simp only [Joint.lists, ht]
      exact decide_eq_true (gives_weight_set hheard hgives)
  · intro hpoints
    rcases telling_cases hsent with rfl | ⟨m', rfl, hcases⟩
    · contradiction
    obtain rfl := List.mem_singleton.mp hm
    rcases hcases with ⟨next, rfl, hpath, hheard⟩ | ⟨preferred, weights, rfl, hpath, hheard⟩
    · have hget : next.get = d.get ↔ next = d := by
        cases next
        cases d
        simp
      simp only [points, hpath, hheard, hget, Bool.or_self, decide_eq_true_eq] at hpoints
      simp only [Joint.rides, ht]
      exact decide_eq_true hpoints
    · simp only [points, hpath, hheard, Bool.or_false, decide_eq_true_eq] at hpoints
      simp only [Joint.rides, ht]
      exact decide_eq_true hpoints

/-- A call ends with this section: its message goes out, and does not name its path. -/
theorem of_completes (h : Clear j.failing) (hjoint : j.step e = some (j', o))
    (hdone : j.completes e = some d) :
    j'.channel = j.channel ∧ j.publishes e = false ∨
      ∃ m, j'.channel = j.channel ++ [m] ∧ names F m.envelope d = false ∧
        (j.publishes e = true → ∃ weights, heard F m.envelope = some (.WeightSet weights)) := by
  cases e with
  | Tell who orders =>
    obtain ⟨t, ht, htell⟩ := of_step_tell hjoint
    simp only [Joint.completes, ht] at hdone
    rcases tell_cases j who orders t with ⟨hpanic, -⟩ | ⟨sent, hsent, htold⟩
    · rw [hpanic] at hdone
      contradiction
    rw [hsent] at hdone
    simp only at hdone
    split at hdone
    next hover =>
      have havoids := avoids_of_telling h ht hdone
      rw [← (Prod.mk.inj (htold.symm.trans htell)).1]
      rcases telling_cases hsent with rfl | ⟨m, rfl, hcases⟩
      · refine .inl ⟨List.append_nil _, ?_⟩
        rw [Bool.eq_false_iff]
        intro hpublishes
        simp only [Joint.publishes, ht] at hpublishes
        split at hpublishes
        next preferred weights hpub =>
          obtain rfl := Option.some.inj hpub
          obtain ⟨hlen, hbound⟩ := Bool.and_eq_true_iff.mp hpublishes
          rcases riders_cases j.client preferred (.WeightSet (weights.map
              (fun w => (⟨w.1⟩, w.2)))) with ⟨hlong, -⟩ | ⟨-, sent, hok,
                ⟨hunbound, -⟩ | ⟨-, m, rfl, -⟩⟩
          · refine hlong ?_
            simpa [ControlMsg.map, ControlMsg.Fits] using hlen
          · rw [hunbound] at hbound
            contradiction
          · exact absurd (Outcome.ok.inj (hsent.symm.trans hok)) (by simp)
        · contradiction
      · refine .inr ⟨m, rfl, havoids.names hsent (by simp), fun hpublishes => ?_⟩
        rcases hcases with ⟨next, rfl, -⟩ | ⟨_, weights, rfl, -, hheard⟩
        · simp [Joint.publishes, ht] at hpublishes
        · exact ⟨_, hheard⟩
    · contradiction
  | Fail dead | Choose i =>
    cases moved_of_step hjoint with
    | quiet _ hchannel => exact .inl ⟨hchannel, rfl⟩
    | rebind hg => contradiction
  | _ => contradiction

theorem TakesWeight.settles (htakes : TakesWeight s e) (hkept : Kept s)
    (h : Waiting Unweighed s) (hjoint : s.1.step e = some (j', o)) :
    Settles (gives F) Unweighed s e j' o where
  quiet := by
    intro b hb hnone x hx hunheard
    rw [Bool.eq_false_iff]
    intro hgives
    obtain ⟨hlists, -, heligible⟩ := of_sent (moved_of_step hjoint) hx (d := b.path)
    -- a message that lists the path names it again
    rw [heligible, htakes.2 b hb hnone (hlists hgives), names, hgives] at hunheard
    simp at hunheard
  done := by
    intro dead hdone hsurvives
    rcases of_completes hkept.clear hjoint hdone with
      ⟨hchannel, hsilent⟩ | ⟨m, hchannel, hnames, hpublishes⟩
    · rw [hchannel]
      exact htakes.1 dead hdone hsurvives hsilent
    have hgives : gives F m.envelope dead = false := (Bool.or_eq_false_iff.mp hnames).2
    rw [hchannel]
    by_cases hlast : s.1.publishes e = true
    · -- the weight set of the call has the last word
      obtain ⟨weights, hheard⟩ := hpublishes hlast
      simp only [gives, hheard] at hgives
      simp only [Unweighed, List.foldl_append, List.foldl_cons, List.foldl_nil, weigh, hheard]
      exact hgives
    · have hbefore := htakes.1 dead hdone hsurvives (Bool.eq_false_iff.mpr hlast)
      exact unweighed_foreseen.append hbefore hkept.first hgives
  gateway := by
    intro g hg b hb k hk hspans
    refine (h b hb k hk hspans).mono fun hweighs => ?_
    rcases hg with hg | rfl
    · cases e with
      | Bind path transport =>
        rw [← Option.some.inj hg, Session.weighs, Session.add_path_downlink] at hweighs
        exact hweighs
      | Evict path =>
        rw [← Option.some.inj hg] at hweighs
        exact Session.weighs_of_remove_path hweighs
      | _ => contradiction
    · exact Session.weighs_of_egress hweighs

theorem TakesSelection.settles (htakes : TakesSelection s e) (hkept : Kept s)
    (h : Waiting Deselected s) (hjoint : s.1.step e = some (j', o)) :
    Settles (points F) Deselected s e j' o where
  quiet := by
    intro b hb hnone x hx hunheard
    rw [Bool.eq_false_iff]
    intro hpoints
    obtain ⟨-, hrides, heligible⟩ := of_sent (moved_of_step hjoint) hx (d := b.path)
    rw [heligible, htakes.2.1 b hb hnone (hrides hpoints), names, hpoints] at hunheard
    simp at hunheard
  done := by
    intro dead hdone hsurvives
    have hlast := htakes.1 dead hdone hsurvives
    rcases of_completes hkept.clear hjoint hdone with ⟨hchannel, -⟩ | ⟨m, hchannel, hnames, -⟩
    · rwa [hchannel]
    · rw [hchannel]
      exact deselected_foreseen.append hlast hkept.first (Bool.or_eq_false_iff.mp hnames).1
  gateway := by
    rintro g (hg | rfl) b hb k hk hspans
    · exact htakes.2.2 g hg b hb k hk hspans
    · have hbefore := h b hb k hk hspans
      exact (deselected_congr Session.egress_active_path egress_paths).mpr hbefore

/-! ## The result -/

theorem kept_start {client : Shared F} {now : ℕ} (haimed : client.session.Aimed) :
    Kept (Joint.start client now, []) where
  aimed := haimed
  pointed := Session.pointed_new
  own := by simp [Joint.start]
  first := by simp [Joint.start]
  ahead := by simp
  clear := by simp [Clear, Joint.start]

section Steered

variable [OrderedF32 F] {client : Shared F} {now : ℕ} {events : List (JointEvent F)}
  {owed : List Debt} {os : List (Sent F)}

theorem kept_of_run (haimed : client.session.Aimed)
    (hrun : exec (withGhost owe Joint.step) (Joint.start client now, []) events =
      some ((j, owed), os))
    (hdown : Along (withGhost owe Joint.step) StaysDown (Joint.start client now, []) events) :
    Kept (j, owed) ∧ ∀ x ∈ os, ∀ d, x.dead = some d → names F x.envelope d = false := by
  refine exec_along_induct (a := []) (P := fun s (os : List (Sent F)) => Kept s ∧
    ∀ x ∈ os, ∀ d, x.dead = some d → names F x.envelope d = false)
    ?_ ⟨kept_start haimed, by simp⟩ hdown hrun
  intro s e s₁ o a hbefore hdown hstep
  obtain ⟨hkept, hnames⟩ := hbefore.1.step hdown hstep
  refine ⟨hkept, fun x hx => ?_⟩
  rcases List.mem_append.mp hx with hx | hx
  · exact hbefore.2 x hx
  · exact hnames x hx

/-- A run in which every step settles what is owed. -/
theorem waiting_of_run {C : Joint F × List Debt → JointEvent F → Prop}
    (hforeseen : Foreseen touches holds)
    (hsettles : ∀ s e j o, Kept s → Waiting holds s → C s e → s.1.step e = some (j, o) →
      Settles touches holds s e j o)
    (haimed : client.session.Aimed)
    (hrun : exec (withGhost owe Joint.step) (Joint.start client now, []) events =
      some ((j, owed), os))
    (hdown : Along (withGhost owe Joint.step) StaysDown (Joint.start client now, []) events)
    (hsteps : Along (withGhost owe Joint.step) C (Joint.start client now, []) events) :
    Waiting holds (j, owed) := by
  have hboth : Kept (j, owed) ∧ Waiting holds (j, owed) := by
    refine exec_along_invariant (I := fun s => Kept s ∧ Waiting holds s) ?_
      ⟨kept_start haimed, by simp [Waiting]⟩ (hdown.and hsteps) hrun
    intro s e s₁ o hbefore hC hstep
    exact ⟨(hbefore.1.step hC.1 hstep).1, hbefore.2.step hforeseen hbefore.1
      (fun j o => hsettles s e j o hbefore.1 hbefore.2 hC.2) hstep⟩
  exact hboth.2

end Steered

end Run

/-! ### Runs -/

/-- A client with `n` paths, of which none was measured. -/
def bonded (n : ℕ) : Shared Exact where
  session := { Session.new ⟨1⟩ with
    paths := (List.range n).foldl (fun paths k => paths.insert ⟨.ofNat k⟩ ⟨k⟩) ∅
    active_path := some ⟨0⟩ }
  metrics := ∅
  notified := some ⟨0⟩
  redundancy_loss_threshold := some 0
  scheduler := .new
  notified_weights := none

/-- The gateway binds the paths. -/
def bind_all (n : ℕ) : List (JointEvent Exact) :=
  (List.range n).map (fun k => .Bind ⟨.ofNat k⟩ ⟨k⟩)

/-- `n` sections of a task's announcements. -/
def sections (who : Option ℕ) (n : ℕ) : List (JointEvent Exact) :=
  List.replicate n (.Tell who stored_orders)

/-- A round of `uplink_loop` up to its announcements. -/
def steer : List (JointEvent Exact) := [.Read, .Decide stored_orders, .Move]

/-- The gateway takes `n` messages. -/
def deliver (n : ℕ) : List (JointEvent Exact) := (List.replicate n [.Arrive, .Follow]).flatten

/-- A first round of the client publishes the shares of the paths. -/
def published (n : ℕ) : List (JointEvent Exact) :=
  bind_all n ++ steer ++ sections none 4 ++ deliver 1

/-- A first call of `fail_path`, with `n` sections of announcements. -/
def failure (dead : PathId) (n : ℕ) : List (JointEvent Exact) :=
  [.Fail dead, .Mark 0, .Choose 0] ++ sections (some 0) n

/-- The messages that are still on their way, what is owed, what the shares decide, and the
egress. -/
def outcome (n : ℕ) (events : List (JointEvent Exact)) :
    Option (ℕ × List Debt × Option PathId × Option PathId) :=
  (exec (withGhost owe Joint.step) (Joint.start (bonded n) 0, []) events).map
    (fun r => (r.1.1.channel.length, r.1.2, (r.1.1.gateway.downlink_decide r.1.1.now).2,
      (r.1.1.gateway.egress r.1.1.now).2))

end StreamGuard.V1
