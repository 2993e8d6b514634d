/-
The shares of the downlink expire.

The gateway follows the shares that it was told of for ten seconds. The client tells of its shares
when they have moved, and only then: as long as they stay within the tolerance of those it
published last, `advertise_weights` is silent, however many packets it has to send. So the shares
live on exactly if they keep moving, and the news of a move arrives before the last one is ten
seconds old.
-/
import StreamGuard.V1.Steering

set_option autoImplicit false

namespace StreamGuard.V1

open StreamGuard StreamGuard.Lib

variable {F : Type} [F32 F]

/-! ## Moves of the shares -/

/-- The weight set that a rider carries. -/
def weight_set (F : Type) [F32 F] (m : Rider) : Option (List (PathId × F)) :=
  match heard F m.envelope with
  | some (.WeightSet weights) => some weights
  | _ => none

/-- At the gate of `advertise_weights` the client finds that its shares have moved. -/
def Telling.finds (s : Shared F) : Telling F → Bool
  | .Gating _ weights => weights_changed s.notified_weights weights
  | _ => false

/-- The gateway can take over a share of the weight set. -/
def adopts (g : Session F) (m : Rider) : Bool :=
  (weight_set F m).any (fun weights => !(Session.adoptable g.paths weights).isEmpty)

/-- The tasks that have found that the shares moved and did not tell of it yet; of the messages
that are on their way, those that do; and when one was last taken over. -/
structure Refresh where
  found : List (Option ℕ)
  on_way : List Bool
  adopted_at : Option ℕ

def refresh (j : Joint F) (r : Refresh) (event : JointEvent F) : Refresh :=
  match event with
  | .Tell who orders =>
    match j.telling who with
    | some t =>
      { r with
        found :=
          if t.finds j.client = true then who :: r.found
          else r.found.filter (fun other => decide (other ≠ who))
        on_way := r.on_way ++ (j.tell who orders t).2.map (fun _ => decide (who ∈ r.found)) }
    | none => r
  | .Follow =>
    match r.on_way, j.channel with
    | moved :: on_way, m :: _ =>
      { r with
        on_way
        adopted_at := if (moved && adopts j.gateway m) = true then some j.now else r.adopted_at }
    | _, _ => r
  | _ => r

/-- Once shares were adopted they are fresh. -/
def Fresh (s : Joint F × Refresh) : Prop :=
  s.2.adopted_at.isSome = true → s.1.gateway.downlink_weights_fresh s.1.now = true

instance (s : Joint F × Refresh) : Decidable (Fresh s) := inferInstanceAs (Decidable (_ → _))

/-- An eviction leaves a path with a share, unless the path is not bound. -/
def Spares (g : Session F) (path : PathId) : Prop :=
  g.has_path path = true → g.path_ids.any (fun p => decide (p ≠ path) && g.weighs p) = true

instance (g : Session F) (path : PathId) : Decidable (Spares g path) :=
  inferInstanceAs (Decidable (_ → _))

/-- The news of a move arrives in time: the last one that the gateway took over is less than the
time to live ago. And the gateway can take over every one, and an eviction leaves it a path with
a share. -/
def Renewed (s : Joint F × Refresh) : JointEvent F → Prop
  | .Wait ms => ∀ at_ ∈ s.2.adopted_at, s.1.now + ms < at_ + DOWNLINK_WEIGHT_TTL
  | .Follow => s.2.adopted_at.isSome = true → s.2.on_way.head? = some true →
    ∀ m ∈ s.1.channel.head?, adopts s.1.gateway m = true
  | .Evict path => s.2.adopted_at.isSome = true → Spares s.1.gateway path
  | _ => True

instance (s : Joint F × Refresh) : ∀ event, Decidable (Renewed s event)
  | .Wait _ => inferInstanceAs (Decidable (∀ _ ∈ _, _))
  | .Follow => inferInstanceAs (Decidable (_ → _ → ∀ _ ∈ _, _))
  | .Evict _ => inferInstanceAs (Decidable (_ → _ → _))
  | .Read | .Decide _ | .Move | .Fail _ | .Mark _ | .Choose _ | .Tell _ _ | .Measure _ _
  | .Join _ _ | .Leave _ | .Arrive | .Bind _ _ | .Packet => isTrue trivial

/-! ## What the client tells -/

section Client

variable {s : Shared F} {j : Joint F} {t : Telling F} {orders : Orders F} {who other : Option ℕ}
  {round : Round F} {stage : Failing F} {m : Rider} {sent : List Rider}

/-- The task is past the gate of `advertise_weights`. -/
def Telling.passed : Telling F → Bool
  | .Publishing _ _ => true
  | _ => false

def Round.passed : Round F → Bool
  | .Tells t => t.passed
  | _ => false

def Failing.passed : Failing F → Bool
  | .Tells t => t.passed
  | _ => false

def Joint.passed (j : Joint F) : Option ℕ → Bool
  | none => j.uplink.passed
  | some i => j.failing[i]?.any (fun call => call.2.passed)

omit [F32 F] in
theorem passed_of_telling (h : j.telling who = some t) : j.passed who = t.passed := by
  cases who with
  | none =>
    simp only [Joint.telling] at h
    split at h
    next own huplink =>
      obtain rfl := Option.some.inj h
      simp only [Joint.passed, huplink, Round.passed]
    · contradiction
  | some i =>
    simp only [Joint.telling] at h
    split at h
    next dead own hcall =>
      obtain rfl := Option.some.inj h
      simp only [Joint.passed, hcall, Option.any_some, Failing.passed]
    · contradiction

omit [F32 F] in
/-- A task that goes on from its announcements has passed the gate if it goes on to do so. -/
theorem passed_goes (h : j.telling who = some t) (hround : round.passed = stage.passed) :
    (j.goes who round stage).passed other = if other = who then stage.passed else
      j.passed other := by
  cases who with
  | none =>
    cases other with
    | none => simpa [Joint.goes, Joint.passed] using hround
    | some k => simp [Joint.goes, Joint.passed]
  | some i =>
    cases other with
    | none => simp [Joint.goes, Joint.passed]
    | some k =>
      simp only [Joint.goes, Joint.passed, List.getElem?_modify, Option.some.injEq]
      by_cases hik : i = k
      · subst hik
        have hcall : j.failing[i]?.isSome = true := by
          simp only [Joint.telling] at h
          split at h
          next _ _ hcall => simp [hcall]
          · contradiction
        obtain ⟨call, hcall⟩ := Option.isSome_iff_exists.mp hcall
        simp [hcall]
      · simp [hik, Ne.symm hik]

omit [F32 F] in
/-- A call of `fail_path` that has not passed the gate goes on to a stage that has not. -/
theorem passed_set {failing : List (PathId × Failing F)} {i : ℕ} {dead : PathId}
    {old : Failing F} (hcall : failing[i]? = some (dead, old)) (hold : old.passed = false)
    (hstage : stage.passed = false) (k : ℕ) :
    (failing.set i (dead, stage))[k]?.any (fun call => call.2.passed) =
      failing[k]?.any (fun call => call.2.passed) := by
  rw [List.getElem?_set]
  split
  next hik =>
    subst hik
    obtain ⟨hlt, hget⟩ := List.getElem?_eq_some_iff.mp hcall
    simp [hlt, hget, hold, hstage]
  · rfl

theorem passed_step (t : Telling F) : (t.step s orders).2.1.passed = t.finds s := by
  cases t with
  | Announcing next =>
    simp only [Telling.step]
    split
    · rfl
    · rfl
  | Drafting =>
    simp only [Telling.step]
    cases (s.draft_weights orders).2 with
    | none => rfl
    | some draft => rfl
  | Gating preferred weights =>
    simp only [Telling.step, Shared.gate_weights, Telling.finds]
    split
    · next hchanged => simp [Telling.passed, hchanged]
    · next hsame => simp [Telling.passed, hsame]
  | Selecting _ | Publishing _ _ | Told => rfl

/-- **After a section** of its announcements a task has passed the gate if it found just now that
the shares have moved; the other tasks stay where they are. -/
theorem passed_tell (h : j.telling who = some t) :
    (j.tell who orders t).1.passed other = if other = who then t.finds j.client else
      j.passed other := by
  rcases tell_cases j who orders t with ⟨hpanic, hends⟩ | ⟨sent, -, htold⟩
  · have hfinds : t.finds j.client = false := by
      cases t with
      | Gating preferred weights => exact absurd hpanic (by simp [Telling.step, riders])
      | Announcing _ | Selecting _ | Drafting | Publishing _ _ | Told => rfl
    rw [hends, passed_goes h rfl, hfinds]
    rfl
  · rw [htold]
    have hsame : (Round.of_telling (t.step j.client orders).2.1).passed =
        (Failing.Tells (t.step j.client orders).2.1).passed := by
      cases (t.step j.client orders).2.1 <;> rfl
    refine (passed_goes h hsame).trans ?_
    rw [show (Failing.Tells (t.step j.client orders).2.1).passed =
      (t.step j.client orders).2.1.passed from rfl, passed_step]

/-- The messages of a task past the gate are weight sets, and no others are. -/
theorem marks_tell (j : Joint F) (who : Option ℕ) (orders : Orders F) (t : Telling F) :
    ∃ sent, (j.tell who orders t).1.channel = j.channel ++ sent ∧
      sent.map (fun m => (weight_set F m).isSome) =
        (j.tell who orders t).2.map (fun _ => t.passed) := by
  rcases tell_cases j who orders t with ⟨-, hends⟩ | ⟨sent, hsent, htold⟩
  · rw [hends, goes_eq]
    exact ⟨[], (List.append_nil _).symm, rfl⟩
  · rw [htold]
    refine ⟨sent, rfl, ?_⟩
    rcases telling_cases hsent with
      rfl | ⟨m, rfl, ⟨next, rfl, -, hheard⟩ | ⟨preferred, weights, rfl, -, hheard⟩⟩
    · rfl
    · simp [weight_set, hheard, Telling.passed]
    · simp [weight_set, hheard, Telling.passed]

end Client

/-! ## What the gateway makes of it -/

section Gateway

variable {g : Session F} {m : Rider} {path : PathId} {now : ℕ}

/-- When the adopted shares end. -/
def Session.ends (g : Session F) : Option ℕ := g.downlink.map (·.expires_at)

omit [F32 F] in
theorem fresh_iff : g.downlink_weights_fresh now = true ↔
    ∃ end_, g.ends = some end_ ∧ now < end_ := by
  rw [Session.downlink_weights_fresh, Session.ends]
  cases g.downlink with
  | none => simp
  | some bonds => simp

omit [F32 F] in
theorem ends_congr {g' : Session F} (h : g'.downlink = g.downlink) : g'.ends = g.ends :=
  congrArg (Option.map _) h

/-- A weight set of which a share can be taken over is fresh from now on, another one ends the
shares, and no other message touches them. -/
theorem ends_follow (g : Session F) (now : ℕ) (m : Rider) : (g.follow now m).ends =
    if (weight_set F m).isSome = true then
      if adopts g m = true then some (now + DOWNLINK_WEIGHT_TTL) else none
    else g.ends := by
  unfold Session.follow adopts weight_set
  cases hheard : heard F m.envelope with
  | none => simp
  | some msg =>
    cases msg with
    | PathSelect path => simpa using ends_congr Session.set_active_path_downlink
    | WeightSet weights =>
      unfold Session.adopt_downlink_weights
      cases hadopted : Session.adoptable g.paths weights with
      | nil => simp [Session.ends, hadopted]
      | cons entry rest => simp [Session.ends, hadopted]
    | Init _ _ | Ack _ | Nack _ _ => simp

theorem any_weighs_iff {bonds : DownlinkBonds F} (hdownlink : g.downlink = some bonds) :
    g.path_ids.any (fun p => decide (p ≠ path) && g.weighs p) = true ↔
      ∃ w ∈ bonds.scheduler.normalized_weights, (⟨w.1⟩ : PathId) ∈ g.paths.erase path := by
  simp only [List.any_eq_true, Bool.and_eq_true, decide_eq_true_eq, AList.mem_erase]
  constructor
  · rintro ⟨p, hp, hne, hweighs⟩
    obtain ⟨bonds', hbonds, hmem⟩ := Session.weighs_eq_true.mp hweighs
    obtain rfl := Option.some.inj (hdownlink.symm.trans hbonds)
    obtain ⟨w, hw, hget⟩ := List.mem_map.mp hmem
    refine ⟨w, hw, ?_⟩
    rw [show (⟨w.1⟩ : PathId) = p by rw [hget]]
    exact ⟨hne, AList.mem_keys.mp hp⟩
  · rintro ⟨w, hw, hne, hmem⟩
    refine ⟨⟨w.1⟩, AList.mem_keys.mpr hmem, hne, ?_⟩
    exact Session.weighs_eq_true.mpr ⟨bonds, hdownlink, List.mem_map_of_mem hw⟩

/-- An eviction keeps the shares as long as another path has one, and with them their end. -/
theorem ends_remove_path (g : Session F) (path : PathId) :
    (g.remove_path path).1.ends = if Spares g path then g.ends else none := by
  by_cases hbound : g.has_path path = true
  · have hmem : path ∈ g.paths := by simpa [Session.has_path] using hbound
    cases hdownlink : g.downlink with
    | none => simp [Session.ends, Session.remove_path, hmem, hdownlink]
    | some bonds =>
      have hremoved : (g.remove_path path).1.downlink =
          Session.prune (g.paths.erase path) bonds := by
        simp [Session.remove_path, hmem, hdownlink]
      have hspares : Spares g path ↔ ∃ w ∈ bonds.scheduler.normalized_weights,
          (⟨w.1⟩ : PathId) ∈ g.paths.erase path := by
        rw [← any_weighs_iff hdownlink, Spares]
        simp [hbound]
      rw [Session.ends, hremoved, Session.prune]
      split
      · next hempty =>
        rw [if_neg]
        · rfl
        · rw [hspares]
          rintro ⟨w, hw, hleft⟩
          have hkept := List.filter_eq_nil_iff.mp (List.isEmpty_iff.mp hempty) w hw
          simp [hleft] at hkept
      · next hkept =>
        rw [if_pos]
        · simp [Session.ends, hdownlink]
        · rw [List.isEmpty_iff] at hkept
          obtain ⟨w, hw⟩ := List.exists_mem_of_ne_nil _ hkept
          obtain ⟨hw, hleft⟩ := List.mem_filter.mp hw
          exact hspares.mpr ⟨w, hw, by simpa using hleft⟩
  · rw [Session.remove_path_of_unbound (Bool.eq_false_iff.mpr hbound), if_pos]
    exact fun h => absurd h hbound

/-- A decision leaves fresh shares their end. -/
theorem ends_egress (hfresh : ∀ end_, g.ends = some end_ → now < end_) :
    (g.egress now).1.ends = g.ends := by
  cases hdownlink : g.downlink with
  | none => simp [Session.ends, Session.egress, Session.downlink_decide, hdownlink]
  | some bonds =>
    have hlater : now < bonds.expires_at := hfresh _ (by simp [Session.ends, hdownlink])
    simp [Session.ends, Session.egress, Session.downlink_decide, hdownlink,
      Nat.not_le.mpr hlater]

end Gateway

/-! ## Runs -/

section Run

variable {s s' : Joint F × Refresh} {event : JointEvent F} {sent : List (Sent F)}

/-- What is marked is what the weight sets are, and the shares end when they are old. -/
structure Tracked (s : Joint F × Refresh) : Prop where
  found : ∀ who, who ∈ s.2.found ↔ s.1.passed who = true
  on_way : s.2.on_way = s.1.channel.map (fun m => (weight_set F m).isSome)
  dated : ∀ end_, s.1.gateway.ends = some end_ → ∃ at_, s.2.adopted_at = some at_ ∧
    end_ = at_ + DOWNLINK_WEIGHT_TTL

/-- Nothing happens to the shares, as `C` says. -/
theorem Tracked.stays (h : Tracked s) (hfresh : Fresh s) {C : Prop} (hC : C)
    (hfound : ∀ who, who ∈ s'.2.found ↔ s'.1.passed who = true)
    (hway : s'.2.on_way = s'.1.channel.map (fun m => (weight_set F m).isSome))
    (hadopted : s'.2.adopted_at = s.2.adopted_at) (hends : s'.1.gateway.ends = s.1.gateway.ends)
    (hnow : s'.1.now = s.1.now) : Tracked s' ∧ (Fresh s' ↔ C) := by
  refine ⟨⟨hfound, hway, ?_⟩, iff_of_true ?_ hC⟩
  · rw [hends, hadopted]
    exact h.dated
  · unfold Fresh
    rw [hadopted, fresh_iff, hends, hnow, ← fresh_iff]
    exact hfresh

/-- The shares end, unless `C` says that there were none. -/
theorem tracked_of_lost {C : Prop} (hC : C ↔ ¬ s'.2.adopted_at.isSome = true)
    (hfound : ∀ who, who ∈ s'.2.found ↔ s'.1.passed who = true)
    (hway : s'.2.on_way = s'.1.channel.map (fun m => (weight_set F m).isSome))
    (hends : s'.1.gateway.ends = none) : Tracked s' ∧ (Fresh s' ↔ C) := by
  refine ⟨⟨hfound, hway, by simp [hends]⟩, ?_⟩
  unfold Fresh
  rw [hC, fresh_iff, hends]
  simp

/-- A task goes on with its announcements. -/
theorem Tracked.tell (h : Tracked s) (hfresh : Fresh s) {who : Option ℕ} {orders : Orders F}
    {t : Telling F} (ht : s.1.telling who = some t) :
    Tracked ((s.1.tell who orders t).1, refresh s.1 s.2 (.Tell who orders)) ∧
      (Fresh ((s.1.tell who orders t).1, refresh s.1 s.2 (.Tell who orders)) ↔
        Renewed s (.Tell who orders)) := by
  have hpassed : decide (who ∈ s.2.found) = t.passed := by
    rw [← passed_of_telling ht, Bool.eq_iff_iff, decide_eq_true_eq, h.found]
  obtain ⟨added, hchannel, hmarks⟩ := marks_tell s.1 who orders t
  refine h.stays hfresh trivial ?_ ?_ ?_ ?_ ?_
  · intro other
    simp only [refresh, ht]
    rw [passed_tell ht]
    by_cases hother : other = who
    · subst hother
      rw [if_pos rfl]
      split
      · next hfinds => simp [hfinds]
      · next hfinds => simp [hfinds]
    · rw [if_neg hother, ← h.found other]
      split
      · simp [hother]
      · simp [hother]
  · simp only [refresh, ht]
    rw [hpassed, ← hmarks, hchannel, h.on_way, List.map_append]
  · simp only [refresh, ht]
  · rw [(tell_grown s.1 who orders t).1]
  · rcases tell_cases s.1 who orders t with ⟨-, hends⟩ | ⟨_, -, htold⟩
    · rw [hends, goes_eq]
    · rw [htold, goes_eq]

/-- The gateway follows a message. -/
theorem Tracked.follow (h : Tracked s) (hfresh : Fresh s) {m : Rider} {channel : List Rider}
    (hchannel : s.1.channel = m :: channel) {j : Joint F} (hj : j = { s.1 with
      gateway := s.1.gateway.follow s.1.now m, channel, arrived := false }) :
    Tracked (j, refresh s.1 s.2 .Follow) ∧
      (Fresh (j, refresh s.1 s.2 .Follow) ↔ Renewed s .Follow) := by
  subst hj
  have hway : s.2.on_way = (weight_set F m).isSome ::
      channel.map (fun m => (weight_set F m).isSome) := by
    simpa [hchannel] using h.on_way
  have hends := ends_follow s.1.gateway s.1.now m
  simp only [refresh, Renewed, hway, hchannel]
  by_cases hset : (weight_set F m).isSome = true
  · rw [if_pos hset] at hends
    by_cases hadopts : adopts s.1.gateway m = true
    · rw [if_pos hadopts] at hends
      refine ⟨⟨h.found, rfl, ?_⟩, iff_of_true (fun _ => fresh_iff.mpr ⟨_, hends, ?_⟩) ?_⟩
      · intro end_ hend
        rw [hends] at hend
        exact ⟨s.1.now, by simp [hset, hadopts], (Option.some.inj hend).symm⟩
      · simp [DOWNLINK_WEIGHT_TTL]
      · simp [hadopts]
    · rw [if_neg hadopts] at hends
      refine tracked_of_lost ?_ h.found rfl hends
      simp [hset, hadopts]
  · rw [if_neg hset] at hends
    refine h.stays hfresh ?_ h.found rfl ?_ hends rfl
    · simp [hset]
    · simp [hset]

/-- The client takes no step at the gate of `advertise_weights`. -/
theorem passed_of_quiet {j j' : Joint F} (hstep : j.step event = some (j', sent))
    (hquiet : event.quiet = true) (hwait : ∀ ms, event ≠ .Wait ms) :
    j'.now = j.now ∧ ∀ who, j'.passed who = j.passed who := by
  cases event with
  | Read | Decide orders | Move =>
    simp only [Joint.step] at hstep
    split at hstep
    next huplink =>
      obtain ⟨rfl, -⟩ := step_inj hstep
      refine ⟨rfl, fun who => ?_⟩
      cases who with
      | none =>
        simp only [Joint.passed, huplink]
        first
        | rfl
        | split <;> rfl
      | some i => rfl
    · contradiction
  | Fail dead =>
    simp only [Joint.step] at hstep
    split at hstep
    · obtain ⟨rfl, -⟩ := step_inj hstep
      exact ⟨rfl, fun _ => rfl⟩
    · obtain ⟨rfl, -⟩ := step_inj hstep
      refine ⟨rfl, fun who => ?_⟩
      cases who with
      | none => rfl
      | some i =>
        simp only [Joint.passed]
        rcases Nat.lt_trichotomy i j.failing.length with hlt | rfl | hgt
        · rw [List.getElem?_append_left hlt]
        · simp [Failing.passed]
        · rw [List.getElem?_eq_none (by simp; omega), List.getElem?_eq_none (by omega)]
  | Mark i | Choose i =>
    simp only [Joint.step] at hstep
    split at hstep
    next dead hcall =>
      obtain ⟨rfl, -⟩ := step_inj hstep
      refine ⟨rfl, fun who => ?_⟩
      cases who with
      | none => rfl
      | some k =>
        refine passed_set hcall rfl ?_ k
        first
        | rfl
        | cases j.client.failover.2 <;> rfl
    · contradiction
  | Measure path metrics | Join path transport | Leave path =>
    obtain ⟨rfl, -⟩ := step_inj hstep
    exact ⟨rfl, fun _ => rfl⟩
  | Wait ms => exact absurd rfl (hwait ms)
  | Tell _ _ | Arrive | Follow | Bind _ _ | Evict _ | Packet => contradiction

/-- **One step** from a state with fresh shares. -/
theorem Tracked.step (h : Tracked s) (hfresh : Fresh s)
    (hs : withGhost refresh Joint.step s event = some (s', sent)) :
    Tracked s' ∧ (Fresh s' ↔ Renewed s event) := by
  obtain ⟨⟨j, r⟩, ⟨j', r'⟩⟩ := s, s'
  obtain ⟨hstep, rfl⟩ := withGhost_eq_some.mp hs
  dsimp only at hstep
  cases event with
  | Tell who orders =>
    obtain ⟨t, ht, htell⟩ := of_step_tell hstep
    obtain rfl : (j.tell who orders t).1 = j' := by rw [htell]
    exact h.tell hfresh ht
  | Arrive =>
    cases moved_of_step hstep with
    | arrive =>
      exact h.stays hfresh trivial h.found h.on_way rfl (ends_congr Session.add_path_downlink) rfl
    | quiet hquiet => contradiction
    | rebind hg => contradiction
  | Follow =>
    cases moved_of_step hstep with
    | follow _ hchannel => exact h.follow hfresh hchannel rfl
    | quiet hquiet => contradiction
    | rebind hg => contradiction
  | Bind path transport =>
    obtain ⟨rfl, -⟩ := step_inj hstep
    exact h.stays hfresh trivial h.found h.on_way rfl (ends_congr Session.add_path_downlink) rfl
  | Evict path =>
    obtain ⟨rfl, -⟩ := step_inj hstep
    have hends := ends_remove_path j.gateway path
    by_cases hspares : Spares j.gateway path
    · rw [if_pos hspares] at hends
      exact h.stays hfresh (fun _ => hspares) h.found h.on_way rfl hends rfl
    · rw [if_neg hspares] at hends
      refine tracked_of_lost ?_ h.found h.on_way hends
      simp [Renewed, refresh, hspares]
  | Packet =>
    obtain ⟨rfl, -⟩ := step_inj hstep
    refine h.stays hfresh trivial h.found h.on_way rfl (ends_egress ?_) rfl
    intro end_ hend
    obtain ⟨at_, hat, -⟩ := h.dated end_ hend
    obtain ⟨end', hend', hlater⟩ := fresh_iff.mp (hfresh (Option.isSome_iff_exists.mpr ⟨at_, hat⟩))
    rwa [Option.some.inj (hend.symm.trans hend')]
  | Wait ms =>
    obtain ⟨rfl, -⟩ := step_inj hstep
    refine ⟨⟨h.found, h.on_way, h.dated⟩, ?_⟩
    cases hadopted : r.adopted_at with
    | none => simp [Fresh, Renewed, refresh, hadopted]
    | some at_ =>
      obtain ⟨end_, hend, -⟩ := fresh_iff.mp (hfresh (by simp [hadopted]))
      obtain ⟨at', hat, rfl⟩ := h.dated end_ hend
      obtain rfl := Option.some.inj (hadopted.symm.trans hat)
      simp [Fresh, Renewed, refresh, hadopted, fresh_iff, hend]
  | Read | Decide _ | Move | Fail _ | Mark _ | Choose _ | Measure _ _ | Join _ _ | Leave _ =>
    obtain ⟨hnow, hpassed⟩ := passed_of_quiet hstep rfl (by simp)
    cases moved_of_step hstep with
    | quiet _ hchannel _ hgateway =>
      refine h.stays hfresh trivial (fun who => ?_) ?_ rfl (by rw [hgateway]) hnow
      · rw [hpassed]
        exact h.found who
      · rw [hchannel]
        exact h.on_way
    | rebind hg => contradiction

/-- Two bound paths are eligible, and time passes a second at most, and not before everything that
was sent has been followed. -/
def Alive (s : Joint F × Refresh) : JointEvent F → Prop
  | .Wait ms => ms ≤ 1000 ∧ s.1.channel = [] ∧
    2 ≤ (s.1.client.session.path_ids.filter s.1.client.eligible).length
  | _ => True

instance (s : Joint F × Refresh) : ∀ event, Decidable (Alive s event)
  | .Wait _ => inferInstanceAs (Decidable (_ ∧ _ ∧ _))
  | .Read | .Decide _ | .Move | .Fail _ | .Mark _ | .Choose _ | .Tell _ _ | .Measure _ _
  | .Join _ _ | .Leave _ | .Arrive | .Follow | .Bind _ _ | .Evict _ | .Packet => isTrue trivial

/-- A second in which the client sends a packet and has nothing to tell. -/
def second : List (JointEvent Exact) := steer ++ sections none 3 ++ [.Wait 1000]

/-- A path with losses. -/
def strained : PathMetrics Exact :=
  { (PathMetrics.default : PathMetrics Exact) with reachable := true, loss := some (1 / 10) }

/-- **When the shares stay fresh.** -/
theorem weights_stay_fresh_iff {client : Shared F} {now : ℕ} {events : List (JointEvent F)}
    (hrun : exec (withGhost refresh Joint.step) (Joint.start client now, ⟨[], [], none⟩) events =
      some (s, sent)) :
    Throughout (withGhost refresh Joint.step) Fresh (Joint.start client now, ⟨[], [], none⟩)
        events ↔
      Along (withGhost refresh Joint.step) Renewed (Joint.start client now, ⟨[], [], none⟩)
        events := by
  refine throughout_iff_along (I := Tracked) (fun _ _ _ _ h hfresh hs => h.step hfresh hs) ?_ ?_ hrun
  · exact ⟨by rintro (_ | i) <;> simp [Joint.start, Joint.passed, Round.passed], rfl,
      by simp [Joint.start, Session.ends, Session.new]⟩
  · simp [Fresh]

/-- The shares move every nine seconds. -/
def moving : List (JointEvent Exact) :=
  published 2 ++ [.Wait 9000, .Measure ⟨0⟩ (some strained)] ++ steer ++ sections none 5 ++
    deliver 2 ++ [.Wait 9000]

theorem weights_stay_fresh_sample :
    Throughout (withGhost refresh Joint.step) Fresh (Joint.start (bonded 2) 0, ⟨[], [], none⟩)
      moving := by
  obtain ⟨⟨s, sent⟩, hrun⟩ := Option.isSome_iff_exists.mp
    (show (exec (withGhost refresh Joint.step) (Joint.start (bonded 2) 0, ⟨[], [], none⟩)
      moving).isSome = true by decide +kernel)
  exact (weights_stay_fresh_iff hrun).mpr (by decide +kernel)

/-- **The shares of steady paths expire.** The client has a packet every second, and nothing to
publish. -/
theorem steady_shares_expire :
    Shared.start ⟨1⟩ [(⟨0⟩, ⟨0⟩), (⟨1⟩, ⟨1⟩)] (some 0 : Exact) = .ok (bonded 2) ∧
    Along (withGhost refresh Joint.step) Alive (Joint.start (bonded 2) 0, ⟨[], [], none⟩)
      (published 2 ++ (List.replicate 10 second).flatten) ∧
    ¬ Throughout (withGhost refresh Joint.step) Fresh (Joint.start (bonded 2) 0, ⟨[], [], none⟩)
      (published 2 ++ (List.replicate 10 second).flatten) := by
  refine ⟨rfl, by decide +kernel, fun h => ?_⟩
  obtain ⟨⟨s, sent⟩, hrun, hstale⟩ := Option.map_eq_some_iff.mp
    (show (exec (withGhost refresh Joint.step) (Joint.start (bonded 2) 0, ⟨[], [], none⟩)
      (published 2 ++ (List.replicate 10 second).flatten)).map (fun r => decide (Fresh r.1)) =
        some false by decide +kernel)
  exact of_decide_eq_false hstale (h _ List.prefix_rfl s sent hrun)

end Run

end StreamGuard.V1
