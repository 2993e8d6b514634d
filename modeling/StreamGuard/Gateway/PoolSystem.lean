/-
Concurrent callers of one address pool, and its refinement of the lease cycle.

`PoolSystem` is a pool with any number of callers in the middle of a call. A step
is one lock section or one store operation, so every interleaving that the mutex
allows is a run. `Coherent` says that every session is in one `Place`, and
`step_refines` that each step moves every session along its `LeaseCycle`.
-/
import StreamGuard.Gateway.PoolSections
import StreamGuard.Lib.Run

set_option autoImplicit false

namespace StreamGuard.Gateway

open StreamGuard StreamGuard.Lib

/-! ## The system -/

/-- A parked call and the outcomes of its store operations so far. -/
structure Running where
  plan : Plan
  outcomes : List Bool

structure PoolSystem where
  pool : AddressPool
  running : Map ℕ Running

inductive PoolLabel where
  | begin_ (caller : ℕ) (call : PoolCall)
  /-- The next store operation of a parked call returns. -/
  | store (caller : ℕ) (ok : Bool)
  | resume (caller : ℕ)
  | release_deferred (session_id : SessionId)

namespace PoolSystem

/-- The pool right after startup. -/
def start (pool : AddressPool) : PoolSystem := ⟨pool, ∅⟩

def durable (s : PoolSystem) : Bool := s.pool.store.isSome

/-- Enters the result of a lock section of `caller`. -/
def enter (s : PoolSystem) (caller : ℕ) (sec : Section) : PoolSystem :=
  { pool := { s.pool with inner := sec.inner }
    running :=
      match sec.plan with
      | some plan => s.running.insert caller ⟨plan, []⟩
      | none => s.running.erase caller }

/-- One store operation of a parked call. Without a store nothing can fail. -/
def run_store (s : PoolSystem) (caller : ℕ) (r : Running) (op : StoreOp) (ok : Bool) :
    Option PoolSystem :=
  let running := s.running.insert caller ⟨r.plan, r.outcomes ++ [ok]⟩
  match s.pool.store with
  | some store => some ⟨{ s.pool with store := some (op.apply ok store) }, running⟩
  | none => if ok then some { s with running := running } else none

def step (s : PoolSystem) : PoolLabel → Option (PoolSystem × List PoolEvent)
  | .begin_ caller call =>
    if caller ∈ s.running then none
    else
      let sec := AddressPool.begin_ s.pool.config s.durable s.pool.inner call
      some (s.enter caller sec, sec.events)
  | .store caller ok =>
    match s.running.lookup caller with
    | none => none
    | some r =>
      match r.plan.store_ops[r.outcomes.length]? with
      | none => none
      | some op => (s.run_store caller r op ok).map (fun s => (s, []))
  | .resume caller =>
    match s.running.lookup caller with
    | none => none
    | some r =>
      if r.outcomes.length = r.plan.store_ops.length then
        let sec := AddressPool.resume s.pool.config s.durable s.pool.inner r.outcomes r.plan
        some (s.enter caller sec, sec.events)
      else none
  | .release_deferred session_id =>
    let r := AddressPool.release_deferred s.pool.config s.pool.inner session_id
    some ({ s with pool := { s.pool with inner := r.1 } }, [.deferred session_id r.2])

/-! ## What a step does -/

/-- The system after a store operation of a parked call. -/
def after_store (s : PoolSystem) (caller : ℕ) (r : Running) (op : StoreOp) (ok : Bool) : PoolSystem :=
  { pool := { s.pool with store := s.pool.store.map (op.apply ok) }
    running := s.running.insert caller ⟨r.plan, r.outcomes ++ [ok]⟩ }

/-- All that a step can do: a lock section of a caller, a store operation, or a
deferred release. -/
inductive Steps (s : PoolSystem) : PoolLabel → PoolSystem → List PoolEvent → Prop where
  | begin_ {caller : ℕ} (call : PoolCall) (hidle : s.running.lookup caller = none) :
      Steps s (.begin_ caller call)
        (s.enter caller (AddressPool.begin_ s.pool.config s.durable s.pool.inner call))
        (AddressPool.begin_ s.pool.config s.durable s.pool.inner call).events
  | store {caller : ℕ} {r : Running} {op : StoreOp} (ok : Bool)
      (hr : s.running.lookup caller = some r)
      (hop : r.plan.store_ops[r.outcomes.length]? = some op) :
      Steps s (.store caller ok) (s.after_store caller r op ok) []
  | resume {caller : ℕ} {r : Running} (hr : s.running.lookup caller = some r)
      (hlen : r.outcomes.length = r.plan.store_ops.length) :
      Steps s (.resume caller)
        (s.enter caller
          (AddressPool.resume s.pool.config s.durable s.pool.inner r.outcomes r.plan))
        (AddressPool.resume s.pool.config s.durable s.pool.inner r.outcomes r.plan).events
  | release_deferred (subject : SessionId) :
      Steps s (.release_deferred subject)
        { s with pool := { s.pool with
          inner := (AddressPool.release_deferred s.pool.config s.pool.inner subject).1 } }
        [.deferred subject (AddressPool.release_deferred s.pool.config s.pool.inner subject).2]

variable {s s' : PoolSystem}

theorem run_store_eq {caller : ℕ} {r : Running} {op : StoreOp} {ok : Bool}
    (hs : s.run_store caller r op ok = some s') : s' = s.after_store caller r op ok := by
  rw [run_store] at hs
  split at hs
  · next store hstore =>
    rw [← Option.some.inj hs, after_store, hstore]
    rfl
  · next hnone =>
    split at hs
    · rw [← Option.some.inj hs, after_store, hnone, Option.map_none, ← hnone]
    · contradiction

theorem step_steps {label : PoolLabel} {events : List PoolEvent}
    (hs : s.step label = some (s', events)) : s.Steps label s' events := by
  cases label with
  | begin_ caller call =>
    rw [step] at hs
    split at hs
    · contradiction
    next hidle =>
    obtain ⟨rfl, rfl⟩ := step_inj hs
    exact .begin_ call (AList.lookup_eq_none.mpr hidle)
  | store caller ok =>
    rw [step] at hs
    split at hs
    · contradiction
    next r hr =>
    split at hs
    · contradiction
    next op hop =>
    obtain ⟨s₁, hrun, he⟩ := Option.map_eq_some_iff.mp hs
    obtain ⟨rfl, rfl⟩ := Prod.mk.inj he
    rw [run_store_eq hrun]
    exact .store ok hr hop
  | resume caller =>
    rw [step] at hs
    split at hs
    · contradiction
    next r hr =>
    split at hs
    · next hlen =>
      obtain ⟨rfl, rfl⟩ := step_inj hs
      exact .resume hr hlen
    · contradiction
  | release_deferred subject =>
    rw [step] at hs
    obtain ⟨rfl, rfl⟩ := step_inj hs
    exact .release_deferred subject

/-- A store operation leaves the plans of the running calls alone. -/
theorem after_store_lookup {caller caller' : ℕ} {r r' : Running} {op : StoreOp} {ok : Bool}
    (hr : s.running.lookup caller = some r)
    (hr' : (s.after_store caller r op ok).running.lookup caller' = some r') :
    ∃ past, s.running.lookup caller' = some ⟨r'.plan, past⟩ := by
  rw [after_store, AList.lookup_insert_of] at hr'
  split at hr'
  · next he =>
    obtain rfl := Option.some.inj hr'
    exact ⟨r.outcomes, he ▸ hr⟩
  · exact ⟨r'.outcomes, hr'⟩

/-! ## Every session is in one place -/

/-- A parked call of the system does `k` with the session. -/
def Parks (s : PoolSystem) (session_id : SessionId) (k : Parked) : Prop :=
  ∃ caller r, s.running.lookup caller = some r ∧ r.plan.parked session_id = some k

/-- The maps and the parked calls agree that the session is in place `p`. -/
structure At (s : PoolSystem) (session_id : SessionId) (p : Place) : Prop where
  slot : s.pool.inner.slot session_id = p.slot
  parks : ∀ k, s.Parks session_id k ↔ p.parked = some k

/-- Every session is in one place, and no two calls have parked the same session. -/
structure Coherent (s : PoolSystem) : Prop where
  places : ∀ session_id, ∃ p, s.At session_id p
  single : ∀ {caller caller' r r' session_id}, s.running.lookup caller = some r →
    s.running.lookup caller' = some r' → (r.plan.parked session_id).isSome →
    (r'.plan.parked session_id).isSome → caller = caller'
  distinct : ∀ {caller r}, s.running.lookup caller = some r → r.plan.Distinct

theorem Coherent.apart (h : s.Coherent) : AddressPool.Apart s.pool.inner := by
  intro session_id
  obtain ⟨p, hp⟩ := h.places session_id
  have hpending : s.pool.inner.pending.lookup session_id = p.slot.pending :=
    congrArg Slot.pending hp.slot
  have hactive : s.pool.inner.active.lookup session_id = p.slot.active :=
    congrArg Slot.active hp.slot
  rw [hpending, hactive]
  cases p <;> simp [Place.slot]

/-! ## Entering a section -/

section Enter

variable {caller : ℕ} {old : Option Running} {sec : Section}
  {fresh : SessionId → AssignedAddresses → Prop}

theorem enter_lookup (s : PoolSystem) (caller : ℕ) (sec : Section) (caller' : ℕ) :
    (s.enter caller sec).running.lookup caller' =
      if caller' = caller then sec.plan.map (fun plan => ⟨plan, []⟩)
      else s.running.lookup caller' := by
  rw [enter]
  cases sec.plan with
  | none => exact AList.lookup_erase_of
  | some plan => exact AList.lookup_insert_of

/-- What a call of `caller` does with a session, before its next section. -/
def own (old : Option Running) (session_id : SessionId) : Option Parked :=
  old.bind (fun r => r.plan.parked session_id)

/-- A session is parked by `caller` or not at all, or by another caller. -/
theorem own_cases {session_id : SessionId} {p : Place} (hold : s.running.lookup caller = old)
    (hp : s.At session_id p) :
    p.parked = own old session_id ∨ p.parked.isSome ∧ own old session_id = none := by
  cases ho : own old session_id with
  | some k =>
    left
    obtain ⟨r, hr, hk⟩ := Option.bind_eq_some_iff.mp ho
    exact (hp.parks k).mp ⟨caller, r, hold.trans hr, hk⟩
  | none =>
    cases hk : p.parked with
    | none => exact .inl rfl
    | some k => exact .inr ⟨rfl, rfl⟩

/-- A call of another caller still parks what it parked. -/
theorem parks_enter_iff {session_id : SessionId} (k : Parked) :
    (s.enter caller sec).Parks session_id k ↔
      sec.parked session_id = some k ∨ ∃ caller' r, caller' ≠ caller ∧
        s.running.lookup caller' = some r ∧ r.plan.parked session_id = some k := by
  constructor
  · rintro ⟨caller', r, hr, hk⟩
    rw [enter_lookup] at hr
    split at hr
    · obtain ⟨plan, hplan, rfl⟩ := Option.map_eq_some_iff.mp hr
      left
      rw [Section.parked, hplan]
      exact hk
    · next hne => exact .inr ⟨caller', r, hne, hr, hk⟩
  · rintro (hk | ⟨caller', r, hne, hr, hk⟩)
    · obtain ⟨plan, hplan, hk⟩ := Option.bind_eq_some_iff.mp hk
      refine ⟨caller, ⟨plan, []⟩, ?_, hk⟩
      rw [enter_lookup, if_pos rfl, hplan]
      rfl
    · refine ⟨caller', r, ?_, hk⟩
      rw [enter_lookup, if_neg hne]
      exact hr

/-- A lock section that moves the sessions of its call, moves those at rest and
leaves the others alone keeps the system coherent, and every session follows its
cycle. -/
theorem Coherent.enter (h : s.Coherent) (hold : s.running.lookup caller = old)
    (hmoves : ∀ session_id p, s.pool.inner.slot session_id = p.slot →
      p.parked = own old session_id → sec.Moves (fresh session_id) session_id p)
    (hleaves : ∀ session_id p, s.pool.inner.slot session_id = p.slot → p.parked.isSome →
      own old session_id = none → sec.Leaves s.pool.inner session_id p)
    (hdistinct : ∀ plan, sec.plan = some plan → plan.Distinct) :
    (s.enter caller sec).Coherent ∧ ∀ session_id p, s.At session_id p →
      ∃ p', (s.enter caller sec).At session_id p' ∧
        LeaseCycle (fresh session_id) session_id p sec.events p' := by
  -- a session parked by another caller is parked by nobody else
  have hother : ∀ {session_id caller' r}, caller' ≠ caller →
      s.running.lookup caller' = some r → (r.plan.parked session_id).isSome →
      own old session_id = none := by
    intro session_id caller' r hne hr hk
    cases ho : own old session_id with
    | none => rfl
    | some k =>
      obtain ⟨r', hr', hk'⟩ := Option.bind_eq_some_iff.mp ho
      have hk' : (r'.plan.parked session_id).isSome := by
        rw [hk']
        rfl
      exact absurd (h.single hr (hold.trans hr') hk hk') hne
  have hcycle : ∀ session_id p, s.At session_id p → ∃ p', (s.enter caller sec).At session_id p' ∧
      LeaseCycle (fresh session_id) session_id p sec.events p' := by
    intro session_id p hp
    rcases own_cases hold hp with hown | ⟨hsome, hnone⟩
    · obtain ⟨p', hslot, hparked, hcycle⟩ := hmoves session_id p hp.slot hown
      refine ⟨p', ⟨hslot, ?_⟩, hcycle⟩
      intro k
      rw [parks_enter_iff, hparked]
      constructor
      · rintro (hk | ⟨caller', r, hne, hr, hk⟩)
        · exact hk
        · have hparks := (hp.parks k).mp ⟨caller', r, hr, hk⟩
          rw [hown, hother hne hr (by rw [hk]; rfl)] at hparks
          contradiction
      · exact .inl
    · obtain ⟨hslot, hparked, hquiet⟩ := hleaves session_id p hp.slot hsome hnone
      refine ⟨p, ⟨hslot.trans hp.slot, ?_⟩, .stay hquiet⟩
      intro k
      rw [parks_enter_iff, hparked, ← hp.parks k]
      constructor
      · rintro (hk | ⟨caller', r, _, hr, hk⟩)
        · contradiction
        · exact ⟨caller', r, hr, hk⟩
      · rintro ⟨caller', r, hr, hk⟩
        refine .inr ⟨caller', r, ?_, hr, hk⟩
        rintro rfl
        rw [← hold, hr] at hnone
        have hk' : r.plan.parked session_id = none := hnone
        rw [hk] at hk'
        contradiction
  -- what the section parks, no other caller has parked
  have hsolo : ∀ {session_id caller' r}, caller' ≠ caller →
      s.running.lookup caller' = some r → (r.plan.parked session_id).isSome →
      sec.parked session_id = none := by
    intro session_id caller' r hne hr hk
    obtain ⟨p, hp⟩ := h.places session_id
    obtain ⟨k, hk'⟩ := Option.isSome_iff_exists.mp hk
    have hsome : p.parked.isSome := by
      rw [(hp.parks k).mp ⟨caller', r, hr, hk'⟩]
      rfl
    exact (hleaves session_id p hp.slot hsome (hother hne hr hk)).parked
  refine ⟨⟨?_, ?_, ?_⟩, hcycle⟩
  · intro session_id
    obtain ⟨p, hp⟩ := h.places session_id
    obtain ⟨p', hp', _⟩ := hcycle session_id p hp
    exact ⟨p', hp'⟩
  · intro caller₁ caller₂ r₁ r₂ session_id hr₁ hr₂ hk₁ hk₂
    rw [enter_lookup] at hr₁ hr₂
    split at hr₁
    · next he₁ =>
      split at hr₂
      · next he₂ => rw [he₁, he₂]
      · next hne₂ =>
        obtain ⟨plan, hplan, rfl⟩ := Option.map_eq_some_iff.mp hr₁
        have hnone := hsolo hne₂ hr₂ hk₂
        rw [Section.parked, hplan] at hnone
        have hnone' : plan.parked session_id = none := hnone
        rw [hnone'] at hk₁
        contradiction
    · next hne₁ =>
      split at hr₂
      · obtain ⟨plan, hplan, rfl⟩ := Option.map_eq_some_iff.mp hr₂
        have hnone := hsolo hne₁ hr₁ hk₁
        rw [Section.parked, hplan] at hnone
        have hnone' : plan.parked session_id = none := hnone
        rw [hnone'] at hk₂
        contradiction
      · exact h.single hr₁ hr₂ hk₁ hk₂
  · intro caller' r hr
    rw [enter_lookup] at hr
    split at hr
    · obtain ⟨plan, hplan, rfl⟩ := Option.map_eq_some_iff.mp hr
      exact hdistinct plan hplan
    · exact h.distinct hr

end Enter

/-! ## The refinement -/

/-- A store operation does not change who parks what. -/
theorem parks_after_store_iff {caller : ℕ} {r : Running} {op : StoreOp} {ok : Bool}
    (hr : s.running.lookup caller = some r) (session_id : SessionId) (k : Parked) :
    (s.after_store caller r op ok).Parks session_id k ↔ s.Parks session_id k := by
  constructor
  · rintro ⟨caller', r', hr', hk⟩
    obtain ⟨past, hr₀⟩ := after_store_lookup hr hr'
    exact ⟨caller', _, hr₀, hk⟩
  · rintro ⟨caller', r', hr', hk⟩
    by_cases he : caller' = caller
    · subst he
      rw [hr] at hr'
      obtain rfl := Option.some.inj hr'
      exact ⟨caller', ⟨r.plan, r.outcomes ++ [ok]⟩, AList.lookup_insert _, hk⟩
    · exact ⟨caller', r', (AList.lookup_insert_ne he).trans hr', hk⟩

theorem at_after_store_iff {caller : ℕ} {r : Running} {op : StoreOp} {ok : Bool}
    (hr : s.running.lookup caller = some r) {session_id : SessionId} {p : Place} :
    (s.after_store caller r op ok).At session_id p ↔ s.At session_id p := by
  constructor
  · intro hp
    refine ⟨hp.slot, ?_⟩
    intro k
    rw [← parks_after_store_iff hr, hp.parks]
  · intro hp
    refine ⟨hp.slot, ?_⟩
    intro k
    rw [parks_after_store_iff hr, hp.parks]

theorem Coherent.after_store {caller : ℕ} {r : Running} (op : StoreOp) (ok : Bool) (h : s.Coherent)
    (hr : s.running.lookup caller = some r) : (s.after_store caller r op ok).Coherent := by
  refine ⟨?_, ?_, ?_⟩
  · intro session_id
    obtain ⟨p, hp⟩ := h.places session_id
    exact ⟨p, (at_after_store_iff hr).mpr hp⟩
  · intro caller₁ caller₂ r₁ r₂ session_id hr₁ hr₂ hk₁ hk₂
    obtain ⟨past₁, hr₁'⟩ := after_store_lookup hr hr₁
    obtain ⟨past₂, hr₂'⟩ := after_store_lookup hr hr₂
    exact h.single hr₁' hr₂' hk₁ hk₂
  · intro caller' r' hr'
    obtain ⟨past, hr₀⟩ := after_store_lookup hr hr'
    have hdistinct := h.distinct hr₀
    exact hdistinct

/-- The addresses a step may newly assign to a session. -/
def Allocates (s : PoolSystem) (label : PoolLabel) (session_id : SessionId)
    (a : AssignedAddresses) : Prop :=
  ∃ caller call, label = .begin_ caller call ∧
    AddressPool.Allocates s.pool.config s.pool.inner call session_id a

/-- **The pool refines the lease cycle.** From a coherent system every step leads
to a coherent one, and moves every session along its cycle with the events of the
step. -/
theorem step_refines {label : PoolLabel} {events : List PoolEvent} (h : s.Coherent)
    (hs : s.step label = some (s', events)) :
    s'.Coherent ∧ ∀ session_id p, s.At session_id p → ∃ p', s'.At session_id p' ∧
      LeaseCycle (s.Allocates label session_id) session_id p events p' := by
  cases step_steps hs with
  | @begin_ caller call hidle =>
    refine h.enter hidle ?_ ?_ ?_
    · intro session_id p hslot hp
      obtain ⟨p', hslot', hparked, hcycle⟩ :=
        AddressPool.begin_moves s.durable call h.apart hslot hp
      exact ⟨p', hslot', hparked, hcycle.mono (fun a ha => ⟨caller, call, rfl, ha⟩)⟩
    · intro session_id p hslot hsome _
      exact AddressPool.begin_leaves s.durable call (AddressPool.inflight_of_parked hslot hsome)
    · intro plan hplan
      exact AddressPool.begin_distinct s.durable call h.apart hplan
  | store ok hr hop =>
    refine ⟨h.after_store _ ok hr, ?_⟩
    intro session_id p hp
    exact ⟨p, (at_after_store_iff hr).mpr hp, .stay (.of_unconcerned (by simp))⟩
  | resume hr hlen =>
    refine h.enter hr ?_ ?_ ?_
    · intro session_id p hslot hp
      exact AddressPool.resume_moves s.durable (h.distinct hr) hlen hslot hp
    · intro session_id p hslot hsome hnone
      exact AddressPool.resume_leaves s.durable hlen
        (AddressPool.inflight_of_parked hslot hsome) hnone
    · intro plan hplan
      exact AddressPool.resume_distinct s.durable hplan
  | release_deferred subject =>
    have hcycle : ∀ session_id p, s.At session_id p → ∃ p' : Place,
        (AddressPool.release_deferred s.pool.config s.pool.inner subject).1.slot session_id =
          p'.slot ∧ p'.parked = p.parked ∧
        LeaseCycle (s.Allocates (.release_deferred subject) session_id) session_id p
          [.deferred subject (AddressPool.release_deferred s.pool.config s.pool.inner subject).2]
          p' := by
      intro session_id p hp
      by_cases hs : session_id = subject
      · subst hs
        cases hk : p.parked with
        | none =>
          obtain ⟨p', hslot, hparked, hcycle⟩ := AddressPool.release_deferred_moves hp.slot hk
          exact ⟨p', hslot, hparked, hcycle⟩
        | some k =>
          have hsome : p.parked.isSome := by
            rw [hk]
            rfl
          rw [AddressPool.release_deferred_inflight (AddressPool.inflight_of_parked hp.slot hsome)]
          have hidle : (PoolEvent.deferred session_id false).Idle := rfl
          exact ⟨p, hp.slot, hk, .stay (.of_idle hidle)⟩
      · refine ⟨p, (AddressPool.release_deferred_of_ne hs).trans hp.slot, rfl, .stay ?_⟩
        refine .of_unconcerned ?_
        intro e he
        rw [List.mem_singleton.mp he]
        exact Ne.symm hs
    refine ⟨⟨?_, h.single, h.distinct⟩, ?_⟩
    · intro session_id
      obtain ⟨p, hp⟩ := h.places session_id
      obtain ⟨p', hslot, hparked, _⟩ := hcycle session_id p hp
      refine ⟨p', hslot, ?_⟩
      rw [hparked]
      exact hp.parks
    · intro session_id p hp
      obtain ⟨p', hslot, hparked, hc⟩ := hcycle session_id p hp
      refine ⟨p', ⟨hslot, ?_⟩, hc⟩
      rw [hparked]
      exact hp.parks

end PoolSystem

end StreamGuard.Gateway
