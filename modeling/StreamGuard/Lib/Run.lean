/-
Runs of a guarded, labelled machine.

A machine is one function `step : σ → ι → Option (σ × List ω)`: from a state and
an input it gives the next state and the outputs of that step, or `none` where
the input is not enabled. Everything the development says about "every run" goes
through the two definitions below, so the induction over a run is done once:
`exec` runs a list of inputs, `Along` says that a condition on (state, input)
holds at every step of that run.
-/
import Mathlib.Data.List.Basic

set_option autoImplicit false

namespace StreamGuard.Lib

section Machine

variable {σ ι ω : Type*} {step : σ → ι → Option (σ × List ω)}

/-- A step has one outcome. -/
theorem step_inj {α : Type*} {s s' : σ} {o o' : α} (h : some (s, o) = some (s', o')) :
    s = s' ∧ o = o' :=
  Prod.mk.inj (Option.some.inj h)

/-! ## Running a list of inputs -/

/-- Runs `step` over a list of inputs and concatenates the outputs. The run is
`none` as soon as one input is not enabled. -/
def exec (step : σ → ι → Option (σ × List ω)) : σ → List ι → Option (σ × List ω)
  | s, [] => some (s, [])
  | s, i :: is =>
    match step s i with
    | none => none
    | some (s₁, o) => (exec step s₁ is).map (fun r => (r.1, o ++ r.2))

@[simp] theorem exec_nil (s : σ) : exec step s [] = some (s, []) := rfl

theorem exec_cons_eq_some {s t : σ} {i : ι} {is : List ι} {os : List ω} :
    exec step s (i :: is) = some (t, os) ↔
      ∃ s₁ o o', step s i = some (s₁, o) ∧ exec step s₁ is = some (t, o') ∧ os = o ++ o' := by
  rw [exec]
  cases hs : step s i with
  | none => simp
  | some r =>
    obtain ⟨s₁, o⟩ := r
    simp only [Option.map_eq_some_iff, Prod.exists, Prod.mk.injEq, Option.some.injEq]
    constructor
    · rintro ⟨t', o', he, rfl, rfl⟩
      exact ⟨s₁, o, o', ⟨rfl, rfl⟩, he, rfl⟩
    · rintro ⟨s₂, o₂, o', ⟨rfl, rfl⟩, he, rfl⟩
      exact ⟨t, o', he, rfl, rfl⟩

/-- A one-step run. -/
theorem exec_singleton {s t : σ} {i : ι} {o : List ω} (h : step s i = some (t, o)) :
    exec step s [i] = some (t, o) :=
  exec_cons_eq_some.mpr ⟨t, o, [], h, rfl, by simp⟩

/-- Runs compose. -/
theorem exec_append {s₀ s₁ s₂ : σ} {is js : List ι} {os ps : List ω}
    (h : exec step s₀ is = some (s₁, os)) (h' : exec step s₁ js = some (s₂, ps)) :
    exec step s₀ (is ++ js) = some (s₂, os ++ ps) := by
  induction is generalizing s₀ os with
  | nil =>
    obtain ⟨rfl, rfl⟩ := step_inj h
    simpa using h'
  | cons i is ih =>
    obtain ⟨s', o, o', hs, he, rfl⟩ := exec_cons_eq_some.mp h
    rw [List.cons_append, List.append_assoc]
    exact exec_cons_eq_some.mpr ⟨s', o, o' ++ ps, hs, ih he, rfl⟩

/-- And a run goes on from where a part of it leads. -/
theorem exec_of_append {s₀ s₁ s₂ : σ} {is js : List ι} {os ps : List ω}
    (h : exec step s₀ (is ++ js) = some (s₂, ps)) (h' : exec step s₀ is = some (s₁, os)) :
    ∃ qs, exec step s₁ js = some (s₂, qs) := by
  induction is generalizing s₀ os ps with
  | nil =>
    obtain ⟨rfl, -⟩ := step_inj h'
    exact ⟨ps, h⟩
  | cons i is ih =>
    obtain ⟨s', o, o', hs, he, -⟩ := exec_cons_eq_some.mp h
    obtain ⟨s'', p, p', hs', he', -⟩ := exec_cons_eq_some.mp h'
    obtain ⟨rfl, -⟩ := step_inj (hs.symm.trans hs')
    exact ih he he'

/-- A run over two parts stops between them. -/
theorem exec_split {s₀ s₂ : σ} {is js : List ι} {os : List ω}
    (h : exec step s₀ (is ++ js) = some (s₂, os)) :
    ∃ s₁ ps qs, exec step s₀ is = some (s₁, ps) ∧ exec step s₁ js = some (s₂, qs) := by
  induction is generalizing s₀ os with
  | nil => exact ⟨s₀, [], os, rfl, h⟩
  | cons i is ih =>
    obtain ⟨s', o, o', hs, he, -⟩ := exec_cons_eq_some.mp h
    obtain ⟨s₁, ps, qs, hps, hqs⟩ := ih he
    exact ⟨s₁, o ++ ps, qs, exec_cons_eq_some.mpr ⟨s', o, ps, hs, hps, rfl⟩, hqs⟩

/-! ## Conditions on every step of a run -/

/-- `C` holds of the state and the input at every step of the run of `is` from
`s`. A run that stops at an input that is not enabled has no steps after it. -/
def Along (step : σ → ι → Option (σ × List ω)) (C : σ → ι → Prop) : σ → List ι → Prop
  | _, [] => True
  | s, i :: is =>
    C s i ∧ match step s i with
      | none => True
      | some (s₁, _) => Along step C s₁ is

instance instDecidableAlong (C : σ → ι → Prop) [∀ s i, Decidable (C s i)] :
    ∀ (s : σ) (is : List ι), Decidable (Along step C s is)
  | _, [] => inferInstanceAs (Decidable True)
  | s, i :: is =>
    @instDecidableAnd (C s i) _ _ (match step s i with
      | none => inferInstanceAs (Decidable True)
      | some (s₁, _) => instDecidableAlong C s₁ is)

theorem along_cons {C : σ → ι → Prop} {s s₁ : σ} {i : ι} {is : List ι} {o : List ω}
    (hs : step s i = some (s₁, o)) :
    Along step C s (i :: is) ↔ C s i ∧ Along step C s₁ is := by
  simp only [Along, hs]

theorem along_append {C : σ → ι → Prop} {s s₁ : σ} {is js : List ι} {os : List ω}
    (h : exec step s is = some (s₁, os)) :
    Along step C s (is ++ js) ↔ Along step C s is ∧ Along step C s₁ js := by
  induction is generalizing s os with
  | nil =>
    obtain ⟨rfl, -⟩ := step_inj h
    simp [Along]
  | cons i is ih =>
    obtain ⟨s', o, o', hs, he, -⟩ := exec_cons_eq_some.mp h
    rw [List.cons_append, along_cons hs, along_cons hs, ih he, and_assoc]

/-- Two conditions hold along a run together. -/
theorem Along.and {C D : σ → ι → Prop} {s : σ} {is : List ι} (hC : Along step C s is)
    (hD : Along step D s is) : Along step (fun s i => C s i ∧ D s i) s is := by
  induction is generalizing s with
  | nil => trivial
  | cons i is ih =>
    cases hs : step s i with
    | none => exact ⟨⟨hC.1, hD.1⟩, by simp only [hs]⟩
    | some r =>
      rw [along_cons hs] at hC hD ⊢
      exact ⟨⟨hC.1, hD.1⟩, ih hC.2 hD.2⟩

/-! ## The invariant rules -/

/-- **The run rule.** A property of (state, outputs so far) that every step
meeting `C` carries over is carried over by every run whose steps all meet `C`. -/
theorem exec_along_induct {C : σ → ι → Prop} {P : σ → List ω → Prop}
    (hstep : ∀ s i s₁ o a, P s a → C s i → step s i = some (s₁, o) → P s₁ (a ++ o))
    {s t : σ} {is : List ι} {os a : List ω} (hP : P s a) (hC : Along step C s is)
    (h : exec step s is = some (t, os)) : P t (a ++ os) := by
  induction is generalizing s os a with
  | nil =>
    obtain ⟨rfl, rfl⟩ := step_inj h
    simpa using hP
  | cons i is ih =>
    obtain ⟨s', o, o', hs, he, rfl⟩ := exec_cons_eq_some.mp h
    obtain ⟨hCi, hCs⟩ := (along_cons hs).mp hC
    rw [← List.append_assoc]
    exact ih (hstep s i s' o a hP hCi hs) hCs he

/-- The run rule for a property of the state alone. -/
theorem exec_along_invariant {C : σ → ι → Prop} {I : σ → Prop}
    (hstep : ∀ s i s₁ o, I s → C s i → step s i = some (s₁, o) → I s₁)
    {s t : σ} {is : List ι} {os : List ω} (hI : I s) (hC : Along step C s is)
    (h : exec step s is = some (t, os)) : I t :=
  exec_along_induct (P := fun s _ => I s) (a := [])
    (fun s i s₁ o _ hi hc hs => hstep s i s₁ o hi hc hs) hI hC h

/-- A condition on the inputs alone holds along every run of them. -/
theorem along_of_forall {Q : ι → Prop} (s : σ) {is : List ι} (h : ∀ i ∈ is, Q i) :
    Along step (fun _ i => Q i) s is := by
  induction is generalizing s with
  | nil => trivial
  | cons i is ih =>
    obtain ⟨hi, his⟩ := List.forall_mem_cons.mp h
    refine ⟨hi, ?_⟩
    cases hs : step s i with
    | none => trivial
    | some r => exact ih r.1 his

theorem along_true (s : σ) (is : List ι) : Along step (fun _ _ => True) s is :=
  along_of_forall s (fun _ _ => trivial)

/-- The run rule with no side condition. -/
theorem exec_invariant {I : σ → Prop}
    (hstep : ∀ s i s₁ o, I s → step s i = some (s₁, o) → I s₁)
    {s t : σ} {is : List ι} {os : List ω} (hI : I s)
    (h : exec step s is = some (t, os)) : I t :=
  exec_along_invariant (C := fun _ _ => True) (fun s i s₁ o hi _ hs => hstep s i s₁ o hi hs) hI
    (along_true s is) h

/-- Two conditions that agree on every state of an invariant hold along the same
runs. -/
theorem along_iff_along {I : σ → Prop} {C D : σ → ι → Prop}
    (hstep : ∀ s i s₁ o, I s → step s i = some (s₁, o) → I s₁)
    (hiff : ∀ s i, I s → (C s i ↔ D s i)) {s : σ} (hI : I s) (is : List ι) :
    Along step C s is ↔ Along step D s is := by
  induction is generalizing s with
  | nil => exact Iff.rfl
  | cons i is ih =>
    cases hs : step s i with
    | none => simp only [Along, hs, hiff s i hI]
    | some r =>
      obtain ⟨s₁, o⟩ := r
      rw [along_cons hs, along_cons hs, hiff s i hI, ih (hstep s i s₁ o hI hs)]

/-- What every state of an invariant promises of the next step holds along a run, where a
condition on the steps carries the invariant. -/
theorem along_of_invariant {I : σ → Prop} {C D : σ → ι → Prop}
    (hstep : ∀ s i s₁ o, I s → C s i → step s i = some (s₁, o) → I s₁)
    (hpromise : ∀ s i, I s → C s i → D s i) {s : σ} (hI : I s) {is : List ι}
    (hC : Along step C s is) : Along step D s is := by
  induction is generalizing s with
  | nil => trivial
  | cons i is ih =>
    cases hs : step s i with
    | none =>
      simp only [Along, hs, and_true] at hC ⊢
      exact hpromise s i hI hC
    | some r =>
      obtain ⟨s₁, o⟩ := r
      obtain ⟨hnow, hlater⟩ := (along_cons hs).mp hC
      exact (along_cons hs).mpr ⟨hpromise s i hI hnow, ih (hstep s i s₁ o hI hnow hs) hlater⟩

/-- **What a run keeps.** If every step under `D` keeps `I`, and keeps `P` exactly when `C`
holds of it, then a run under `D` keeps `P` exactly when `C` holds along it. -/
theorem exec_along_iff {I P : σ → Prop} {C D : σ → ι → Prop}
    (hstep : ∀ s i s₁ o, I s → D s i → step s i = some (s₁, o) → I s₁ ∧ (P s₁ ↔ P s ∧ C s i))
    {s t : σ} {is : List ι} {os : List ω} (hI : I s) (hD : Along step D s is)
    (h : exec step s is = some (t, os)) : P t ↔ P s ∧ Along step C s is := by
  induction is generalizing s os with
  | nil =>
    obtain ⟨rfl, -⟩ := step_inj h
    simp [Along]
  | cons i is ih =>
    obtain ⟨s₁, o, o', hs, he, -⟩ := exec_cons_eq_some.mp h
    obtain ⟨hnow, hlater⟩ := (along_cons hs).mp hD
    obtain ⟨hI₁, hP₁⟩ := hstep s i s₁ o hI hnow hs
    rw [ih hI₁ hlater he, hP₁, along_cons hs, and_assoc]

/-! ## Every state of a run -/

/-- `P` holds of every state that the run reaches, from the first one on. -/
def Throughout (step : σ → ι → Option (σ × List ω)) (P : σ → Prop) (s : σ) (is : List ι) : Prop :=
  ∀ before, before <+: is → ∀ t os, exec step s before = some (t, os) → P t

theorem Throughout.head {P : σ → Prop} {s : σ} {is : List ι} (h : Throughout step P s is) : P s :=
  h [] List.nil_prefix s [] rfl

theorem throughout_cons {P : σ → Prop} {s s₁ : σ} {i : ι} {is : List ι} {o : List ω}
    (hs : step s i = some (s₁, o)) :
    Throughout step P s (i :: is) ↔ P s ∧ Throughout step P s₁ is := by
  constructor
  · intro h
    refine ⟨h.head, fun before hbefore t os he => ?_⟩
    exact h (i :: before) ((List.prefix_cons_inj i).mpr hbefore) t (o ++ os)
      (exec_cons_eq_some.mpr ⟨s₁, o, os, hs, he, rfl⟩)
  · rintro ⟨hnow, hlater⟩ before hbefore t os he
    cases before with
    | nil =>
      obtain ⟨rfl, -⟩ := step_inj he
      exact hnow
    | cons j before =>
      obtain ⟨rfl, hrest⟩ := List.cons_prefix_cons.mp hbefore
      obtain ⟨s₂, p, q, hs', he, -⟩ := exec_cons_eq_some.mp he
      obtain ⟨rfl, -⟩ := step_inj (hs.symm.trans hs')
      exact hlater before hrest t q he

/-- **What holds throughout.** If a step from a state with `P` leads to one with `P` exactly when
`C` holds of it, then `P` holds throughout a run exactly when `C` holds along it. -/
theorem throughout_iff_along {I P : σ → Prop} {C : σ → ι → Prop}
    (hstep : ∀ s i s₁ o, I s → P s → step s i = some (s₁, o) → I s₁ ∧ (P s₁ ↔ C s i))
    {s t : σ} {is : List ι} {os : List ω} (hI : I s) (hP : P s)
    (h : exec step s is = some (t, os)) : Throughout step P s is ↔ Along step C s is := by
  induction is generalizing s os with
  | nil =>
    refine iff_of_true ?_ trivial
    intro before hbefore t os he
    rw [List.prefix_nil.mp hbefore] at he
    obtain ⟨rfl, -⟩ := step_inj he
    exact hP
  | cons i is ih =>
    obtain ⟨s₁, o, o', hs, he, -⟩ := exec_cons_eq_some.mp h
    obtain ⟨hI₁, hiff⟩ := hstep s i s₁ o hI hP hs
    rw [throughout_cons hs, along_cons hs]
    constructor
    · rintro ⟨-, hlater⟩
      exact ⟨hiff.mp hlater.head, (ih hI₁ hlater.head he).mp hlater⟩
    · rintro ⟨hC, hlater⟩
      have hP₁ := hiff.mpr hC
      exact ⟨hP, (ih hI₁ hP₁ he).mpr hlater⟩

/-! ## Ghost state

A ghost component remembers something of the past that the state does not hold.
No step reads it, so the runs of the machine are those of the machine with it. -/

section Ghost

variable {γ : Type*} {update : σ → γ → ι → γ}

/-- The machine with a ghost component, updated from the state before the step and
the input. -/
def withGhost (update : σ → γ → ι → γ) (step : σ → ι → Option (σ × List ω)) (t : σ × γ) (i : ι) :
    Option ((σ × γ) × List ω) :=
  (step t.1 i).map (fun r => ((r.1, update t.1 t.2 i), r.2))

theorem withGhost_eq_some {t t' : σ × γ} {i : ι} {o : List ω} :
    withGhost update step t i = some (t', o) ↔
      step t.1 i = some (t'.1, o) ∧ t'.2 = update t.1 t.2 i := by
  obtain ⟨s', g'⟩ := t'
  simp only [withGhost, Option.map_eq_some_iff, Prod.exists, Prod.mk.injEq]
  constructor
  · rintro ⟨s₁, o₁, hs, ⟨rfl, rfl⟩, rfl⟩
    exact ⟨hs, rfl⟩
  · rintro ⟨hs, rfl⟩
    exact ⟨s', o, hs, ⟨rfl, rfl⟩, rfl⟩

/-- Every run lifts to the machine with a ghost component. -/
theorem exec_withGhost {s t : σ} {is : List ι} {os : List ω} (update : σ → γ → ι → γ) (g : γ)
    (h : exec step s is = some (t, os)) :
    ∃ g', exec (withGhost update step) (s, g) is = some ((t, g'), os) := by
  induction is generalizing s g os with
  | nil =>
    obtain ⟨rfl, rfl⟩ := step_inj h
    exact ⟨g, rfl⟩
  | cons i is ih =>
    obtain ⟨s₁, o, o', hs, he, rfl⟩ := exec_cons_eq_some.mp h
    obtain ⟨g', hg⟩ := ih (update s g i) he
    exact ⟨g', exec_cons_eq_some.mpr
      ⟨(s₁, update s g i), o, o', withGhost_eq_some.mpr ⟨hs, rfl⟩, hg, rfl⟩⟩

/-- A run of the machine with a ghost component is a run of the machine. -/
theorem exec_of_withGhost {t t' : σ × γ} {is : List ι} {os : List ω}
    (h : exec (withGhost update step) t is = some (t', os)) :
    exec step t.1 is = some (t'.1, os) := by
  induction is generalizing t os with
  | nil =>
    simp only [exec_nil, Option.some.injEq, Prod.mk.injEq] at h ⊢
    exact ⟨congrArg Prod.fst h.1, h.2⟩
  | cons i is ih =>
    obtain ⟨t₁, o, o', hs, he, rfl⟩ := exec_cons_eq_some.mp h
    exact exec_cons_eq_some.mpr ⟨t₁.1, o, o', (withGhost_eq_some.mp hs).1, ih he, rfl⟩

end Ghost

end Machine

end StreamGuard.Lib
