/-
Programs that can be interrupted.

A program changes a state in atomic steps and ends with a value or an error. Running
it also gives the states it passes, since a crash stops it in one of them. The
specification `Meets` is a triple with a fourth part: from a state with `P` every
state passed is one that recovery can start from, a value comes with `Q` and
an error with `E`. Its rules follow the ways a program is put together, so the
specification of a program is proved along its text.
-/
import Mathlib.Data.List.Basic

set_option autoImplicit false

namespace StreamGuard.Lib

/-- A run: the states after each of its steps, the state at its end, and what it returned. -/
structure Passage (σ ε α : Type) where
  passed : List σ
  final : σ
  result : Except ε α

def Prog (σ ε α : Type) : Type := σ → Passage σ ε α

namespace Prog

variable {σ ε ε' α β : Type}

def done (a : α) : Prog σ ε α := fun s => ⟨[], s, .ok a⟩

def fail (error : ε) : Prog σ ε α := fun s => ⟨[], s, .error error⟩

/-- Goes on with the value; an error ends the program. -/
protected def bind (p : Prog σ ε α) (next : α → Prog σ ε β) : Prog σ ε β := fun s =>
  match (p s).result with
  | .error error => ⟨(p s).passed, (p s).final, .error error⟩
  | .ok a =>
    let rest := next a (p s).final
    ⟨(p s).passed ++ rest.passed, rest.final, rest.result⟩

instance instMonad : Monad (Prog σ ε) where
  pure := done
  bind := Prog.bind

/-- A step that passes through the states in `between` before it is complete. -/
def steps (between : σ → List σ) (f : σ → σ × Except ε α) : Prog σ ε α :=
  fun s => ⟨between s ++ [(f s).1], (f s).1, (f s).2⟩

/-- One atomic step. -/
def step (f : σ → σ × Except ε α) : Prog σ ε α := steps (fun _ => []) f

/-- Goes on with the value or with the error. -/
def handle (p : Prog σ ε α) (next : α → Prog σ ε' β) (recover : ε → Prog σ ε' β) : Prog σ ε' β :=
  fun s =>
    let rest :=
      match (p s).result with
      | .error error => recover error (p s).final
      | .ok a => next a (p s).final
    ⟨(p s).passed ++ rest.passed, rest.final, rest.result⟩

/-- `let _ = p`. -/
def ignore (p : Prog σ ε α) : Prog σ ε' Unit := handle p (fun _ => done ()) (fun _ => done ())

/-! ## Specifications -/

/-- From a state with `P` the program passes only states with `I`, and ends with `Q` or with `E`. -/
def Meets (I P : σ → Prop) (p : Prog σ ε α) (Q : α → σ → Prop) (E : ε → σ → Prop) : Prop :=
  ∀ s, P s → (∀ t ∈ (p s).passed, I t) ∧
    (∀ a, (p s).result = .ok a → Q a (p s).final) ∧
    ∀ error, (p s).result = .error error → E error (p s).final

variable {I P P' : σ → Prop} {p : Prog σ ε α} {Q : α → σ → Prop} {E : ε → σ → Prop}

theorem meets_done {a : α} (h : ∀ s, P s → Q a s) : Meets I P (done a) Q E := by
  intro s hs
  refine ⟨by simp [done], ?_, by simp [done]⟩
  intro b hb
  obtain rfl := Except.ok.inj hb
  exact h s hs

theorem meets_fail {error : ε} (h : ∀ s, P s → E error s) :
    Meets I P (fail error : Prog σ ε α) Q E := by
  intro s hs
  refine ⟨by simp [fail], by simp [fail], ?_⟩
  intro other hother
  obtain rfl := Except.error.inj hother
  exact h s hs

theorem meets_steps {between : σ → List σ} {f : σ → σ × Except ε α}
    (hbetween : ∀ s, P s → ∀ t ∈ between s, I t) (hpassed : ∀ s, P s → I (f s).1)
    (hok : ∀ s, P s → ∀ a, (f s).2 = .ok a → Q a (f s).1)
    (herror : ∀ s, P s → ∀ error, (f s).2 = .error error → E error (f s).1) :
    Meets I P (steps between f) Q E := by
  intro s hs
  refine ⟨?_, hok s hs, herror s hs⟩
  intro t ht
  rcases List.mem_append.mp ht with ht | ht
  · exact hbetween s hs t ht
  · rw [List.mem_singleton.mp ht]
    exact hpassed s hs

theorem meets_step {f : σ → σ × Except ε α} (hpassed : ∀ s, P s → I (f s).1)
    (hok : ∀ s, P s → ∀ a, (f s).2 = .ok a → Q a (f s).1)
    (herror : ∀ s, P s → ∀ error, (f s).2 = .error error → E error (f s).1) :
    Meets I P (step f) Q E :=
  meets_steps (by simp) hpassed hok herror

theorem meets_bind {R : α → σ → Prop} {next : α → Prog σ ε β} {Q : β → σ → Prop}
    (hp : Meets I P p R E) (hnext : ∀ a, Meets I (R a) (next a) Q E) :
    Meets I P (p >>= next) Q E := by
  intro s hs
  obtain ⟨hpassed, hok, herror⟩ := hp s hs
  change (∀ t ∈ (Prog.bind p next s).passed, I t) ∧
    (∀ b, (Prog.bind p next s).result = .ok b → Q b (Prog.bind p next s).final) ∧
    ∀ error, (Prog.bind p next s).result = .error error → E error (Prog.bind p next s).final
  rw [Prog.bind]
  cases hresult : (p s).result with
  | error error =>
    refine ⟨hpassed, by simp, ?_⟩
    intro other hother
    obtain rfl := Except.error.inj hother
    exact herror error hresult
  | ok a =>
    obtain ⟨hpassed', hrest⟩ := hnext a (p s).final (hok a hresult)
    refine ⟨?_, hrest⟩
    intro t ht
    rcases List.mem_append.mp ht with ht | ht
    · exact hpassed t ht
    · exact hpassed' t ht

theorem meets_handle {R : α → σ → Prop} {F : ε → σ → Prop} {next : α → Prog σ ε' β}
    {recover : ε → Prog σ ε' β} {Q : β → σ → Prop} {E : ε' → σ → Prop}
    (hp : Meets I P p R F) (hnext : ∀ a, Meets I (R a) (next a) Q E)
    (hrecover : ∀ error, Meets I (F error) (recover error) Q E) :
    Meets I P (handle p next recover) Q E := by
  intro s hs
  obtain ⟨hpassed, hok, herror⟩ := hp s hs
  simp only [handle]
  cases hresult : (p s).result with
  | error error =>
    obtain ⟨hpassed', hrest⟩ := hrecover error (p s).final (herror error hresult)
    refine ⟨?_, hrest⟩
    intro t ht
    rcases List.mem_append.mp ht with ht | ht
    · exact hpassed t ht
    · exact hpassed' t ht
  | ok a =>
    obtain ⟨hpassed', hrest⟩ := hnext a (p s).final (hok a hresult)
    refine ⟨?_, hrest⟩
    intro t ht
    rcases List.mem_append.mp ht with ht | ht
    · exact hpassed t ht
    · exact hpassed' t ht

theorem meets_ignore {R : σ → Prop} {E : ε' → σ → Prop} {Q : Unit → σ → Prop}
    (hp : Meets I P p (fun _ => R) (fun _ => R)) (hR : ∀ s, R s → Q () s) :
    Meets I P (ignore p : Prog σ ε' Unit) Q E :=
  meets_handle hp (fun _ => meets_done hR) (fun _ => meets_done hR)

/-- A fact about the state before may be used for the program. -/
theorem meets_of_pre {c : Prop} (hc : ∀ s, P s → c) (h : c → Meets I P p Q E) :
    Meets I P p Q E :=
  fun s hs => h (hc s hs) s hs

theorem Meets.pre (h : Meets I P p Q E) (hpre : ∀ s, P' s → P s) : Meets I P' p Q E :=
  fun s hs => h s (hpre s hs)

theorem Meets.mono {I' : σ → Prop} {Q' : α → σ → Prop} {E' : ε → σ → Prop}
    (h : Meets I P p Q E) (hI : ∀ s, I s → I' s) (hQ : ∀ a s, Q a s → Q' a s)
    (hE : ∀ error s, E error s → E' error s) : Meets I' P p Q' E' := by
  intro s hs
  obtain ⟨hpassed, hok, herror⟩ := h s hs
  exact ⟨fun t ht => hI t (hpassed t ht), fun a ha => hQ a _ (hok a ha),
    fun error he => hE error _ (herror error he)⟩

/-- The two branches of a test. -/
theorem meets_ite {c : Prop} [Decidable c] {q : Prog σ ε α} (hp : c → Meets I P p Q E)
    (hq : ¬ c → Meets I P q Q E) : Meets I P (if c then p else q) Q E := by
  by_cases hc : c
  · rw [if_pos hc]
    exact hp hc
  · rw [if_neg hc]
    exact hq hc

end Prog

end StreamGuard.Lib
