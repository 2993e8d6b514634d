/-
A gate in front of a channel that may lose what it is given.

A value passes the gate if it is news against the value that is held. It is held from then on; the
send comes later, in any order with the sends of other values, and may fail. So the gate knows
what was delivered last only as long as, whenever the last send on its way has ended, the last one
that succeeded carried the value announced last.
-/
import Mathlib.Data.List.Basic

set_option autoImplicit false

namespace StreamGuard.Lib

/-! ## Every state of a run -/

/-- If a step from a state of the invariant keeps `P` exactly when it meets `C`, then all states of
a run have `P` exactly if all its steps meet `C`. -/
theorem forall_take_iff {σ ι : Type*} {f : σ → ι → σ} {I P : σ → Prop} {C : ι → σ → Prop}
    (hstep : ∀ s i, I s → P s → I (f s i) ∧ (P (f s i) ↔ C i s)) {s : σ} (hI : I s) (hP : P s)
    (is : List ι) :
    (∀ n, P ((is.take n).foldl f s)) ↔
      ∀ n i, is[n]? = some i → C i ((is.take n).foldl f s) := by
  have htake : ∀ n i, is[n]? = some i →
      (is.take (n + 1)).foldl f s = f ((is.take n).foldl f s) i := by
    intro n i hi
    rw [List.take_add_one, hi, List.foldl_append]
    rfl
  -- one more step, if there is one
  have hnext : ∀ n, I ((is.take n).foldl f s) → P ((is.take n).foldl f s) →
      I ((is.take (n + 1)).foldl f s) ∧ (P ((is.take (n + 1)).foldl f s) ↔
        ∀ i, is[n]? = some i → C i ((is.take n).foldl f s)) := by
    intro n hIn hPn
    cases hi : is[n]? with
    | none =>
      have hlength : is.length ≤ n := List.getElem?_eq_none_iff.mp hi
      rw [List.take_of_length_le hlength] at hIn hPn
      rw [List.take_of_length_le (by omega)]
      exact ⟨hIn, iff_of_true hPn (by simp)⟩
    | some i =>
      rw [htake n i hi]
      exact ⟨(hstep _ i hIn hPn).1, by simpa using (hstep _ i hIn hPn).2⟩
  constructor
  · intro h n
    have hinv : ∀ n, I ((is.take n).foldl f s) := by
      intro n
      induction n with
      | zero => simpa using hI
      | succ n ih => exact (hnext n ih (h n)).1
    exact (hnext n (hinv n) (h n)).2.mp (h (n + 1))
  · intro h n
    have hboth : I ((is.take n).foldl f s) ∧ P ((is.take n).foldl f s) := by
      induction n with
      | zero => exact ⟨by simpa using hI, by simpa using hP⟩
      | succ n ih =>
        obtain ⟨hIn, hPn⟩ := ih
        exact ⟨(hnext n hIn hPn).1, (hnext n hIn hPn).2.mpr (h n)⟩
    exact hboth.2

/-! ## The gate -/

/-- The value that is held, the one that was delivered last, and those on their way. -/
structure Gate (V : Type*) where
  held : Option V
  told : Option V
  pending : List V

namespace Gate

/-- A value comes to the gate, or a send ends. -/
inductive Event (V : Type*) where
  | offer (v : V)
  | finish (i : ℕ) (sent : Bool)

variable {V : Type*} {news : Option V → V → Bool} {g : Gate V}

def step (news : Option V → V → Bool) (g : Gate V) : Event V → Gate V
  | .offer v =>
    if news g.held v = true then { g with held := some v, pending := g.pending ++ [v] } else g
  | .finish i sent =>
    match g.pending[i]? with
    | none => g
    | some v =>
      { g with pending := g.pending.eraseIdx i, told := if sent = true then some v else g.told }

/-- With nothing on its way, the held value is the one that was delivered last. -/
def Truthful (g : Gate V) : Prop := g.pending = [] → g.held = g.told

theorem pending_of_eraseIdx {i : ℕ} {v : V} (h : g.pending[i]? = some v)
    (hnone : g.pending.eraseIdx i = []) : i = 0 ∧ g.pending = [v] := by
  have hlt : i < g.pending.length := (List.getElem?_eq_some_iff.mp h).1
  have hlength := congrArg List.length hnone
  rw [List.length_eraseIdx_of_lt hlt, List.length_nil] at hlength
  have hone : g.pending.length = 1 := by omega
  obtain ⟨w, hw⟩ := List.length_eq_one_iff.mp hone
  have hi : i = 0 := by omega
  rw [hw, hi] at h
  have hvw : w = v := by simpa using h
  exact ⟨hi, hw.trans (by rw [hvw])⟩

end Gate

/-! ## Calls and their answers

What is announced, and what becomes of it, without a look at the gate. A period begins with a value
that is announced while nothing is on its way.
-/

/-- The value announced last before the period, the one announced last, the sends of the period
that have ended, the latest first, and the values on their way. -/
structure Period (V : Type*) where
  before : Option V
  begun : Option V
  answers : List (V × Bool)
  in_flight : List V

namespace Period

variable {V : Type*} {news : Option V → V → Bool} {p : Period V} {g : Gate V}

def start (begun : Option V) : Period V := ⟨begun, begun, [], []⟩

/-- A send has ended. -/
def answered (p : Period V) (v : V) (sent : Bool) : Period V :=
  { p with answers := (v, sent) :: p.answers }

def after (news : Option V → V → Bool) (p : Period V) : Gate.Event V → Period V
  | .offer v =>
    if news p.begun v = true then
      if p.in_flight = [] then ⟨p.begun, some v, [], [v]⟩
      else { p with begun := some v, in_flight := p.in_flight ++ [v] }
    else p
  | .finish i sent =>
    match p.in_flight[i]? with
    | none => p
    | some v => { p.answered v sent with in_flight := p.in_flight.eraseIdx i }

/-- A send of the value announced last got through, and all that ended behind it failed. Or every
send has failed, and the value had been the one announced last before. -/
def Delivered (p : Period V) : Prop :=
  (∃ v failed earlier, p.begun = some v ∧ p.answers = failed ++ (v, true) :: earlier ∧
    ∀ a ∈ failed, a.2 = false) ∨
  (∀ a ∈ p.answers, a.2 = false) ∧ p.begun = p.before

/-- If the period ends with this answer, its value was delivered. -/
def Settles (p : Period V) : Gate.Event V → Prop
  | .offer _ => True
  | .finish i sent => ∀ v, i = 0 → p.in_flight = [v] → (p.answered v sent).Delivered

/-- What got through last. -/
def told (p : Period V) : Option V := (p.answers.find? Prod.snd).map Prod.fst <|> p.before

theorem told_answered {v : V} {sent : Bool} :
    (p.answered v sent).told = if sent = true then some v else p.told := by
  cases sent <;> rfl

/-- Then the value announced last is the one that got through last. -/
theorem delivered_iff : p.Delivered ↔ p.begun = p.told := by
  cases hfound : p.answers.find? Prod.snd with
  | none =>
    have hfailed : ∀ a ∈ p.answers, a.2 = false := by simpa using List.find?_eq_none.mp hfound
    have htold : p.told = p.before := by rw [told, hfound]; rfl
    rw [Delivered, htold]
    constructor
    · rintro (⟨v, failed, earlier, -, hsplit, -⟩ | ⟨-, hsame⟩)
      · have hsent := hfailed (v, true) (by simp [hsplit])
        contradiction
      · exact hsame
    · exact fun hsame => .inr ⟨hfailed, hsame⟩
  | some a =>
    obtain ⟨hsent, failed, earlier, hsplit, hfailed⟩ := List.find?_eq_some_iff_append.mp hfound
    constructor
    · rintro (⟨v, failed', earlier', hbegun, hsplit', hfailed'⟩ | ⟨hall, -⟩)
      · have hlast : p.answers.find? Prod.snd = some (v, true) :=
          List.find?_eq_some_iff_append.mpr
            ⟨rfl, failed', earlier', hsplit', by simpa using hfailed'⟩
        rw [hbegun, told, hlast]
        rfl
      · rw [hall a (List.mem_of_find?_eq_some hfound)] at hsent
        contradiction
    · intro hbegun
      refine .inl ⟨a.1, failed, earlier, ?_, ?_, by simpa using hfailed⟩
      · rw [hbegun, told, hfound]
        rfl
      · rw [hsplit, ← hsent]

/-- The gate is what the calls and their answers have made of it. -/
structure Explains (p : Period V) (g : Gate V) : Prop where
  held : g.held = p.begun
  told : g.told = p.told
  pending : g.pending = p.in_flight

theorem explains_start (begun : Option V) : (start begun).Explains ⟨begun, begun, []⟩ :=
  ⟨rfl, rfl, rfl⟩

/-- A call or an answer. A new period takes the place of one that has ended well. -/
theorem Explains.after (h : p.Explains g) (htruthful : g.Truthful) (e : Gate.Event V) :
    (p.after news e).Explains (g.step news e) := by
  cases e with
  | offer v =>
    simp only [Period.after, Gate.step, h.held]
    split
    · by_cases hidle : p.in_flight = []
      · rw [if_pos hidle]
        refine ⟨rfl, ?_, ?_⟩
        · exact (htruthful (h.pending.trans hidle)).symm.trans h.held
        · rw [h.pending, hidle]
          rfl
      · rw [if_neg hidle]
        exact ⟨rfl, h.told, by rw [h.pending]⟩
    · exact h
  | finish i sent =>
    simp only [Period.after, Gate.step, h.pending]
    cases hv : p.in_flight[i]? with
    | none => exact h
    | some v =>
      refine ⟨h.held, ?_, rfl⟩
      rw [h.told]
      exact told_answered.symm

/-- **The gate stays truthful** exactly in a step that settles the period, if it ends it. -/
theorem Explains.truthful_iff (h : p.Explains g) (htruthful : g.Truthful) (e : Gate.Event V) :
    (g.step news e).Truthful ↔ p.Settles e := by
  cases e with
  | offer v =>
    refine iff_of_true ?_ trivial
    rw [Gate.step]
    split
    · -- the value is on its way
      intro hnone
      simp at hnone
    · exact htruthful
  | finish i sent =>
    simp only [Settles, Gate.step, Gate.Truthful]
    cases hv : g.pending[i]? with
    | none =>
      refine iff_of_true htruthful ?_
      rintro v rfl hlast
      simp [h.pending, hlast] at hv
    | some v =>
      dsimp only
      rw [h.told, h.held, ← told_answered]
      constructor
      · rintro hsettled w rfl hlast
        obtain rfl : v = w := by simpa [h.pending, hlast] using hv.symm
        exact delivered_iff.mpr (hsettled (by simp [h.pending, hlast]))
      · intro hsettles hnone
        obtain ⟨hi, hlast⟩ := Gate.pending_of_eraseIdx hv hnone
        exact delivered_iff.mp (hsettles v hi (h.pending.symm.trans hlast))

end Period

end StreamGuard.Lib
