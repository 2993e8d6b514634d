/-
Works served one after the other.

A `Work` is what one request does to a state: the state it leaves, and its result, or
`none` where it breaks off. `serve` runs a list of named works in its order, and is what a
server with a queue in front of it has to agree with: its state and its answers are those
of the works it has run, however the requests came in.
-/
import Mathlib.Data.List.Basic

set_option autoImplicit false

namespace StreamGuard.Lib

/-- What a request does to the state, and its result. -/
abbrev Work (σ α : Type*) := σ → σ × Option α

variable {κ σ α : Type*}

/-- Runs works in order. -/
def serve (s : σ) : List (κ × Work σ α) → σ × List (κ × Option α)
  | [] => (s, [])
  | (k, work) :: works =>
    ((serve (work s).1 works).1, (k, (work s).2) :: (serve (work s).1 works).2)

theorem serve_append (s : σ) (works more : List (κ × Work σ α)) :
    serve s (works ++ more) =
      ((serve (serve s works).1 more).1,
        (serve s works).2 ++ (serve (serve s works).1 more).2) := by
  induction works generalizing s with
  | nil => rfl
  | cons w works ih =>
    obtain ⟨k, work⟩ := w
    rw [List.cons_append, serve, ih]
    rfl

/-- One more work sees the state that the others left. -/
theorem serve_concat (s : σ) (works : List (κ × Work σ α)) (k : κ) (work : Work σ α) :
    serve s (works ++ [(k, work)]) =
      ((work (serve s works).1).1, (serve s works).2 ++ [(k, (work (serve s works).1).2)]) := by
  rw [serve_append]
  rfl

/-- Every work has one result, under its own name. -/
theorem serve_names (s : σ) (works : List (κ × Work σ α)) :
    (serve s works).2.map Prod.fst = works.map Prod.fst := by
  induction works generalizing s with
  | nil => rfl
  | cons w works ih =>
    obtain ⟨k, work⟩ := w
    rw [serve, List.map_cons, List.map_cons, ih]

theorem serve_length (s : σ) (works : List (κ × Work σ α)) :
    (serve s works).2.length = works.length := by
  simpa using congrArg List.length (serve_names s works)

end StreamGuard.Lib
