/-
A periodic task that is woken through a queue of capacity one.

Producers offer wake-ups without waiting: one that finds the queue full is dropped. The task
takes a wake-up, reads the clock, does its work for that reading, and waits again. A dropped
wake-up is not lost work: the one in the queue is taken later, and its reading is no earlier
than the offer that was dropped. `CaughtUp` says it for whatever the work establishes.
-/
import Mathlib.Order.Basic

set_option autoImplicit false

namespace StreamGuard.Lib

inductive Tick where
  | run
  | stop
  deriving DecidableEq

/-- Where the task is. `woken` and `leaving`: it has taken a tick and not acted on it. -/
inductive TaskPhase where
  | idle
  | woken
  | running (reading : ℕ)
  | leaving
  | ended
  deriving DecidableEq

/-- The queue and the task. -/
structure Wakeup where
  pending : Option Tick
  phase : TaskPhase
  deriving DecidableEq

inductive Offered where
  | sent
  | full
  | closed
  deriving DecidableEq

namespace Wakeup

def start : Wakeup := ⟨none, .idle⟩

/-- `try_send` of a tick; the queue is closed once the task has ended. -/
def offer (w : Wakeup) (tick : Tick) : Wakeup × Offered :=
  if w.phase = .ended then (w, .closed)
  else
    match w.pending with
    | none => ({ w with pending := some tick }, .sent)
    | some _ => (w, .full)

/-- The task takes what is in the queue. -/
def recv (w : Wakeup) : Option Wakeup :=
  if w.phase = .idle then
    match w.pending with
    | none => none
    | some .run => some ⟨none, .woken⟩
    | some .stop => some ⟨none, .leaving⟩
  else none

/-- The task is doing what a tick asks for. -/
def busy (w : Wakeup) : ℕ :=
  match w.phase with
  | .woken | .running _ => 1
  | _ => 0

/-- A wake-up is in the queue. -/
def queued (w : Wakeup) : ℕ := if w.pending = some .run then 1 else 0

/-! ## Ticks are kept count of -/

variable {w w' : Wakeup}

theorem offer_phase (w : Wakeup) (tick : Tick) : (w.offer tick).1.phase = w.phase := by
  rw [offer]
  split
  · rfl
  · split
    · rfl
    · rfl

theorem offer_busy (w : Wakeup) (tick : Tick) : (w.offer tick).1.busy = w.busy := by
  rw [busy, busy, offer_phase]

theorem offer_stop_queued (w : Wakeup) : (w.offer .stop).1.queued = w.queued := by
  rw [offer]
  split
  · rfl
  · split
    · next hnone => simp [queued, hnone]
    · rfl

/-- A tick that is taken is being acted on. -/
theorem recv_balance (hs : w.recv = some w') : w'.busy + w'.queued = w.busy + w.queued := by
  rw [recv] at hs
  obtain ⟨hidle, hs⟩ := Option.ite_none_right_eq_some.mp hs
  split at hs
  · contradiction
  · next hrun =>
    obtain rfl := Option.some.inj hs
    simp [busy, queued, hidle, hrun]
  · next hstop =>
    obtain rfl := Option.some.inj hs
    simp [busy, queued, hidle, hstop]

/-! ## No tick goes unanswered -/

/-- Where the task waits at an empty queue, its work is done for the time `t`; where it works,
the reading is no earlier than `t`. -/
def CaughtUp (w : Wakeup) (t : ℕ) (Done : ℕ → Prop) : Prop :=
  w.pending = none →
    match w.phase with
    | .idle => Done t
    | .running reading => t ≤ reading
    | _ => True

variable {t now : ℕ} {Done Done' : ℕ → Prop}

theorem CaughtUp.mono (h : w.CaughtUp t Done) (hdone : Done t → Done' t) :
    w.CaughtUp t Done' := by
  intro hnone
  have hphase := h hnone
  split at hphase
  · exact hdone hphase
  · exact hphase
  · trivial

/-- **An offer is as good as taken**, whatever becomes of it. -/
theorem caughtUp_offer (w : Wakeup) (tick : Tick) (t : ℕ) (Done : ℕ → Prop) :
    (w.offer tick).1.CaughtUp t Done := by
  rw [offer]
  split
  · next hended =>
    intro _
    rw [hended]
    trivial
  · split
    · intro hnone
      contradiction
    · next hsome =>
      intro hnone
      rw [hsome] at hnone
      contradiction

theorem caughtUp_recv (hs : w.recv = some w') : w'.CaughtUp t Done := by
  rw [recv] at hs
  split at hs
  · split at hs
    · contradiction
    · obtain rfl := Option.some.inj hs
      exact fun _ => trivial
    · obtain rfl := Option.some.inj hs
      exact fun _ => trivial
  · contradiction

/-- The clock is read after the tick was taken. -/
theorem caughtUp_begin (hclock : t ≤ now) : CaughtUp { w with phase := .running now } t Done :=
  fun _ => hclock

/-- The work is done for its reading, so for all that was offered before. -/
theorem CaughtUp.finish {reading : ℕ} (h : w.CaughtUp t Done) (hphase : w.phase = .running reading)
    (hdone : ∀ t ≤ reading, Done' t) : CaughtUp { w with phase := .idle } t Done' := by
  intro hnone
  have hreading := h hnone
  rw [hphase] at hreading
  exact hdone t hreading

theorem caughtUp_ended : CaughtUp { w with phase := .ended } t Done := fun _ => trivial

/-! ## After a stop -/

/-- The task is told to stop, or has: what it may still do is what it is doing. -/
def Winding (w : Wakeup) : Prop :=
  w.pending = some .stop ∨ w.phase = .leaving ∨ w.phase = .ended

theorem Winding.offer (h : w.Winding) (tick : Tick) : (w.offer tick).1.Winding := by
  rw [Wakeup.offer]
  split
  · exact h
  · split
    · next hnone =>
      rcases h with h | h | h
      · rw [hnone] at h
        contradiction
      · exact .inr (.inl h)
      · exact .inr (.inr h)
    · exact h

theorem Winding.recv (h : w.Winding) (hs : w.recv = some w') :
    w'.Winding ∧ w'.busy = 0 := by
  rw [Wakeup.recv] at hs
  obtain ⟨hidle, hs⟩ := Option.ite_none_right_eq_some.mp hs
  rcases h with h | h | h
  · rw [h] at hs
    obtain rfl := Option.some.inj hs
    exact ⟨.inr (.inl rfl), rfl⟩
  · rw [h] at hidle
    contradiction
  · rw [h] at hidle
    contradiction

/-! ## Steps -/

/-- What a step does to the queue and the task, and how many pieces of work it finishes. Wake-ups
are offered only where something `produces` them. -/
inductive Moves (produces : Prop) (w : Wakeup) : Wakeup → ℕ → Prop
  | stays : Moves produces w w 0
  | offer (tick : Tick) (h : tick = .run → produces) : Moves produces w (w.offer tick).1 0
  | recv {w' : Wakeup} (h : w.recv = some w') : Moves produces w w' 0
  | begins {now : ℕ} (h : w.phase = .woken) : Moves produces w { w with phase := .running now } 0
  | finish {reading : ℕ} (h : w.phase = .running reading) :
      Moves produces w { w with phase := .idle } 1
  | ends (h : w.phase = .idle ∨ w.phase = .leaving) :
      Moves produces w { w with phase := .ended } 0

variable {produces : Prop} {done : ℕ}

theorem Moves.ended (hs : w.Moves produces w' done) (h : w.phase = .ended) :
    w'.phase = .ended := by
  cases hs with
  | stays => exact h
  | offer tick => rw [offer_phase, h]
  | recv hrecv =>
    rw [Wakeup.recv, h] at hrecv
    contradiction
  | begins hphase | finish hphase =>
    rw [h] at hphase
    contradiction
  | ends => rfl

/-- Once it is told to stop, the task does no more than it is doing. -/
theorem Moves.winding (hs : w.Moves produces w' done) (h : w.Winding) :
    w'.Winding ∧ done + w'.busy ≤ w.busy := by
  have hpending : w.phase ≠ .leaving → w.phase ≠ .ended → w.pending = some .stop :=
    fun hleaving hended => (h.resolve_right (not_or.mpr ⟨hleaving, hended⟩))
  cases hs with
  | stays => exact ⟨h, Nat.le_of_eq (Nat.zero_add _)⟩
  | offer tick =>
    rw [offer_busy]
    exact ⟨h.offer tick, Nat.le_of_eq (Nat.zero_add _)⟩
  | recv hrecv =>
    obtain ⟨hwinding, hbusy⟩ := h.recv hrecv
    exact ⟨hwinding, by omega⟩
  | begins hphase | finish hphase =>
    refine ⟨.inl (hpending (by simp [hphase]) (by simp [hphase])), ?_⟩
    simp [busy, hphase]
  | ends => exact ⟨.inr (.inr rfl), Nat.zero_le _⟩

/-- Without a new wake-up there is only what is being done and what is in the queue. -/
theorem Moves.balance (hs : w.Moves produces w' done) (h : ¬produces) :
    done + (w'.busy + w'.queued) ≤ w.busy + w.queued := by
  cases hs with
  | stays => exact Nat.le_of_eq (Nat.zero_add _)
  | offer tick htick =>
    cases tick with
    | run => exact absurd (htick rfl) h
    | stop =>
      rw [offer_busy, offer_stop_queued]
      exact Nat.le_of_eq (Nat.zero_add _)
  | recv hrecv =>
    rw [recv_balance hrecv]
    exact Nat.le_of_eq (Nat.zero_add _)
  | begins hphase => simp [busy, queued, hphase]
  | finish hphase => simp [busy, queued, hphase]
  | ends => simp [busy, queued]

end Wakeup

end StreamGuard.Lib
