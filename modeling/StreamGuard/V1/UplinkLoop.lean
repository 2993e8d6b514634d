/-
`uplink_loop` of `streamguard-service/src/client.rs`, round after round.

A round takes a packet from the TUN and a number from the session, asks the scheduler for a
path, tells the gateway what is new, and sends. The tasks of the client run beside it and may
change anything between two steps of a round, but only this loop draws numbers. A round
that ends before its Data envelope is taken by a transport loses the number it has
drawn.
-/
import StreamGuard.Lib.Numbering
import StreamGuard.V1.Client

set_option autoImplicit false

namespace StreamGuard.V1

open StreamGuard StreamGuard.Lib

/-! ## The model -/

/-- Where in a round the loop is. -/
inductive Point where
  | Reading
  /-- The number is drawn; the paths and the active path were read with it. -/
  | Drawn (d : Draft) (paths : List PathId) (active : Option PathId)
  | Chosen (d : Draft) (path preferred : PathId)
  | Announced (d : Draft) (path : PathId)
  | Ready (d : Draft) (path : PathId)
  | Sent (d : Draft) (path : PathId)
  | Ended

structure UplinkLoop (F : Type) where
  shared : Shared F
  point : Point

inductive UplinkEvent (F : Type) where
  | Read (packet : Bytes)
  /-- The TUN read fails other than with `WouldBlock`. -/
  | TunFails
  | Decide (orders : Orders F)
  | Announce (sent : Except Error Unit)
  | Advertise (orders : Orders F) (sent : Except Error Unit)
  | Send (sent : Except Error Unit)
  /-- The redundant copy, if there is to be one. -/
  | Mirror (sent : Except Error Unit)
  /-- The other tasks of the client run. -/
  | Others (shared : Shared F)

namespace UplinkLoop

variable {F : Type} [F32 F]

/-- The path is so lossy that its packets go out twice. -/
def degraded (s : Shared F) (path : PathId) : Bool :=
  (s.metrics.lookup path).any (fun m => F32.le s.redundancy_loss_threshold m.loss) &&
    !F32.eq s.redundancy_loss_threshold (F32.literal 0)

/-- The path of the copy: the lowest other one that was measured as eligible. -/
def alternative (s : Shared F) (path : PathId) : Option PathId :=
  (((s.session.path_ids.filter (· ≠ path)).map (·.get)).insertionSort (· ≤ ·)).map PathId.mk
    |>.find? (fun p => (s.metrics.lookup p).any (·.is_eligible))

def read (u : UplinkLoop F) (packet : Bytes) : UplinkLoop F :=
  let drawn := u.shared.session.next_sequence
  { shared := { u.shared with session := drawn.1 }
    point := .Drawn ⟨packet, drawn.2, drawn.1.session_id⟩ drawn.1.path_ids drawn.1.active_path }

/-- The scheduler as it decides: with the present health of the paths that were read. -/
def scheduler (u : UplinkLoop F) (orders : Orders F) (paths : List PathId) :
    WeightedBondingScheduler F :=
  u.shared.scheduler.update_from orders paths u.shared.metrics

def choose (u : UplinkLoop F) (orders : Orders F) (d : Draft) (paths : List PathId)
    (active : Option PathId) : UplinkLoop F :=
  let decided := (u.scheduler orders paths).decide
  { shared := { u.shared with scheduler := decided.1 }
    point := match decided.2 with
      | .Send path => match decided.1.preferred_path active with
        | some preferred => .Chosen d ⟨path⟩ preferred
        | none => .Ready d ⟨path⟩
      | .Skip => .Reading
      -- unreachable in the source; `decide_cases` has it that it is
      | .Duplicate _ _ => .Ended }

/-- Goes on to `next` with what was transmitted; a panic ends the task. -/
def proceed (shared : Shared F) (next : Point) :
    Outcome Error (List Envelope) → Option (UplinkLoop F × List Envelope)
  | .ok taken => some (⟨shared, next⟩, taken)
  | .err _ => some (⟨shared, .Ended⟩, [])
  | .panic => some (⟨shared, .Ended⟩, [])

def announce (u : UplinkLoop F) (d : Draft) (path preferred : PathId) (sent : Except Error Unit) :
    Option (UplinkLoop F × List Envelope) :=
  let moved := { u.shared with session := (u.shared.session.set_active_path preferred).1 }
  let announced := moved.announce_path preferred
  proceed announced.1 (.Announced d path)
    (transmit announced.1.session sent d.session_id announced.2)

def advertise (u : UplinkLoop F) (d : Draft) (path : PathId) (orders : Orders F)
    (sent : Except Error Unit) : Option (UplinkLoop F × List Envelope) :=
  let advertised := u.shared.advertise_weights orders
  proceed advertised.1 (.Ready d path)
    (transmit advertised.1.session sent d.session_id advertised.2)

/-- The redundant copy. -/
def copy (s : Shared F) (d : Draft) (path : PathId) (sent : Except Error Unit) : List Envelope :=
  if degraded s path = true then
    match alternative s path with
    | some alt => accepted s.session sent (d.envelope .Duplicate alt)
    | none => []
  else []

/-- One step, with the envelopes that a transport took. -/
def step (u : UplinkLoop F) : UplinkEvent F → Option (UplinkLoop F × List Envelope)
  | .Read packet =>
    match u.point with
    | .Reading => if packet.length ≤ 1300 then some (u.read packet, []) else none
    | _ => none
  | .TunFails =>
    match u.point with
    | .Reading => some ({ u with point := .Ended }, [])
    | _ => none
  | .Decide orders =>
    match u.point with
    | .Drawn d paths active => some (u.choose orders d paths active, [])
    | _ => none
  | .Announce sent =>
    match u.point with
    | .Chosen d path preferred => u.announce d path preferred sent
    | _ => none
  | .Advertise orders sent =>
    match u.point with
    | .Announced d path => u.advertise d path orders sent
    | _ => none
  | .Send sent =>
    match u.point with
    | .Ready d path =>
      some ({ u with point := .Sent d path },
        accepted u.shared.session sent (d.envelope .Data path))
    | _ => none
  | .Mirror sent =>
    match u.point with
    | .Sent d path => some ({ u with point := .Reading }, copy u.shared d path sent)
    | _ => none
  | .Others shared =>
    if shared.session.out_seq = u.shared.session.out_seq then some ({ u with shared }, [])
    else none

/-! ## Its numbers -/

/-- The number that the next packet gets. -/
def counter (u : UplinkLoop F) : U64 := u.shared.session.out_seq.next.get

/-- The number of the present round, until it is taken or lost. -/
def held (u : UplinkLoop F) : Option U64 :=
  match u.point with
  | .Reading => none
  | .Drawn d _ _ => some d.sequence.get
  | .Chosen d _ _ => some d.sequence.get
  | .Announced d _ => some d.sequence.get
  | .Ready d _ => some d.sequence.get
  | .Sent _ _ => none
  | .Ended => none

/-- The weight set to publish has more entries than the wire can count. -/
def overfull (s : Shared F) (orders : Orders F) : Bool :=
  match (s.advertise_weights orders).2 with
  | some (_, .WeightSet weights) => 255 < weights.length
  | _ => false

/-- What a step does with the number of its round. -/
def use (u : UplinkLoop F) : UplinkEvent F → NumberUse
  | .Read _ => .Draw
  | .Decide orders =>
    match u.point with
    | .Drawn _ paths _ =>
      if (u.scheduler orders paths).normalized_weights = [] then .Abandon else .Keep
    | _ => .Keep
  | .Advertise orders _ => if overfull u.shared orders = true then .Abandon else .Keep
  | .Send sent =>
    match u.point with
    | .Ready _ path => if taken u.shared.session path sent = true then .Accept else .Abandon
    | _ => .Keep
  | _ => .Keep

/-! ### Each step against it -/

section Steps

variable {u u' : UplinkLoop F} {i : UplinkEvent F} {o : List Envelope} {d : Draft}
  {path preferred : PathId} {paths : List PathId} {active : Option PathId} {orders : Orders F}
  {sent : Except Error Unit}

theorem copy_not_data (s : Shared F) (d : Draft) (path : PathId) (sent : Except Error Unit) :
    (copy s d path sent).filterMap Envelope.data_number = [] := by
  rw [copy]
  split
  · split
    · exact accepted_not_data (by simp [Draft.envelope])
    · rfl
  · rfl

/-- A decision keeps the number if there is a path with weight, and loses it if not. -/
theorem choose_numbers (u : UplinkLoop F) (orders : Orders F) (d : Draft) (paths : List PathId)
    (active : Option PathId) :
    counter (u.choose orders d paths active) = counter u ∧
      held (u.choose orders d paths active) =
        if (u.scheduler orders paths).normalized_weights = [] then none
        else some d.sequence.get := by
  refine ⟨rfl, ?_⟩
  rcases (u.scheduler orders paths).decide_cases with ⟨hnone, hskip⟩ | ⟨path, hmem, hsend, -⟩
  · simp [choose, held, hskip, hnone]
  · have hsome : (u.scheduler orders paths).normalized_weights ≠ [] := by
      intro hnone
      simp [hnone] at hmem
    simp only [choose, held, hsend, hsome, ↓reduceIte]
    cases (u.scheduler orders paths).decide.1.preferred_path active with
    | none => rfl
    | some preferred => rfl

theorem announce_numbers (h : u.announce d path preferred sent = some (u', o)) :
    counter u' = counter u ∧ held u' = some d.sequence.get ∧
      o.filterMap Envelope.data_number = [] := by
  simp only [announce] at h
  generalize hmoved : ({ u.shared with
    session := (u.shared.session.set_active_path preferred).1 } : Shared F) = moved at h
  rcases transmit_cases (moved.announce_path preferred).1.session sent d.session_id
      (moved.announce_path preferred).2 with ⟨-, taken, hdata, hok⟩ | ⟨⟨m, hm, hlong⟩, -⟩
  · simp only [hok, proceed, Option.some.injEq, Prod.mk.injEq] at h
    obtain ⟨rfl, rfl⟩ := h
    simp [counter, held, hdata, ← hmoved]
  · -- a path announcement is never too long to encode
    exact absurd (Shared.announce_path_fits hm) hlong

/-- Advertising keeps the number unless the weight set is too long to be sent. -/
theorem advertise_numbers (h : u.advertise d path orders sent = some (u', o)) :
    counter u' = counter u ∧
      held u' = (if overfull u.shared orders = true then none else some d.sequence.get) ∧
      o.filterMap Envelope.data_number = [] := by
  have hfull : overfull u.shared orders = true ↔
      ∃ m, (u.shared.advertise_weights orders).2 = some m ∧ ¬ (m.2.map F32.to_bits).Fits := by
    cases hmsg : (u.shared.advertise_weights orders).2 with
    | none => simp [overfull, hmsg]
    | some m =>
      have hm := Shared.advertise_weights_msg hmsg
      obtain ⟨preferred, msg⟩ := m
      subst hm
      simp [overfull, hmsg, ControlMsg.map, ControlMsg.Fits]
  simp only [advertise] at h
  rcases transmit_cases (u.shared.advertise_weights orders).1.session sent d.session_id
      (u.shared.advertise_weights orders).2 with ⟨hfits, taken, hdata, hok⟩ | ⟨hlong, hpanic⟩
  · have hroom : ¬ overfull u.shared orders = true := by
      rw [hfull]
      rintro ⟨m, hm, hlong⟩
      exact hlong (hfits m hm)
    simp only [hok, proceed] at h
    obtain ⟨rfl, rfl⟩ := step_inj h
    simp [counter, held, hdata, hroom]
  · simp only [hpanic, proceed, Option.some.injEq, Prod.mk.injEq] at h
    obtain ⟨rfl, rfl⟩ := h
    simp [counter, held, hfull.mpr hlong]

/-- The loop is a numbering machine. -/
theorem numbers : Numbers (step (F := F)) counter held use Envelope.data_number := by
  -- a step is taken at one point of the round only
  intro u i u' o h
  obtain ⟨shared, point⟩ := u
  cases i with
  | Read packet =>
    cases point <;> simp only [step, reduceCtorEq] at h
    split at h
    · obtain ⟨rfl, rfl⟩ := step_inj h
      exact ⟨rfl, rfl, rfl, rfl⟩
    · contradiction
  | TunFails =>
    cases point <;> simp only [step, reduceCtorEq] at h
    obtain ⟨rfl, rfl⟩ := step_inj h
    exact ⟨rfl, rfl, rfl⟩
  | Decide orders =>
    cases point <;> simp only [step, reduceCtorEq] at h
    next d paths active =>
    obtain ⟨rfl, rfl⟩ := step_inj h
    obtain ⟨hcounter, hheld⟩ := choose_numbers ⟨shared, .Drawn d paths active⟩ orders d paths active
    simp only [use]
    split at hheld
    next hnone =>
      rw [if_pos hnone]
      exact ⟨rfl, hcounter, hheld, rfl⟩
    next hsome =>
      rw [if_neg hsome]
      exact ⟨hcounter, hheld, rfl⟩
  | Announce sent =>
    cases point <;> simp only [step, reduceCtorEq] at h
    exact announce_numbers h
  | Advertise orders sent =>
    cases point <;> simp only [step, reduceCtorEq] at h
    obtain ⟨hcounter, hheld, hdata⟩ := advertise_numbers h
    simp only [use]
    split at hheld
    next hfull =>
      rw [if_pos hfull]
      exact ⟨rfl, hcounter, hheld, hdata⟩
    next hroom =>
      rw [if_neg hroom]
      exact ⟨hcounter, hheld, hdata⟩
  | Send sent =>
    cases point <;> simp only [step, reduceCtorEq] at h
    next d path =>
    obtain ⟨rfl, rfl⟩ := step_inj h
    have hdata := accepted_data shared.session d path sent
    simp only [use]
    split at hdata
    next htaken =>
      rw [if_pos htaken]
      exact ⟨rfl, rfl, _, rfl, hdata⟩
    next hlost =>
      rw [if_neg hlost]
      exact ⟨rfl, rfl, rfl, hdata⟩
  | Mirror sent =>
    cases point <;> simp only [step, reduceCtorEq] at h
    next d path =>
    obtain ⟨rfl, rfl⟩ := step_inj h
    exact ⟨rfl, rfl, copy_not_data shared d path sent⟩
  | Others other =>
    simp only [step] at h
    split at h
    next hsame =>
      obtain ⟨rfl, rfl⟩ := step_inj h
      exact ⟨by simp only [counter, hsame], rfl, rfl⟩
    · contradiction

end Steps

end UplinkLoop

end StreamGuard.V1
