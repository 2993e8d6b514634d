/-
The V1 reorder buffer of `sg-multipath/src/lib.rs`.

One buffer serves a whole session: it delivers packet 0, then 1, and so on, and
holds what arrives ahead of its turn. An arrival first passes a table with one slot
for each residue modulo the capacity (`ReorderWindow`), then the window. The table
is lossy and is written before the window is checked, so it may wrongly pass or
reject an arrival; what is delivered is a gap-free prefix all the same.

The invariant is `InOrder`. It is relative to a number that never arrives: the head
does not get past such a number, so it does not wrap, and nothing above that number
is ever delivered.
-/
import StreamGuard.Core.V1
import StreamGuard.Lib.AssocMap
import StreamGuard.Lib.Run

set_option autoImplicit false

namespace StreamGuard.V1

open StreamGuard StreamGuard.Lib

/-! ## The duplicate table -/

structure ReorderWindow where
  capacity : ℕ
  /-- The last number accepted for each residue modulo `capacity`. -/
  seen : List (Option U64)
  last_written : U64
  positive : 0 < capacity
  sized : seen.length = capacity

namespace ReorderWindow

def new (capacity : ℕ) : ReorderWindow where
  capacity := max capacity 1
  seen := List.replicate (max capacity 1) none
  last_written := 0
  positive := by omega
  sized := List.length_replicate

def accept (w : ReorderWindow) (seq : Sequence) : ReorderWindow × Bool :=
  let idx := seq.get.val % w.capacity
  if w.seen[idx]? = some (some seq.get) then (w, false)
  else
    ({ w with
        seen := w.seen.set idx (some seq.get)
        last_written := if w.last_written < seq.get then seq.get else w.last_written
        sized := by rw [List.length_set, w.sized] }, true)

end ReorderWindow

/-! ## The buffer -/

/-- Outcome of feeding one arrival into a buffer. -/
structure ReorderOutcome where
  delivered : List (Sequence × Bytes)
  dropped : Bool
  buffered : Bool
  deriving DecidableEq

namespace ReorderOutcome

def ofDropped : ReorderOutcome := ⟨[], true, false⟩
def ofBuffered : ReorderOutcome := ⟨[], false, true⟩
def ofDelivered (delivered : List (Sequence × Bytes)) : ReorderOutcome := ⟨delivered, false, false⟩

end ReorderOutcome

structure ReorderBuffer where
  dedup : ReorderWindow
  capacity : ℕ
  next_expected : U64
  buffered : Map U64 Bytes

/-- What the loop behind a delivery leaves. -/
structure Drained where
  next_expected : U64
  buffered : Map U64 Bytes
  delivered : List (Sequence × Bytes)

/-- Moves the head on and takes out what is held there, until nothing is. Every round
but the last takes out an entry, so as many rounds as there are entries are enough. -/
def drain : ℕ → U64 → Map U64 Bytes → Drained
  | 0, next_expected, buffered => ⟨next_expected + 1, buffered, []⟩
  | rounds + 1, next_expected, buffered =>
    match buffered.lookup (next_expected + 1) with
    | none => ⟨next_expected + 1, buffered, []⟩
    | some payload =>
      let rest := drain rounds (next_expected + 1) (buffered.erase (next_expected + 1))
      { rest with delivered := (⟨next_expected + 1⟩, payload) :: rest.delivered }

namespace ReorderBuffer

def new (capacity : ℕ) : ReorderBuffer := ⟨ReorderWindow.new capacity, max capacity 1, 0, ∅⟩

def pending (b : ReorderBuffer) : ℕ := b.buffered.len

def deliver (b : ReorderBuffer) (seq : Sequence) (payload : Bytes) : ReorderBuffer × ReorderOutcome :=
  let accepted := b.dedup.accept seq
  let b := { b with dedup := accepted.1 }
  if accepted.2 = false then (b, .ofDropped)
  else
    let s := seq.get
    let far_ahead := b.capacity < s.val - b.next_expected.val
    if s < b.next_expected then (b, .ofDropped)
    else if far_ahead then (b, .ofDropped)
    else if s ≠ b.next_expected then
      if b.capacity ≤ b.buffered.len then (b, .ofDropped)
      else ({ b with buffered := b.buffered.insert s payload }, .ofBuffered)
    else
      let r := drain b.buffered.len b.next_expected b.buffered
      ({ b with next_expected := r.next_expected, buffered := r.buffered },
        .ofDelivered ((seq, payload) :: r.delivered))

end ReorderBuffer

/-! ## Runs -/

abbrev Arrival := Sequence × Bytes

/-- One arrival and what became of it. -/
structure Delivery where
  arrival : Arrival
  outcome : ReorderOutcome
  deriving DecidableEq

/-- The payloads handed upstream, in order. -/
def delivered (records : List Delivery) : List Arrival :=
  records.flatMap (fun r => r.outcome.delivered)

@[simp] theorem delivered_append (records records' : List Delivery) :
    delivered (records ++ records') = delivered records ++ delivered records' :=
  List.flatMap_append

@[simp] theorem delivered_singleton (r : Delivery) : delivered [r] = r.outcome.delivered := by
  simp [delivered]

def ReorderBuffer.step (b : ReorderBuffer) (a : Arrival) : Option (ReorderBuffer × List Delivery) :=
  let o := b.deliver a.1 a.2
  some (o.1, [⟨a, o.2⟩])

/-! ## Draining -/

theorem val_succ_of_lt {x y : U64} (h : x < y) : (x + 1).val = x.val + 1 := by
  rw [Fin.lt_def] at h
  have hy := y.isLt
  rw [Fin.val_add]
  exact Nat.mod_eq_of_lt (by simp; omega)

section Drain

variable {lost next_expected : U64} {buffered : Map U64 Bytes}

/-- What draining a head does, as long as some number from the head on is not held:
the head stops at the first number that is not held, the entries it passes are
delivered in order, and the others stay. -/
structure Drains (lost next_expected : U64) (buffered : Map U64 Bytes) (r : Drained) : Prop where
  passed : next_expected < r.next_expected
  stops : r.next_expected ≤ lost
  numbers : r.delivered.map (fun d => d.1.get.val) =
    List.range' (next_expected.val + 1) (r.next_expected.val - (next_expected.val + 1))
  payloads : ∀ d ∈ r.delivered, buffered.lookup d.1.get = some d.2
  rest : ∀ n, r.buffered.lookup n =
    if next_expected < n ∧ n < r.next_expected then none else buffered.lookup n
  missing : r.next_expected ∉ r.buffered

theorem drains_missing (hlost : next_expected < lost) (h : next_expected + 1 ∉ buffered) :
    Drains lost next_expected buffered ⟨next_expected + 1, buffered, []⟩ := by
  have hsucc := val_succ_of_lt hlost
  rw [Fin.lt_def] at hlost
  refine ⟨?_, ?_, ?_, by simp, ?_, h⟩
  · simp only [Fin.lt_def]
    omega
  · simp only [Fin.le_def]
    omega
  · simp [hsucc]
  · intro n
    rw [if_neg]
    simp only [Fin.lt_def]
    omega

/-- One more round in front: the next entry is held, and goes out first. -/
theorem Drains.cons {payload : Bytes} {r : Drained} (hlost : next_expected < lost)
    (hl : buffered.lookup (next_expected + 1) = some payload)
    (h : Drains lost (next_expected + 1) (buffered.erase (next_expected + 1)) r) :
    Drains lost next_expected buffered
      { r with delivered := (⟨next_expected + 1⟩, payload) :: r.delivered } := by
  have hsucc := val_succ_of_lt hlost
  have hpassed := h.passed
  rw [Fin.lt_def] at hpassed
  refine ⟨?_, h.stops, ?_, ?_, ?_, h.missing⟩
  · show next_expected < r.next_expected
    rw [Fin.lt_def]
    omega
  · simp only [List.map_cons, h.numbers, hsucc]
    rw [← List.range'_succ]
    congr 1
    omega
  · intro d hd
    rcases List.mem_cons.mp hd with rfl | hd
    · exact hl
    · exact AList.lookup_of_erase (h.payloads d hd)
  · intro n
    rw [h.rest n, AList.lookup_erase_of]
    by_cases hn : n = next_expected + 1
    · subst hn
      rw [if_pos rfl, ite_self, if_pos]
      simp only [Fin.lt_def]
      omega
    · rw [if_neg hn]
      have hval : n.val ≠ next_expected.val + 1 := fun hv => hn (Fin.ext (hv.trans hsucc.symm))
      simp only [Fin.lt_def, hsucc]
      congr 1
      rw [eq_iff_iff]
      omega

/-- The loop, by induction on the entries: one round takes out one entry. -/
theorem drain_spec (rounds : ℕ) (hrounds : buffered.len ≤ rounds) (hlost : next_expected < lost)
    (habsent : lost ∉ buffered) :
    Drains lost next_expected buffered (drain rounds next_expected buffered) := by
  induction rounds generalizing next_expected buffered with
  | zero =>
    have hempty : buffered.entries = [] := List.length_eq_zero_iff.mp (Nat.le_zero.mp hrounds)
    refine drains_missing hlost ?_
    rw [AList.mem_keys, AList.keys, hempty]
    simp
  | succ rounds ih =>
    rw [drain]
    cases hl : buffered.lookup (next_expected + 1) with
    | none => exact drains_missing hlost (AList.lookup_eq_none.mp hl)
    | some payload =>
      have hmem := AList.mem_of_lookup hl
      have hsucc := val_succ_of_lt hlost
      have hlen := AList.len_erase hmem
      -- the entry that is taken out is not the missing one
      have hnext : next_expected + 1 < lost := by
        refine lt_of_le_of_ne ?_ ?_
        · rw [Fin.lt_def] at hlost
          rw [Fin.le_def]
          omega
        · rintro rfl
          exact habsent hmem
      have hshorter : (buffered.erase (next_expected + 1)).len ≤ rounds := by omega
      exact .cons hlost hl (ih hshorter hnext fun hm => habsent (AList.mem_erase.mp hm).2)

theorem Drains.len_le {r : Drained} (h : Drains lost next_expected buffered r) :
    r.buffered.len ≤ buffered.len := by
  refine AList.len_le ?_
  intro n payload hl
  rw [h.rest] at hl
  split at hl
  · contradiction
  · exact hl

end Drain

/-! ## One arrival -/

/-- What one arrival can do: nothing, be held, or be delivered with what was held
behind it. The table of seen numbers may change in every case. -/
inductive Delivers (b : ReorderBuffer) (a : Arrival) : ReorderBuffer × ReorderOutcome → Prop where
  | drops (dedup : ReorderWindow) : Delivers b a ({ b with dedup := dedup }, .ofDropped)
  | holds (dedup : ReorderWindow) (hahead : b.next_expected < a.1.get)
      (hwindow : a.1.get.val - b.next_expected.val ≤ b.capacity)
      (hroom : b.buffered.len < b.capacity) :
      Delivers b a ({ b with dedup := dedup, buffered := b.buffered.insert a.1.get a.2 }, .ofBuffered)
  | advances (dedup : ReorderWindow) (hhead : a.1.get = b.next_expected) :
      Delivers b a
        ({ b with
            dedup := dedup
            next_expected := (drain b.buffered.len b.next_expected b.buffered).next_expected
            buffered := (drain b.buffered.len b.next_expected b.buffered).buffered },
          .ofDelivered (a :: (drain b.buffered.len b.next_expected b.buffered).delivered))

theorem ReorderBuffer.deliver_delivers (b : ReorderBuffer) (a : Arrival) :
    Delivers b a (b.deliver a.1 a.2) := by
  unfold ReorderBuffer.deliver
  dsimp only
  split
  · exact .drops _
  split
  · exact .drops _
  next hstale =>
  split
  · exact .drops _
  next hfar =>
  split
  · next hahead =>
    split
    · exact .drops _
    · next hroom =>
      refine .holds _ ?_ (Nat.le_of_not_lt hfar) (Nat.lt_of_not_le hroom)
      exact lt_of_le_of_ne (le_of_not_gt hstale) hahead.symm
  · next hhead => exact .advances _ (not_not.mp hhead)

theorem Delivers.capacity {b : ReorderBuffer} {a : Arrival} {o : ReorderBuffer × ReorderOutcome}
    (h : Delivers b a o) : o.1.capacity = b.capacity := by
  cases h <;> rfl

/-! ## In order, without gaps -/

/-- What has been delivered is 0, 1, … up to the head, and what is held lies in the
window ahead of it; all of it has arrived. The head is not past `lost`. -/
structure InOrder (lost : U64) (b : ReorderBuffer) (records : List Delivery) : Prop where
  head : b.next_expected ≤ lost
  numbers : (delivered records).map (fun d => d.1.get.val) = List.range b.next_expected.val
  arrived : ∀ d ∈ delivered records, d ∈ records.map (·.arrival)
  held : ∀ n payload, b.buffered.lookup n = some payload → (⟨n⟩, payload) ∈ records.map (·.arrival)
  window : ∀ n ∈ b.buffered, b.next_expected < n ∧ n.val - b.next_expected.val ≤ b.capacity
  room : b.buffered.len ≤ b.capacity
  absent : lost ∉ b.buffered

section Order

variable {lost : U64} {b : ReorderBuffer} {records : List Delivery}

theorem new_inOrder (lost : U64) (capacity : ℕ) : InOrder lost (ReorderBuffer.new capacity) [] := by
  refine ⟨Fin.zero_le _, ?_, ?_, ?_, ?_, ?_, ?_⟩
  · simp [delivered, ReorderBuffer.new]
  · simp [delivered]
  · simp [ReorderBuffer.new]
  · simp [ReorderBuffer.new]
  · simp [ReorderBuffer.new]
  · simp [ReorderBuffer.new]

theorem arrivals_append (a : Arrival) (o : ReorderOutcome) :
    (records ++ [(⟨a, o⟩ : Delivery)]).map (·.arrival) = records.map (·.arrival) ++ [a] := by
  simp

theorem InOrder.drops (h : InOrder lost b records) (dedup : ReorderWindow) (a : Arrival) :
    InOrder lost { b with dedup := dedup } (records ++ [⟨a, .ofDropped⟩]) := by
  refine ⟨h.head, ?_, ?_, ?_, h.window, h.room, h.absent⟩
  · simpa [ReorderOutcome.ofDropped] using h.numbers
  · intro d hd
    rw [delivered_append] at hd
    rw [arrivals_append]
    exact List.mem_append_left _ (h.arrived d (by simpa [ReorderOutcome.ofDropped] using hd))
  · intro n payload hl
    rw [arrivals_append]
    exact List.mem_append_left _ (h.held n payload hl)

theorem InOrder.holds (h : InOrder lost b records) (dedup : ReorderWindow) {a : Arrival}
    (hlost : a.1.get ≠ lost) (hahead : b.next_expected < a.1.get)
    (hwindow : a.1.get.val - b.next_expected.val ≤ b.capacity)
    (hroom : b.buffered.len < b.capacity) :
    InOrder lost { b with dedup := dedup, buffered := b.buffered.insert a.1.get a.2 }
      (records ++ [⟨a, .ofBuffered⟩]) := by
  refine ⟨h.head, ?_, ?_, ?_, ?_, ?_, ?_⟩
  · simpa [ReorderOutcome.ofBuffered] using h.numbers
  · intro d hd
    rw [delivered_append] at hd
    rw [arrivals_append]
    exact List.mem_append_left _ (h.arrived d (by simpa [ReorderOutcome.ofBuffered] using hd))
  · intro n payload hl
    rw [arrivals_append]
    dsimp only at hl
    rw [AList.lookup_insert_of] at hl
    split at hl
    · next hn =>
      obtain rfl := Option.some.inj hl
      subst hn
      exact List.mem_append_right _ (List.mem_singleton_self _)
    · exact List.mem_append_left _ (h.held n payload hl)
  · intro n hn
    rcases (AList.mem_insert _).mp hn with rfl | hn
    · exact ⟨hahead, hwindow⟩
    · exact h.window n hn
  · have hlen := AList.len_insert_le b.buffered a.1.get a.2
    dsimp only
    omega
  · intro hm
    rcases (AList.mem_insert _).mp hm with he | hm
    · exact hlost he.symm
    · exact h.absent hm

/-- The number at the head arrives, and what is held right behind it goes out with it. -/
theorem InOrder.advances (h : InOrder lost b records) (dedup : ReorderWindow) {a : Arrival}
    {r : Drained} (hhead : a.1.get = b.next_expected)
    (hdrain : Drains lost b.next_expected b.buffered r) :
    InOrder lost
      { b with dedup := dedup, next_expected := r.next_expected, buffered := r.buffered }
      (records ++ [⟨a, .ofDelivered (a :: r.delivered)⟩]) := by
  have hpassed := hdrain.passed
  rw [Fin.lt_def] at hpassed
  -- what is left was held before
  have hleft : ∀ n payload, r.buffered.lookup n = some payload →
      b.buffered.lookup n = some payload ∧ ¬ (b.next_expected < n ∧ n < r.next_expected) := by
    intro n payload hl
    rw [hdrain.rest] at hl
    split at hl
    · contradiction
    next hout => exact ⟨hl, hout⟩
  refine ⟨hdrain.stops, ?_, ?_, ?_, ?_, hdrain.len_le.trans h.room, ?_⟩
  · -- the head itself, then what the loop took out behind it
    rw [delivered_append, List.map_append, h.numbers, delivered_singleton,
      ReorderOutcome.ofDelivered, List.map_cons, hdrain.numbers, hhead, ← List.range'_succ,
      List.range_eq_range', List.range_eq_range']
    have happend := @List.range'_append 0 b.next_expected.val
      (r.next_expected.val - (b.next_expected.val + 1) + 1) 1
    simp only [one_mul, zero_add] at happend
    rw [happend]
    congr 1
    dsimp only
    omega
  · intro d hd
    rw [arrivals_append]
    rw [delivered_append, List.mem_append, delivered_singleton] at hd
    rcases hd with hd | hd
    · exact List.mem_append_left _ (h.arrived d hd)
    rcases List.mem_cons.mp hd with rfl | hd
    · exact List.mem_append_right _ (List.mem_singleton_self _)
    · exact List.mem_append_left _ (h.held _ _ (hdrain.payloads d hd))
  · intro n payload hl
    rw [arrivals_append]
    exact List.mem_append_left _ (h.held n payload (hleft n payload hl).1)
  · -- an entry that is left lay ahead of the old head, and the new head is not held
    intro n hn
    have hne : n ≠ r.next_expected := fun he => hdrain.missing (he ▸ hn)
    obtain ⟨payload, hl⟩ := AList.mem_iff_lookup.mp hn
    obtain ⟨hold, hout⟩ := hleft n payload hl
    obtain ⟨hahead, hwindow⟩ := h.window n (AList.mem_of_lookup hold)
    have hge : r.next_expected ≤ n := le_of_not_gt (fun hlt => hout ⟨hahead, hlt⟩)
    refine ⟨lt_of_le_of_ne hge hne.symm, ?_⟩
    dsimp only
    omega
  · intro hm
    obtain ⟨payload, hl⟩ := AList.mem_iff_lookup.mp hm
    exact h.absent (AList.mem_of_lookup (hleft lost payload hl).1)

/-- **Step lemma.** An arrival other than `lost` keeps the order. -/
theorem InOrder.deliver (h : InOrder lost b records) {a : Arrival} (hlost : a.1.get ≠ lost) :
    InOrder lost (b.deliver a.1 a.2).1 (records ++ [⟨a, (b.deliver a.1 a.2).2⟩]) := by
  generalize ho : b.deliver a.1 a.2 = o
  have hcase := b.deliver_delivers a
  rw [ho] at hcase
  cases hcase with
  | drops dedup => exact h.drops dedup a
  | holds dedup hahead hwindow hroom => exact h.holds dedup hlost hahead hwindow hroom
  | advances dedup hhead =>
    have hbelow : b.next_expected < lost := lt_of_le_of_ne h.head (hhead ▸ hlost)
    exact h.advances dedup hhead (drain_spec _ le_rfl hbelow h.absent)

/-- What was fed to a run is what its records say. -/
theorem arrivals_of_run {capacity : ℕ} {arrivals : List Arrival}
    (hrun : exec ReorderBuffer.step (ReorderBuffer.new capacity) arrivals = some (b, records)) :
    records.map (·.arrival) = arrivals := by
  generalize ReorderBuffer.new capacity = b₀ at hrun
  induction arrivals generalizing b₀ records with
  | nil =>
    simp only [exec_nil, Option.some.injEq, Prod.mk.injEq] at hrun
    rw [← hrun.2]
    rfl
  | cons a arrivals ih =>
    obtain ⟨b₁, o, o', hs, hlater, rfl⟩ := exec_cons_eq_some.mp hrun
    simp only [ReorderBuffer.step, Option.some.injEq, Prod.mk.injEq] at hs
    rw [List.map_append, ih b₁ hlater, ← hs.2]
    rfl

/-- **Run lemma.** A buffer that is never fed `lost` delivers in order. -/
theorem inOrder_of_run {capacity : ℕ} {arrivals : List Arrival}
    (hlost : ∀ a ∈ arrivals, a.1.get ≠ lost)
    (hrun : exec ReorderBuffer.step (ReorderBuffer.new capacity) arrivals = some (b, records)) :
    InOrder lost b records := by
  have hall := exec_along_induct (C := fun _ a => a.1.get ≠ lost) (P := InOrder lost) (a := [])
    (fun b a b₁ o records h ha hs => by
      obtain ⟨rfl, rfl⟩ := step_inj hs
      exact h.deliver ha)
    (new_inOrder lost capacity) (along_of_forall _ hlost) hrun
  rwa [List.nil_append] at hall

/-- The capacity of a buffer is that of its start, and at least one. -/
theorem capacity_of_run {capacity : ℕ} {arrivals : List Arrival}
    (hrun : exec ReorderBuffer.step (ReorderBuffer.new capacity) arrivals = some (b, records)) :
    b.capacity = max capacity 1 := by
  refine exec_invariant (I := fun b => b.capacity = max capacity 1) ?_ rfl hrun
  intro b a b₁ o hcapacity hs
  simp only [ReorderBuffer.step, Option.some.injEq, Prod.mk.injEq] at hs
  rw [← hs.1, ← hcapacity]
  exact (b.deliver_delivers a).capacity

/-- **Delivery is a gap-free prefix.** For every capacity and every sequence of
arrivals with numbers of the wire width: what has been delivered is 0, 1, … up to the
head, each once and with a payload it arrived with; what is held lies ahead of the
head and at most the capacity ahead; and no more is held than the capacity. -/
theorem delivers_gap_free {capacity : ℕ} {arrivals : List Arrival}
    (hwire : ∀ a ∈ arrivals, a.1.get.val < 2 ^ 48)
    (hrun : exec ReorderBuffer.step (ReorderBuffer.new capacity) arrivals = some (b, records)) :
    (delivered records).map (fun d => d.1.get.val) = List.range b.next_expected.val ∧
    (∀ d ∈ delivered records, d ∈ arrivals) ∧
    (∀ n ∈ b.buffered, b.next_expected < n ∧ n.val - b.next_expected.val ≤ b.capacity) ∧
    b.pending ≤ b.capacity ∧ b.capacity = max capacity 1 := by
  have hlost : ∀ a ∈ arrivals, a.1.get ≠ U64.max := by
    rintro a ha he
    have hlt := hwire a ha
    rw [he, U64.val_max, u64Max] at hlt
    omega
  have h := inOrder_of_run hlost hrun
  refine ⟨h.numbers, ?_, h.window, h.room, capacity_of_run hrun⟩
  rw [← arrivals_of_run hrun]
  exact h.arrived

/-- Three packets of which the first is late, and the second is sent twice. -/
def late_arrivals : List Arrival := [(⟨1⟩, [1]), (⟨1⟩, [7]), (⟨2⟩, [2]), (⟨0⟩, [0])]

theorem delivers_gap_free_late : ∃ b records,
    exec ReorderBuffer.step (ReorderBuffer.new 2) late_arrivals = some (b, records) ∧
    (delivered records).map (fun d => d.1.get.val) = List.range b.next_expected.val ∧
    b.next_expected = 3 := by
  have hwire : ∀ a ∈ late_arrivals, a.1.get.val < 2 ^ 48 := by decide
  refine ⟨_, _, rfl, (delivers_gap_free hwire rfl).1, ?_⟩
  decide

/-! ## A number that never arrives -/

/-- Nothing from a number on that never arrives is delivered: the head does not get
past that number, and what is delivered lies before the head. -/
theorem InOrder.not_delivered (h : InOrder lost b records) {n : U64} (hn : lost ≤ n)
    (payload : Bytes) : (⟨n⟩, payload) ∉ delivered records := by
  intro hd
  have hmem : n.val ∈ List.range b.next_expected.val := by
    rw [← h.numbers]
    exact List.mem_map_of_mem (f := fun d : Arrival => d.1.get.val) hd
  have hhead := h.head
  rw [List.mem_range] at hmem
  rw [Fin.le_def] at hn hhead
  omega

end Order

/-- A stream in which `lost` never arrives, and every other number does, at most
`late` positions late. -/
structure LosesOnly (lost : U64) (late : ℕ) (stream : ℕ → Arrival) : Prop where
  never : ∀ i, (stream i).1.get ≠ lost
  others : ∀ n, n ≠ lost → ∃ i ≤ n.val + late, (stream i).1.get = n

/-- The number is delivered within finitely many arrivals of the stream. -/
def EventuallyDelivered (capacity : ℕ) (stream : ℕ → Arrival) (n : U64) : Prop :=
  ∃ k b records payload,
    exec ReorderBuffer.step (ReorderBuffer.new capacity) ((List.range k).map stream) =
      some (b, records) ∧ (⟨n⟩, payload) ∈ delivered records

/-- Nothing from a number on that never arrives is delivered. -/
theorem not_eventually_delivered {capacity : ℕ} {stream : ℕ → Arrival} {lost n : U64}
    (hnever : ∀ i, (stream i).1.get ≠ lost) (hn : lost ≤ n) :
    ¬ EventuallyDelivered capacity stream n := by
  rintro ⟨k, b, records, payload, hrun, hd⟩
  have hlost : ∀ a ∈ (List.range k).map stream, a.1.get ≠ lost := by
    intro a ha
    obtain ⟨i, -, rfl⟩ := List.mem_map.mp ha
    exact hnever i
  exact (inOrder_of_run hlost hrun).not_delivered hn payload hd

/-- **One lost packet silences the stream for good.** Whatever the capacity and
however the other packets arrive, nothing above a number that never arrives is ever
delivered. -/
theorem lost_packet_silences (capacity : ℕ) {stream : ℕ → Arrival} {lost : U64}
    (hnever : ∀ i, (stream i).1.get ≠ lost) (hlost : lost < U64.max) :
    (∀ n, lost < n → ¬ EventuallyDelivered capacity stream n) ∧
    ¬ ∀ n, lost < n → EventuallyDelivered capacity stream n := by
  have hsilent : ∀ n, lost < n → ¬ EventuallyDelivered capacity stream n :=
    fun n hn => not_eventually_delivered hnever (le_of_lt hn)
  exact ⟨hsilent, fun hall => hsilent U64.max hlost (hall U64.max hlost)⟩

/-- Every packet but the first, in order of sending. -/
def first_lost (i : ℕ) : Arrival := (⟨⟨min (i + 1) u64Max, by unfold u64Max; omega⟩⟩, [])

theorem first_lost_loses : LosesOnly 0 0 first_lost := by
  refine ⟨?_, ?_⟩
  · intro i he
    have hval := congrArg Fin.val he
    simp only [first_lost, u64Max, Fin.val_zero] at hval
    omega
  · intro n hn
    have hpos : n.val ≠ 0 := fun hv => hn (Fin.ext hv)
    have hlt := n.isLt
    refine ⟨n.val - 1, by omega, Fin.ext ?_⟩
    simp only [first_lost, u64Max]
    omega

/-- The stream of all packets but the first never delivers the second. -/
theorem lost_packet_silences_first : ¬ EventuallyDelivered 128 first_lost ⟨1, by decide⟩ :=
  (lost_packet_silences 128 first_lost_loses.never (by decide)).1 _ (by decide)

/-- Not every stream with one lost packet recovers. -/
theorem stream_does_not_recover : ¬ ∀ capacity lost late stream, LosesOnly lost late stream →
    ∀ n, lost < n → EventuallyDelivered capacity stream n := by
  intro h
  have hfirst := h 128 0 0 first_lost first_lost_loses U64.max (by decide)
  exact not_eventually_delivered first_lost_loses.never (Fin.zero_le _) hfirst

end StreamGuard.V1
