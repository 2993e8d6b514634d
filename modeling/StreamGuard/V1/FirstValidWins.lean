/-
Where the V1 reorder buffer is first-valid-wins, and where it is not.

`FirstValidWins` is what the buffer is for: an arrival is a duplicate if its number
was delivered or is held, and duplicates are dropped; of the others, those in the
window are delivered or held, and the rest leave no trace. The buffer takes instead
for a duplicate what is the latest arrival of its residue modulo the capacity. The
two agree on an arrival outside the window, which both drop; inside, they agree
exactly when the latest arrival of the residue has the number of the arrival if and
only if that number is held (`Tells`). The main result says so for whole runs.
-/
import StreamGuard.V1.ReorderBuffer

set_option autoImplicit false

namespace StreamGuard.V1

open StreamGuard StreamGuard.Lib

/-! ## The reference -/

/-- The reference: what has been delivered, and what is held. -/
structure FirstValidWins where
  capacity : ℕ
  next_expected : U64
  held : Map U64 Bytes
  delivered : List U64

namespace FirstValidWins

def new (capacity : ℕ) : FirstValidWins := ⟨max capacity 1, 0, ∅, []⟩

def Duplicate (r : FirstValidWins) (n : U64) : Prop := n ∈ r.delivered ∨ n ∈ r.held

instance (r : FirstValidWins) (n : U64) : Decidable (r.Duplicate n) :=
  inferInstanceAs (Decidable (_ ∨ _))

/-- The number lies in the window, and there is room to hold it if it must be held. -/
def Admits (r : FirstValidWins) (n : U64) : Prop :=
  r.next_expected ≤ n ∧ n.val - r.next_expected.val ≤ r.capacity ∧
    (n = r.next_expected ∨ r.held.len < r.capacity)

instance (r : FirstValidWins) (n : U64) : Decidable (r.Admits n) :=
  inferInstanceAs (Decidable (_ ∧ _ ∧ _))

def deliver (r : FirstValidWins) (a : Arrival) : FirstValidWins × ReorderOutcome :=
  if r.Duplicate a.1.get then (r, .ofDropped)
  else if ¬ r.Admits a.1.get then (r, .ofDropped)
  else if a.1.get = r.next_expected then
    let rest := drain r.held.len r.next_expected r.held
    ({ r with
        next_expected := rest.next_expected
        held := rest.buffered
        delivered := r.delivered ++ (a :: rest.delivered).map (·.1.get) },
      .ofDelivered (a :: rest.delivered))
  else ({ r with held := r.held.insert a.1.get a.2 }, .ofBuffered)

def step (r : FirstValidWins) (a : Arrival) : Option (FirstValidWins × List Delivery) :=
  let o := r.deliver a
  some (o.1, [⟨a, o.2⟩])

end FirstValidWins

/-! ## The table -/

/-- The latest of the arrivals with the residue of `n`. -/
def last_alias (capacity : ℕ) (past : List Arrival) (n : U64) : Option U64 :=
  (past.reverse.find? (fun a => a.1.get.val % capacity = n.val % capacity)).map (·.1.get)

theorem last_alias_snoc (capacity : ℕ) (past : List Arrival) (a : Arrival) (n : U64) :
    last_alias capacity (past ++ [a]) n =
      if a.1.get.val % capacity = n.val % capacity then some a.1.get
      else last_alias capacity past n := by
  rw [last_alias, List.reverse_append, List.reverse_singleton, List.singleton_append,
    List.find?_cons]
  by_cases h : a.1.get.val % capacity = n.val % capacity
  · simp [h]
  · simp [h, last_alias]

namespace ReorderWindow

variable {w : ReorderWindow} {seq : Sequence}

theorem accept_eq_false :
    (w.accept seq).2 = false ↔ w.seen[seq.get.val % w.capacity]? = some (some seq.get) := by
  unfold accept
  dsimp only
  split
  · next h => simp [h]
  · next h => simp [h]

theorem accept_capacity : (w.accept seq).1.capacity = w.capacity := by
  unfold accept
  dsimp only
  split <;> rfl

/-- A slot holds the latest arrival of its residue. -/
theorem accept_seen (n : U64) : (w.accept seq).1.seen[n.val % w.capacity]? =
    if seq.get.val % w.capacity = n.val % w.capacity then some (some seq.get)
    else w.seen[n.val % w.capacity]? := by
  have hidx : seq.get.val % w.capacity < w.seen.length := by
    rw [w.sized]
    exact Nat.mod_lt _ w.positive
  unfold accept
  dsimp only
  split
  · next h =>
    split
    · next he => rw [← he, h]
    · rfl
  · rw [List.getElem?_set]
    split
    · next he => simp
    · rfl

end ReorderWindow

/-! ## One arrival -/

/-- The table tells a duplicate from a fresh number at this arrival. -/
def Tells (past : List Arrival) (r : FirstValidWins) (a : Arrival) : Prop :=
  r.Admits a.1.get →
    (last_alias r.capacity past a.1.get = some a.1.get ↔ a.1.get ∈ r.held)

instance (past : List Arrival) (r : FirstValidWins) (a : Arrival) : Decidable (Tells past r a) :=
  inferInstanceAs (Decidable (_ → _))

/-- The buffer and the reference after the same arrivals and the same outcomes. -/
structure Related (past : List Arrival) (b : ReorderBuffer) (r : FirstValidWins) : Prop where
  capacity : r.capacity = b.capacity
  head : r.next_expected = b.next_expected
  held : r.held = b.buffered
  delivered : ∀ n, n ∈ r.delivered ↔ n < b.next_expected
  ordered : ∃ records, InOrder U64.max b records
  table : b.dedup.capacity = b.capacity
  seen : ∀ n : U64, b.dedup.seen[n.val % b.capacity]? = some (last_alias b.capacity past n)

theorem new_related (capacity : ℕ) :
    Related [] (ReorderBuffer.new capacity) (FirstValidWins.new capacity) := by
  refine ⟨rfl, rfl, rfl, ?_, ⟨[], new_inOrder _ _⟩, rfl, ?_⟩
  · intro n
    simp [FirstValidWins.new, ReorderBuffer.new]
  · intro n
    have hlt : n.val % max capacity 1 < max capacity 1 := Nat.mod_lt _ (by omega)
    simp [ReorderBuffer.new, ReorderWindow.new, last_alias, hlt]

section Step

variable {past : List Arrival} {b : ReorderBuffer} {r : FirstValidWins} {a : Arrival}

/-- The table after an arrival, whatever the window makes of it. -/
theorem Related.seen_accept (h : Related past b r) (n : U64) :
    (b.dedup.accept a.1).1.seen[n.val % b.capacity]? =
      some (last_alias b.capacity (past ++ [a]) n) := by
  have hseen := @ReorderWindow.accept_seen b.dedup a.1 n
  rw [h.table] at hseen
  rw [hseen, last_alias_snoc, h.seen]
  split <;> rfl

/-- The table takes the arrival for a duplicate. -/
theorem Related.rejects_iff (h : Related past b r) :
    (b.dedup.accept a.1).2 = false ↔ last_alias b.capacity past a.1.get = some a.1.get := by
  rw [ReorderWindow.accept_eq_false, h.table, h.seen, Option.some.injEq]

/-- The numbers a head delivers, with what was held behind it. -/
theorem Drains.mem_numbers {lost next_expected n : U64} {buffered : Map U64 Bytes} {rest : Drained}
    (h : Drains lost next_expected buffered rest) :
    n ∈ rest.delivered.map (·.1.get) ↔ next_expected < n ∧ n < rest.next_expected := by
  have hval : n ∈ rest.delivered.map (·.1.get) ↔
      n.val ∈ rest.delivered.map (fun d => d.1.get.val) := by
    simp only [List.mem_map]
    constructor
    · rintro ⟨d, hd, rfl⟩
      exact ⟨d, hd, rfl⟩
    · rintro ⟨d, hd, he⟩
      exact ⟨d, hd, Fin.ext he⟩
  have hpassed := h.passed
  rw [Fin.lt_def] at hpassed
  rw [hval, h.numbers, List.mem_range'_1, Fin.lt_def, Fin.lt_def]
  omega

/-- An arrival the table rejects is dropped. -/
theorem deliver_rejected (h : (b.dedup.accept a.1).2 = false) :
    b.deliver a.1 a.2 = ({ b with dedup := (b.dedup.accept a.1).1 }, .ofDropped) := by
  unfold ReorderBuffer.deliver
  exact if_pos h

/-- An arrival outside the window is dropped, whatever the table says. -/
theorem deliver_outside {ids : List U64}
    (h : ¬ (⟨b.capacity, b.next_expected, b.buffered, ids⟩ : FirstValidWins).Admits a.1.get) :
    b.deliver a.1 a.2 = ({ b with dedup := (b.dedup.accept a.1).1 }, .ofDropped) := by
  unfold ReorderBuffer.deliver
  dsimp only
  split
  · rfl
  split
  · rfl
  next hstale =>
  split
  · rfl
  next hfar =>
  split
  · next hahead =>
    split
    · rfl
    · next hroom => exact absurd ⟨le_of_not_gt hstale, Nat.le_of_not_lt hfar,
        .inr (Nat.lt_of_not_le hroom)⟩ h
  · next hhead => exact absurd ⟨le_of_not_gt hstale, Nat.le_of_not_lt hfar,
      .inl (not_not.mp hhead)⟩ h

/-- An arrival in the window that the table passes is delivered or held. -/
theorem deliver_inside {ids : List U64} (hpass : (b.dedup.accept a.1).2 ≠ false)
    (h : (⟨b.capacity, b.next_expected, b.buffered, ids⟩ : FirstValidWins).Admits a.1.get) :
    b.deliver a.1 a.2 =
      if a.1.get = b.next_expected then
        ({ b with
            dedup := (b.dedup.accept a.1).1
            next_expected := (drain b.buffered.len b.next_expected b.buffered).next_expected
            buffered := (drain b.buffered.len b.next_expected b.buffered).buffered },
          .ofDelivered (a :: (drain b.buffered.len b.next_expected b.buffered).delivered))
      else
        ({ b with
            dedup := (b.dedup.accept a.1).1
            buffered := b.buffered.insert a.1.get a.2 }, .ofBuffered) := by
  obtain ⟨hstale, hfar, hroom⟩ := h
  unfold ReorderBuffer.deliver
  dsimp only at hstale hfar hroom ⊢
  rw [if_neg hpass, if_neg (not_lt.mpr hstale), if_neg (Nat.not_lt.mpr hfar)]
  by_cases hhead : a.1.get = b.next_expected
  · rw [if_neg (not_not.mpr hhead), if_pos hhead]
  · rw [if_pos hhead, if_neg hhead, if_neg (Nat.not_le.mpr (hroom.resolve_left hhead))]

/-- Both sides drop the arrival. -/
theorem Related.drop (h : Related past b r)
    (hdrop : b.deliver a.1 a.2 = ({ b with dedup := (b.dedup.accept a.1).1 }, .ofDropped))
    (hmax : a.1.get ≠ U64.max) : Related (past ++ [a]) (b.deliver a.1 a.2).1 r := by
  obtain ⟨records, hordered⟩ := h.ordered
  have hnext := hordered.deliver hmax
  rw [hdrop] at hnext ⊢
  exact ⟨h.capacity, h.head, h.held, h.delivered, ⟨_, hnext⟩,
    ReorderWindow.accept_capacity.trans h.table, h.seen_accept⟩

/-- Both sides take the arrival: they deliver it, or hold it. -/
theorem Related.take {ids : List U64}
    (h : Related past b ⟨b.capacity, b.next_expected, b.buffered, ids⟩)
    (hmax : a.1.get ≠ U64.max) (hpass : (b.dedup.accept a.1).2 ≠ false)
    (hadmits : (⟨b.capacity, b.next_expected, b.buffered, ids⟩ : FirstValidWins).Admits a.1.get)
    (hduplicate :
      ¬ (⟨b.capacity, b.next_expected, b.buffered, ids⟩ : FirstValidWins).Duplicate a.1.get) :
    (b.deliver a.1 a.2).2 =
        ((⟨b.capacity, b.next_expected, b.buffered, ids⟩ : FirstValidWins).deliver a).2 ∧
      Related (past ++ [a]) (b.deliver a.1 a.2).1
        ((⟨b.capacity, b.next_expected, b.buffered, ids⟩ : FirstValidWins).deliver a).1 := by
  obtain ⟨records, hordered⟩ := h.ordered
  have hnext := hordered.deliver hmax
  have htable : (b.dedup.accept a.1).1.capacity = b.capacity :=
    ReorderWindow.accept_capacity.trans h.table
  rw [deliver_inside hpass hadmits] at hnext ⊢
  rw [FirstValidWins.deliver, if_neg hduplicate, if_neg (not_not.mpr hadmits)]
  by_cases hhead : a.1.get = b.next_expected
  · -- the head moves over what is held behind it, on both sides alike
    have hbelow : b.next_expected < U64.max := lt_of_le_of_ne hordered.head (hhead ▸ hmax)
    have hdrain := drain_spec _ le_rfl hbelow hordered.absent
    simp only [hhead, ↓reduceIte] at hnext ⊢
    refine ⟨trivial, rfl, rfl, rfl, ?_, ⟨_, hnext⟩, htable, h.seen_accept⟩
    intro n
    have hpassed := hdrain.passed
    rw [List.mem_append, h.delivered, List.map_cons, List.mem_cons, hdrain.mem_numbers, hhead]
    simp only [Fin.ext_iff, Fin.lt_def] at hpassed ⊢
    omega
  · simp only [hhead, ↓reduceIte] at hnext ⊢
    exact ⟨trivial, rfl, rfl, rfl, h.delivered, ⟨_, hnext⟩, htable, h.seen_accept⟩

/-- **One arrival.** The outcomes agree exactly when the table tells the duplicate,
and then the two sides stay related. The cases: outside the window both drop; inside,
the reference drops what is held, and the buffer what the table rejects. -/
theorem Related.deliver (h : Related past b r) (hmax : a.1.get ≠ U64.max) :
    ((b.deliver a.1 a.2).2 = (r.deliver a).2 ↔ Tells past r a) ∧
    (Tells past r a → Related (past ++ [a]) (b.deliver a.1 a.2).1 (r.deliver a).1) := by
  obtain ⟨capacity, next_expected, held, ids⟩ := r
  obtain ⟨rfl, rfl, rfl⟩ : capacity = b.capacity ∧ next_expected = b.next_expected ∧
    held = b.buffered := ⟨h.capacity, h.head, h.held⟩
  have hrejects := h.rejects_iff (a := a)
  unfold Tells
  by_cases hadmits :
      (⟨b.capacity, b.next_expected, b.buffered, ids⟩ : FirstValidWins).Admits a.1.get
  · -- inside the window nothing has been delivered yet
    have hfresh : a.1.get ∉ ids := fun hm => not_lt.mpr hadmits.1 ((h.delivered _).mp hm)
    by_cases hheld : a.1.get ∈ b.buffered
    · have hreference : (⟨b.capacity, b.next_expected, b.buffered, ids⟩ : FirstValidWins).deliver a =
          (⟨b.capacity, b.next_expected, b.buffered, ids⟩, .ofDropped) := if_pos (.inr hheld)
      simp only [hreference, hadmits, true_imp_iff, hheld, iff_true, ← hrejects]
      by_cases hpass : (b.dedup.accept a.1).2 = false
      · have hdrop := deliver_rejected hpass
        refine ⟨?_, fun _ => h.drop hdrop hmax⟩
        simp [hdrop, hpass]
      · refine ⟨?_, fun hreject => absurd hreject hpass⟩
        have hbuffer := deliver_inside hpass hadmits
        rw [hbuffer]
        constructor
        · intro hsame
          split at hsame <;> cases hsame
        · intro hreject
          exact absurd hreject hpass
    · have hduplicate :
          ¬ (⟨b.capacity, b.next_expected, b.buffered, ids⟩ : FirstValidWins).Duplicate a.1.get := by
        rintro (hm | hm)
        · exact hfresh hm
        · exact hheld hm
      simp only [hadmits, true_imp_iff, hheld, iff_false, ← hrejects]
      by_cases hpass : (b.dedup.accept a.1).2 = false
      · refine ⟨?_, fun hreject => absurd hpass hreject⟩
        rw [deliver_rejected hpass, FirstValidWins.deliver, if_neg hduplicate,
          if_neg (not_not.mpr hadmits)]
        simp only [hpass, not_true_eq_false, iff_false]
        split
        · intro hsame
          cases hsame
        · intro hsame
          cases hsame
      · obtain ⟨hsame, hrelated⟩ := h.take hmax hpass hadmits hduplicate
        exact ⟨⟨fun _ => hpass, fun _ => hsame⟩, fun _ => hrelated⟩
  · -- outside the window neither side asks its memory
    have hreference : (⟨b.capacity, b.next_expected, b.buffered, ids⟩ : FirstValidWins).deliver a =
        (⟨b.capacity, b.next_expected, b.buffered, ids⟩, .ofDropped) := by
      rw [FirstValidWins.deliver]
      split
      · rfl
      · rfl
    have hdrop := deliver_outside hadmits
    rw [hreference]
    refine ⟨?_, fun _ => h.drop hdrop hmax⟩
    simp [hdrop, hadmits]

end Step

/-! ## Whole runs -/

/-- Remembers the arrivals so far. -/
def remember (_ : FirstValidWins) (past : List Arrival) (a : Arrival) : List Arrival := past ++ [a]

/-- Along a run of the reference the table tells duplicates from fresh numbers. -/
def TellsAlong (capacity : ℕ) (arrivals : List Arrival) : Prop :=
  Along (withGhost remember FirstValidWins.step) (fun t a => Tells t.2 t.1 a)
    (FirstValidWins.new capacity, []) arrivals

instance (capacity : ℕ) (arrivals : List Arrival) : Decidable (TellsAlong capacity arrivals) :=
  inferInstanceAs (Decidable (Along _ _ _ _))

/-- From related states on, by induction on the arrivals. -/
theorem records_eq_iff {past arrivals : List Arrival} {b b' : ReorderBuffer} {r r' : FirstValidWins}
    {records records' : List Delivery} (h : Related past b r)
    (hmax : ∀ a ∈ arrivals, a.1.get ≠ U64.max)
    (hrun : exec ReorderBuffer.step b arrivals = some (b', records))
    (hrun' : exec FirstValidWins.step r arrivals = some (r', records')) :
    records = records' ↔
      Along (withGhost remember FirstValidWins.step) (fun t a => Tells t.2 t.1 a) (r, past)
        arrivals := by
  induction arrivals generalizing past b r records records' with
  | nil =>
    simp only [exec_nil, Option.some.injEq, Prod.mk.injEq] at hrun hrun'
    simp [Along, ← hrun.2, ← hrun'.2]
  | cons a arrivals ih =>
    obtain ⟨hfirst, hrest⟩ := List.forall_mem_cons.mp hmax
    obtain ⟨b₁, o, o₁, hs, hlater, rfl⟩ := exec_cons_eq_some.mp hrun
    obtain ⟨r₁, o', o₁', hs', hlater', rfl⟩ := exec_cons_eq_some.mp hrun'
    have hghost : withGhost remember FirstValidWins.step (r, past) a = some ((r₁, past ++ [a]), o') :=
      withGhost_eq_some.mpr ⟨hs', rfl⟩
    simp only [ReorderBuffer.step, FirstValidWins.step, Option.some.injEq, Prod.mk.injEq] at hs hs'
    obtain ⟨rfl, rfl⟩ := hs
    obtain ⟨rfl, rfl⟩ := hs'
    obtain ⟨hsame, hrelated⟩ := h.deliver hfirst
    rw [along_cons hghost, ← hsame, List.singleton_append, List.singleton_append, List.cons.injEq,
      Delivery.mk.injEq, and_iff_right rfl]
    refine and_congr_right ?_
    intro he
    exact ih (hrelated (hsame.mp he)) hrest hlater hlater'

/-- **When the buffer is first-valid-wins.** For every capacity and every sequence of
arrivals with numbers below the last: every arrival fares as in the reference if and
only if, whenever an arrival lies in the window and there is room for it, the latest
earlier arrival of its residue has its number exactly when that number is held. -/
theorem first_valid_wins_iff {capacity : ℕ} {arrivals : List Arrival} {b : ReorderBuffer}
    {r : FirstValidWins} {records records' : List Delivery}
    (hmax : ∀ a ∈ arrivals, a.1.get < U64.max)
    (hrun : exec ReorderBuffer.step (ReorderBuffer.new capacity) arrivals = some (b, records))
    (hrun' : exec FirstValidWins.step (FirstValidWins.new capacity) arrivals = some (r, records')) :
    records = records' ↔ TellsAlong capacity arrivals :=
  records_eq_iff (new_related capacity) (fun a ha => ne_of_lt (hmax a ha)) hrun hrun'

/-- Packet 5 comes too early and is dropped; once packet 0 has moved the window it
comes again. -/
def early_arrivals : List Arrival := [(⟨5⟩, [5]), (⟨0⟩, [0]), (⟨5⟩, [5])]

/-- The retransmission is dropped as a duplicate of the packet that was never
accepted. -/
theorem rejected_arrival_remembered : ∃ b r records records',
    exec ReorderBuffer.step (ReorderBuffer.new 4) early_arrivals = some (b, records) ∧
    exec FirstValidWins.step (FirstValidWins.new 4) early_arrivals = some (r, records') ∧
    records ≠ records' :=
  ⟨_, _, _, _, rfl, rfl, by decide⟩

/-- Three packets of which the first is late, and the second is sent twice. -/
theorem first_valid_wins_late : ∃ b r records records',
    exec ReorderBuffer.step (ReorderBuffer.new 2) late_arrivals = some (b, records) ∧
    exec FirstValidWins.step (FirstValidWins.new 2) late_arrivals = some (r, records') ∧
    records = records' := by
  have hmax : ∀ a ∈ late_arrivals, a.1.get < U64.max := by decide
  have htells : TellsAlong 2 late_arrivals := by decide
  exact ⟨_, _, _, _, rfl, rfl, (first_valid_wins_iff hmax rfl rfl).mpr htells⟩

end StreamGuard.V1
