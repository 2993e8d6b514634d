/-
What a conservation law says about single items.

A machine keeps a pool of items. A step may take one item in and give some out, and
it makes none up: what it gives out and what the pool holds afterwards was in the
pool or came in. Then every item given out along a run came in at a step of its own,
no later than it went out. The origins are found by numbering the stock: the items
that came in and have not gone out, each with the number of its step.
-/
import Mathlib.Data.Multiset.AddSub
import Mathlib.Data.List.Forall2
import StreamGuard.Lib.Run

set_option autoImplicit false

namespace StreamGuard.Lib

section Stock

variable {α : Type*}

/-- Taking items out of a numbered stock, with the numbers they have there. -/
theorem take_numbered (items : List α) {left : Multiset α} {stock : List (ℕ × α)}
    (h : (items : Multiset α) + left ≤ (stock.map Prod.snd : List α)) :
    ∃ (numbers : List ℕ) (rest : List (ℕ × α)), numbers.length = items.length ∧
      stock.Perm (numbers.zip items ++ rest) ∧ left ≤ (rest.map Prod.snd : List α) := by
  induction items generalizing stock with
  | nil =>
    refine ⟨[], stock, rfl, .refl _, ?_⟩
    simpa using h
  | cons a items ih =>
    have ha : a ∈ stock.map Prod.snd := by
      have hle : (↑(a :: items) : Multiset α) ≤ (stock.map Prod.snd : List α) :=
        le_trans (Multiset.le_add_right _ _) h
      exact Multiset.mem_coe.mp (Multiset.mem_of_le hle (Multiset.mem_coe.mpr List.mem_cons_self))
    obtain ⟨⟨n, b⟩, hmem, hb⟩ := List.mem_map.mp ha
    obtain rfl : b = a := hb
    obtain ⟨before, after, rfl⟩ := List.append_of_mem hmem
    have hperm : (before ++ (n, b) :: after).Perm ((n, b) :: (before ++ after)) :=
      List.perm_middle
    -- the other items are among the rest of the stock
    have hrest : (items : Multiset α) + left ≤ ((before ++ after).map Prod.snd : List α) := by
      rw [Multiset.coe_eq_coe.mpr (hperm.map Prod.snd), List.map_cons, ← Multiset.cons_coe,
        ← Multiset.cons_coe, Multiset.cons_add] at h
      exact (Multiset.cons_le_cons_iff _).mp h
    obtain ⟨numbers, rest, hlen, hzip, hleft⟩ := ih hrest
    exact ⟨n :: numbers, rest, congrArg (· + 1) hlen, hperm.trans (hzip.cons _), hleft⟩

end Stock

section Origins

variable {σ ι ω α : Type*} {step : σ → ι → Option (σ × List ω)} {arrival : ω → Option α}
  {departures : ω → List α} {log : List ω} {origins : List ℕ}

/-- Everything given out, each item with the number of the step that gave it out. -/
def given (departures : ω → List α) (log : List ω) : List (ℕ × α) :=
  log.zipIdx.flatMap (fun e => (departures e.1).map (fun a => (e.2, a)))

theorem given_snoc (departures : ω → List α) (log : List ω) (line : ω) :
    given departures (log ++ [line]) =
      given departures log ++ (departures line).map (fun a => (log.length, a)) := by
  unfold given
  rw [List.zipIdx_append, List.flatMap_append]
  simp

/-- `origins` lists, for every item given out, a step of its own that took that very
item in, no later than it was given out. -/
structure Origins (arrival : ω → Option α) (departures : ω → List α) (log : List ω)
    (origins : List ℕ) : Prop where
  own : origins.Nodup
  same : List.Forall₂ (fun n d => n ≤ d.1 ∧ log[n]?.bind arrival = some d.2) origins
    (given departures log)

/-- The origins so far and a numbered stock that covers the pool. -/
structure Stocked (arrival : ω → Option α) (departures : ω → List α) (log : List ω)
    (pool : Multiset α) (origins : List ℕ) (stock : List (ℕ × α)) : Prop where
  own : (origins ++ stock.map Prod.fst).Nodup
  same : List.Forall₂ (fun n d => n ≤ d.1 ∧ log[n]?.bind arrival = some d.2) origins
    (given departures log)
  before : ∀ n ∈ origins, n < log.length
  came : ∀ e ∈ stock, log[e.1]?.bind arrival = some e.2
  covers : pool ≤ (stock.map Prod.snd : List α)

/-- A step that took an item in stays where it is in a longer log. -/
theorem arrived_snoc {n : ℕ} {a : α} (line : ω) (h : log[n]?.bind arrival = some a) :
    (log ++ [line])[n]?.bind arrival = some a := by
  obtain ⟨w, hw, ha⟩ := Option.bind_eq_some_iff.mp h
  obtain ⟨hn, _⟩ := List.getElem?_eq_some_iff.mp hw
  rw [List.getElem?_append_left hn, hw]
  exact ha

theorem arrived_lt {n : ℕ} {a : α} (h : log[n]?.bind arrival = some a) : n < log.length := by
  obtain ⟨w, hw, _⟩ := Option.bind_eq_some_iff.mp h
  exact (List.getElem?_eq_some_iff.mp hw).1

/-- Taking an item in puts it on stock under the number of the step. -/
theorem Stocked.arrive {pool : Multiset α} {stock : List (ℕ × α)}
    (h : Stocked arrival departures log pool origins stock) (line : ω) :
    ∃ stock' : List (ℕ × α), (origins ++ stock'.map Prod.fst).Nodup ∧
      (∀ e ∈ stock', (log ++ [line])[e.1]?.bind arrival = some e.2) ∧
      pool + ((arrival line).toList : Multiset α) ≤ (stock'.map Prod.snd : List α) := by
  cases ha : arrival line with
  | none =>
    refine ⟨stock, h.own, fun e he => arrived_snoc line (h.came e he), ?_⟩
    simpa using h.covers
  | some a =>
    refine ⟨stock ++ [(log.length, a)], ?_, ?_, ?_⟩
    · -- the number is new: the others belong to earlier steps
      have hnew : log.length ∉ origins ++ stock.map Prod.fst := by
        rw [List.mem_append, List.mem_map]
        rintro (hmem | ⟨e, he, heq⟩)
        · exact absurd (h.before log.length hmem) (lt_irrefl _)
        · have hlt := arrived_lt (h.came e he)
          omega
      rw [List.map_append, ← List.append_assoc, List.nodup_append_comm]
      exact List.nodup_cons.mpr ⟨hnew, h.own⟩
    · intro e he
      rcases List.mem_append.mp he with he | he
      · exact arrived_snoc line (h.came e he)
      · rw [List.mem_singleton.mp he]
        simpa using ha
    · rw [List.map_append, ← Multiset.coe_add]
      exact Multiset.add_le_add_right h.covers

/-- **One step.** -/
theorem Stocked.serve {pool pool' : Multiset α} {stock : List (ℕ × α)}
    (h : Stocked arrival departures log pool origins stock) {line : ω}
    (hline : (departures line : Multiset α) + pool' ≤ pool + ((arrival line).toList : Multiset α)) :
    ∃ origins' stock', Stocked arrival departures (log ++ [line]) pool' origins' stock' := by
  obtain ⟨stock₁, hown, hstock, hcovers⟩ := h.arrive line
  obtain ⟨numbers, rest, hlen, hperm, hleft⟩ := take_numbered (departures line) (hline.trans hcovers)
  have hfst : (stock₁.map Prod.fst).Perm (numbers ++ rest.map Prod.fst) := by
    have hmap := hperm.map Prod.fst
    rwa [List.map_append, List.map_fst_zip hlen.le] at hmap
  refine ⟨origins ++ numbers, rest, ⟨?_, ?_, ?_, ?_, hleft⟩⟩
  · rw [List.append_assoc]
    exact (List.Perm.append_left origins hfst).nodup_iff.mp hown
  · rw [given_snoc]
    refine List.rel_append ?_ ?_
    · exact h.same.imp (fun n d hd => ⟨hd.1, arrived_snoc line hd.2⟩)
    · rw [List.forall₂_map_right_iff, List.forall₂_iff_zip]
      refine ⟨hlen, ?_⟩
      intro n a hmem
      have hn := hstock (n, a) (hperm.mem_iff.mpr (List.mem_append_left _ hmem))
      have hlt := arrived_lt hn
      rw [List.length_append, List.length_singleton] at hlt
      exact ⟨by dsimp only at *; omega, hn⟩
  · intro n hn
    rw [List.length_append, List.length_singleton]
    rcases List.mem_append.mp hn with hn | hn
    · have hlt := h.before n hn
      omega
    · have hmem := hfst.mem_iff.mpr (List.mem_append_left _ hn)
      obtain ⟨e, he, rfl⟩ := List.mem_map.mp hmem
      have hlt := arrived_lt (hstock e he)
      rwa [List.length_append, List.length_singleton] at hlt
  · intro e he
    exact hstock e (hperm.mem_iff.mpr (List.mem_append_right _ he))

/-- **Every item given out along a run has an origin of its own.** -/
theorem exec_origins {C : σ → ι → Prop} {pool : σ → Multiset α}
    (hstep : ∀ s i s₁ o, C s i → step s i = some (s₁, o) → ∃ line, o = [line] ∧
      (departures line : Multiset α) + pool s₁ ≤ pool s + ((arrival line).toList : Multiset α))
    {s t : σ} {is : List ι} (hpool : pool s = 0) (hC : Along step C s is)
    (h : exec step s is = some (t, log)) : ∃ origins, Origins arrival departures log origins := by
  have hrun := exec_along_induct (a := []) (C := C)
    (P := fun s log => ∃ origins stock, Stocked arrival departures log (pool s) origins stock) ?_
    ⟨[], [], ⟨List.nodup_nil, .nil, by simp, by simp, hpool.le⟩⟩ hC h
  · obtain ⟨origins, stock, hstocked⟩ := hrun
    exact ⟨origins, (List.nodup_append.mp hstocked.own).1, hstocked.same⟩
  · rintro s i s₁ o a ⟨origins, stock, hstocked⟩ hc hs
    obtain ⟨line, rfl, hline⟩ := hstep s i s₁ o hc hs
    exact hstocked.serve hline

end Origins

end StreamGuard.Lib
