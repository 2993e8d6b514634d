/-
Left folds whose every step touches one key.

A loop over a batch updates the entry of one key per round. What it does to the
view of one key is then what the single round for that key does: the other rounds
leave the view alone. The lemmas state this for any state, any view of it and any
list without repeated keys. What needs no keys is `List.foldlRecOn`.
-/
import Mathlib.Data.List.Basic

set_option autoImplicit false

namespace StreamGuard.Lib

variable {σ α κ γ : Type*} {f : σ → α → σ} (key : α → κ) (view : σ → γ) {k : κ}

/-- A key the list does not mention keeps its view. -/
theorem foldl_view_of_notMem (hother : ∀ s a, key a ≠ k → view (f s a) = view s) (l : List α)
    (s : σ) (hk : k ∉ l.map key) : view (l.foldl f s) = view s := by
  induction l generalizing s with
  | nil => rfl
  | cons a l ih =>
    rw [List.map_cons, List.mem_cons, not_or] at hk
    rw [List.foldl_cons, ih _ hk.2, hother s a (Ne.symm hk.1)]

/-- The view of a mentioned key is what its own round makes of a state with the
view it started from. -/
theorem foldl_view_of_mem (hother : ∀ s a, key a ≠ k → view (f s a) = view s) {l : List α}
    (s : σ) (hnodup : (l.map key).Nodup) {a : α} (ha : a ∈ l) (hk : key a = k) :
    ∃ s₀, view s₀ = view s ∧ view (l.foldl f s) = view (f s₀ a) := by
  induction l generalizing s with
  | nil => contradiction
  | cons b l ih =>
    rw [List.map_cons, List.nodup_cons] at hnodup
    rw [List.foldl_cons]
    rcases List.mem_cons.mp ha with rfl | hmem
    · refine ⟨s, rfl, ?_⟩
      exact foldl_view_of_notMem key view hother l _ (hk ▸ hnodup.1)
    · have hb : key b ≠ k := by
        rintro rfl
        exact hnodup.1 (hk ▸ List.mem_map_of_mem hmem)
      obtain ⟨s₀, hs₀, hfold⟩ := ih (f s b) hnodup.2 hmem
      exact ⟨s₀, hs₀.trans (hother s b hb), hfold⟩

/-- What a round keeps if its key is ready, a batch keeps whose keys are all ready: a round
leaves the other keys ready. -/
theorem foldl_keeps (P : σ → Prop) (ready : α → σ → Prop)
    (hround : ∀ s a, P s → ready a s → P (f s a))
    (hother : ∀ s a b, key a ≠ key b → ready b s → ready b (f s a)) {l : List α} {s : σ}
    (hnodup : (l.map key).Nodup) (hP : P s) (hready : ∀ a ∈ l, ready a s) : P (l.foldl f s) := by
  induction l generalizing s with
  | nil => exact hP
  | cons a l ih =>
    rw [List.map_cons, List.nodup_cons] at hnodup
    obtain ⟨ha, hl⟩ := List.forall_mem_cons.mp hready
    refine ih hnodup.2 (hround s a hP ha) ?_
    intro b hb
    refine hother s a b ?_ (hl b hb)
    intro hsame
    exact hnodup.1 (hsame ▸ List.mem_map_of_mem hb)

/-- In a list without repeated keys the search for a key finds its only entry. -/
theorem find?_key_eq_some {key : α → κ} [DecidableEq κ] {l : List α}
    (hnodup : (l.map key).Nodup) {a : α} (ha : a ∈ l) :
    l.find? (fun b => key b = key a) = some a := by
  induction l with
  | nil => contradiction
  | cons b l ih =>
    rw [List.map_cons, List.nodup_cons] at hnodup
    rcases List.mem_cons.mp ha with rfl | hmem
    · simp
    · have hb : key b ≠ key a := by
        intro he
        exact hnodup.1 (he ▸ List.mem_map_of_mem hmem)
      rw [List.find?_cons_of_neg (by simpa using hb)]
      exact ih hnodup.2 hmem

/-- A member of a list has its counterpart in a list as long. -/
theorem exists_counterpart {l : List α} {outcomes : List γ} (hlen : outcomes.length = l.length)
    {a : α} (ha : a ∈ l) :
    ∃ (i : ℕ) (outcome : γ), l[i]? = some a ∧ outcomes[i]? = some outcome ∧
      (a, outcome) ∈ l.zip outcomes := by
  obtain ⟨i, hi⟩ := List.mem_iff_getElem?.mp ha
  have hlt : i < outcomes.length := hlen ▸ (List.getElem?_eq_some_iff.mp hi).1
  have houtcome := List.getElem?_eq_getElem hlt
  exact ⟨i, _, hi, houtcome, List.mem_of_getElem? (List.getElem?_zip_eq_some.mpr ⟨hi, houtcome⟩)⟩

end StreamGuard.Lib
