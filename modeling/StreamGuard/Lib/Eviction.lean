/-
A table of bounded size that evicts its least entry to admit a new one.

`Admit` is one admission, `Admits` a batch of them, one after the other. Which entries
of the table survive a batch depends in general on the order of the batch: an entry that
is admitted early may be evicted for a later one. It does not as long as the table held
enough entries below the whole batch to begin with, and then the survivors have a closed
form (`Admits.lookup_iff`): an old entry survives if at least as many old entries lie
strictly below it as the batch needs places. Two batches that are permutations of each
other leave the same table (`Admits.perm`).
-/
import Mathlib.Data.List.Sort
import StreamGuard.Lib.AssocMap

set_option autoImplicit false

namespace StreamGuard.Lib

/-! ## Rankings -/

/-- `le` compares keys, totally: elements that lie below each other have the same key. -/
structure Ranking {α κ : Type*} (le : α → α → Bool) (key : α → κ) : Prop where
  total : ∀ a b, le a b = true ∨ le b a = true
  trans : ∀ a b c, le a b = true → le b c = true → le a c = true
  antisymm : ∀ a b, le a b = true → le b a = true → key a = key b

namespace Ranking

variable {α β κ γ : Type*} {le : α → α → Bool} {key : α → κ} {a b : α}

theorem refl (h : Ranking le key) (a : α) : le a a = true := (h.total a a).elim id id

theorem le_of_not (h : Ranking le key) (hab : le a b = false) : le b a = true := by
  rcases h.total a b with hle | hle
  · rw [hab] at hle
    contradiction
  · exact hle

/-- A key that tells the elements apart ranks the elements. -/
theorem inj (h : Ranking le key) (hinj : ∀ a b, key a = key b → a = b) : Ranking le id :=
  ⟨h.total, h.trans, fun a b hab hba => hinj a b (h.antisymm a b hab hba)⟩

theorem comap (h : Ranking le key) (f : β → α) :
    Ranking (fun a b => le (f a) (f b)) (fun b => key (f b)) :=
  ⟨fun a b => h.total (f a) (f b), fun a b c => h.trans (f a) (f b) (f c),
    fun a b => h.antisymm (f a) (f b)⟩

/-- What a sorted list yields does not depend on the list it was sorted from, if elements
that tie yield nothing. -/
theorem flatMap_insertionSort (h : Ranking le key) {l l' : List α} (hperm : l'.Perm l)
    (g : α → List β) (htwins : ∀ a ∈ l, ∀ b ∈ l, le a b = true → le b a = true → g a ≠ [] →
      g b ≠ [] → a = b) :
    (l'.insertionSort (fun a b => le a b)).flatMap g =
      (l.insertionSort (fun a b => le a b)).flatMap g := by
  have htotal : Std.Total (fun a b => le a b = true) := ⟨h.total⟩
  have htrans : IsTrans α (fun a b => le a b = true) := ⟨h.trans⟩
  -- only the elements that yield something count
  have hfilter : ∀ l : List α, (l.filter (fun a => !(g a).isEmpty)).flatMap g = l.flatMap g := by
    intro l
    induction l with
    | nil => rfl
    | cons a l ih =>
      by_cases ha : g a = []
      · simp [ha, ih]
      · simp [ha, ih]
  rw [← hfilter (l'.insertionSort _), ← hfilter (l.insertionSort _)]
  congr 1
  have hsort : (l'.insertionSort (fun a b => le a b)).Perm (l.insertionSort (fun a b => le a b)) :=
    ((List.perm_insertionSort _ l').trans hperm).trans (List.perm_insertionSort _ l).symm
  refine List.Perm.eq_of_pairwise ?_
    ((List.pairwise_insertionSort (fun a b => le a b = true) l').filter _)
    ((List.pairwise_insertionSort (fun a b => le a b = true) l).filter _) (hsort.filter _)
  intro a b ha hb hab hba
  obtain ⟨ha, hga⟩ := List.mem_filter.mp ha
  obtain ⟨hb, hgb⟩ := List.mem_filter.mp hb
  refine htwins a ?_ b ?_ hab hba (by simpa using hga) (by simpa using hgb)
  · exact hperm.mem_iff.mp ((List.mem_insertionSort _).mp ha)
  · exact (List.mem_insertionSort _).mp hb

variable [LinearOrder γ]

theorem of_le (f : α → γ) : Ranking (fun a b => decide (f a ≤ f b)) f := by
  refine ⟨?_, ?_, ?_⟩
  · intro a b
    simpa using le_total (f a) (f b)
  · intro a b c hab hbc
    exact decide_eq_true ((of_decide_eq_true hab).trans (of_decide_eq_true hbc))
  · intro a b hab hba
    exact le_antisymm (of_decide_eq_true hab) (of_decide_eq_true hba)

/-- Compared by `f` first, and by `le` where `f` agrees. -/
theorem lex (h : Ranking le key) (f : α → γ) :
    Ranking (fun a b => if f a ≠ f b then decide (f a < f b) else le a b)
      (fun a => (f a, key a)) := by
  refine ⟨?_, ?_, ?_⟩
  · intro a b
    by_cases hab : f a = f b
    · simpa [hab] using h.total a b
    · have hba : f b ≠ f a := Ne.symm hab
      simp [hab, hba]
  · intro a b c hab hbc
    by_cases h₁ : f a = f b
    · by_cases h₂ : f b = f c
      · simp only [h₁, h₂, ne_eq, not_true_eq_false, if_false] at hab hbc ⊢
        exact h.trans a b c hab hbc
      · simpa [h₁, h₂] using hbc
    · have hlt : f a < f b := by simpa [h₁] using hab
      by_cases h₂ : f b = f c
      · rw [h₂] at hlt
        simpa [hlt.ne] using hlt
      · have hlt' : f b < f c := by simpa [h₂] using hbc
        have hac := hlt.trans hlt'
        simpa [hac.ne] using hac
  · intro a b hab hba
    by_cases h₁ : f a = f b
    · simp only [h₁, ne_eq, not_true_eq_false, if_false] at hab hba
      exact Prod.ext h₁ (h.antisymm a b hab hba)
    · have hlt : f a < f b := by simpa [h₁] using hab
      have hgt : f b < f a := by simpa [Ne.symm h₁] using hba
      exact absurd hgt hlt.asymm

end Ranking

variable {K V : Type*} [DecidableEq K] {le : (Σ _ : K, V) → (Σ _ : K, V) → Bool} {m m' : Map K V}
  {e o : Σ _ : K, V} {es : List (Σ _ : K, V)} {cap : ℕ}

/-! ## Ranks -/

/-- `e` is an entry of `m`, and no entry lies below it. -/
def IsLeast (le : (Σ _ : K, V) → (Σ _ : K, V) → Bool) (m : Map K V) (e : Σ _ : K, V) : Prop :=
  m.lookup e.1 = some e.2 ∧ ∀ k v, m.lookup k = some v → le e ⟨k, v⟩ = true

/-- The number of entries of `m` strictly below `e`. -/
def rank (le : (Σ _ : K, V) → (Σ _ : K, V) → Bool) (m : Map K V) (e : Σ _ : K, V) : ℕ :=
  m.sum (fun k v => if le e ⟨k, v⟩ then 0 else 1)

/-- The number of entries of `m` strictly below all of `es`. -/
def ahead (le : (Σ _ : K, V) → (Σ _ : K, V) → Bool) (m : Map K V) (es : List (Σ _ : K, V)) : ℕ :=
  m.sum (fun k v => if es.all (fun e => !le e ⟨k, v⟩) then 1 else 0)

theorem IsLeast.unique (h : Ranking le id) (ho : IsLeast le m o) (he : IsLeast le m e) : o = e :=
  h.antisymm o e (ho.2 e.1 e.2 he.1) (he.2 o.1 o.2 ho.1)

/-- Where `e` is not below `o`, all that lies ahead of a batch with `e` is below `o`. -/
theorem ahead_le_rank (h : Ranking le id) (m : Map K V) (he : e ∈ es) (hle : le e o = true) :
    ahead le m es ≤ rank le m o := by
  unfold ahead rank
  refine AList.sum_le ?_
  intro k v _
  by_cases hall : es.all (fun e => !le e ⟨k, v⟩) = true
  · have hbelow : le o ⟨k, v⟩ = false := by
      cases hok : le o ⟨k, v⟩ with
      | false => rfl
      | true =>
        have hek := h.trans e o ⟨k, v⟩ hle hok
        have hnot := List.all_eq_true.mp hall e he
        rw [hek] at hnot
        contradiction
    rw [if_pos hall, hbelow]
    exact le_rfl
  · simp [hall]

/-- A smaller batch has as much ahead of it. -/
theorem ahead_cons_le (le : (Σ _ : K, V) → (Σ _ : K, V) → Bool) (m : Map K V) (e : Σ _ : K, V)
    (es : List (Σ _ : K, V)) : ahead le m (e :: es) ≤ ahead le m es := by
  unfold ahead
  refine AList.sum_le ?_
  intro k v _
  by_cases hall : es.all (fun e => !le e ⟨k, v⟩) = true
  · rw [if_pos hall]
    split <;> omega
  · simp [hall]

/-! ## Admissions -/

/-- `e` is admitted to `m`: when the table is full, a least entry makes way. -/
def Admit (le : (Σ _ : K, V) → (Σ _ : K, V) → Bool) (cap : ℕ) (m : Map K V) (e : Σ _ : K, V)
    (m' : Map K V) : Prop :=
  m.len < cap ∧ m' = m.insert e.1 e.2 ∨
    cap ≤ m.len ∧ ∃ o, IsLeast le m o ∧ m' = (m.erase o.1).insert e.1 e.2

/-- The entries of a batch are admitted one after the other. -/
def Admits (le : (Σ _ : K, V) → (Σ _ : K, V) → Bool) (cap : ℕ) (m : Map K V) :
    List (Σ _ : K, V) → Map K V → Prop
  | [], m' => m' = m
  | e :: es, m' => ∃ m₁, Admit le cap m e m₁ ∧ Admits le cap m₁ es m'

/-- One admission depends on nothing but the entries. -/
theorem Admit.congr (h : Ranking le id) {m₁ m₁' : Map K V} (hm : Admit le cap m e m')
    (hm₁ : Admit le cap m₁ e m₁') (hsame : ∀ k, m₁.lookup k = m.lookup k) (k : K) :
    m₁'.lookup k = m'.lookup k := by
  have hlen := AList.len_congr hsame
  rcases hm with ⟨hroom, rfl⟩ | ⟨hfull, o, ho, rfl⟩
  · rcases hm₁ with ⟨_, rfl⟩ | ⟨hfull, _⟩
    · rw [AList.lookup_insert_of, AList.lookup_insert_of, hsame]
    · omega
  · rcases hm₁ with ⟨hroom, _⟩ | ⟨_, o₁, ho₁, rfl⟩
    · omega
    · have hleast : IsLeast le m o₁ := by
        refine ⟨(hsame o₁.1).symm.trans ho₁.1, ?_⟩
        intro k v hl
        exact ho₁.2 k v ((hsame k).trans hl)
      obtain rfl := hleast.unique h ho
      rw [AList.lookup_insert_of, AList.lookup_insert_of, AList.lookup_erase_of,
        AList.lookup_erase_of, hsame]

/-- An admission keeps the bound. -/
theorem Admit.len_le (h : Admit le cap m e m') (hlen : m.len ≤ cap) : m'.len ≤ cap := by
  rcases h with ⟨hroom, rfl⟩ | ⟨hfull, o, ho, rfl⟩
  · exact (AList.len_insert_le _ _ _).trans hroom
  · have herase := AList.len_erase (AList.mem_of_lookup ho.1)
    have hinsert := AList.len_insert_le (m.erase o.1) e.1 e.2
    omega

/-! ## The survivors of a batch -/

/-- What is in the table after a batch: the batch, and the old entries with enough
entries below them. -/
def Survives (le : (Σ _ : K, V) → (Σ _ : K, V) → Bool) (cap : ℕ) (m : Map K V)
    (es : List (Σ _ : K, V)) (e : Σ _ : K, V) : Prop :=
  e ∈ es ∨ m.lookup e.1 = some e.2 ∧ m.len + es.length ≤ cap + rank le m e

/-- A batch that fits: its keys are new, and enough entries lie ahead of it. -/
structure Fits (le : (Σ _ : K, V) → (Σ _ : K, V) → Bool) (cap : ℕ) (m : Map K V)
    (es : List (Σ _ : K, V)) : Prop where
  bound : m.len ≤ cap
  fresh : ∀ e ∈ es, e.1 ∉ m
  nodup : (es.map (·.1)).Nodup
  room : m.len + es.length ≤ cap + ahead le m es

/-- The first entry of a batch is admitted to a table that is not full. -/
theorem Fits.insert (h : Ranking le id) (hfits : Fits le cap m (e :: es)) (hroom : m.len < cap) :
    Fits le cap (m.insert e.1 e.2) es ∧
      ∀ x, Survives le cap m (e :: es) x ↔ Survives le cap (m.insert e.1 e.2) es x := by
  have hnew : e.1 ∉ m := hfits.fresh e List.mem_cons_self
  have hlen := AList.len_insert_of_notMem (v := e.2) hnew
  have hcount := hfits.room
  rw [List.length_cons] at hcount
  obtain ⟨hnot, hnodup⟩ := List.nodup_cons.mp hfits.nodup
  refine ⟨⟨by omega, ?_, hnodup, ?_⟩, ?_⟩
  · intro x hx hmem
    rcases (AList.mem_insert _).mp hmem with heq | hmem
    · exact hnot (List.mem_map.mpr ⟨x, hx, heq⟩)
    · exact hfits.fresh x (List.mem_cons_of_mem _ hx) hmem
  · have hgrow : ahead le m es ≤ ahead le (m.insert e.1 e.2) es := by
      unfold ahead
      rw [AList.sum_insert_of_notMem _ _ hnew]
      exact Nat.le_add_left _ _
    have hless := ahead_cons_le le m e es
    omega
  · intro x
    unfold Survives
    rw [hlen, List.length_cons, List.mem_cons, AList.lookup_insert_of]
    have hrank : rank le (m.insert e.1 e.2) x = (if le x e then 0 else 1) + rank le m x :=
      AList.sum_insert_of_notMem _ _ hnew
    by_cases hx : x = e
    · subst hx
      -- the entry has all that is ahead of the batch below it
      have hahead := ahead_le_rank h m (List.mem_cons_self (a := x) (l := es)) (h.refl x)
      rw [if_pos (h.refl x)] at hrank
      constructor
      · intro _
        refine .inr ⟨if_pos rfl, ?_⟩
        omega
      · intro _
        exact .inl (.inl rfl)
    · by_cases hkey : x.1 = e.1
      · -- no other entry has its key
        have hold : m.lookup x.1 ≠ some x.2 := by
          intro hl
          exact hnew (hkey ▸ AList.mem_of_lookup hl)
        have hvalue : ¬ some e.2 = some x.2 := by
          intro hv
          exact hx (Sigma.ext hkey (heq_of_eq (Option.some.inj hv).symm))
        rw [if_pos hkey]
        simp [hx, hold, hvalue]
      · rw [if_neg hkey]
        have hiff : m.len + (es.length + 1) ≤ cap + rank le m x ↔
            m.len + 1 + es.length ≤ cap + rank le (m.insert e.1 e.2) x := by
          by_cases hle : le x e = true
          · rw [if_pos hle] at hrank
            omega
          · have hex := h.le_of_not (by simpa using hle)
            have hahead := ahead_le_rank h m (List.mem_cons_self (a := e) (l := es)) hex
            rw [if_neg hle] at hrank
            omega
        simp only [hx, false_or]
        rw [hiff]

/-- A least entry makes way for a batch that has more ahead of it. -/
theorem Fits.erase (h : Ranking le id) (hfits : Fits le cap m (e :: es)) (hfull : cap ≤ m.len)
    (ho : IsLeast le m o) :
    Fits le cap (m.erase o.1) (e :: es) ∧ (m.erase o.1).len < cap ∧
      ∀ x, Survives le cap m (e :: es) x ↔ Survives le cap (m.erase o.1) (e :: es) x := by
  have hbound := hfits.bound
  have hcount := hfits.room
  rw [List.length_cons] at hcount
  have hlen := AList.len_erase (AList.mem_of_lookup ho.1)
  -- something is ahead of the batch, so the least entry is
  have hfirst : (e :: es).all (fun x => !le x o) = true := by
    by_contra hnot
    obtain ⟨x, hx, hxo⟩ : ∃ x ∈ e :: es, le x o = true := by
      rw [Bool.not_eq_true, List.all_eq_false] at hnot
      obtain ⟨x, hx, hxo⟩ := hnot
      exact ⟨x, hx, by simpa using hxo⟩
    have hahead := ahead_le_rank h m hx hxo
    have hzero : rank le m o = 0 := by
      unfold rank
      rw [AList.sum_congr (g := fun _ _ => 0) (fun k v hl => if_pos (ho.2 k v hl))]
      exact AList.sum_eq_zero (fun _ _ => rfl)
    omega
  have hahead : 1 + ahead le (m.erase o.1) (e :: es) = ahead le m (e :: es) := by
    unfold ahead
    rw [← AList.sum_erase _ ho.1, if_pos hfirst]
  refine ⟨⟨by omega, ?_, hfits.nodup, by rw [List.length_cons]; omega⟩, by omega, ?_⟩
  · intro x hx hmem
    exact hfits.fresh x hx (AList.mem_erase.mp hmem).2
  · intro x
    unfold Survives
    rw [List.length_cons, AList.lookup_erase_of]
    by_cases hmem : x ∈ e :: es
    · exact ⟨fun _ => .inl hmem, fun _ => .inl hmem⟩
    by_cases hkey : x.1 = o.1
    · -- the entry that left has nothing below it
      rw [if_pos hkey]
      have hgone : ¬ (m.lookup x.1 = some x.2 ∧ m.len + (es.length + 1) ≤ cap + rank le m x) := by
        rintro ⟨hl, hrank⟩
        have hzero : rank le m x = 0 := by
          unfold rank
          rw [AList.sum_congr (g := fun _ _ => 0)]
          · exact AList.sum_eq_zero (fun _ _ => rfl)
          · intro k v hl'
            have hsame : x = o := by
              refine Sigma.ext hkey (heq_of_eq ?_)
              rw [hkey, ho.1] at hl
              exact (Option.some.inj hl).symm
            rw [hsame]
            exact if_pos (ho.2 k v hl')
        omega
      simp [hmem, hgone]
    · rw [if_neg hkey]
      have hiff : m.lookup x.1 = some x.2 →
          (m.len + (es.length + 1) ≤ cap + rank le m x ↔
            (m.erase o.1).len + (es.length + 1) ≤ cap + rank le (m.erase o.1) x) := by
        intro hl
        have hbelow : le x o = false := by
          cases hxo : le x o with
          | false => rfl
          | true =>
            have hsame := h.antisymm x o hxo (ho.2 x.1 x.2 hl)
            exact absurd (congrArg Sigma.fst hsame) hkey
        have hrank : 1 + rank le (m.erase o.1) x = rank le m x := by
          unfold rank
          rw [← AList.sum_erase _ ho.1, if_neg (by simp [hbelow])]
        omega
      simp only [hmem, false_or]
      exact and_congr_right hiff

/-- **The survivors of a batch that fits** do not depend on its order. -/
theorem Admits.lookup_iff (h : Ranking le id) (hadmits : Admits le cap m es m')
    (hfits : Fits le cap m es) (x : Σ _ : K, V) :
    m'.lookup x.1 = some x.2 ↔ Survives le cap m es x := by
  induction es generalizing m with
  | nil =>
    obtain rfl : m' = m := hadmits
    have hbound := hfits.bound
    unfold Survives
    constructor
    · intro hl
      exact .inr ⟨hl, by rw [List.length_nil]; omega⟩
    · rintro (hmem | ⟨hl, _⟩)
      · contradiction
      · exact hl
  | cons e es ih =>
    obtain ⟨m₁, hadmit, hrest⟩ := hadmits
    rcases hadmit with ⟨hroom, rfl⟩ | ⟨hfull, o, ho, rfl⟩
    · obtain ⟨hfits₁, hiff⟩ := hfits.insert h hroom
      exact (ih hrest hfits₁).trans (hiff x).symm
    · obtain ⟨hfits₁, hroom, hiff⟩ := hfits.erase h hfull ho
      obtain ⟨hfits₂, hiff₂⟩ := hfits₁.insert h hroom
      exact (ih hrest hfits₂).trans ((hiff x).trans (hiff₂ x)).symm

/-- A batch fits or not as a whole. -/
theorem Fits.congr {n : Map K V} {fs : List (Σ _ : K, V)} (hfits : Fits le cap m es)
    (hsame : ∀ k, n.lookup k = m.lookup k) (hperm : fs.Perm es) : Fits le cap n fs := by
  have hahead : ahead le n fs = ahead le m es := by
    have hall : ∀ k v, fs.all (fun e => !le e ⟨k, v⟩) = es.all (fun e => !le e ⟨k, v⟩) := by
      intro k v
      exact hperm.all_eq
    unfold ahead
    rw [AList.sum_perm _ hsame]
    simp only [hall]
  refine ⟨?_, ?_, ?_, ?_⟩
  · rw [AList.len_congr hsame]
    exact hfits.bound
  · intro e he hmem
    obtain ⟨v, hv⟩ := AList.mem_iff_lookup.mp hmem
    rw [hsame] at hv
    exact hfits.fresh e (hperm.mem_iff.mp he) (AList.mem_of_lookup hv)
  · exact (hperm.map _).nodup_iff.mpr hfits.nodup
  · rw [AList.len_congr hsame, hperm.length_eq, hahead]
    exact hfits.room

/-- **A batch that fits may be admitted in any order.** -/
theorem Admits.perm {n n' : Map K V} {fs : List (Σ _ : K, V)} (h : Ranking le id)
    (hm : Admits le cap m es m') (hn : Admits le cap n fs n') (hfits : Fits le cap m es)
    (hsame : ∀ k, n.lookup k = m.lookup k) (hperm : fs.Perm es) (k : K) :
    n'.lookup k = m'.lookup k := by
  have hrank : ∀ x, rank le n x = rank le m x := fun x => AList.sum_perm _ hsame
  ext v
  have hm' := hm.lookup_iff h hfits ⟨k, v⟩
  have hn' := hn.lookup_iff h (hfits.congr hsame hperm) ⟨k, v⟩
  have hsurvives : Survives le cap n fs ⟨k, v⟩ ↔ Survives le cap m es ⟨k, v⟩ := by
    unfold Survives
    rw [hperm.mem_iff, hsame, AList.len_congr hsame, hperm.length_eq, hrank]
  exact hn'.trans (hsurvives.trans hm'.symm)

end StreamGuard.Lib
