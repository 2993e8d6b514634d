/-
The table of tombstones, shared by `SessionReorder` and `SessionDedup`.

Both retire a key in the same way: the expired tombstones are purged, a full table evicts
one, and the tombstone of the key is written. `retired` is that table, and what it holds
does not depend on the order in which the hash map is iterated, because the eviction
order compares every part of an entry. A batch of retirements is another matter: the
tombstones of one `expire` are written in iteration order, and `IdleFits` says when that
order leaves no trace.
-/
import StreamGuard.Lib.Eviction
import StreamGuard.Multipath.ReorderIsolation

set_option autoImplicit false

namespace StreamGuard.Multipath

open StreamGuard StreamGuard.Lib
open SessionReorder (evicts_before min_by)

/-! ## The orders of the source -/

theorem min_by_le {α κ : Type*} {le : α → α → Bool} {key : α → κ} (h : Ranking le key) {l : List α}
    {a : α} (ha : min_by le l = some a) : ∀ b ∈ l, le a b = true := by
  induction l generalizing a with
  | nil => contradiction
  | cons x l ih =>
    unfold min_by at ha
    split at ha
    · next hnone =>
      obtain rfl := Option.some.inj ha
      have hnil : l = [] := by
        by_contra hne
        obtain ⟨b, hb⟩ := SessionReorder.min_by_isSome le hne
        rw [hb] at hnone
        contradiction
      intro b hb
      rw [hnil, List.mem_singleton] at hb
      rw [hb]
      exact h.refl x
    · next b hb =>
      split at ha
      · next hle =>
        obtain rfl := Option.some.inj ha
        intro c hc
        rcases List.mem_cons.mp hc with rfl | hc
        · exact h.refl c
        · exact h.trans x b c hle (ih hb c hc)
      · next hnot =>
        obtain rfl := Option.some.inj ha
        intro c hc
        rcases List.mem_cons.mp hc with rfl | hc
        · exact h.le_of_not (by simpa using hnot)
        · exact ih hb c hc

/-- `deterministic_cmp` tells all keys apart. -/
theorem ranking_deterministic_le : Ranking ReceiveKey.deterministic_le id := by
  have h := (((Ranking.of_le (fun k : ReceiveKey => k.flow.get)).lex
    (fun k => k.key_epoch)).lex (fun k => k.direction.to_wire)).lex
    (fun k => k.session.bytes.toNat)
  have heq : ReceiveKey.deterministic_le = fun a b =>
      if a.session.bytes.toNat ≠ b.session.bytes.toNat then
        decide (a.session.bytes.toNat < b.session.bytes.toNat)
      else if a.direction.to_wire ≠ b.direction.to_wire then
        decide (a.direction.to_wire < b.direction.to_wire)
      else if a.key_epoch ≠ b.key_epoch then decide (a.key_epoch < b.key_epoch)
      else decide (a.flow.get ≤ b.flow.get) := by
    funext a b
    unfold ReceiveKey.deterministic_le
    simp only [ne_eq, BitVec.toNat_inj]
  rw [heq]
  refine h.inj ?_
  intro a b hab
  obtain ⟨hbytes, hwire, hepoch, hflow⟩ : a.session.bytes.toNat = b.session.bytes.toNat ∧
      a.direction.to_wire = b.direction.to_wire ∧ a.key_epoch = b.key_epoch ∧
      a.flow.get = b.flow.get := by
    simpa using hab
  obtain ⟨⟨bytes⟩, direction, epoch, ⟨flow⟩⟩ := a
  obtain ⟨⟨bytes'⟩, direction', epoch', ⟨flow'⟩⟩ := b
  have hdirection : direction = direction' := by
    cases direction <;> cases direction' <;> simp_all [Direction.to_wire]
  obtain rfl := BitVec.toNat_inj.mp hbytes
  simp_all

/-- The eviction order tells all entries apart. -/
theorem ranking_evicts_before : Ranking evicts_before id := by
  have h := ((ranking_deterministic_le.comap
    (fun e : Σ _ : ReceiveKey, ReorderTombstone => e.1)).lex (fun e => e.2.watermark)).lex
    (fun e => e.2.expires_at_ms)
  refine Ranking.inj h ?_
  rintro ⟨key, watermark, expires⟩ ⟨key', watermark', expires'⟩ heq
  simp_all

/-- `expire` compares flow, key epoch and direction. -/
theorem ranking_expire_le : Ranking ReceiveKey.expire_le
    (fun k => (k.flow.get, k.key_epoch, k.direction.to_wire)) :=
  ((Ranking.of_le (fun k : ReceiveKey => k.direction.to_wire)).lex (fun k => k.key_epoch)).lex
    (fun k => k.flow.get)

/-! ## One retirement -/

section Table

variable {table table' : Map ReceiveKey ReorderTombstone} {key : ReceiveKey}
  {t : ReorderTombstone} {max now_ms : ℕ} {order order' : Traversal ReceiveKey ReorderTombstone}

/-- The tombstones that are live. -/
def live_tombstones (table : Map ReceiveKey ReorderTombstone) (now_ms : ℕ) :
    Map ReceiveKey ReorderTombstone :=
  table.retain (fun _ t => now_ms < t.expires_at_ms)

/-- The table after `insert_tombstone`. -/
def retired (order : Traversal ReceiveKey ReorderTombstone) (max : ℕ)
    (table : Map ReceiveKey ReorderTombstone) (key : ReceiveKey) (t : ReorderTombstone)
    (now_ms : ℕ) : Map ReceiveKey ReorderTombstone :=
  let live := live_tombstones table now_ms
  (if max ≤ live.len then
    match min_by evicts_before (order.visit live.entries) with
    | some oldest => live.erase oldest.1
    | none => live
  else live).insert key t

/-- A state that holds the live tombstones has retired the key once it has evicted one of them
where the table was full. -/
theorem retired_eq {S : Type*} (tombstones : S → Map ReceiveKey ReorderTombstone)
    {order : Traversal ReceiveKey ReorderTombstone} {max : ℕ} {now_ms : ℕ} {s : S}
    {evict : (Σ _ : ReceiveKey, ReorderTombstone) → S}
    (hs : tombstones s = live_tombstones table now_ms)
    (hevict : ∀ oldest, tombstones (evict oldest) = (tombstones s).erase oldest.1)
    (key : ReceiveKey) (t : ReorderTombstone) :
    (tombstones (if max ≤ (tombstones s).len then
      match min_by evicts_before (order.visit (tombstones s).entries) with
      | some oldest => evict oldest
      | none => s
      else s)).insert key t = retired order max table key t now_ms := by
  by_cases hfull : max ≤ (live_tombstones table now_ms).len
  · simp only [retired, hs, if_pos hfull]
    cases min_by evicts_before (order.visit (live_tombstones table now_ms).entries) with
    | none => exact congrArg (AList.insert key t) hs
    | some oldest => exact congrArg (AList.insert key t) ((hevict oldest).trans (by rw [hs]))
  · simp only [retired, hs, if_neg hfull]

theorem live_tombstones_congr (hsame : ∀ k, table'.lookup k = table.lookup k) (now_ms : ℕ)
    (k : ReceiveKey) :
    (live_tombstones table' now_ms).lookup k = (live_tombstones table now_ms).lookup k := by
  unfold live_tombstones
  rw [AList.lookup_retain, AList.lookup_retain, hsame]

/-- A table whose tombstones are all live. -/
theorem live_tombstones_of_live (hlive : ∀ k t, table.lookup k = some t → now_ms < t.expires_at_ms) :
    live_tombstones table now_ms = table := by
  unfold live_tombstones
  apply AList.ext
  refine List.filter_eq_self.mpr ?_
  intro e he
  exact decide_eq_true (hlive e.1 e.2 (AList.mem_entries_iff.mp he))

/-- **A retirement is an admission to the live tombstones**, whatever the iteration order. -/
theorem admit_retired (hmax : 0 < max) :
    Admit evicts_before max (live_tombstones table now_ms) ⟨key, t⟩
      (retired order max table key t now_ms) := by
  unfold retired
  dsimp only
  by_cases hfull : max ≤ (live_tombstones table now_ms).len
  · refine .inr ⟨hfull, ?_⟩
    have hvisit : order.visit (live_tombstones table now_ms).entries ≠ [] := by
      intro hnil
      have hlen := (order.perm (live_tombstones table now_ms).entries).length_eq
      rw [hnil] at hlen
      have hzero : (live_tombstones table now_ms).len = 0 := hlen.symm
      omega
    obtain ⟨oldest, holdest⟩ := SessionReorder.min_by_isSome evicts_before hvisit
    refine ⟨oldest, ⟨?_, ?_⟩, ?_⟩
    · exact AList.mem_entries_iff.mp (order.mem_visit.mp (SessionReorder.min_by_mem holdest))
    · intro k v hl
      exact min_by_le ranking_evicts_before holdest ⟨k, v⟩
        (order.mem_visit.mpr (AList.mem_entries_iff.mpr hl))
    · rw [if_pos hfull, holdest]
  · refine .inl ⟨not_le.mp hfull, ?_⟩
    rw [if_neg hfull]

/-- **One retirement** leaves the same tombstones for every iteration order. -/
theorem retired_congr (hmax : 0 < max) (hsame : ∀ k, table'.lookup k = table.lookup k)
    (k : ReceiveKey) :
    (retired order' max table' key t now_ms).lookup k =
      (retired order max table key t now_ms).lookup k :=
  (admit_retired hmax).congr ranking_evicts_before (admit_retired hmax)
    (live_tombstones_congr hsame now_ms) k

/-! ## A batch of retirements -/

/-- The tombstone that retiring a flow leaves. -/
def tombstone (ttl now_ms : ℕ) (watermark : U64) : ReorderTombstone :=
  ⟨watermark, saturatingAdd now_ms ttl⟩

/-- The entries that a batch of idle flows leaves. -/
def batch (ttl now_ms : ℕ) (idle : List (ReceiveKey × U64)) :
    List (Σ _ : ReceiveKey, ReorderTombstone) :=
  idle.map (fun e => ⟨e.1, tombstone ttl now_ms e.2⟩)

/-- The table after the idle flows have been retired one after the other. -/
def retire_all (order : Traversal ReceiveKey ReorderTombstone) (max ttl now_ms : ℕ)
    (table : Map ReceiveKey ReorderTombstone) : List (ReceiveKey × U64) →
      Map ReceiveKey ReorderTombstone
  | [] => table
  | (key, watermark) :: idle =>
    retire_all order max ttl now_ms
      (retired order max table key (tombstone ttl now_ms watermark) now_ms) idle

/-- **When a batch of idle flows leaves the same tombstones in every order**: it has one
flow at most, or the clock has not run out and as many live tombstones as have to make way
are evicted before each of the new ones. -/
def IdleFits (max ttl now_ms : ℕ) (table : Map ReceiveKey ReorderTombstone)
    (idle : List (ReceiveKey × U64)) : Prop :=
  idle.length ≤ 1 ∨ now_ms < u64Max ∧
    table.len + idle.length ≤ max + ahead evicts_before table (batch ttl now_ms idle)

instance (max ttl now_ms : ℕ) (table : Map ReceiveKey ReorderTombstone)
    (idle : List (ReceiveKey × U64)) : Decidable (IdleFits max ttl now_ms table idle) :=
  inferInstanceAs (Decidable (_ ∨ _ ∧ _))

/-- What a retirement leaves was written by it or there before. -/
theorem retired_lookup {k : ReceiveKey} {u : ReorderTombstone} (hmax : 0 < max)
    (h : (retired order max table key t now_ms).lookup k = some u) :
    k = key ∧ u = t ∨ k ≠ key ∧ table.lookup k = some u := by
  have hlive : ∀ k u, (live_tombstones table now_ms).lookup k = some u →
      table.lookup k = some u := fun k u hl => (AList.lookup_retain_eq_some.mp hl).1
  have hinsert : ∀ m : Map ReceiveKey ReorderTombstone,
      (∀ k u, m.lookup k = some u → table.lookup k = some u) →
      (m.insert key t).lookup k = some u →
      k = key ∧ u = t ∨ k ≠ key ∧ table.lookup k = some u := by
    intro m hm hl
    rw [AList.lookup_insert_of] at hl
    by_cases hk : k = key
    · rw [if_pos hk] at hl
      exact .inl ⟨hk, (Option.some.inj hl).symm⟩
    · rw [if_neg hk] at hl
      exact .inr ⟨hk, hm k u hl⟩
  rcases @admit_retired table key t max now_ms order hmax with ⟨_, he⟩ | ⟨_, o, _, he⟩
  · rw [he] at h
    exact hinsert _ hlive h
  · rw [he] at h
    exact hinsert _ (fun k u hl => hlive k u (AList.lookup_of_erase hl)) h

/-- As long as the clock has not run out, a batch is a sequence of admissions. -/
theorem admits_retire_all {ttl : ℕ} (hmax : 0 < max) (httl : 0 < ttl) (hnow : now_ms < u64Max)
    (idle : List (ReceiveKey × U64)) :
    ∀ {table : Map ReceiveKey ReorderTombstone},
      (∀ k t, table.lookup k = some t → now_ms < t.expires_at_ms) →
      Admits evicts_before max table (batch ttl now_ms idle)
        (retire_all order max ttl now_ms table idle) := by
  induction idle with
  | nil =>
    intro table _
    exact rfl
  | cons e idle ih =>
    intro table hlive
    obtain ⟨key, watermark⟩ := e
    have hadmit := @admit_retired table key (tombstone ttl now_ms watermark) max now_ms order hmax
    rw [live_tombstones_of_live hlive] at hadmit
    refine ⟨_, hadmit, ih ?_⟩
    intro k t hl
    rcases retired_lookup hmax hl with ⟨_, rfl⟩ | ⟨_, hl⟩
    · unfold tombstone saturatingAdd
      dsimp only
      omega
    · exact hlive k t hl

/-- **A batch of retirements that fits** leaves the same tombstones for every order of the
batch and every iteration order. -/
theorem retire_all_perm {ttl : ℕ} {idle idle' : List (ReceiveKey × U64)} (hmax : 0 < max)
    (httl : 0 < ttl) (hbound : table.len ≤ max) (hfresh : ∀ e ∈ idle, e.1 ∉ table)
    (hnodup : (idle.map (·.1)).Nodup)
    (hlive : ∀ k t, table.lookup k = some t → now_ms < t.expires_at_ms)
    (hfits : IdleFits max ttl now_ms table idle) (hsame : ∀ k, table'.lookup k = table.lookup k)
    (hperm : idle'.Perm idle) (k : ReceiveKey) :
    (retire_all order' max ttl now_ms table' idle').lookup k =
      (retire_all order max ttl now_ms table idle).lookup k := by
  rcases hfits with hone | ⟨hnow, hroom⟩
  · match idle with
    | [] =>
      obtain rfl := hperm.eq_nil
      exact hsame k
    | [e] =>
      obtain rfl := List.perm_singleton.mp hperm
      exact retired_congr hmax hsame k
    | _ :: _ :: _ => simp at hone
  · have hlive' : ∀ k t, table'.lookup k = some t → now_ms < t.expires_at_ms := by
      intro k t hl
      rw [hsame] at hl
      exact hlive k t hl
    refine (admits_retire_all hmax httl hnow idle hlive).perm ranking_evicts_before
      (admits_retire_all hmax httl hnow idle' hlive') ⟨hbound, ?_, ?_, ?_⟩ hsame
      (hperm.map _) k
    · intro e he
      obtain ⟨x, hx, rfl⟩ := List.mem_map.mp he
      exact hfresh x hx
    · unfold batch
      rw [List.map_map]
      exact hnodup
    · unfold batch
      rw [List.length_map]
      exact hroom

end Table

/-! ## Flows and tombstones -/

/-- The flows and the tombstones of a session: no key has both, and the tombstones are
within their limit. -/
structure Tabled {F : Type*} (flows : Map ReceiveKey F) (table : Map ReceiveKey ReorderTombstone)
    (max ttl : ℕ) : Prop where
  max_pos : 0 < max
  ttl_pos : 0 < ttl
  apart : ∀ key ∈ flows, key ∉ table
  bound : table.len ≤ max

/-- One flow is the least recently active. -/
def UniqueOldest {F : Type*} (activity : F → ℕ) (flows : Map ReceiveKey F) : Prop :=
  ∀ a ∈ flows.entries, ∀ b ∈ flows.entries, (∀ e ∈ flows.entries, activity a.2 ≤ activity e.2) →
    (∀ e ∈ flows.entries, activity b.2 ≤ activity e.2) → a.1 = b.1

instance {F : Type*} (activity : F → ℕ) (flows : Map ReceiveKey F) :
    Decidable (UniqueOldest activity flows) :=
  inferInstanceAs (Decidable (∀ a ∈ flows.entries, ∀ b ∈ flows.entries, _))

section Tabled

variable {F : Type*} {flows : Map ReceiveKey F} {table : Map ReceiveKey ReorderTombstone}
  {max ttl now_ms : ℕ} {key : ReceiveKey} {t : ReorderTombstone}
  {order : Traversal ReceiveKey ReorderTombstone}

theorem Tabled.write (h : Tabled flows table max ttl) (hkey : key ∉ table) (f : F) :
    Tabled (flows.insert key f) table max ttl := by
  refine ⟨h.max_pos, h.ttl_pos, ?_, h.bound⟩
  intro k hk
  rcases (AList.mem_insert _).mp hk with rfl | hk
  · exact hkey
  · exact h.apart k hk

theorem Tabled.forget (h : Tabled flows table max ttl) (key : ReceiveKey) :
    Tabled flows (table.erase key) max ttl := by
  refine ⟨h.max_pos, h.ttl_pos, ?_, ?_⟩
  · intro k hk hmem
    exact h.apart k hk (AList.mem_erase.mp hmem).2
  · by_cases hkey : key ∈ table
    · have hlen := AList.len_erase hkey
      have hbound := h.bound
      omega
    · rw [AList.erase_of_notMem hkey]
      exact h.bound

theorem Tabled.purge (h : Tabled flows table max ttl) (now_ms : ℕ) :
    Tabled flows (live_tombstones table now_ms) max ttl := by
  refine ⟨h.max_pos, h.ttl_pos, ?_, AList.len_retain_le.trans h.bound⟩
  intro k hk hmem
  obtain ⟨t, ht⟩ := AList.mem_iff_lookup.mp hmem
  exact h.apart k hk (AList.mem_of_lookup (AList.lookup_retain_eq_some.mp ht).1)

/-- A flow makes way for its tombstone. -/
theorem Tabled.retire (h : Tabled flows table max ttl) :
    Tabled (flows.erase key) (retired order max table key t now_ms) max ttl := by
  refine ⟨h.max_pos, h.ttl_pos, ?_, ?_⟩
  · intro k hk hmem
    obtain ⟨hne, hk⟩ := AList.mem_erase.mp hk
    obtain ⟨u, hu⟩ := AList.mem_iff_lookup.mp hmem
    rcases retired_lookup h.max_pos hu with ⟨rfl, _⟩ | ⟨_, hu⟩
    · exact hne rfl
    · exact h.apart k hk (AList.mem_of_lookup hu)
  · exact (admit_retired h.max_pos).len_le (AList.len_retain_le.trans h.bound)

/-- **The flow that is evicted**, if it is unique, is the same for every iteration order. -/
theorem UniqueOldest.min_by_eq {activity : F → ℕ} {flows' : Map ReceiveKey F}
    {order order' : Traversal ReceiveKey F} (h : UniqueOldest activity flows)
    (hsame : ∀ k, flows'.lookup k = flows.lookup k) :
    min_by (fun a b => decide (activity a.2 ≤ activity b.2)) (order'.visit flows'.entries) =
      min_by (fun a b => decide (activity a.2 ≤ activity b.2)) (order.visit flows.entries) := by
  have hrank := Ranking.of_le (fun e : Σ _ : ReceiveKey, F => activity e.2)
  have hperm : (order'.visit flows'.entries).Perm (order.visit flows.entries) :=
    ((order'.perm _).trans (AList.entries_perm hsame)).trans (order.perm _).symm
  by_cases hnil : order.visit flows.entries = []
  · rw [hnil] at hperm
    rw [hnil, hperm.eq_nil]
  have hnil' : order'.visit flows'.entries ≠ [] := by
    intro he
    rw [he] at hperm
    exact hnil hperm.symm.eq_nil
  obtain ⟨o, ho⟩ := SessionReorder.min_by_isSome _ hnil
  obtain ⟨o', ho'⟩ := SessionReorder.min_by_isSome _ hnil'
  rw [ho, ho']
  have hmem : o ∈ flows.entries := order.mem_visit.mp (SessionReorder.min_by_mem ho)
  have hmem' : o' ∈ flows.entries :=
    order.mem_visit.mp (hperm.mem_iff.mp (SessionReorder.min_by_mem ho'))
  have hkey : o.1 = o'.1 := by
    refine h o hmem o' hmem' ?_ ?_
    · intro e he
      exact of_decide_eq_true (min_by_le hrank ho e (order.mem_visit.mpr he))
    · intro e he
      exact of_decide_eq_true (min_by_le hrank ho' e
        (hperm.mem_iff.mpr (order.mem_visit.mpr he)))
  have hl := AList.mem_entries_iff.mp hmem
  have hl' := AList.mem_entries_iff.mp hmem'
  rw [← hkey, hl] at hl'
  exact congrArg some (Sigma.ext hkey.symm (heq_of_eq (Option.some.inj hl').symm))

end Tabled

end StreamGuard.Multipath
