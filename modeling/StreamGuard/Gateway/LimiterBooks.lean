/-
The books of the handshake limiter: `acquire` and the drop of its permits,
`streamguard-gateway/src/v2/admission.rs`.

What is in flight is counted twice, once for all sources and once for each, and an
entry that counts nothing is forgotten after a while. `Accounted` says what both
counts are: the permits their callers still hold. It carries every other property
here. A source with a permit has an entry that counts it, so the entry is not
pruned and the drop of the permit does not saturate; and two limiters accounted
for the same permits count the same, so a refused `acquire` changes no count.
-/
import StreamGuard.Gateway.Admission
import StreamGuard.Lib.Bytes
import StreamGuard.Lib.Run

set_option autoImplicit false

namespace StreamGuard.Gateway

open StreamGuard StreamGuard.Lib

namespace HandshakeAdmissionLimiter

/-! ## The counts -/

/-- What the entry of a source counts; a source without one has nothing in flight. -/
def in_flight (l : HandshakeAdmissionLimiter) (source : IpAddr) : ℕ :=
  match l.sources.lookup source with
  | some entry => entry.in_flight
  | none => 0

/-- The counts of all entries together. -/
def total_in_flight (l : HandshakeAdmissionLimiter) : ℕ :=
  l.sources.sum fun _ entry => entry.in_flight

variable {l : HandshakeAdmissionLimiter} {source : IpAddr} {entry : SourceState}
  {live : List AdmissionPermit} {permit : AdmissionPermit}

theorem in_flight_of_lookup (h : l.sources.lookup source = some entry) :
    l.in_flight source = entry.in_flight := by
  rw [in_flight, h]

theorem in_flight_of_notMem (h : source ∉ l.sources) : l.in_flight source = 0 := by
  rw [in_flight, AList.lookup_eq_none.mpr h]

/-- The counts after one entry has been written. -/
theorem in_flight_insert {l' : HandshakeAdmissionLimiter}
    (h : l'.sources = l.sources.insert source entry) (other : IpAddr) :
    l'.in_flight other = if other = source then entry.in_flight else l.in_flight other := by
  by_cases hother : other = source
  · have hlookup : l'.sources.lookup other = some entry := by
      rw [h, hother, AList.lookup_insert]
    rw [in_flight_of_lookup hlookup, if_pos hother]
  · rw [in_flight, in_flight, h, AList.lookup_insert_ne hother, if_neg hother]

/-- The limiter counts the permits in `live`, and keeps within its limits. -/
structure Accounted (l : HandshakeAdmissionLimiter) (live : List AdmissionPermit) : Prop where
  global : l.global_in_flight = live.length
  total : l.total_in_flight = live.length
  source : ∀ source, l.in_flight source = live.count ⟨source⟩
  global_bounded : l.global_in_flight ≤ l.config.maximum_global_in_flight
  source_bounded : ∀ source, l.in_flight source ≤ l.config.maximum_per_source_in_flight
  sources_bounded : l.sources.len ≤ l.config.source_capacity

/-- A permit that is held is counted by an entry. -/
theorem Accounted.held (h : l.Accounted live) (hlive : permit ∈ live) :
    ∃ entry, l.sources.lookup permit.source = some entry ∧ entry.in_flight ≠ 0 := by
  have hcount : l.in_flight permit.source ≠ 0 := by
    rw [h.source]
    exact Nat.ne_of_gt (List.count_pos_iff.mpr hlive)
  cases hlookup : l.sources.lookup permit.source with
  | none => exact absurd (in_flight_of_notMem (AList.lookup_eq_none.mp hlookup)) hcount
  | some entry => exact ⟨entry, rfl, by rwa [in_flight_of_lookup hlookup] at hcount⟩

theorem Accounted.global_ne_zero (h : l.Accounted live) (hlive : permit ∈ live) :
    l.global_in_flight ≠ 0 := by
  rw [h.global]
  exact Nat.ne_of_gt (List.length_pos_of_mem hlive)

/-! ## Pruning -/

/-- Pruning forgets only what counts nothing. -/
theorem prune_lookup (now_millis : ℕ) (h : l.sources.lookup source = some entry)
    (hcounts : entry.in_flight ≠ 0) :
    (l.prune now_millis).sources.lookup source = some entry := by
  apply AList.lookup_retain_eq_some.mpr
  exact ⟨h, by simp [hcounts]⟩

theorem prune_in_flight (now_millis : ℕ) (source : IpAddr) :
    (l.prune now_millis).in_flight source = l.in_flight source := by
  cases hlookup : l.sources.lookup source with
  | none =>
    have hnone : (l.prune now_millis).sources.lookup source = none := by
      rw [prune, AList.lookup_retain, hlookup]
      rfl
    rw [in_flight, in_flight, hlookup, hnone]
  | some entry =>
    by_cases hcounts : entry.in_flight = 0
    · cases hpruned : (l.prune now_millis).sources.lookup source with
      | none => rw [in_flight, hpruned, in_flight_of_lookup hlookup, hcounts]
      | some kept =>
        have hkept := (AList.lookup_retain_eq_some.mp hpruned).1
        rw [in_flight_of_lookup hpruned, in_flight_of_lookup hkept]
    · rw [in_flight_of_lookup (prune_lookup now_millis hlookup hcounts),
        in_flight_of_lookup hlookup]

theorem prune_total (now_millis : ℕ) :
    (l.prune now_millis).total_in_flight = l.total_in_flight := by
  have hpart : ∀ source entry, (l.prune now_millis).sources.lookup source = some entry →
      l.sources.lookup source = some entry :=
    fun source entry h => (AList.lookup_retain_eq_some.mp h).1
  -- what was left out counts nothing
  have hrest : l.sources.sum (fun source entry =>
      if source ∈ (l.prune now_millis).sources then 0 else entry.in_flight) = 0 := by
    rw [AList.sum_congr (g := fun _ _ => 0), AList.sum_eq_zero fun _ _ => rfl]
    intro source entry hlookup
    split
    · rfl
    · next hdropped =>
      by_contra hcounts
      exact hdropped (AList.mem_of_lookup (prune_lookup now_millis hlookup hcounts))
  rw [total_in_flight, total_in_flight, AList.sum_split _ hpart, hrest, Nat.add_zero]

theorem Accounted.prune (h : l.Accounted live) (now_millis : ℕ) :
    (l.prune now_millis).Accounted live where
  global := h.global
  total := by rw [prune_total, h.total]
  source := by
    intro source
    rw [prune_in_flight, h.source]
  global_bounded := h.global_bounded
  source_bounded := by
    intro source
    rw [prune_in_flight]
    exact h.source_bounded source
  sources_bounded := le_trans AList.len_retain_le h.sources_bounded

/-! ## Taking and dropping a permit -/

/-- A source that is new gets an entry that counts nothing. -/
theorem Accounted.new_source (h : l.Accounted live) (hnew : source ∉ l.sources)
    (hroom : l.sources.len < l.config.source_capacity) (now_millis : ℕ) :
    Accounted { l with sources := l.sources.insert source ⟨0, now_millis⟩ } live := by
  have hcounts : ∀ other, in_flight { l with sources := l.sources.insert source ⟨0, now_millis⟩ }
      other = l.in_flight other := by
    intro other
    rw [in_flight_insert (l := l) rfl]
    split
    · next hother => rw [hother, in_flight_of_notMem hnew]
    · rfl
  refine ⟨h.global, ?_, ?_, h.global_bounded, ?_, ?_⟩
  · rw [total_in_flight, AList.sum_insert_of_notMem _ _ hnew, Nat.zero_add]
    exact h.total
  · intro other
    rw [hcounts, h.source]
  · intro other
    rw [hcounts]
    exact h.source_bounded other
  · have hlen := AList.len_insert_of_notMem (v := (⟨0, now_millis⟩ : SourceState)) hnew
    dsimp only
    omega

/-- The permits that are held once a call has returned. -/
def granted (live : List AdmissionPermit) :
    Except LimiterError AdmissionPermit → List AdmissionPermit
  | .ok permit => permit :: live
  | .error _ => live

/-- A permit is counted for its source and for all. -/
theorem Accounted.acquire_source (h : l.Accounted live)
    (hglobal : l.global_in_flight < l.config.maximum_global_in_flight) (source : IpAddr)
    (now_millis : ℕ) :
    (l.acquire_source source now_millis).1.Accounted
      (granted live (l.acquire_source source now_millis).2) := by
  rw [HandshakeAdmissionLimiter.acquire_source]
  cases hlookup : l.sources.lookup source with
  | none => exact h
  | some entry =>
    by_cases hfull : l.config.maximum_per_source_in_flight ≤ entry.in_flight
    · simp only [hfull, if_true]
      exact h
    · simp only [hfull, if_false]
      have hentry : l.in_flight source = entry.in_flight := in_flight_of_lookup hlookup
      have hcounts : ∀ other, in_flight { l with
          sources := l.sources.insert source ⟨entry.in_flight + 1, now_millis⟩
          global_in_flight := l.global_in_flight + 1 } other =
          if other = source then entry.in_flight + 1 else l.in_flight other := by
        intro other
        rw [in_flight_insert (l := l) rfl]
      refine ⟨?_, ?_, ?_, ?_, ?_, ?_⟩
      · show l.global_in_flight + 1 = (⟨source⟩ :: live : List AdmissionPermit).length
        rw [List.length_cons, h.global]
      · have hsum := AList.sum_insert_add (w := (⟨entry.in_flight + 1, now_millis⟩ : SourceState))
          (fun _ entry => entry.in_flight) hlookup
        have htotal := h.total
        unfold total_in_flight at htotal ⊢
        show _ = (⟨source⟩ :: live : List AdmissionPermit).length
        rw [List.length_cons]
        dsimp only at hsum ⊢
        omega
      · intro other
        rw [hcounts, granted, List.count_cons]
        by_cases hother : other = source
        · simp [hother, ← h.source, hentry]
        · have hpermit : (⟨source⟩ : AdmissionPermit) ≠ ⟨other⟩ := by
            simpa using fun hsame => hother hsame.symm
          simp [hother, hpermit, h.source]
      · show l.global_in_flight + 1 ≤ l.config.maximum_global_in_flight
        omega
      · intro other
        rw [hcounts]
        split
        · exact Nat.lt_of_not_le hfull
        · exact h.source_bounded other
      · show (l.sources.insert source _).len ≤ _
        rw [AList.len_insert_of_mem (AList.mem_of_lookup hlookup)]
        exact h.sources_bounded

theorem Accounted.acquire (h : l.Accounted live) (source : IpAddr)
    (started_at_millis now_millis : ℕ) :
    (l.acquire source started_at_millis now_millis).1.Accounted
      (granted live (l.acquire source started_at_millis now_millis).2) := by
  have hpruned := h.prune now_millis
  rw [HandshakeAdmissionLimiter.acquire]
  split
  · exact h
  · dsimp only
    split
    · exact hpruned
    · next hglobal =>
      split
      · exact hpruned.acquire_source (Nat.lt_of_not_le hglobal) source now_millis
      · next hnew =>
        split
        · exact hpruned
        · next hroom =>
          exact (hpruned.new_source hnew (Nat.lt_of_not_le hroom) now_millis).acquire_source
            (Nat.lt_of_not_le hglobal) source now_millis

theorem acquire_source_config (source : IpAddr) (now_millis : ℕ) :
    (l.acquire_source source now_millis).1.config = l.config := by
  rw [HandshakeAdmissionLimiter.acquire_source]
  split
  · rfl
  · split
    · rfl
    · rfl

theorem acquire_config (source : IpAddr) (started_at_millis now_millis : ℕ) :
    (l.acquire source started_at_millis now_millis).1.config = l.config := by
  rw [HandshakeAdmissionLimiter.acquire]
  split
  · rfl
  · dsimp only
    split
    · rfl
    · split
      · exact acquire_source_config source now_millis
      · split
        · rfl
        · exact acquire_source_config source now_millis

/-- A permit that is held is taken off both counts. -/
theorem Accounted.drop_permit (h : l.Accounted live) (hlive : permit ∈ live) :
    (l.drop_permit permit).Accounted (live.erase permit) := by
  obtain ⟨entry, hlookup, hcounted⟩ := h.held hlive
  have hpositive : 0 < live.length := List.length_pos_of_mem hlive
  have hlength : (live.erase permit).length = live.length - 1 := List.length_erase_of_mem hlive
  have hsources : (l.drop_permit permit).sources =
      l.sources.insert permit.source { entry with in_flight := entry.in_flight - 1 } := by
    simp only [HandshakeAdmissionLimiter.drop_permit, hlookup]
  have hcounts := in_flight_insert hsources
  have hentry : l.in_flight permit.source = entry.in_flight := in_flight_of_lookup hlookup
  refine ⟨?_, ?_, ?_, ?_, ?_, ?_⟩
  · show l.global_in_flight - 1 = _
    rw [h.global, hlength]
  · have hsum := AList.sum_insert_add
      (w := ({ entry with in_flight := entry.in_flight - 1 } : SourceState))
      (fun _ entry => entry.in_flight) hlookup
    have htotal := h.total
    rw [total_in_flight] at htotal
    rw [total_in_flight, hsources, hlength]
    dsimp only at hsum ⊢
    omega
  · intro other
    rw [hcounts]
    by_cases hother : other = permit.source
    · have hsame : (⟨other⟩ : AdmissionPermit) = permit := by rw [hother]
      rw [if_pos hother, hsame, List.count_erase_self, ← hentry, h.source]
    · have hdifferent : (⟨other⟩ : AdmissionPermit) ≠ permit := by
        rintro rfl
        exact hother rfl
      rw [if_neg hother, List.count_erase_of_ne hdifferent, h.source]
  · show l.global_in_flight - 1 ≤ _
    exact le_trans (Nat.sub_le _ _) h.global_bounded
  · intro other
    rw [hcounts]
    split
    · have hbound := h.source_bounded permit.source
      show entry.in_flight - 1 ≤ l.config.maximum_per_source_in_flight
      omega
    · exact h.source_bounded other
  · show (l.drop_permit permit).sources.len ≤ _
    rw [hsources, AList.len_insert_of_mem (AList.mem_of_lookup hlookup)]
    exact h.sources_bounded

end HandshakeAdmissionLimiter

/-! ## Runs -/

/-- The limiter and the permits that its callers hold. -/
structure LimiterSystem where
  limiter : HandshakeAdmissionLimiter
  live : List AdmissionPermit

inductive LimiterEvent where
  | acquire (source : IpAddr) (started_at_millis now_millis : ℕ)
  | drop (permit : AdmissionPermit)

namespace LimiterSystem

/-- Each step is one critical section. Only a permit that is held can be dropped, and
it is held no more. -/
def step (s : LimiterSystem) :
    LimiterEvent → Option (LimiterSystem × List (Except LimiterError AdmissionPermit))
  | .acquire source started_at_millis now_millis =>
    let r := s.limiter.acquire source started_at_millis now_millis
    some (⟨r.1, HandshakeAdmissionLimiter.granted s.live r.2⟩, [r.2])
  | .drop permit =>
    if permit ∈ s.live then some (⟨s.limiter.drop_permit permit, s.live.erase permit⟩, [])
    else none

/-- What a step leaves alone: an `acquire` keeps the entries of the permits that are
held, and all counts if it is refused; a drop finds something to take off. -/
def Kept (s : LimiterSystem) : LimiterEvent → Prop
  | .acquire source started_at_millis now_millis =>
    let r := s.limiter.acquire source started_at_millis now_millis
    (∀ permit ∈ s.live, permit.source ∈ r.1.sources ∧
      (s.limiter.prune now_millis).sources.lookup permit.source =
        s.limiter.sources.lookup permit.source) ∧
    ∀ error, r.2 = .error error → r.1.global_in_flight = s.limiter.global_in_flight ∧
      ∀ other, r.1.in_flight other = s.limiter.in_flight other
  | .drop permit => permit ∈ s.live → s.limiter.global_in_flight ≠ 0 ∧
      ∃ entry, s.limiter.sources.lookup permit.source = some entry ∧ entry.in_flight ≠ 0

theorem step_accounted {s s' : LimiterSystem} {event : LimiterEvent}
    {results : List (Except LimiterError AdmissionPermit)}
    (h : s.limiter.Accounted s.live) (hstep : s.step event = some (s', results)) :
    s'.limiter.Accounted s'.live ∧ s'.limiter.config = s.limiter.config := by
  cases event with
  | acquire source started_at_millis now_millis =>
    obtain ⟨rfl, -⟩ := step_inj hstep
    exact ⟨h.acquire source started_at_millis now_millis,
      HandshakeAdmissionLimiter.acquire_config source started_at_millis now_millis⟩
  | drop permit =>
    rw [step] at hstep
    split at hstep
    · next hlive =>
      obtain ⟨rfl, -⟩ := step_inj hstep
      exact ⟨h.drop_permit hlive, rfl⟩
    · contradiction

/-- Both counts are what they are by the permits that are held, so a refusal changes neither. -/
theorem kept_of_accounted {s : LimiterSystem} (h : s.limiter.Accounted s.live)
    (event : LimiterEvent) : s.Kept event := by
  cases event with
  | acquire source started_at_millis now_millis =>
    have hafter := h.acquire source started_at_millis now_millis
    refine ⟨?_, ?_⟩
    · intro permit hlive
      obtain ⟨entry, hlookup, hcounts⟩ := h.held hlive
      have hstill : permit ∈ HandshakeAdmissionLimiter.granted s.live
          (s.limiter.acquire source started_at_millis now_millis).2 := by
        cases hresult : (s.limiter.acquire source started_at_millis now_millis).2 with
        | error _ => exact hlive
        | ok _ => exact List.mem_cons_of_mem _ hlive
      obtain ⟨kept, hkept, -⟩ := hafter.held hstill
      refine ⟨AList.mem_of_lookup hkept, ?_⟩
      rw [hlookup, HandshakeAdmissionLimiter.prune_lookup now_millis hlookup hcounts]
    · intro error herror
      rw [herror] at hafter
      refine ⟨?_, ?_⟩
      · rw [hafter.global, h.global]
        rfl
      · intro other
        rw [hafter.source, h.source]
        rfl
  | drop permit =>
    intro hlive
    exact ⟨h.global_ne_zero hlive, h.held hlive⟩

/-- A limiter that was just made holds nothing. -/
theorem new_accounted {config : HandshakeAdmissionLimiterConfig}
    {limiter : HandshakeAdmissionLimiter}
    (h : HandshakeAdmissionLimiter.new config = .ok limiter) :
    limiter.Accounted [] ∧ limiter.config = config := by
  rw [HandshakeAdmissionLimiter.new, Outcome.except_ite_eq_ok] at h
  obtain ⟨-, h⟩ := h
  obtain rfl := Except.ok.inj h
  refine ⟨⟨rfl, rfl, fun _ => rfl, Nat.zero_le _, fun _ => Nat.zero_le _, Nat.zero_le _⟩, rfl⟩

/-- **The books of the limiter.** After any calls and drops both counts are those of the
permits that are held, within the limits; and on the way no held permit lost its entry, no
decrement found a zero, and no refused `acquire` changed a count. -/
theorem permits_accounted {config : HandshakeAdmissionLimiterConfig}
    {limiter : HandshakeAdmissionLimiter} {s : LimiterSystem} {events : List LimiterEvent}
    {results : List (Except LimiterError AdmissionPermit)}
    (hnew : HandshakeAdmissionLimiter.new config = .ok limiter)
    (hrun : exec step ⟨limiter, []⟩ events = some (s, results)) :
    (s.limiter.global_in_flight = s.live.length ∧
      s.limiter.global_in_flight = s.limiter.total_in_flight ∧
      (∀ source, s.limiter.in_flight source = s.live.count ⟨source⟩) ∧
      s.limiter.global_in_flight ≤ config.maximum_global_in_flight ∧
      (∀ source, s.limiter.in_flight source ≤ config.maximum_per_source_in_flight) ∧
      s.limiter.sources.len ≤ config.source_capacity) ∧
    Along step Kept ⟨limiter, []⟩ events := by
  obtain ⟨hstart, hconfig⟩ := new_accounted hnew
  have hstep : ∀ t event t' results', t.limiter.Accounted t.live ∧ t.limiter.config = config →
      True → step t event = some (t', results') →
      t'.limiter.Accounted t'.live ∧ t'.limiter.config = config := by
    rintro t event t' results' ⟨ht, hsame⟩ - hstep
    obtain ⟨ht', hsame'⟩ := step_accounted ht hstep
    exact ⟨ht', hsame'.trans hsame⟩
  constructor
  · obtain ⟨hs, rfl⟩ := exec_along_invariant
      (I := fun t : LimiterSystem => t.limiter.Accounted t.live ∧ t.limiter.config = config) hstep
      ⟨hstart, hconfig⟩ (along_true _ _) hrun
    exact ⟨hs.global, by rw [hs.global, hs.total], hs.source, hs.global_bounded, hs.source_bounded,
      hs.sources_bounded⟩
  · exact along_of_invariant hstep (fun t event ht _ => kept_of_accounted ht.1 event)
      ⟨hstart, hconfig⟩ (along_true _ _)

/-- Two sources, one of which comes back for more, and a third that waits for a slot and for
the table. -/
def contended : List LimiterEvent :=
  [.acquire (.V4 1) 0 0, .acquire (.V4 1) 0 0, .acquire (.V4 2) 0 0, .acquire (.V4 3) 0 0,
    .drop ⟨.V4 1⟩, .acquire (.V4 3) 0 0, .acquire (.V4 3) 11 11, .drop ⟨.V4 2⟩]

theorem permits_accounted_contended :
    ∃ limiter s results, exec step ⟨limiter, []⟩ contended = some (s, results) ∧
      s.live = [⟨.V4 3⟩] ∧ s.limiter.global_in_flight = s.live.length ∧
      Along step Kept ⟨limiter, []⟩ contended := by
  have hnew : HandshakeAdmissionLimiter.new ⟨2, 10, 1, 2, 5⟩ = .ok ⟨⟨2, 10, 1, 2, 5⟩, ∅, 0⟩ := rfl
  have hany : (exec step ⟨⟨⟨2, 10, 1, 2, 5⟩, ∅, 0⟩, []⟩ contended).any
      (fun r => decide (r.1.live = [⟨.V4 3⟩])) = true := by
    decide
  obtain ⟨r, hrun, hlive⟩ := (Option.any_eq_true _ _).mp hany
  have haccounted := permits_accounted hnew hrun
  exact ⟨_, r.1, r.2, hrun, of_decide_eq_true hlive, haccounted.1.1, haccounted.2⟩

end LimiterSystem

end StreamGuard.Gateway
