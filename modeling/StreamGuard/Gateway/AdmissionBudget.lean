/-
What the verification budget measures.

`accept_one_at` samples the clock before it waits for the next connection, and the
limiter of `admit_async` charges everything since that sample to the client: the
idle wait of the loop, and the handshake and the control read of this connection.
`budget_charges_client_iff` says exactly when that is the same as charging the
client's own time.
-/
import StreamGuard.Gateway.Admission

set_option autoImplicit false

namespace StreamGuard.Gateway

open StreamGuard StreamGuard.Lib

namespace HandshakeAdmissionLimiter

variable {l : HandshakeAdmissionLimiter} {source : IpAddr}

/-! ## Capacity -/

/-- The limiter has room for one more attempt of the source. -/
structure Free (l : HandshakeAdmissionLimiter) (source : IpAddr) : Prop where
  global : l.global_in_flight < l.config.maximum_global_in_flight
  per_source : 0 < l.config.maximum_per_source_in_flight
  in_flight : ∀ {entry}, l.sources.lookup source = some entry →
    entry.in_flight < l.config.maximum_per_source_in_flight
  bounded : l.sources.len ≤ l.config.source_capacity
  room : source ∉ l.sources → l.sources.len < l.config.source_capacity

theorem Free.prune (h : l.Free source) (now_millis : ℕ) : (l.prune now_millis).Free source := by
  refine ⟨h.global, h.per_source, ?_, ?_, ?_⟩
  · intro entry he
    exact h.in_flight (AList.lookup_retain_eq_some.mp he).1
  · exact le_trans AList.len_retain_le h.bounded
  · intro hnot
    by_cases hmem : source ∈ l.sources
    · exact lt_of_lt_of_le (AList.len_retain_lt hmem hnot) h.bounded
    · exact lt_of_le_of_lt AList.len_retain_le (h.room hmem)

/-- A source with an entry and a free slot gets its permit, and once the permit is
dropped the limiter is as free as before. -/
theorem Free.acquire_source (h : l.Free source) (now_millis : ℕ) (hmem : source ∈ l.sources) :
    ∃ l', l.acquire_source source now_millis = (l', .ok ⟨source⟩) ∧ l'.config = l.config ∧
      (l'.drop_permit ⟨source⟩).Free source := by
  obtain ⟨entry, he⟩ := AList.mem_iff_lookup.mp hmem
  have hslot := h.in_flight he
  refine ⟨{ l with
    sources := l.sources.insert source ⟨entry.in_flight + 1, now_millis⟩
    global_in_flight := l.global_in_flight + 1 }, ?_, rfl, ?_⟩
  · rw [HandshakeAdmissionLimiter.acquire_source, he]
    dsimp only
    rw [if_neg (Nat.not_le.mpr hslot)]
  · rw [drop_permit]
    simp only [AList.lookup_insert]
    have hlen : ((l.sources.insert source ⟨entry.in_flight + 1, now_millis⟩).insert source
        ⟨entry.in_flight + 1 - 1, now_millis⟩).len = l.sources.len := by
      rw [AList.len_insert_of_mem ((AList.mem_insert _).mpr (.inl rfl)), AList.len_insert_of_mem hmem]
    refine ⟨h.global, h.per_source, ?_, ?_, ?_⟩
    · intro entry' he'
      rw [AList.lookup_insert, Option.some.injEq] at he'
      subst he'
      exact hslot
    · exact le_of_eq_of_le hlen h.bounded
    · intro hnot
      exact absurd ((AList.mem_insert _).mpr (.inl rfl)) hnot

/-- **Within the budget a free limiter gives a permit**, and it is as free again
once the permit is dropped. -/
theorem Free.acquire (h : l.Free source) (started_at_millis now_millis : ℕ)
    (hbudget : now_millis - started_at_millis ≤ l.config.maximum_verification_budget_millis) :
    ∃ l', l.acquire source started_at_millis now_millis = (l', .ok ⟨source⟩) ∧
      l'.config = l.config ∧ (l'.drop_permit ⟨source⟩).Free source := by
  have hpruned := h.prune now_millis
  rw [HandshakeAdmissionLimiter.acquire, if_neg (Nat.not_lt.mpr hbudget)]
  dsimp only
  rw [if_neg (Nat.not_le.mpr hpruned.global)]
  by_cases hmem : source ∈ (l.prune now_millis).sources
  · rw [if_pos hmem]
    exact hpruned.acquire_source now_millis hmem
  · rw [if_neg hmem, if_neg (Nat.not_le.mpr (hpruned.room hmem))]
    have hfree : Free { l.prune now_millis with
        sources := (l.prune now_millis).sources.insert source ⟨0, now_millis⟩ } source := by
      refine ⟨hpruned.global, h.per_source, ?_, ?_, ?_⟩
      · intro entry he
        rw [AList.lookup_insert, Option.some.injEq] at he
        subst he
        exact h.per_source
      · have hlen := AList.len_insert_of_notMem (v := (⟨0, now_millis⟩ : SourceState)) hmem
        have hroom := hpruned.room hmem
        dsimp only
        omega
      · intro hnot
        exact absurd ((AList.mem_insert _).mpr (.inl rfl)) hnot
    exact hfree.acquire_source now_millis ((AList.mem_insert _).mpr (.inl rfl))

/-- Past the budget nothing else is looked at. -/
theorem acquire_over_budget (started_at_millis now_millis : ℕ)
    (hbudget : l.config.maximum_verification_budget_millis < now_millis - started_at_millis) :
    l.acquire source started_at_millis now_millis = (l, .error .BudgetExceeded) :=
  if_pos hbudget

end HandshakeAdmissionLimiter

/-! ## The accept path -/

/-- The limiter calls of one pass of `accept_one_at` that was called at `now`: the
connection arrives `wait_ms` later, and its `ClientHello` is read `read_ms` after
that. The handshake permit is dropped before the control stream is opened. -/
def verification_limit (l : HandshakeAdmissionLimiter) (source : IpAddr) (now : AdmissionTime)
    (wait_ms read_ms : ℕ) (ticket : Except TicketVerificationError VerifiedAdmissionTicket) :
    HandshakeAdmissionLimiter ×
      Except AdmissionError (AdmissionPermit × VerifiedAdmissionTicket) :=
  match l.acquire_handshake source now with
  | (l, .error e) => (l, .error e)
  | (l, .ok handshake_permit) =>
    let admission_now := advance_admission_time now (wait_ms + read_ms)
    admit_begin (l.drop_permit handshake_permit) source ticket now.monotonic_millis admission_now

/-- What the limiter takes for the verification time: everything since the sample,
as far as the clock can count. -/
theorem charged_eq (now : AdmissionTime) (elapsed_millis : ℕ)
    (hnow : now.monotonic_millis ≤ u64Max) :
    (advance_admission_time now elapsed_millis).monotonic_millis - now.monotonic_millis =
      min elapsed_millis (u64Max - now.monotonic_millis) := by
  have hmono : (advance_admission_time now elapsed_millis).monotonic_millis =
      min (now.monotonic_millis + min elapsed_millis u64Max) u64Max := rfl
  rw [hmono]
  omega

/-- With room in the limiter, the connection is rejected as limited exactly when
the time since the sample is over the budget. -/
theorem verification_limit_rejects_iff {l : HandshakeAdmissionLimiter} {source : IpAddr}
    {now : AdmissionTime} (wait_ms read_ms : ℕ)
    (ticket : Except TicketVerificationError VerifiedAdmissionTicket) (hfree : l.Free source)
    (hnow : now.monotonic_millis ≤ u64Max) :
    (verification_limit l source now wait_ms read_ms ticket).2 = .error .Limited ↔
      l.config.maximum_verification_budget_millis <
        min (wait_ms + read_ms) (u64Max - now.monotonic_millis) := by
  -- the handshake permit costs no budget
  obtain ⟨handshake, hacquire, hconfig, hdropped⟩ := hfree.acquire
    now.monotonic_millis now.monotonic_millis (by omega)
  have hlimit : verification_limit l source now wait_ms read_ms ticket =
      admit_begin (handshake.drop_permit ⟨source⟩) source ticket now.monotonic_millis
        (advance_admission_time now (wait_ms + read_ms)) := by
    rw [verification_limit, HandshakeAdmissionLimiter.acquire_handshake, hacquire]
    rfl
  have hbudget : (handshake.drop_permit ⟨source⟩).config = l.config := hconfig
  rw [hlimit, ← charged_eq now _ hnow, ← hbudget, admit_begin]
  by_cases hover : (handshake.drop_permit ⟨source⟩).config.maximum_verification_budget_millis <
      (advance_admission_time now (wait_ms + read_ms)).monotonic_millis - now.monotonic_millis
  · rw [HandshakeAdmissionLimiter.acquire_over_budget _ _ hover]
    exact ⟨fun _ => hover, fun _ => rfl⟩
  · obtain ⟨verified, hverify, -, -⟩ := hdropped.acquire _ _ (Nat.not_lt.mp hover)
    rw [hverify]
    refine ⟨fun hlimited => ?_, fun h => absurd h hover⟩
    cases ticket with
    | error e => cases hlimited
    | ok ticket => cases hlimited

/-- **When the budget charges the client and nobody else.** With room in the
limiter, `admit_async` is rejected for the budget exactly when the client itself
took longer, if and only if the idle wait did not use the budget up for it: the
client was slow anyway, or wait and client together stayed within it. The clock's
last milliseconds can hide either. -/
theorem budget_charges_client_iff {l : HandshakeAdmissionLimiter} {source : IpAddr}
    {now : AdmissionTime} (wait_ms read_ms : ℕ)
    (ticket : Except TicketVerificationError VerifiedAdmissionTicket) (hfree : l.Free source)
    (hnow : now.monotonic_millis ≤ u64Max) :
    ((verification_limit l source now wait_ms read_ms ticket).2 = .error .Limited ↔
        l.config.maximum_verification_budget_millis < read_ms) ↔
      if l.config.maximum_verification_budget_millis < read_ms then
        l.config.maximum_verification_budget_millis < u64Max - now.monotonic_millis
      else
        wait_ms + read_ms ≤ l.config.maximum_verification_budget_millis ∨
          u64Max - now.monotonic_millis ≤ l.config.maximum_verification_budget_millis := by
  rw [verification_limit_rejects_iff wait_ms read_ms ticket hfree hnow]
  split
  · omega
  · omega

namespace BudgetSample

def config : HandshakeAdmissionLimiterConfig := ⟨1024, 60000, 4, 64, 10000⟩

def limiter : HandshakeAdmissionLimiter := ⟨config, ∅, 0⟩

def source : IpAddr := .V4 0x0a000001

def ticket : VerifiedAdmissionTicket := ⟨⟨1⟩, ⟨2⟩, ⟨3⟩, ⟨4⟩, 1000, 1⟩

theorem limiter_free : limiter.Free source := by
  refine ⟨by decide, by decide, ?_, by decide, fun _ => by decide⟩
  intro entry he
  cases he

end BudgetSample

open BudgetSample in
theorem budget_charges_client_sample :
    ((verification_limit limiter source ⟨500, 7000⟩ 2000 300 (.ok ticket)).2 = .error .Limited ↔
      (10000 : ℕ) < 300) := by
  refine (budget_charges_client_iff 2000 300 (.ok ticket) limiter_free (by decide)).mpr ?_
  decide

open BudgetSample in
/-- The loop waits a little longer than the budget; a client that answers at once
is rejected. -/
theorem idle_wait_charged_to_client :
    HandshakeAdmissionLimiter.new config = .ok limiter ∧ limiter.Free source ∧
      ¬ ((verification_limit limiter source ⟨500, 0⟩ 10001 0 (.ok ticket)).2 = .error .Limited ↔
        config.maximum_verification_budget_millis < 0) := by
  refine ⟨rfl, limiter_free, ?_⟩
  rw [verification_limit_rejects_iff 10001 0 (.ok ticket) limiter_free (by decide)]
  decide

end StreamGuard.Gateway
