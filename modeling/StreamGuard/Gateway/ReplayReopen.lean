/-
When the redemption journal can be reopened.

The verifier accepts every canonical identity as a ticket's, the all-zero one
included, and the cache consumes and writes it; the reader takes an all-zero
identity for corruption. Everything else the verifier lets through, up to the
last expiry a word can hold, is written and read back unchanged.
-/
import StreamGuard.Gateway.ReplayCache

set_option autoImplicit false

namespace StreamGuard.Gateway

open StreamGuard StreamGuard.Lib

/-! ## What the writer takes -/

/-- Entries as consumes leave them: few enough, and with times that lie past the skew
and fit a word. -/
structure Storable (entries : ReplayEntries) : Prop where
  capacity : entries.len ≤ MAX_REPLAY_ENTRIES_HARD_CAP
  past_skew : ∀ ticket_id retained_until, entries.lookup ticket_id = some retained_until →
    REPLAY_EXPIRY_SKEW_SECONDS < retained_until
  bounded : RedemptionSystem.Bounded entries

/-- The journal is written, and at every time it is read back for the same gateway as
the entries still retained. -/
def Reopens (gateway_name : String) (entries : ReplayEntries) : Prop :=
  ∃ bytes, journal_bytes gateway_name entries = .ok bytes ∧
    ∀ now_unix_seconds, ∃ loaded,
      read_replay_journal (.present bytes) gateway_name now_unix_seconds = .ok loaded ∧
      ∀ ticket_id, loaded.lookup ticket_id =
        (entries.retain fun _ retained_until => now_unix_seconds < retained_until).lookup ticket_id

section Writing

variable {gateway_name : String} {entries : ReplayEntries}

theorem write_records_ok {l : List (Σ _ : TicketId, ℕ)}
    (h : ∀ e ∈ l, REPLAY_EXPIRY_SKEW_SECONDS < e.2) :
    ∃ records, write_records l = .ok records ∧ records.length = l.length * REPLAY_RECORD_LEN := by
  induction l with
  | nil => exact ⟨[], rfl, rfl⟩
  | cons e l ih =>
    obtain ⟨ticket_id, retained_until⟩ := e
    obtain ⟨records, hrecords, hlength⟩ := ih fun e he => h e (List.mem_cons_of_mem _ he)
    have hlive : REPLAY_EXPIRY_SKEW_SECONDS < retained_until := h _ List.mem_cons_self
    have hpositive : retained_until - REPLAY_EXPIRY_SKEW_SECONDS ≠ 0 := by omega
    refine ⟨id_bytes ticket_id.bytes ++ (U64.to_be_bytes (Fin.ofNat _
      (retained_until - REPLAY_EXPIRY_SKEW_SECONDS)) ++ records), ?_, ?_⟩
    · rw [write_records, hrecords]
      simp only [hpositive, ↓reduceIte]
      rfl
    · rw [List.length_append, List.length_append, id_bytes, length_array_bytes,
        U64.length_to_be_bytes, hlength, List.length_cons, REPLAY_RECORD_LEN]
      omega

/-- Storable entries are always written. -/
theorem Storable.written (h : Storable entries)
    (hname : validate_journal_gateway_name gateway_name = .ok ()) :
    ∃ bytes, journal_bytes gateway_name entries = .ok bytes := by
  have hperm := sorted_entries_perm entries
  obtain ⟨records, hrecords, hlength⟩ := write_records_ok fun e he =>
    h.past_skew _ _ (AList.mem_entries_iff.mp (hperm.mem_iff.mp he))
  have hshort : gateway_name.utf8ByteSize ≤ MAX_JOURNAL_GATEWAY_NAME_LEN := by
    have hvalid := hname
    rw [validate_journal_gateway_name] at hvalid
    obtain ⟨hchecks, -⟩ := Outcome.except_ite_eq_ok.mp hvalid
    simp only [not_or, not_lt] at hchecks
    exact hchecks.2.1
  have hcount : (sorted_entries entries).length ≤ MAX_REPLAY_ENTRIES_HARD_CAP := by
    rw [hperm.length_eq]
    exact h.capacity
  have hsize : (journal_header gateway_name ++ (utf8Bytes gateway_name ++ records)).length ≤
      MAX_REPLAY_JOURNAL_BYTES := by
    simp only [journal_header, REPLAY_JOURNAL_MAGIC, List.length_append, List.length_cons,
      List.length_nil, length_utf8Bytes, hlength]
    unfold MAX_REPLAY_JOURNAL_BYTES MAX_JOURNAL_GATEWAY_NAME_LEN at *
    unfold REPLAY_RECORD_LEN
    omega
  refine ⟨journal_header gateway_name ++ (utf8Bytes gateway_name ++ records), ?_⟩
  rw [journal_bytes]
  refine Outcome.except_bind_eq_ok.mpr ⟨(), hname, ?_⟩
  refine Outcome.except_ite_eq_ok.mpr ⟨Nat.not_lt.mpr h.capacity, ?_⟩
  refine Outcome.except_bind_eq_ok.mpr ⟨records, hrecords, ?_⟩
  exact Outcome.except_ite_eq_ok.mpr ⟨Nat.not_lt.mpr hsize, rfl⟩

/-- A journal with the all-zero identity is corrupt at every time. -/
theorem Storable.corrupt (h : Storable entries)
    (hname : validate_journal_gateway_name gateway_name = .ok ()) {bytes : Bytes}
    (hbytes : journal_bytes gateway_name entries = .ok bytes) (hzero : (⟨0⟩ : TicketId) ∈ entries)
    (now_unix_seconds : ℕ) :
    read_replay_journal (.present bytes) gateway_name now_unix_seconds = .err .Corrupt := by
  rw [read_replay_journal, hname]
  show read_journal bytes gateway_name now_unix_seconds = _
  rw [read_journal_bytes hbytes h.bounded, if_neg (not_not.mpr rfl), if_pos hzero]

theorem Storable.reopens_iff (h : Storable entries)
    (hname : validate_journal_gateway_name gateway_name = .ok ()) :
    Reopens gateway_name entries ↔ (⟨0⟩ : TicketId) ∉ entries := by
  constructor
  · rintro ⟨bytes, hbytes, hreads⟩ hzero
    obtain ⟨loaded, hread, -⟩ := hreads 0
    rw [h.corrupt hname hbytes hzero] at hread
    contradiction
  · intro hzero
    obtain ⟨bytes, hbytes⟩ := h.written hname
    refine ⟨bytes, hbytes, ?_⟩
    intro now_unix_seconds
    refine ⟨(sorted_entries entries).foldl (load now_unix_seconds) ∅, ?_,
      load_lookup entries now_unix_seconds⟩
    rw [read_replay_journal, hname]
    show read_journal bytes gateway_name now_unix_seconds = _
    rw [read_journal_bytes hbytes h.bounded, if_neg (not_not.mpr rfl), if_neg hzero]

end Writing

/-! ## Redeeming verified tickets -/

/-- A consume of a ticket as the verifier passes it on: its `jti` is a canonical
identity and its expiry, a word, is later than now. -/
structure TicketCall where
  jti : String
  exp : ℕ
  now_unix_seconds : ℕ
  write : AtomicWrite

namespace TicketCall

/-- The call reports whether the ticket was redeemed. -/
def step (s : ReplayCache × JournalFile) (call : TicketCall) :
    Option ((ReplayCache × JournalFile) × List Bool) :=
  match parse_identifier call.jti with
  | none => none
  | some ticket_id =>
    if call.now_unix_seconds < call.exp ∧ call.exp ≤ u64Max then
      let r := s.1.consume s.2 ⟨ticket_id⟩ call.exp call.now_unix_seconds call.write
      some ((r.cache, r.file), [r.result.isOk])
    else none

end TicketCall

/-- A cache that has consumed nothing yet. -/
structure ReplayCache.Unused (c : ReplayCache) : Prop where
  entries : c.entries = ∅
  capacity : c.capacity ≤ MAX_REPLAY_ENTRIES_HARD_CAP

theorem ReplayCache.new_unused {capacity : ℕ} {c : ReplayCache}
    (h : ReplayCache.new capacity = .ok c) : c.Unused := by
  rw [ReplayCache.new] at h
  obtain ⟨hcapacity, h⟩ := Outcome.except_ite_eq_ok.mp h
  rw [← Except.ok.inj h]
  push Not at hcapacity
  exact ⟨rfl, hcapacity.2⟩

section Redeeming

variable {gateway_name : String} {c c₀ : ReplayCache} {file file₀ : JournalFile}
  {calls : List TicketCall} {answers : List Bool}

/-- What every reached cache satisfies. -/
structure ReplayCache.Kept (c : ReplayCache) : Prop where
  storable : Storable c.entries
  capacity : c.capacity ≤ MAX_REPLAY_ENTRIES_HARD_CAP

theorem ReplayCache.Unused.kept (h : c.Unused) : c.Kept := by
  refine ⟨⟨?_, ?_, ?_⟩, h.capacity⟩
  · simp [h.entries]
  · simp [h.entries]
  · intro ticket_id retained_until hl
    simp [h.entries] at hl

theorem Storable.unexpired (h : Storable c.entries) (now_unix_seconds : ℕ) :
    Storable (c.unexpired now_unix_seconds) :=
  ⟨AList.len_retain_le.trans h.capacity,
    fun _ _ hl => h.past_skew _ _ (AList.lookup_retain_eq_some.mp hl).1,
    RedemptionSystem.bounded_unexpired h.bounded now_unix_seconds⟩

/-- One consume keeps the entries storable, and the all-zero identity comes only with a
ticket that has it. -/
theorem TicketCall.step_kept {call : TicketCall} (h : c.Kept)
    (hs : TicketCall.step (c, file₀) call = some ((c₀, file), answers)) :
    c₀.Kept ∧ (parse_identifier call.jti ≠ some 0 → (⟨0⟩ : TicketId) ∉ c.entries →
      (⟨0⟩ : TicketId) ∉ c₀.entries) := by
  unfold TicketCall.step at hs
  split at hs
  · contradiction
  next ticket_id hticket =>
  obtain ⟨⟨hvalid, hword⟩, hs⟩ := Option.ite_none_right_eq_some.mp hs
  simp only [Option.some.injEq, Prod.mk.injEq] at hs
  obtain ⟨⟨rfl, rfl⟩, -⟩ := hs
  obtain ⟨hcapacity, -⟩ := c.consume_settings file₀ ⟨ticket_id⟩ call.exp call.now_unix_seconds
    call.write
  have hunexpired := h.storable.unexpired call.now_unix_seconds
  have hzero : (⟨0⟩ : TicketId) ∉ c.entries →
      (⟨0⟩ : TicketId) ∉ c.unexpired call.now_unix_seconds := by
    intro hzero hmem
    obtain ⟨retained_until, hl⟩ := AList.mem_iff_lookup.mp hmem
    exact hzero (AList.mem_of_lookup (AList.lookup_retain_eq_some.mp hl).1)
  rcases c.consume_cases file₀ ⟨ticket_id⟩ call.exp call.now_unix_seconds call.write with
    ⟨-, hfails⟩ | ⟨-, hredeems⟩
  · rw [hfails.entries]
    refine ⟨⟨?_, by rw [hcapacity]; exact h.capacity⟩, fun _ => hzero⟩
    rw [hfails.entries]
    exact hunexpired
  · have hroom := hredeems.room
    rw [hredeems.entries]
    refine ⟨⟨?_, by rw [hcapacity]; exact h.capacity⟩, ?_⟩
    · rw [hredeems.entries]
      refine ⟨?_, ?_, RedemptionSystem.bounded_redeemed h.storable.bounded _ _ _⟩
      · exact (AList.len_insert_le _ _ _).trans (hroom.trans_le h.capacity)
      · intro id retained_until hl
        rw [ReplayCache.redeemed_entries, AList.lookup_insert_of] at hl
        split at hl
        · -- the expiry is positive, and saturation stops far beyond the skew
          rw [← Option.some.inj hl, saturatingAdd]
          unfold REPLAY_EXPIRY_SKEW_SECONDS u64Max
          omega
        · exact hunexpired.past_skew _ _ hl
    · intro hnonzero hold hmem
      rcases (AList.mem_insert _).mp hmem with hid | hmem
      · rw [TicketId.mk.injEq] at hid
        rw [← hid] at hticket
        exact hnonzero hticket
      · exact hzero hold hmem

theorem TicketCall.run_kept (hunused : c₀.Unused)
    (hrun : exec TicketCall.step (c₀, file₀) calls = some ((c, file), answers)) : c.Kept :=
  exec_invariant (I := fun s : ReplayCache × JournalFile => s.1.Kept)
    (fun _ _ _ _ h hs => (TicketCall.step_kept h hs).1) hunused.kept hrun

/-- **When the journal can be reopened.** For every gateway name the writer accepts and
the entries of every run of consumes of verified tickets: the journal is written and
at every time read back as the entries still retained, if and only if the all-zero
identity is not among them. In a run that never presents it this is so at the end. -/
theorem journal_reopens_iff (hname : validate_journal_gateway_name gateway_name = .ok ())
    (hunused : c₀.Unused)
    (hrun : exec TicketCall.step (c₀, file₀) calls = some ((c, file), answers)) :
    (Reopens gateway_name c.entries ↔ (⟨0⟩ : TicketId) ∉ c.entries) ∧
    (Along TicketCall.step (fun _ call => parse_identifier call.jti ≠ some 0) (c₀, file₀) calls →
      Reopens gateway_name c.entries) := by
  have hiff := (TicketCall.run_kept hunused hrun).storable.reopens_iff hname
  refine ⟨hiff, ?_⟩
  intro hnonzero
  have hstart : c₀.Kept ∧ (⟨0⟩ : TicketId) ∉ c₀.entries :=
    ⟨hunused.kept, by rw [hunused.entries]; exact AList.notMem_empty _⟩
  have hend := exec_along_invariant
    (I := fun s : ReplayCache × JournalFile => s.1.Kept ∧ (⟨0⟩ : TicketId) ∉ s.1.entries)
    (fun s call s' o h hcall hs => by
      obtain ⟨hstep, hzero⟩ := TicketCall.step_kept h.1 hs
      exact ⟨hstep, hzero hcall h.2⟩) hstart hnonzero hrun
  exact hiff.mpr hend.2

end Redeeming

/-! ## The all-zero ticket -/

/-- A cache of eight entries, not yet used. -/
def small_cache : ReplayCache := ⟨8, ∅, 0, 0, 0, none⟩

theorem small_cache_unused : small_cache.Unused := @ReplayCache.new_unused 8 _ rfl

/-- A ticket with the last expiry there is, redeemed. -/
def last_expiry_calls : List TicketCall :=
  [⟨"00000000-0000-0000-0000-000000000001", u64Max, 100, .written⟩]

theorem journal_reopens_last_expiry : ∃ c file answers,
    exec TicketCall.step (small_cache, .missing) last_expiry_calls = some ((c, file), answers) ∧
      Reopens "g" c.entries := by
  have hrun : (exec TicketCall.step (small_cache, .missing) last_expiry_calls).isSome = true := by
    decide
  obtain ⟨⟨⟨c, file⟩, answers⟩, hrun⟩ := Option.isSome_iff_exists.mp hrun
  exact ⟨c, file, answers, hrun, (journal_reopens_iff (by decide) small_cache_unused
    hrun).2 (by decide)⟩

def nil_claims : WireClaims where
  jti := "00000000-0000-0000-0000-000000000000"
  iss := "controller"
  aud := "gateway"
  device := "00000000-0000-0000-0000-000000000001"
  organization := "00000000-0000-0000-0000-000000000002"
  session := "00000000-0000-0000-0000-000000000003"
  iat := 90
  exp := 200
  policy_version := 1
  regions := ["eu"]
  nonce := "00000000-0000-0000-0000-000000000004"

/-- The verifier accepts a ticket with the all-zero identity, the cache redeems it, and
its journal is never read again. -/
theorem nil_ticket_locks_journal :
    (TicketVerifier.verify_claims ⟨"controller", "gateway", "eu"⟩ ⟨[], [], 1000⟩ 100 ⟨1⟩
      nil_claims).map (fun ticket => ticket.ticket_id) = .ok ⟨0⟩ ∧
    ¬∀ (gateway_name : String) (c₀ c : ReplayCache) (file₀ file : JournalFile)
      (calls : List TicketCall) (answers : List Bool),
      validate_journal_gateway_name gateway_name = .ok () → c₀.Unused →
      exec TicketCall.step (c₀, file₀) calls = some ((c, file), answers) →
      Reopens gateway_name c.entries := by
  refine ⟨by decide, ?_⟩
  intro hclaim
  have hname : validate_journal_gateway_name "g" = .ok () := by decide
  have hrun : (exec TicketCall.step (small_cache, .missing)
      [⟨nil_claims.jti, 200, 100, .written⟩]).map
        (fun r => decide ((⟨0⟩ : TicketId) ∈ r.1.1.entries)) = some true := by
    decide
  obtain ⟨⟨⟨c, file⟩, answers⟩, hrun, hzero⟩ := Option.map_eq_some_iff.mp hrun
  have hreopens := hclaim "g" small_cache c .missing file _ answers hname small_cache_unused hrun
  have hkept := TicketCall.run_kept small_cache_unused hrun
  exact (hkept.storable.reopens_iff hname).mp hreopens (of_decide_eq_true hzero)

end StreamGuard.Gateway
