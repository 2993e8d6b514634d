/-
The replay cache: `ReplayCache` of `streamguard-gateway/src/v2/admission.rs`.

A ticket is redeemed under one lock, journal write included, so a consume is one
step; a crash is a step too, and one in the middle of a journal write leaves the
old or the new file. The file outlives the process, the cache does not.

`Sound` is the invariant: while a redeemed ticket may still come again, the cache
holds it and so does every cache opened from the file.
-/
import StreamGuard.Gateway.ReplayJournal
import StreamGuard.Lib.Run

set_option autoImplicit false

namespace StreamGuard.Gateway

open StreamGuard StreamGuard.Lib

/-! ## The cache -/

/-- `journal_gateway` is the name a durable cache writes into its journal. The lock of
the entries is not poisoned, since nothing panics under it. -/
structure ReplayCache where
  capacity : ℕ
  entries : ReplayEntries
  replay_rejected : U64
  capacity_rejected : U64
  expired : U64
  journal_gateway : Option String

namespace ReplayCache

def new (capacity : ℕ) : Except AdmissionError ReplayCache :=
  if capacity = 0 ∨ MAX_REPLAY_ENTRIES_HARD_CAP < capacity then .error .InvalidConfiguration
  else .ok ⟨capacity, ∅, 0, 0, 0, none⟩

/-- `ReplayCache::open_durable`: read the journal, check the capacity, rewrite the file
to its canonical form. -/
def open_durable (file : JournalFile) (gateway_name : String) (capacity now_unix_seconds : ℕ)
    (write : AtomicWrite) : JournalFile × Outcome AdmissionError ReplayCache :=
  if capacity = 0 ∨ MAX_REPLAY_ENTRIES_HARD_CAP < capacity then (file, .err .InvalidConfiguration)
  else match read_replay_journal file gateway_name now_unix_seconds with
    | .panic => (file, .panic)
    | .err _ => (file, .err .ReplayStore)
    | .ok loaded =>
      if capacity < loaded.len then (file, .err .ReplayStore)
      else match rewrite_replay_journal file gateway_name loaded write with
        | (file, .error _) => (file, .err .ReplayStore)
        | (file, .ok _) => (file, .ok ⟨capacity, loaded, 0, 0, 0, some gateway_name⟩)

/-- The entries still retained at a time. -/
def unexpired (c : ReplayCache) (now_unix_seconds : ℕ) : ReplayEntries :=
  c.entries.retain fun _ retained_until => now_unix_seconds < retained_until

/-- The pruning every consume begins with. -/
def prune (c : ReplayCache) (now_unix_seconds : ℕ) : ReplayCache :=
  let entries := c.unexpired now_unix_seconds
  { c with entries, expired := c.expired + Fin.ofNat _ (c.entries.len - entries.len) }

/-- What a consume leaves behind: the cache, the file, and the answer. -/
structure Consumed where
  cache : ReplayCache
  file : JournalFile
  result : Except ReplayCacheError Unit

/-- The end of a consume: the ticket is in `entries`, and a durable cache writes them to
its journal. A failed write takes the ticket out again. -/
def persist (c : ReplayCache) (file : JournalFile) (ticket_id : TicketId) (entries : ReplayEntries)
    (write : AtomicWrite) : Consumed :=
  match c.journal_gateway with
  | none => ⟨{ c with entries }, file, .ok ()⟩
  | some gateway =>
    match rewrite_replay_journal file gateway entries write with
    | (file, .error _) =>
      ⟨{ c with entries := entries.erase ticket_id }, file, .error .Unavailable⟩
    | (file, .ok _) => ⟨{ c with entries }, file, .ok ()⟩

/-- `ReplayCache::consume`. -/
def consume (c : ReplayCache) (file : JournalFile) (ticket_id : TicketId)
    (ticket_expiry_unix_seconds now_unix_seconds : ℕ) (write : AtomicWrite) : Consumed :=
  let c := c.prune now_unix_seconds
  if ticket_id ∈ c.entries then
    ⟨{ c with replay_rejected := c.replay_rejected + 1 }, file, .error .Replay⟩
  else if c.capacity ≤ c.entries.len then
    ⟨{ c with capacity_rejected := c.capacity_rejected + 1 }, file, .error .Capacity⟩
  else
    c.persist file ticket_id (c.entries.insert ticket_id
      (saturatingAdd ticket_expiry_unix_seconds REPLAY_EXPIRY_SKEW_SECONDS)) write

/-! ### What a call can do -/

/-- A rewrite leaves the file or puts the journal of the entries there; it succeeds only
with the latter. -/
theorem rewrite_cases (file : JournalFile) (gateway_name : String) (entries : ReplayEntries)
    (write : AtomicWrite) :
    let r := rewrite_replay_journal file gateway_name entries write
    (r.1 = file ∧ ∃ error, r.2 = .error error) ∨
      ∃ bytes, journal_bytes gateway_name entries = .ok bytes ∧ r.1 = .present bytes := by
  intro r
  unfold r rewrite_replay_journal
  cases hbytes : journal_bytes gateway_name entries with
  | error error => exact .inl ⟨rfl, error, rfl⟩
  | ok bytes =>
    cases write with
    | written => exact .inr ⟨bytes, rfl, rfl⟩
    | failed renamed =>
      cases renamed with
      | false => exact .inl ⟨rfl, _, rfl⟩
      | true => exact .inr ⟨bytes, rfl, rfl⟩

/-- The file is unchanged or holds the journal of some entries. -/
def Rewrites (file file' : JournalFile) (entries : ReplayEntries) : Prop :=
  file' = file ∨
    ∃ gateway_name bytes, journal_bytes gateway_name entries = .ok bytes ∧ file' = .present bytes

theorem open_durable_cases (file : JournalFile) (gateway_name : String)
    (capacity now_unix_seconds : ℕ) (write : AtomicWrite) :
    let r := open_durable file gateway_name capacity now_unix_seconds write
    ((∀ c, r.2 ≠ .ok c) ∧ r.1 = file) ∨
      ∃ loaded, read_replay_journal file gateway_name now_unix_seconds = .ok loaded ∧
        Rewrites file r.1 loaded ∧ ∀ c, r.2 = .ok c → c.entries = loaded ∧
          c.capacity ≤ MAX_REPLAY_ENTRIES_HARD_CAP ∧ c.entries.len ≤ c.capacity ∧
          c.journal_gateway = some gateway_name := by
  intro r
  unfold r open_durable
  by_cases hcapacity : capacity = 0 ∨ MAX_REPLAY_ENTRIES_HARD_CAP < capacity
  · rw [if_pos hcapacity]
    exact .inl ⟨by simp, rfl⟩
  rw [if_neg hcapacity]
  cases hread : read_replay_journal file gateway_name now_unix_seconds with
  | panic => exact .inl ⟨by simp, rfl⟩
  | err error => exact .inl ⟨by simp, rfl⟩
  | ok loaded =>
    dsimp only
    by_cases hroom : capacity < loaded.len
    · rw [if_pos hroom]
      exact .inl ⟨by simp, rfl⟩
    rw [if_neg hroom]
    right
    refine ⟨loaded, rfl, ?_⟩
    have hrewrite := rewrite_cases file gateway_name loaded write
    have hmore : Rewrites file (rewrite_replay_journal file gateway_name loaded write).1 loaded := by
      rcases hrewrite with ⟨hsame, -⟩ | ⟨bytes, hbytes, hfile⟩
      · exact .inl hsame
      · exact .inr ⟨gateway_name, bytes, hbytes, hfile⟩
    split
    · next file' error hfile =>
      rw [hfile] at hmore
      exact ⟨hmore, by simp⟩
    · next file' hfile =>
      rw [hfile] at hmore
      refine ⟨hmore, ?_⟩
      intro c hc
      rw [← Outcome.ok.inj hc]
      push Not at hcapacity
      exact ⟨rfl, hcapacity.2, Nat.not_lt.mp hroom, rfl⟩

variable (c : ReplayCache) (file : JournalFile) (ticket_id : TicketId)
  (ticket_expiry_unix_seconds now_unix_seconds : ℕ) (write : AtomicWrite)

/-- The entries of a successful consume. -/
def redeemed_entries : ReplayEntries :=
  (c.unexpired now_unix_seconds).insert ticket_id
    (saturatingAdd ticket_expiry_unix_seconds REPLAY_EXPIRY_SKEW_SECONDS)

/-- A consume that fails keeps the unexpired entries; other than a replay it may have
written the new file. -/
structure Fails (r : Consumed) : Prop where
  entries : r.cache.entries = c.unexpired now_unix_seconds
  file : r.file = file ∨ ticket_id ∉ c.unexpired now_unix_seconds ∧
    Rewrites file r.file (c.redeemed_entries ticket_id ticket_expiry_unix_seconds now_unix_seconds)

/-- A consume that succeeds redeems a ticket that was not among the unexpired entries,
and the journal of a durable cache is that of the new entries. -/
structure Redeems (r : Consumed) : Prop where
  fresh : ticket_id ∉ c.unexpired now_unix_seconds
  room : (c.unexpired now_unix_seconds).len < c.capacity
  entries : r.cache.entries =
    c.redeemed_entries ticket_id ticket_expiry_unix_seconds now_unix_seconds
  journal : ∀ gateway, c.journal_gateway = some gateway → ∃ bytes,
    journal_bytes gateway (c.redeemed_entries ticket_id ticket_expiry_unix_seconds
      now_unix_seconds) = .ok bytes ∧ r.file = .present bytes

theorem consume_settings :
    let r := c.consume file ticket_id ticket_expiry_unix_seconds now_unix_seconds write
    r.cache.capacity = c.capacity ∧ r.cache.journal_gateway = c.journal_gateway := by
  intro r
  unfold r consume
  dsimp only [prune]
  split
  · exact ⟨rfl, rfl⟩
  split
  · exact ⟨rfl, rfl⟩
  unfold persist
  split
  · exact ⟨rfl, rfl⟩
  · split
    · exact ⟨rfl, rfl⟩
    · exact ⟨rfl, rfl⟩

theorem consume_cases :
    let r := c.consume file ticket_id ticket_expiry_unix_seconds now_unix_seconds write
    (∃ error, r.result = .error error) ∧
        c.Fails file ticket_id ticket_expiry_unix_seconds now_unix_seconds r ∨
      r.result = .ok () ∧ c.Redeems ticket_id ticket_expiry_unix_seconds now_unix_seconds r := by
  intro r
  unfold r consume
  dsimp only [prune]
  by_cases hreplay : ticket_id ∈ c.unexpired now_unix_seconds
  · rw [if_pos hreplay]
    exact .inl ⟨⟨_, rfl⟩, rfl, .inl rfl⟩
  rw [if_neg hreplay]
  by_cases hfull : c.capacity ≤ (c.unexpired now_unix_seconds).len
  · rw [if_pos hfull]
    exact .inl ⟨⟨_, rfl⟩, rfl, .inl rfl⟩
  rw [if_neg hfull]
  have hroom := Nat.not_le.mp hfull
  unfold persist
  dsimp only
  split
  · next hgateway =>
    refine .inr ⟨rfl, hreplay, hroom, rfl, ?_⟩
    intro gateway hsome
    rw [hgateway] at hsome
    contradiction
  · next gateway hgateway =>
    have hrewrite := rewrite_cases file gateway
      (c.redeemed_entries ticket_id ticket_expiry_unix_seconds now_unix_seconds) write
    rw [redeemed_entries] at hrewrite
    dsimp only at hrewrite
    split
    · next file' error hfile =>
      rw [hfile] at hrewrite
      refine .inl ⟨⟨_, rfl⟩, AList.erase_insert_of_notMem hreplay, ?_⟩
      rcases hrewrite with ⟨hsame, -⟩ | ⟨bytes, hbytes, hpresent⟩
      · exact .inl hsame
      · exact .inr ⟨hreplay, .inr ⟨gateway, bytes, hbytes, hpresent⟩⟩
    · next file' hfile =>
      rw [hfile] at hrewrite
      refine .inr ⟨rfl, hreplay, hroom, rfl, ?_⟩
      intro gateway' hsome
      rw [hgateway, Option.some.injEq] at hsome
      subst hsome
      rcases hrewrite with ⟨-, error, herror⟩ | ⟨bytes, hbytes, hpresent⟩
      · contradiction
      · exact ⟨bytes, hbytes, hpresent⟩

end ReplayCache

/-! ## The gateway across restarts -/

/-- The journal file, the cache of the process that runs, if one does, and the largest
clock reading so far. -/
structure RedemptionSystem where
  file : JournalFile
  cache : Option ReplayCache
  now_unix_seconds : ℕ

inductive RedemptionCall where
  | open_durable (gateway_name : String) (capacity now_unix_seconds : ℕ)
  | consume (ticket_id : TicketId) (now_unix_seconds : ℕ)

/-- A call whose journal write comes out as given, a crash between calls, or a crash in
the journal write of a call. -/
inductive RedemptionInput where
  | call (call : RedemptionCall) (write : AtomicWrite)
  | crash
  | crash_in (call : RedemptionCall) (renamed : Bool)

namespace RedemptionSystem

variable (expiry : TicketId → ℕ)

/-- A call reports the ticket it redeemed. The clock does not go back, and a ticket comes
with its own expiry, later than now. -/
def perform (s : RedemptionSystem) (write : AtomicWrite) :
    RedemptionCall → Option (RedemptionSystem × List TicketId)
  | .open_durable gateway_name capacity now_unix_seconds =>
    if s.cache.isNone = true ∧ s.now_unix_seconds ≤ now_unix_seconds then
      match ReplayCache.open_durable s.file gateway_name capacity now_unix_seconds write with
      | (file, .ok cache) => some (⟨file, some cache, now_unix_seconds⟩, [])
      | (file, _) => some (⟨file, none, now_unix_seconds⟩, [])
    else none
  | .consume ticket_id now_unix_seconds =>
    match s.cache with
    | none => none
    | some cache =>
      if s.now_unix_seconds ≤ now_unix_seconds ∧ now_unix_seconds < expiry ticket_id ∧
          expiry ticket_id ≤ u64Max then
        let r := cache.consume s.file ticket_id (expiry ticket_id) now_unix_seconds write
        some (⟨r.file, some r.cache, now_unix_seconds⟩, if r.result.isOk then [ticket_id] else [])
      else none

def step (s : RedemptionSystem) : RedemptionInput → Option (RedemptionSystem × List TicketId)
  | .call call write => s.perform expiry write call
  | .crash => some ({ s with cache := none }, [])
  | .crash_in call renamed =>
    (s.perform expiry (.failed renamed) call).map fun r => ({ r.1 with cache := none }, [])

/-- The time until which a ticket is retained. -/
def retained_until (ticket_id : TicketId) : ℕ :=
  saturatingAdd (expiry ticket_id) REPLAY_EXPIRY_SKEW_SECONDS

/-- Every cache opened from the file before the time is over holds the ticket. -/
def Restores (file : JournalFile) (ticket_id : TicketId) (retained_until : ℕ) : Prop :=
  ∀ gateway_name now_unix_seconds loaded,
    read_replay_journal file gateway_name now_unix_seconds = .ok loaded →
    now_unix_seconds < retained_until → loaded.lookup ticket_id = some retained_until

/-- Times are words. -/
def Bounded (entries : ReplayEntries) : Prop :=
  ∀ ticket_id retained_until, entries.lookup ticket_id = some retained_until →
    retained_until ≤ u64Max

/-- What holds of the running cache and the redeemed tickets. -/
structure Remembers (redeemed : List TicketId) (now_unix_seconds : ℕ) (c : ReplayCache) : Prop where
  durable : c.journal_gateway.isSome = true
  bounded : Bounded c.entries
  kept : ∀ ticket_id ∈ redeemed, now_unix_seconds < retained_until expiry ticket_id →
    c.entries.lookup ticket_id = some (retained_until expiry ticket_id)

/-- The invariant of a run. -/
structure Sound (s : RedemptionSystem) (redeemed : List TicketId) : Prop where
  once : redeemed.Nodup
  cache : ∀ c, s.cache = some c → Remembers expiry redeemed s.now_unix_seconds c
  file : ∀ ticket_id ∈ redeemed, s.now_unix_seconds < retained_until expiry ticket_id →
    Restores s.file ticket_id (retained_until expiry ticket_id)

section Steps

variable {expiry} {s s' : RedemptionSystem} {redeemed new : List TicketId} {c : ReplayCache}
  {entries : ReplayEntries} {file file' : JournalFile} {ticket_id : TicketId}
  {now_unix_seconds : ℕ}

theorem restores_written {gateway_name : String} {bytes : Bytes} {until_seconds : ℕ}
    (h : journal_bytes gateway_name entries = .ok bytes) (hbounded : Bounded entries)
    (hlookup : entries.lookup ticket_id = some until_seconds) :
    Restores (.present bytes) ticket_id until_seconds := by
  intro expected_gateway now_unix_seconds loaded hread hlive
  rw [read_written_ok h hbounded hread, AList.lookup_retain_eq_some]
  exact ⟨hlookup, decide_eq_true hlive⟩

/-- A file that is the old one or the journal of entries with the ticket restores it. -/
theorem restores_rewrites {until_seconds : ℕ} (h : ReplayCache.Rewrites file file' entries)
    (hbounded : Bounded entries) (hold : Restores file ticket_id until_seconds)
    (hlookup : entries.lookup ticket_id = some until_seconds) :
    Restores file' ticket_id until_seconds := by
  rcases h with rfl | ⟨gateway_name, bytes, hbytes, rfl⟩
  · exact hold
  · exact restores_written hbytes hbounded hlookup

theorem bounded_unexpired (h : Bounded c.entries) (now_unix_seconds : ℕ) :
    Bounded (c.unexpired now_unix_seconds) :=
  fun _ _ hl => h _ _ (AList.lookup_retain_eq_some.mp hl).1

theorem bounded_redeemed (h : Bounded c.entries) (ticket_id : TicketId) (expires now : ℕ) :
    Bounded (c.redeemed_entries ticket_id expires now) := by
  intro id until_seconds hl
  rw [ReplayCache.redeemed_entries, AList.lookup_insert_of] at hl
  split at hl
  · rw [← Option.some.inj hl]
    exact saturatingAdd_le_max _ _
  · exact bounded_unexpired h now _ _ hl

/-- A redeemed ticket that still counts is among the unexpired entries. -/
theorem Remembers.unexpired (h : Remembers expiry redeemed s.now_unix_seconds c)
    (hclock : s.now_unix_seconds ≤ now_unix_seconds) (hmem : ticket_id ∈ redeemed)
    (hlive : now_unix_seconds < retained_until expiry ticket_id) :
    (c.unexpired now_unix_seconds).lookup ticket_id = some (retained_until expiry ticket_id) :=
  AList.lookup_retain_eq_some.mpr
    ⟨h.kept ticket_id hmem (lt_of_le_of_lt hclock hlive), decide_eq_true hlive⟩

/-- Without its cache the system is as sound. -/
theorem Sound.crash (h : Sound expiry s redeemed) : Sound expiry { s with cache := none } redeemed :=
  ⟨h.once, by simp, h.file⟩

/-- Opening the journal brings the redeemed tickets back. -/
theorem Sound.open_durable (h : Sound expiry s redeemed) {gateway_name : String} {capacity : ℕ}
    {write : AtomicWrite}
    (hs : s.perform expiry write (.open_durable gateway_name capacity now_unix_seconds) =
      some (s', new)) : new = [] ∧ Sound expiry s' redeemed := by
  unfold perform at hs
  obtain ⟨⟨-, hclock⟩, hs⟩ := Option.ite_none_right_eq_some.mp hs
  have hfile : ∀ ticket_id ∈ redeemed, now_unix_seconds < retained_until expiry ticket_id →
      Restores s.file ticket_id (retained_until expiry ticket_id) :=
    fun ticket_id hmem hlive => h.file ticket_id hmem (lt_of_le_of_lt hclock hlive)
  have hcases := ReplayCache.open_durable_cases s.file gateway_name capacity now_unix_seconds write
  dsimp only at hcases
  -- the file is the old one, or holds what was read from it
  have hfile' : ∀ ticket_id ∈ redeemed, now_unix_seconds < retained_until expiry ticket_id →
      Restores (ReplayCache.open_durable s.file gateway_name capacity now_unix_seconds write).1
        ticket_id (retained_until expiry ticket_id) := by
    intro ticket_id hmem hlive
    rcases hcases with ⟨-, hsame⟩ | ⟨loaded, hread, hrewrites, -⟩
    · rw [hsame]
      exact hfile ticket_id hmem hlive
    · exact restores_rewrites hrewrites (fun _ _ hl => read_bounded hread _ _ hl)
        (hfile ticket_id hmem hlive) (hfile ticket_id hmem hlive _ _ _ hread hlive)
  split at hs
  · next file cache hopen =>
    rw [hopen] at hcases hfile'
    obtain ⟨rfl, rfl⟩ := step_inj hs
    refine ⟨rfl, h.once, ?_, hfile'⟩
    intro c hc
    obtain rfl := Option.some.inj hc
    rcases hcases with ⟨hfailed, -⟩ | ⟨loaded, hread, -, hopened⟩
    · exact absurd rfl (hfailed cache)
    · obtain ⟨hentries, -, -, hgateway⟩ := hopened cache rfl
      refine ⟨by rw [hgateway]; rfl, ?_, ?_⟩
      · rw [hentries]
        exact fun _ _ hl => read_bounded hread _ _ hl
      · intro ticket_id hmem hlive
        rw [hentries]
        exact hfile ticket_id hmem hlive _ _ _ hread hlive
  · next file answer hfailed hopen =>
    rw [hopen] at hfile'
    obtain ⟨rfl, rfl⟩ := step_inj hs
    exact ⟨rfl, h.once, by simp, hfile'⟩

/-- After a redemption the new ticket and the redeemed ones that still count are there. -/
theorem Remembers.redeemed_lookup (h : Remembers expiry redeemed s.now_unix_seconds c)
    (hclock : s.now_unix_seconds ≤ now_unix_seconds) {id : TicketId}
    (hmem : id ∈ redeemed ++ [ticket_id]) (hlive : now_unix_seconds < retained_until expiry id) :
    (c.redeemed_entries ticket_id (expiry ticket_id) now_unix_seconds).lookup id =
      some (retained_until expiry id) := by
  rw [ReplayCache.redeemed_entries, AList.lookup_insert_of]
  by_cases hid : id = ticket_id
  · rw [if_pos hid, hid]
    rfl
  · have hold : id ∈ redeemed := by simpa [hid] using hmem
    rw [if_neg hid]
    exact h.unexpired hclock hold hlive

/-- A consume redeems only a ticket that was not redeemed before. -/
theorem Sound.consume (h : Sound expiry s redeemed) {write : AtomicWrite}
    (hs : s.perform expiry write (.consume ticket_id now_unix_seconds) = some (s', new)) :
    Sound expiry s' (redeemed ++ new) := by
  unfold perform at hs
  cases hcache : s.cache with
  | none => simp [hcache] at hs
  | some c =>
    simp only [hcache] at hs
    obtain ⟨⟨hclock, hvalid, hword⟩, hs⟩ := Option.ite_none_right_eq_some.mp hs
    obtain ⟨rfl, rfl⟩ := step_inj hs
    have hc := h.cache c hcache
    obtain ⟨-, hgateway⟩ := c.consume_settings s.file ticket_id (expiry ticket_id) now_unix_seconds
      write
    have hlive : now_unix_seconds < retained_until expiry ticket_id := by
      refine lt_of_lt_of_le hvalid ?_
      rw [retained_until, saturatingAdd]
      exact le_min (by omega) hword
    have hbounded := bounded_redeemed hc.bounded ticket_id (expiry ticket_id) now_unix_seconds
    have hold : ∀ id ∈ redeemed, now_unix_seconds < retained_until expiry id →
        Restores s.file id (retained_until expiry id) :=
      fun id hmem hid => h.file id hmem (lt_of_le_of_lt hclock hid)
    rcases c.consume_cases s.file ticket_id (expiry ticket_id) now_unix_seconds write with
      ⟨⟨error, hresult⟩, hfails⟩ | ⟨hresult, hredeems⟩
    · simp only [hresult, Except.isOk, Except.toBool, Bool.false_eq_true, ↓reduceIte,
        List.append_nil]
      refine ⟨h.once, ?_, ?_⟩
      · rintro c' hc'
        obtain rfl := Option.some.inj hc'
        refine ⟨by rw [hgateway]; exact hc.durable, ?_, ?_⟩
        · rw [hfails.entries]
          exact bounded_unexpired hc.bounded now_unix_seconds
        · intro id hmem hid
          rw [hfails.entries]
          exact hc.unexpired hclock hmem hid
      · intro id hmem hid
        rcases hfails.file with hsame | ⟨-, hrewrites⟩
        · rw [hsame]
          exact hold id hmem hid
        · exact restores_rewrites hrewrites hbounded (hold id hmem hid)
            (hc.redeemed_lookup hclock (List.mem_append_left _ hmem) hid)
    · simp only [hresult, Except.isOk, Except.toBool, ↓reduceIte]
      obtain ⟨gateway, hsome⟩ := Option.isSome_iff_exists.mp hc.durable
      obtain ⟨bytes, hbytes, hfile⟩ := hredeems.journal gateway hsome
      refine ⟨?_, ?_, ?_⟩
      · -- a redeemed ticket would be among the unexpired entries
        have hnew : ticket_id ∉ redeemed := fun hmem =>
          hredeems.fresh (AList.mem_of_lookup (hc.unexpired hclock hmem hlive))
        exact List.nodup_append.mpr ⟨h.once, List.nodup_singleton _, by
          intro a ha b hb
          rw [List.mem_singleton.mp hb]
          rintro rfl
          exact hnew ha⟩
      · rintro c' hc'
        obtain rfl := Option.some.inj hc'
        refine ⟨by rw [hgateway]; exact hc.durable, ?_, ?_⟩
        · rw [hredeems.entries]
          exact hbounded
        · intro id hmem hid
          rw [hredeems.entries]
          exact hc.redeemed_lookup hclock hmem hid
      · intro id hmem hid
        show Restores (c.consume s.file ticket_id (expiry ticket_id) now_unix_seconds write).file
          id _
        rw [hfile]
        exact restores_written hbytes hbounded (hc.redeemed_lookup hclock hmem hid)

theorem Sound.perform (h : Sound expiry s redeemed) {write : AtomicWrite} {call : RedemptionCall}
    (hs : s.perform expiry write call = some (s', new)) : Sound expiry s' (redeemed ++ new) := by
  cases call with
  | open_durable gateway_name capacity now_unix_seconds =>
    obtain ⟨rfl, hsound⟩ := h.open_durable hs
    rwa [List.append_nil]
  | consume ticket_id now_unix_seconds => exact h.consume hs

/-- Nobody has to hear of a redemption. -/
theorem Sound.unheard (h : Sound expiry s (redeemed ++ new)) : Sound expiry s redeemed := by
  refine ⟨(List.nodup_append.mp h.once).1, ?_, ?_⟩
  · intro c hc
    have hrem := h.cache c hc
    exact ⟨hrem.durable, hrem.bounded, fun id hmem => hrem.kept id (List.mem_append_left _ hmem)⟩
  · exact fun id hmem => h.file id (List.mem_append_left _ hmem)

/-- One step keeps the invariant. -/
theorem Sound.step (h : Sound expiry s redeemed) {input : RedemptionInput}
    (hs : s.step expiry input = some (s', new)) : Sound expiry s' (redeemed ++ new) := by
  cases input with
  | call call write => exact h.perform hs
  | crash =>
    obtain ⟨rfl, rfl⟩ := step_inj hs
    rw [List.append_nil]
    exact h.crash
  | crash_in call renamed =>
    simp only [RedemptionSystem.step, Option.map_eq_some_iff, Prod.mk.injEq] at hs
    obtain ⟨⟨after, answers⟩, hafter, rfl, rfl⟩ := hs
    rw [List.append_nil]
    exact (h.perform hafter).unheard.crash

end Steps

end RedemptionSystem

open RedemptionSystem

/-- **A ticket is redeemed at most once, across restarts.** In every run of consumes,
journal writes that fail with the old or the new file, crashes and reopenings, from
any journal file, whatever comes of a ticket it is redeemed once at most; and a consume
that fails leaves the entries that were unexpired. -/
theorem ticket_redeemed_at_most_once {expiry : TicketId → ℕ} {file : JournalFile}
    {now_unix_seconds : ℕ} {inputs : List RedemptionInput} {s : RedemptionSystem}
    {redeemed : List TicketId}
    (hrun : exec (RedemptionSystem.step expiry) ⟨file, none, now_unix_seconds⟩ inputs =
      some (s, redeemed)) :
    (∀ ticket_id, redeemed.count ticket_id ≤ 1) ∧
    ∀ (c : ReplayCache) file ticket_id expires now write,
      (c.consume file ticket_id expires now write).result ≠ .ok () →
      (c.consume file ticket_id expires now write).cache.entries = c.unexpired now := by
  have hstart : Sound expiry ⟨file, none, now_unix_seconds⟩ [] := ⟨List.nodup_nil, by simp, by simp⟩
  have hsound : Sound expiry s redeemed := by
    have hall := exec_along_induct (C := fun _ _ => True) (P := Sound expiry) (a := [])
      (fun s input s' new redeemed h _ hs => h.step hs) hstart (along_true _ _) hrun
    rwa [List.nil_append] at hall
  refine ⟨fun ticket_id => List.nodup_iff_count_le_one.mp hsound.once ticket_id, ?_⟩
  intro c file ticket_id expires now write hfailed
  rcases c.consume_cases file ticket_id expires now write with ⟨-, hfails⟩ | ⟨hresult, -⟩
  · exact hfails.entries
  · exact absurd hresult hfailed

/-- A ticket is redeemed, the process crashes while it writes the journal for another
one, and after the restart both come again. -/
def restart_calls : List RedemptionInput :=
  [.call (.open_durable "g" 8 100) .written, .call (.consume ⟨7⟩ 100) .written,
    .crash_in (.consume ⟨9⟩ 101) true, .call (.open_durable "g" 8 102) .written,
    .call (.consume ⟨7⟩ 102) .written, .call (.consume ⟨9⟩ 102) .written]

/-- Neither is redeemed again: the journal has the first, and the second as well. -/
theorem restart_run :
    (exec (RedemptionSystem.step fun _ => 200) ⟨.missing, none, 0⟩ restart_calls).map Prod.snd =
      some [⟨7⟩] := by
  decide

theorem ticket_redeemed_at_most_once_restart : ∃ s redeemed,
    exec (RedemptionSystem.step fun _ => 200) ⟨.missing, none, 0⟩ restart_calls =
      some (s, redeemed) ∧ redeemed.count ⟨7⟩ ≤ 1 := by
  obtain ⟨⟨s, redeemed⟩, hrun, -⟩ := Option.map_eq_some_iff.mp restart_run
  exact ⟨s, redeemed, hrun, (ticket_redeemed_at_most_once hrun).1 _⟩

end StreamGuard.Gateway
