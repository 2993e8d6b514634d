/-
The redemption journal: `streamguard-gateway/src/v2/replay.rs`.

A journal is a header that binds the file to one gateway name, and one record of
24 bytes for every redeemed ticket, sorted by ticket: its identity and its expiry.
In memory a ticket maps to the time until which it is retained, its expiry plus a
fixed skew, so the writer subtracts the skew and the reader adds it again.

The main result is `read_journal_bytes`: what the writer wrote is read back for
the same gateway with unchanged times, unless it holds the all-zero identity.
-/
import StreamGuard.Auth.Ticket
import StreamGuard.Lib.Fold
import Mathlib.Data.List.Sort

set_option autoImplicit false

namespace StreamGuard.Gateway

open StreamGuard StreamGuard.Lib

/-- A redeemed ticket is kept this much longer than it is valid. -/
def REPLAY_EXPIRY_SKEW_SECONDS : ℕ := 30

/-- `SGTR`. -/
def REPLAY_JOURNAL_MAGIC : Bytes := [83, 71, 84, 82]
def REPLAY_JOURNAL_VERSION : UInt8 := 1
def REPLAY_SCOPE_SINGLE : UInt8 := 0
def REPLAY_RECORD_LEN : ℕ := 24
def MAX_REPLAY_ENTRIES_HARD_CAP : ℕ := 65536
def MAX_REPLAY_JOURNAL_BYTES : ℕ := 8 + 253 + MAX_REPLAY_ENTRIES_HARD_CAP * REPLAY_RECORD_LEN
def MAX_JOURNAL_GATEWAY_NAME_LEN : ℕ := 253

inductive ReplayJournalError where
  | InvalidConfiguration
  | Io
  | Corrupt
  deriving DecidableEq

/-- The journal as the file system presents it: `insecure` is a file that
`validate_journal_file` refuses, `unreadable` one that cannot be read. -/
inductive JournalFile where
  | missing
  | insecure
  | unreadable
  | present (bytes : Bytes)

/-- Redeemed tickets and how long they are retained. -/
abbrev ReplayEntries := Map TicketId ℕ

def validate_journal_gateway_name (name : String) : Except ReplayJournalError Unit :=
  if name = "" ∨ MAX_JOURNAL_GATEWAY_NAME_LEN < name.utf8ByteSize ∨ is_ascii name = false then
    .error .InvalidConfiguration
  else .ok ()

/-! ## Reading -/

/-- The loop over the records that are left, with the identities met so far. -/
def read_records (now_unix_seconds : ℕ) :
    ℕ → Bytes → List TicketId → ReplayEntries → Outcome ReplayJournalError ReplayEntries
  | 0, _, _, entries => .ok entries
  | count + 1, records, seen, entries => do
    let chunk := records.take REPLAY_RECORD_LEN
    let id ← array 16 (← slice chunk 0 16)
    let expiry ← array 8 (← slice chunk 16 24)
    let expiry := (U64.from_be_bytes expiry).val
    let ticket_id : TicketId := ⟨array_from_bytes 16 id⟩
    if is_zero_id ticket_id.bytes = true ∨ expiry = 0 then .err .Corrupt else do
    if ticket_id ∈ seen then .err .Corrupt else do
    let retained_until := saturatingAdd expiry REPLAY_EXPIRY_SKEW_SECONDS
    read_records now_unix_seconds count (records.drop REPLAY_RECORD_LEN) (ticket_id :: seen)
      (if now_unix_seconds < retained_until then entries.insert ticket_id retained_until
        else entries)

/-- The checks of the header, and then the records. -/
def read_journal (bytes : Bytes) (expected_gateway : String) (now_unix_seconds : ℕ) :
    Outcome ReplayJournalError ReplayEntries :=
  if MAX_REPLAY_JOURNAL_BYTES < bytes.length then .err .Corrupt else do
  if bytes.length < 8 then .err .Corrupt else do
  if (← slice bytes 0 4) ≠ REPLAY_JOURNAL_MAGIC then .err .Corrupt else do
  if (← index bytes 4) ≠ REPLAY_JOURNAL_VERSION then .err .Corrupt else do
  if (← index bytes 5) ≠ REPLAY_SCOPE_SINGLE then .err .Corrupt else do
  let name_len := (← index bytes 6).toNat
  if (← index bytes 7) ≠ 0 then .err .Corrupt else do
  if name_len = 0 ∨ MAX_JOURNAL_GATEWAY_NAME_LEN < name_len then .err .Corrupt else do
  if bytes.length < 8 + name_len then .err .Corrupt else do
  let stored_name ← Outcome.ofOption .Corrupt (fromUtf8 (← slice bytes 8 (8 + name_len)))
  if stored_name ≠ expected_gateway then .err .Corrupt else do
  let records ← slice_from bytes (8 + name_len)
  if records.length % REPLAY_RECORD_LEN ≠ 0 then .err .Corrupt else do
  let count := records.length / REPLAY_RECORD_LEN
  if MAX_REPLAY_ENTRIES_HARD_CAP < count then .err .Corrupt else
  read_records now_unix_seconds count records [] ∅

/-- `read_replay_journal`. -/
def read_replay_journal (file : JournalFile) (expected_gateway : String) (now_unix_seconds : ℕ) :
    Outcome ReplayJournalError ReplayEntries := do
  Outcome.ofExcept (validate_journal_gateway_name expected_gateway)
  match file with
  | .missing => .ok ∅
  | .insecure => .err .Corrupt
  | .unreadable => .err .Io
  | .present bytes => read_journal bytes expected_gateway now_unix_seconds

/-! ## Writing -/

/-- The entries of a `BTreeMap`, sorted by identity. -/
def sorted_entries (entries : ReplayEntries) : List (Σ _ : TicketId, ℕ) :=
  entries.entries.insertionSort fun a b => a.1.bytes.toNat ≤ b.1.bytes.toNat

def write_records : List (Σ _ : TicketId, ℕ) → Except ReplayJournalError Bytes
  | [] => .ok []
  | ⟨ticket_id, retained_until⟩ :: rest =>
    let expiry := retained_until - REPLAY_EXPIRY_SKEW_SECONDS
    if expiry = 0 then .error .Io
    else do
      let records ← write_records rest
      return id_bytes ticket_id.bytes ++ (U64.to_be_bytes (Fin.ofNat _ expiry) ++ records)

/-- The bytes of a journal, header first. -/
def journal_header (gateway_name : String) : Bytes :=
  REPLAY_JOURNAL_MAGIC ++ ([REPLAY_JOURNAL_VERSION] ++ ([REPLAY_SCOPE_SINGLE] ++
    ([UInt8.ofNat gateway_name.utf8ByteSize] ++ [0])))

def journal_bytes (gateway_name : String) (entries : ReplayEntries) :
    Except ReplayJournalError Bytes := do
  validate_journal_gateway_name gateway_name
  if MAX_REPLAY_ENTRIES_HARD_CAP < entries.len then .error .Io else do
  let records ← write_records (sorted_entries entries)
  let bytes := journal_header gateway_name ++ (utf8Bytes gateway_name ++ records)
  if MAX_REPLAY_JOURNAL_BYTES < bytes.length then .error .Io else
  return bytes

/-- What `secure_atomic_write` comes to: a failed write leaves the old file or, where
only the rename took effect, the new one. -/
inductive AtomicWrite where
  | written
  | failed (renamed : Bool)

def secure_atomic_write (file : JournalFile) (bytes : Bytes) :
    AtomicWrite → JournalFile × Except ReplayJournalError Unit
  | .written => (.present bytes, .ok ())
  | .failed true => (.present bytes, .error .Io)
  | .failed false => (file, .error .Io)

/-- `rewrite_replay_journal`. -/
def rewrite_replay_journal (file : JournalFile) (gateway_name : String) (entries : ReplayEntries)
    (write : AtomicWrite) : JournalFile × Except ReplayJournalError Unit :=
  match journal_bytes gateway_name entries with
  | .error error => (file, .error error)
  | .ok bytes => secure_atomic_write file bytes write

/-! ## What is written is read back -/

section Records

variable (now_unix_seconds : ℕ) (seen : List TicketId) (entries : ReplayEntries)

/-- One round of the reader over a record: expired tickets are left out. -/
def load (now_unix_seconds : ℕ) (entries : ReplayEntries) (e : Σ _ : TicketId, ℕ) : ReplayEntries :=
  if now_unix_seconds < e.2 then entries.insert e.1 e.2 else entries

/-- One round of the reader, over the record of a ticket. -/
theorem read_record (count : ℕ) (ticket_id : TicketId) (expiry : U64) (records : Bytes) :
    read_records now_unix_seconds (count + 1)
        (id_bytes ticket_id.bytes ++ (U64.to_be_bytes expiry ++ records)) seen entries =
      if is_zero_id ticket_id.bytes = true ∨ expiry.val = 0 then .err .Corrupt
      else if ticket_id ∈ seen then .err .Corrupt
      else read_records now_unix_seconds count records (ticket_id :: seen)
        (load now_unix_seconds entries
          ⟨ticket_id, saturatingAdd expiry.val REPLAY_EXPIRY_SKEW_SECONDS⟩) := by
  have hid : (id_bytes ticket_id.bytes).length = 16 := length_array_bytes 16 _
  have hexpiry : (U64.to_be_bytes expiry).length = 8 := U64.length_to_be_bytes _
  have hrecord : (id_bytes ticket_id.bytes ++ U64.to_be_bytes expiry).length =
      REPLAY_RECORD_LEN := by
    rw [List.length_append, hid, hexpiry]
    rfl
  have hchunk : (id_bytes ticket_id.bytes ++ (U64.to_be_bytes expiry ++ records)).take
      REPLAY_RECORD_LEN = id_bytes ticket_id.bytes ++ U64.to_be_bytes expiry := by
    rw [← List.append_assoc, ← hrecord, List.take_left]
  have hrest : (id_bytes ticket_id.bytes ++ (U64.to_be_bytes expiry ++ records)).drop
      REPLAY_RECORD_LEN = records := by
    rw [← List.append_assoc, ← hrecord, List.drop_left]
  -- the two words stand at 0 and at 16
  have h0 : (id_bytes ticket_id.bytes ++ U64.to_be_bytes expiry).drop 0 = _ := rfl
  have h16 : (id_bytes ticket_id.bytes ++ U64.to_be_bytes expiry).drop 16 =
      U64.to_be_bytes expiry ++ [] := by
    rw [List.append_nil]
    exact drop_after h0 (by rw [hid])
  have hticket : array_from_bytes 16 (id_bytes ticket_id.bytes) = ticket_id.bytes :=
    (array_from_bytes_eq_iff hid).mpr rfl
  have hword : U64.from_be_bytes (U64.to_be_bytes expiry) = expiry :=
    (U64.from_be_bytes_eq_iff hexpiry).mpr rfl
  have hslice0 : (slice (id_bytes ticket_id.bytes ++ U64.to_be_bytes expiry) 0 16 :
      Outcome ReplayJournalError Bytes) = .ok (id_bytes ticket_id.bytes) :=
    slice_of_drop h0 (by decide) hid
  have hslice16 : (slice (id_bytes ticket_id.bytes ++ U64.to_be_bytes expiry) 16 24 :
      Outcome ReplayJournalError Bytes) = .ok (U64.to_be_bytes expiry) :=
    slice_of_drop h16 (by decide) hexpiry
  rw [read_records]
  simp only [hchunk, hrest, hslice0, hslice16, array_eq_ok.mpr ⟨hid, rfl⟩,
    array_eq_ok.mpr ⟨hexpiry, rfl⟩, Outcome.ok_bind, hticket, hword,
    load]

/-- The reader over the records of a list without repeated tickets: it stops at the
all-zero identity and otherwise loads every entry. -/
theorem read_written_records {l : List (Σ _ : TicketId, ℕ)} {bytes : Bytes}
    (hwrite : write_records l = .ok bytes) (hvalues : ∀ e ∈ l, e.2 ≤ u64Max)
    (hnodup : (l.map (·.1)).Nodup) (hseen : ∀ e ∈ l, e.1 ∉ seen) :
    bytes.length = l.length * REPLAY_RECORD_LEN ∧
    read_records now_unix_seconds l.length bytes seen entries =
      if (⟨0⟩ : TicketId) ∈ l.map (·.1) then .err .Corrupt
      else .ok (l.foldl (load now_unix_seconds) entries) := by
  induction l generalizing bytes seen entries with
  | nil =>
    rw [write_records, Except.ok.injEq] at hwrite
    rw [← hwrite]
    exact ⟨rfl, rfl⟩
  | cons e l ih =>
    obtain ⟨ticket_id, retained_until⟩ := e
    rw [write_records] at hwrite
    obtain ⟨hpositive, hwrite⟩ := Outcome.except_ite_eq_ok.mp hwrite
    obtain ⟨records, hrecords, hwrite⟩ := Outcome.except_bind_eq_ok.mp hwrite
    obtain rfl := Except.ok.inj hwrite
    rw [List.map_cons, List.nodup_cons] at hnodup
    obtain ⟨hnew, hnodup⟩ := hnodup
    have hbound : retained_until ≤ u64Max := hvalues _ List.mem_cons_self
    have hunseen : ticket_id ∉ seen := hseen _ List.mem_cons_self
    have hexpiry : (Fin.ofNat (2 ^ 64) (retained_until - REPLAY_EXPIRY_SKEW_SECONDS)).val =
        retained_until - REPLAY_EXPIRY_SKEW_SECONDS := by
      unfold u64Max at hbound
      exact Nat.mod_eq_of_lt (by omega)
    have hretained : saturatingAdd (retained_until - REPLAY_EXPIRY_SKEW_SECONDS)
        REPLAY_EXPIRY_SKEW_SECONDS = retained_until := by
      rw [saturatingAdd_eq (by omega)]
      omega
    obtain ⟨hlength, hread⟩ := ih (ticket_id :: seen)
      (load now_unix_seconds entries ⟨ticket_id, retained_until⟩) hrecords
      (fun e he => hvalues e (List.mem_cons_of_mem _ he)) hnodup (by
        intro e he
        rw [List.mem_cons, not_or]
        refine ⟨?_, hseen e (List.mem_cons_of_mem _ he)⟩
        rintro he'
        exact hnew (List.mem_map.mpr ⟨e, he, he'⟩))
    refine ⟨?_, ?_⟩
    · rw [List.length_append, List.length_append, id_bytes, length_array_bytes,
        U64.length_to_be_bytes, hlength, List.length_cons, REPLAY_RECORD_LEN]
      omega
    · rw [List.length_cons, read_record, hexpiry, hretained, if_neg hunseen, hread, List.map_cons,
        List.foldl_cons]
      by_cases hzero : ticket_id = ⟨0⟩
      · simp [hzero, is_zero_id]
      · have hbytes : ticket_id.bytes ≠ 0 := fun hbytes => hzero (congrArg TicketId.mk hbytes)
        have hhead : (⟨0⟩ : TicketId) ≠ ticket_id := Ne.symm hzero
        have haccepted : ¬(is_zero_id ticket_id.bytes = true ∨
            retained_until - REPLAY_EXPIRY_SKEW_SECONDS = 0) := by
          rintro (hrefused | hrefused)
          · exact hbytes (by simpa [is_zero_id] using hrefused)
          · exact hpositive hrefused
        rw [if_neg haccepted]
        simp only [List.mem_cons, hhead, false_or]

end Records

/-! ## A whole journal -/

section Journal

variable {entries : ReplayEntries} {gateway_name : String} {bytes : Bytes}

theorem sorted_entries_perm (entries : ReplayEntries) :
    (sorted_entries entries).Perm entries.entries :=
  List.perm_insertionSort _ _

/-- Loading the entries of a journal keeps those that are still retained. -/
theorem load_lookup (entries : ReplayEntries) (now_unix_seconds : ℕ) (ticket_id : TicketId) :
    ((sorted_entries entries).foldl (load now_unix_seconds) ∅).lookup ticket_id =
      (entries.retain fun _ retained_until => now_unix_seconds < retained_until).lookup
        ticket_id := by
  have hperm := sorted_entries_perm entries
  have hnodup : ((sorted_entries entries).map (·.1)).Nodup :=
    (hperm.map _).nodup_iff.mpr entries.nodupKeys
  have hother : ∀ (m : ReplayEntries) (e : Σ _ : TicketId, ℕ), e.1 ≠ ticket_id →
      (load now_unix_seconds m e).lookup ticket_id = m.lookup ticket_id := by
    intro m e hne
    rw [load]
    split
    · exact AList.lookup_insert_ne hne.symm
    · rfl
  rw [AList.lookup_retain]
  cases hlookup : entries.lookup ticket_id with
  | none =>
    have habsent : ticket_id ∉ (sorted_entries entries).map (·.1) := by
      rw [(hperm.map _).mem_iff]
      exact AList.lookup_eq_none.mp hlookup
    exact foldl_view_of_notMem (·.1) (fun m : ReplayEntries => m.lookup ticket_id) hother _ _
      habsent
  | some retained_until =>
    have hmem : (⟨ticket_id, retained_until⟩ : Σ _ : TicketId, ℕ) ∈ sorted_entries entries :=
      hperm.mem_iff.mpr (AList.mem_entries_iff.mpr hlookup)
    obtain ⟨m, hm, hfold⟩ := foldl_view_of_mem (·.1)
      (fun m : ReplayEntries => m.lookup ticket_id) hother ∅ hnodup hmem rfl
    rw [hfold, load]
    by_cases hlive : now_unix_seconds < retained_until
    · simp [hlive, Option.filter]
    · simp [hlive, hm, Option.filter]

/-- What the writer accepted. -/
theorem journal_bytes_ok (h : journal_bytes gateway_name entries = .ok bytes) :
    validate_journal_gateway_name gateway_name = .ok () ∧
      entries.len ≤ MAX_REPLAY_ENTRIES_HARD_CAP ∧ bytes.length ≤ MAX_REPLAY_JOURNAL_BYTES ∧
      ∃ records, write_records (sorted_entries entries) = .ok records ∧
        bytes = journal_header gateway_name ++ (utf8Bytes gateway_name ++ records) := by
  rw [journal_bytes] at h
  obtain ⟨_, hname, h⟩ := Outcome.except_bind_eq_ok.mp h
  obtain ⟨hlen, h⟩ := Outcome.except_ite_eq_ok.mp h
  obtain ⟨records, hrecords, h⟩ := Outcome.except_bind_eq_ok.mp h
  obtain ⟨hsize, h⟩ := Outcome.except_ite_eq_ok.mp h
  obtain rfl := Except.ok.inj h
  exact ⟨hname, Nat.not_lt.mp hlen, Nat.not_lt.mp hsize, records, hrecords, rfl⟩

/-- **The reader inverts the writer**: another gateway's journal and one that holds the
all-zero identity are refused, and otherwise every entry still retained is
loaded. -/
theorem read_journal_bytes (h : journal_bytes gateway_name entries = .ok bytes)
    (hvalues : ∀ ticket_id retained_until, entries.lookup ticket_id = some retained_until →
      retained_until ≤ u64Max) (expected_gateway : String) (now_unix_seconds : ℕ) :
    read_journal bytes expected_gateway now_unix_seconds =
      if gateway_name ≠ expected_gateway then .err .Corrupt
      else if (⟨0⟩ : TicketId) ∈ entries then .err .Corrupt
      else .ok ((sorted_entries entries).foldl (load now_unix_seconds) ∅) := by
  obtain ⟨hname, hlen, hsize, records, hrecords, hbytes⟩ := journal_bytes_ok h
  have hperm := sorted_entries_perm entries
  obtain ⟨hlength, hread⟩ := read_written_records now_unix_seconds [] ∅ hrecords
    (fun e he => hvalues _ _ (AList.mem_entries_iff.mp (hperm.mem_iff.mp he)))
    ((hperm.map _).nodup_iff.mpr entries.nodupKeys) (by simp)
  have hcount : (sorted_entries entries).length ≤ MAX_REPLAY_ENTRIES_HARD_CAP := by
    rw [hperm.length_eq]
    exact hlen
  have hzero : (⟨0⟩ : TicketId) ∈ (sorted_entries entries).map (·.1) ↔ (⟨0⟩ : TicketId) ∈ entries :=
    (hperm.map _).mem_iff
  rw [validate_journal_gateway_name] at hname
  obtain ⟨hchecks, -⟩ := Outcome.except_ite_eq_ok.mp hname
  obtain ⟨hnonempty, hlong, -⟩ : gateway_name ≠ "" ∧
      ¬MAX_JOURNAL_GATEWAY_NAME_LEN < gateway_name.utf8ByteSize ∧ ¬is_ascii gateway_name = false := by
    simpa only [not_or] using hchecks
  have hpositive : gateway_name.utf8ByteSize ≠ 0 :=
    fun hempty => hnonempty (String.utf8ByteSize_eq_zero_iff.mp hempty)
  have hbyte : (UInt8.ofNat gateway_name.utf8ByteSize).toNat = gateway_name.utf8ByteSize := by
    rw [UInt8.toNat_ofNat']
    unfold MAX_JOURNAL_GATEWAY_NAME_LEN at hlong
    omega
  have hsize' : bytes.length = 8 + gateway_name.utf8ByteSize + records.length := by
    simp only [hbytes, journal_header, REPLAY_JOURNAL_MAGIC, List.length_append, List.length_cons,
      List.length_nil, length_utf8Bytes]
    omega
  -- what stands at each offset
  have h0 : bytes.drop 0 = REPLAY_JOURNAL_MAGIC ++ ([REPLAY_JOURNAL_VERSION] ++
      ([REPLAY_SCOPE_SINGLE] ++ ([UInt8.ofNat gateway_name.utf8ByteSize] ++ ([0] ++
        (utf8Bytes gateway_name ++ records))))) := by
    simp [hbytes, journal_header]
  have h4 := drop_after (j := 4) h0 rfl
  have h5 := drop_after (j := 5) h4 rfl
  have h6 := drop_after (j := 6) h5 rfl
  have h7 := drop_after (j := 7) h6 rfl
  have h8 := drop_after (j := 8) h7 rfl
  have hrest : bytes.drop (8 + gateway_name.utf8ByteSize) = records :=
    drop_after h8 (by rw [length_utf8Bytes])
  have hmagic : (slice bytes 0 4 : Outcome ReplayJournalError Bytes) = .ok REPLAY_JOURNAL_MAGIC :=
    slice_of_drop h0 (by decide) rfl
  have hstored : (slice bytes 8 (8 + gateway_name.utf8ByteSize) :
      Outcome ReplayJournalError Bytes) = .ok (utf8Bytes gateway_name) :=
    slice_of_drop h8 (by omega) (by rw [length_utf8Bytes]; omega)
  have hrecords_len : records.length / REPLAY_RECORD_LEN = (sorted_entries entries).length := by
    rw [hlength]
    exact Nat.mul_div_cancel _ (by decide)
  rw [read_journal, if_neg (by omega), if_neg (by omega), hmagic, Outcome.ok_bind, if_neg (by simp),
    index_of_drop h4, Outcome.ok_bind, if_neg (by simp), index_of_drop h5, Outcome.ok_bind,
    if_neg (by simp), index_of_drop h6, Outcome.ok_bind]
  dsimp only
  rw [hbyte, index_of_drop h7, Outcome.ok_bind, if_neg (by simp), if_neg (by omega),
    if_neg (by omega), hstored, Outcome.ok_bind, fromUtf8_eq_some.mpr rfl, Outcome.ofOption,
    Outcome.ok_bind]
  by_cases hgateway : gateway_name = expected_gateway
  · rw [if_neg (not_not.mpr hgateway), slice_from_eq (by omega), Outcome.ok_bind, hrest,
      if_neg (by rw [hlength]; simp), hrecords_len, if_neg (by omega),
      if_neg (not_not.mpr hgateway), hread]
    simp only [hzero]
  · rw [if_pos hgateway, if_pos hgateway]

/-- A file that was written reads as the entries still retained, if it reads at all. -/
theorem read_written_ok (h : journal_bytes gateway_name entries = .ok bytes)
    (hvalues : ∀ ticket_id retained_until, entries.lookup ticket_id = some retained_until →
      retained_until ≤ u64Max) {expected_gateway : String} {now_unix_seconds : ℕ}
    {loaded : ReplayEntries}
    (hread : read_replay_journal (.present bytes) expected_gateway now_unix_seconds = .ok loaded)
    (ticket_id : TicketId) :
    loaded.lookup ticket_id =
      (entries.retain fun _ retained_until => now_unix_seconds < retained_until).lookup
        ticket_id := by
  rw [read_replay_journal] at hread
  obtain ⟨_, -, hread⟩ := Outcome.bind_eq_ok.mp hread
  rw [read_journal_bytes h hvalues] at hread
  obtain ⟨-, hread⟩ := Outcome.ite_err_eq_ok.mp hread
  obtain ⟨-, hread⟩ := Outcome.ite_err_eq_ok.mp hread
  rw [← Outcome.ok.inj hread]
  exact load_lookup entries now_unix_seconds ticket_id

/-- Whatever the file, the times that are read are words. -/
theorem read_records_bounded {now_unix_seconds count : ℕ} {records : Bytes} {seen : List TicketId}
    {loaded : ReplayEntries}
    (h : read_records now_unix_seconds count records seen entries = .ok loaded)
    (hentries : ∀ ticket_id retained_until, entries.lookup ticket_id = some retained_until →
      retained_until ≤ u64Max) (ticket_id : TicketId) (retained_until : ℕ)
    (hlookup : loaded.lookup ticket_id = some retained_until) : retained_until ≤ u64Max := by
  induction count generalizing records seen entries with
  | zero =>
    rw [read_records] at h
    obtain rfl := Outcome.ok.inj h
    exact hentries _ _ hlookup
  | succ count ih =>
    rw [read_records] at h
    obtain ⟨_, -, h⟩ := Outcome.bind_eq_ok.mp h
    obtain ⟨id, -, h⟩ := Outcome.bind_eq_ok.mp h
    obtain ⟨_, -, h⟩ := Outcome.bind_eq_ok.mp h
    obtain ⟨expiry, -, h⟩ := Outcome.bind_eq_ok.mp h
    obtain ⟨-, h⟩ := Outcome.ite_err_eq_ok.mp h
    obtain ⟨-, h⟩ := Outcome.ite_err_eq_ok.mp h
    refine ih h ?_
    intro ticket_id' retained_until' hloaded
    split at hloaded
    · rw [AList.lookup_insert_of] at hloaded
      split at hloaded
      · rw [← Option.some.inj hloaded]
        exact saturatingAdd_le_max _ _
      · exact hentries _ _ hloaded
    · exact hentries _ _ hloaded

theorem read_bounded {file : JournalFile} {expected_gateway : String} {now_unix_seconds : ℕ}
    {loaded : ReplayEntries}
    (h : read_replay_journal file expected_gateway now_unix_seconds = .ok loaded)
    (ticket_id : TicketId) (retained_until : ℕ)
    (hlookup : loaded.lookup ticket_id = some retained_until) : retained_until ≤ u64Max := by
  unfold read_replay_journal at h
  obtain ⟨_, -, h⟩ := Outcome.bind_eq_ok.mp h
  cases file with
  | missing =>
    obtain rfl := Outcome.ok.inj h
    simp at hlookup
  | insecure => contradiction
  | unreadable => contradiction
  | present bytes =>
    change read_journal _ _ _ = _ at h
    rw [read_journal] at h
    obtain ⟨-, h⟩ := Outcome.ite_err_eq_ok.mp h
    obtain ⟨-, h⟩ := Outcome.ite_err_eq_ok.mp h
    obtain ⟨_, -, h⟩ := Outcome.bind_eq_ok.mp h
    obtain ⟨-, h⟩ := Outcome.ite_err_eq_ok.mp h
    obtain ⟨_, -, h⟩ := Outcome.bind_eq_ok.mp h
    obtain ⟨-, h⟩ := Outcome.ite_err_eq_ok.mp h
    obtain ⟨_, -, h⟩ := Outcome.bind_eq_ok.mp h
    obtain ⟨-, h⟩ := Outcome.ite_err_eq_ok.mp h
    obtain ⟨_, -, h⟩ := Outcome.bind_eq_ok.mp h
    obtain ⟨_, -, h⟩ := Outcome.bind_eq_ok.mp h
    obtain ⟨-, h⟩ := Outcome.ite_err_eq_ok.mp h
    obtain ⟨-, h⟩ := Outcome.ite_err_eq_ok.mp h
    obtain ⟨-, h⟩ := Outcome.ite_err_eq_ok.mp h
    obtain ⟨_, -, h⟩ := Outcome.bind_eq_ok.mp h
    obtain ⟨_, -, h⟩ := Outcome.bind_eq_ok.mp h
    obtain ⟨-, h⟩ := Outcome.ite_err_eq_ok.mp h
    obtain ⟨_, -, h⟩ := Outcome.bind_eq_ok.mp h
    obtain ⟨-, h⟩ := Outcome.ite_err_eq_ok.mp h
    obtain ⟨-, h⟩ := Outcome.ite_err_eq_ok.mp h
    exact read_records_bounded h (by simp) _ _ hlookup

end Journal

end StreamGuard.Gateway
