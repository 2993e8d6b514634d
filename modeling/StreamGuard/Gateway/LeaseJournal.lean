/-
The lease journal: `JournalLeaseStore` of `streamguard-gateway/src/v2/address_pool.rs`.

A journal has no header. It is a row of records of 68 bytes, one for every lease,
sorted by session, and each record starts with the magic and the version. The
fields of a record stand at fixed offsets, which the source writes down twice, in
the encoder and in the decoder; that the two agree is `decode_encode` in one
direction and `encode_decode` in the other.

Around it stand the checks of a whole file: its length, the number of records, and
that no session has two of them. The main result, `journal_round_trip`, says
that they refuse no file the writer writes, and that a file they accept is, up to
the order of its records, the one that would be written for what was read.
-/
import StreamGuard.Gateway.AddressPool
import StreamGuard.Gateway.ReplayJournal
import StreamGuard.Lib.Records

set_option autoImplicit false

namespace StreamGuard.Gateway

open StreamGuard StreamGuard.Lib

inductive StoreError where
  | Unavailable
  | Io
  | Corrupt

/-- `SGAL`. -/
def JOURNAL_MAGIC : Bytes := [83, 71, 65, 76]
def JOURNAL_VERSION : UInt8 := 2
def JOURNAL_RECORD_LEN : ℕ := 68
def MAX_JOURNAL_BYTES : ℕ := MAX_LEASES_HARD_CAP * JOURNAL_RECORD_LEN

/-! ## One record -/

def lease_state_to_wire : LeaseState → UInt8
  | .Reserved => 0
  | .Active => 1
  | .ReleasePending => 2

def lease_state_from_wire (value : UInt8) : Option LeaseState :=
  if value = 0 then some .Reserved
  else if value = 1 then some .Active
  else if value = 2 then some .ReleasePending
  else none

def encode_lease_record (lease : PersistedLease) : Bytes :=
  let record : Bytes := List.replicate JOURNAL_RECORD_LEN 0
  let record := copy_range record 0 4 JOURNAL_MAGIC
  let record := record.set 4 JOURNAL_VERSION
  let record := record.set 5 (lease_state_to_wire lease.state)
  let record := copy_range record 6 22 (id_bytes lease.session_id.bytes)
  let record := copy_range record 22 38 (id_bytes lease.device_id.bytes)
  let record := copy_range record 38 42 (array_bytes 4 lease.addresses.ipv4)
  let record := record.set 42 (UInt8.ofNat lease.addresses.ipv4_prefix_len)
  let record := copy_range record 43 59 (array_bytes 16 lease.addresses.ipv6_prefix_addr)
  let record := record.set 59 (UInt8.ofNat lease.addresses.ipv6_prefix_len)
  copy_range record 60 68 (U64.to_be_bytes (Fin.ofNat _ lease.expires_at_ms))

/-- On an array of 68 bytes, so that every offset is inside. -/
def decode_lease_record (record : Bytes) : Option PersistedLease :=
  if field record 0 4 ≠ JOURNAL_MAGIC ∨ record.getD 4 0 ≠ JOURNAL_VERSION then none
  else do
    let state ← lease_state_from_wire (record.getD 5 0)
    return {
      session_id := ⟨array_from_bytes 16 (field record 6 22)⟩
      device_id := ⟨array_from_bytes 16 (field record 22 38)⟩
      addresses := {
        ipv4 := array_from_bytes 4 (field record 38 42)
        ipv4_prefix_len := (record.getD 42 0).toNat
        ipv6_prefix_addr := array_from_bytes 16 (field record 43 59)
        ipv6_prefix_len := (record.getD 59 0).toNat }
      state := state
      expires_at_ms := (U64.from_be_bytes (field record 60 68)).val }

/-- A lease as the source's types admit it: two `u8` and a `u64`. -/
structure PersistedLease.Fits (lease : PersistedLease) : Prop where
  ipv4_prefix_len : lease.addresses.ipv4_prefix_len < 256
  ipv6_prefix_len : lease.addresses.ipv6_prefix_len < 256
  expires_at_ms : lease.expires_at_ms ≤ u64Max

theorem lease_state_from_wire_eq_some {value : UInt8} {state : LeaseState} :
    lease_state_from_wire value = some state ↔ value = lease_state_to_wire state := by
  constructor
  · intro h
    unfold lease_state_from_wire at h
    split at h
    · next hvalue => rw [hvalue, ← Option.some.inj h]; rfl
    · split at h
      · next hvalue => rw [hvalue, ← Option.some.inj h]; rfl
      · split at h
        · next hvalue => rw [hvalue, ← Option.some.inj h]; rfl
        · contradiction
  · rintro rfl
    cases state with
    | Reserved => rfl
    | Active => rfl
    | ReleasePending => rfl

/-- The fields of a record, in order. -/
theorem encode_lease_record_eq (lease : PersistedLease) :
    encode_lease_record lease = JOURNAL_MAGIC ++ ([JOURNAL_VERSION] ++
      ([lease_state_to_wire lease.state] ++ (id_bytes lease.session_id.bytes ++
      (id_bytes lease.device_id.bytes ++ (array_bytes 4 lease.addresses.ipv4 ++
      ([UInt8.ofNat lease.addresses.ipv4_prefix_len] ++
      (array_bytes 16 lease.addresses.ipv6_prefix_addr ++
      ([UInt8.ofNat lease.addresses.ipv6_prefix_len] ++
      (U64.to_be_bytes (Fin.ofNat _ lease.expires_at_ms) ++ []))))))))) := by
  have hstart : List.replicate JOURNAL_RECORD_LEN (0 : UInt8) =
      [] ++ List.replicate (JOURNAL_RECORD_LEN - 0) 0 := rfl
  have hmagic : JOURNAL_MAGIC.length = 4 := rfl
  unfold encode_lease_record
  simp only [hstart]
  -- from left to right, each write just behind the last
  rw [copy_range_zeroes (i := 0) (j := 4), set_zeroes (i := 4), set_zeroes (i := 5),
    copy_range_zeroes (i := 6) (j := 22), copy_range_zeroes (i := 22) (j := 38),
    copy_range_zeroes (i := 38) (j := 42), set_zeroes (i := 42),
    copy_range_zeroes (i := 43) (j := 59), set_zeroes (i := 59),
    copy_range_zeroes (i := 60) (j := 68)]
  all_goals simp [id_bytes, hmagic, JOURNAL_RECORD_LEN]

@[simp] theorem length_encode_lease_record (lease : PersistedLease) :
    (encode_lease_record lease).length = JOURNAL_RECORD_LEN := by
  simp [encode_lease_record_eq, id_bytes, JOURNAL_MAGIC, JOURNAL_RECORD_LEN]

theorem length_of_mem_encoded (leases : List PersistedLease) :
    ∀ record ∈ leases.map encode_lease_record, record.length = JOURNAL_RECORD_LEN := by
  intro record hrecord
  obtain ⟨lease, -, rfl⟩ := List.mem_map.mp hrecord
  exact length_encode_lease_record lease

/-- **The decoder inverts the encoder.** -/
theorem decode_encode {lease : PersistedLease} (hfits : lease.Fits) :
    decode_lease_record (encode_lease_record lease) = some lease := by
  have h0 : (encode_lease_record lease).drop 0 = _ := encode_lease_record_eq lease
  have h4 := drop_after (j := 4) h0 rfl
  have h5 := drop_after (j := 5) h4 rfl
  have h6 := drop_after (j := 6) h5 rfl
  have h22 := drop_after (j := 22) h6 (by simp [id_bytes])
  have h38 := drop_after (j := 38) h22 (by simp [id_bytes])
  have h42 := drop_after (j := 42) h38 (by simp)
  have h43 := drop_after (j := 43) h42 rfl
  have h59 := drop_after (j := 59) h43 (by simp)
  have h60 := drop_after (j := 60) h59 rfl
  have hsession : array_from_bytes 16 (id_bytes lease.session_id.bytes) = lease.session_id.bytes :=
    (array_from_bytes_eq_iff (length_array_bytes 16 _)).mpr rfl
  have hdevice : array_from_bytes 16 (id_bytes lease.device_id.bytes) = lease.device_id.bytes :=
    (array_from_bytes_eq_iff (length_array_bytes 16 _)).mpr rfl
  have hipv4 : array_from_bytes 4 (array_bytes 4 lease.addresses.ipv4) = lease.addresses.ipv4 :=
    (array_from_bytes_eq_iff (length_array_bytes 4 _)).mpr rfl
  have hipv6 : array_from_bytes 16 (array_bytes 16 lease.addresses.ipv6_prefix_addr) =
      lease.addresses.ipv6_prefix_addr :=
    (array_from_bytes_eq_iff (length_array_bytes 16 _)).mpr rfl
  have hexpires : U64.from_be_bytes (U64.to_be_bytes (Fin.ofNat _ lease.expires_at_ms)) =
      Fin.ofNat _ lease.expires_at_ms :=
    (U64.from_be_bytes_eq_iff (U64.length_to_be_bytes _)).mpr rfl
  have hword : (Fin.ofNat (2 ^ 64) lease.expires_at_ms).val = lease.expires_at_ms := by
    have := hfits.expires_at_ms
    unfold u64Max at this
    exact Nat.mod_eq_of_lt (by omega)
  have hlen4 : (UInt8.ofNat lease.addresses.ipv4_prefix_len).toNat =
      lease.addresses.ipv4_prefix_len := by
    rw [UInt8.toNat_ofNat']
    exact Nat.mod_eq_of_lt hfits.ipv4_prefix_len
  have hlen6 : (UInt8.ofNat lease.addresses.ipv6_prefix_len).toNat =
      lease.addresses.ipv6_prefix_len := by
    rw [UInt8.toNat_ofNat']
    exact Nat.mod_eq_of_lt hfits.ipv6_prefix_len
  rw [decode_lease_record, field_of_drop (j := 4) h0 rfl, getD_of_drop h4, getD_of_drop h5,
    field_of_drop (j := 22) h6 (length_array_bytes 16 _),
    field_of_drop (j := 38) h22 (length_array_bytes 16 _),
    field_of_drop (j := 42) h38 (length_array_bytes 4 _), getD_of_drop h42,
    field_of_drop (j := 59) h43 (length_array_bytes 16 _), getD_of_drop h59,
    field_of_drop (j := 68) h60 (U64.length_to_be_bytes _), lease_state_from_wire_eq_some.mpr rfl,
    hsession, hdevice, hipv4, hipv6, hexpires, hword, hlen4, hlen6]
  simp

/-- **The encoder inverts the decoder**: an array that is accepted is the record of
the lease it is decoded to. -/
theorem encode_decode {record : Bytes} {lease : PersistedLease}
    (hlen : record.length = JOURNAL_RECORD_LEN) (h : decode_lease_record record = some lease) :
    encode_lease_record lease = record ∧ lease.Fits := by
  rw [JOURNAL_RECORD_LEN] at hlen
  unfold decode_lease_record at h
  split at h
  · contradiction
  next haccepted =>
  obtain ⟨hmagic, hversion⟩ := not_or.mp haccepted
  obtain ⟨state, hstate, h⟩ := Option.bind_eq_some_iff.mp h
  obtain rfl := Option.some.inj h
  have harray : ∀ i j : ℕ, j ≤ 68 →
      array_bytes (j - i) (array_from_bytes (j - i) (field record i j)) = field record i j := by
    intro i j hj
    exact ((array_from_bytes_eq_iff (field_length (by omega))).mp rfl).symm
  have hword : U64.to_be_bytes (Fin.ofNat _ (U64.from_be_bytes (field record 60 68)).val) =
      field record 60 68 := by
    rw [Fin.ofNat_val_eq_self]
    exact ((U64.from_be_bytes_eq_iff (field_length (by omega))).mp rfl).symm
  refine ⟨?_, UInt8.toNat_lt _, UInt8.toNat_lt _, Nat.le_of_lt_succ (Fin.isLt _)⟩
  rw [encode_lease_record_eq]
  simp only [id_bytes]
  rw [← lease_state_from_wire_eq_some.mp hstate, ← not_not.mp hmagic, ← not_not.mp hversion,
    harray 6 22 (by omega), harray 22 38 (by omega), harray 38 42 (by omega),
    harray 43 59 (by omega), hword, UInt8.ofNat_toNat, UInt8.ofNat_toNat]
  -- the ranges meet, from the last one back to the first
  have hlast : field record 60 68 ++ [] = record.drop 60 := by
    have hend : record.drop 68 = [] := List.drop_eq_nil_of_le (by omega)
    rw [← hend, field_append_drop (by omega)]
  rw [hlast, getD_append_drop (i := 59) (by omega), field_append_drop (by omega),
    getD_append_drop (i := 42) (by omega), field_append_drop (by omega),
    field_append_drop (by omega), field_append_drop (by omega),
    getD_append_drop (i := 5) (by omega), getD_append_drop (i := 4) (by omega),
    field_append_drop (by omega), List.drop_zero]

/-! ## A whole file -/

def decode_records : List Bytes → Except StoreError (List PersistedLease)
  | [] => .ok []
  | chunk :: rest =>
    match decode_lease_record chunk with
    | none => .error .Corrupt
    | some lease => (decode_records rest).map (lease :: ·)

/-- `read_journal_file`, from the bytes that were read. -/
def read_lease_records (bytes : Bytes) : Except StoreError (List PersistedLease) :=
  if MAX_JOURNAL_BYTES < bytes.length then .error .Corrupt
  else if bytes.length % JOURNAL_RECORD_LEN ≠ 0 then .error .Corrupt
  else if MAX_LEASES_HARD_CAP < bytes.length / JOURNAL_RECORD_LEN then .error .Corrupt
  else decode_records (chunks_exact JOURNAL_RECORD_LEN bytes)

/-- The loop of `open`: a session that is met again makes the file corrupt. -/
def insert_leases : List PersistedLease → LeaseStore → Except StoreError LeaseStore
  | [], map => .ok map
  | lease :: rest, map =>
    if (map.lookup lease.session_id).isSome then .error .Corrupt
    else insert_leases rest (map.insert lease.session_id lease)

/-- The store: the file at its path and the mirror behind the lock. -/
structure JournalLeaseStore where
  journal : JournalFile
  entries : LeaseStore

def load_leases (leases : List PersistedLease) : Except StoreError LeaseStore :=
  if MAX_LEASES_HARD_CAP < leases.length then .error .Corrupt
  else insert_leases leases ∅

def JournalLeaseStore.open (journal : JournalFile) : Except StoreError JournalLeaseStore :=
  match journal with
  | .insecure => .error .Corrupt
  | .unreadable => .error .Io
  | .missing => (load_leases []).map (⟨journal, ·⟩)
  | .present bytes => do
    let leases ← read_lease_records bytes
    (load_leases leases).map (⟨journal, ·⟩)

/-- The order of the records: by session, and then by device. -/
def lease_le (a b : PersistedLease) : Prop :=
  id_bytes a.session_id.bytes < id_bytes b.session_id.bytes ∨
    id_bytes a.session_id.bytes = id_bytes b.session_id.bytes ∧
      id_bytes a.device_id.bytes ≤ id_bytes b.device_id.bytes

instance lease_le.decidable : DecidableRel lease_le :=
  fun _ _ => inferInstanceAs (Decidable (_ ∨ _))

def ordered_leases (entries : LeaseStore) : List PersistedLease :=
  entries.values.insertionSort lease_le

def rewritten_journal (entries : LeaseStore) : Bytes :=
  ((ordered_leases entries).map encode_lease_record).flatten

def rewrite_journal_locked (journal : JournalFile) (entries : LeaseStore) (write : AtomicWrite) :
    JournalFile × Except StoreError Unit :=
  if MAX_LEASES_HARD_CAP < entries.len then (journal, .error .Io)
  else
    let written := secure_atomic_write journal (rewritten_journal entries) write
    (written.1, written.2.mapError fun _ => .Io)

namespace JournalLeaseStore

/-- The critical section of `persist` and `release`: the mirror takes the snapshot
only after the file has. -/
def commit (store : JournalLeaseStore) (snapshot : LeaseStore) (write : AtomicWrite) :
    JournalLeaseStore × Except StoreError Unit :=
  match rewrite_journal_locked store.journal snapshot write with
  | (journal, .error error) => (⟨journal, store.entries⟩, .error error)
  | (journal, .ok ()) => (⟨journal, snapshot⟩, .ok ())

def persist (store : JournalLeaseStore) (lease : PersistedLease) (write : AtomicWrite) :
    JournalLeaseStore × Except StoreError Unit :=
  store.commit (store.entries.insert lease.session_id lease) write

def release (store : JournalLeaseStore) (session_id : SessionId) (write : AtomicWrite) :
    JournalLeaseStore × Except StoreError Unit :=
  store.commit (store.entries.erase session_id) write

end JournalLeaseStore

/-! ### The records of a file -/

theorem decode_records_eq_ok {records : List Bytes} {leases : List PersistedLease} :
    decode_records records = .ok leases ↔
      records.map decode_lease_record = leases.map some := by
  induction records generalizing leases with
  | nil =>
    rw [decode_records, Except.ok.injEq, List.map_nil, eq_comm, eq_comm (a := []),
      List.map_eq_nil_iff]
  | cons record records ih =>
    rw [decode_records, List.map_cons]
    cases hdecode : decode_lease_record record with
    | none => cases leases <;> simp
    | some lease =>
      cases leases with
      | nil => cases hrest : decode_records records <;> simp [Except.map]
      | cons head leases =>
        rw [List.map_cons, List.cons.injEq, ← ih]
        cases hrest : decode_records records with
        | error error => simp [Except.map]
        | ok rest => simp [Except.map]

/-- Records that are accepted are those of the leases they are decoded to. -/
theorem encode_decoded_records {records : List Bytes} {leases : List PersistedLease}
    (hlen : ∀ record ∈ records, record.length = JOURNAL_RECORD_LEN)
    (h : decode_records records = .ok leases) :
    leases.map encode_lease_record = records ∧ ∀ lease ∈ leases, lease.Fits := by
  rw [decode_records_eq_ok] at h
  induction records generalizing leases with
  | nil =>
    obtain rfl : leases = [] := by simpa using h.symm
    simp
  | cons record records ih =>
    cases leases with
    | nil => simp at h
    | cons lease leases =>
      obtain ⟨hrecord, h⟩ := List.cons.inj h
      obtain ⟨hencode, hfits⟩ := encode_decode (hlen record List.mem_cons_self) hrecord
      obtain ⟨hrest, hall⟩ := ih (fun r hr => hlen r (List.mem_cons_of_mem _ hr)) h
      refine ⟨?_, ?_⟩
      · rw [List.map_cons, hencode, hrest]
      · intro l hl
        rcases List.mem_cons.mp hl with rfl | hl
        · exact hfits
        · exact hall l hl

theorem decode_encoded_records {leases : List PersistedLease}
    (h : ∀ lease ∈ leases, lease.Fits) :
    decode_records (leases.map encode_lease_record) = .ok leases := by
  rw [decode_records_eq_ok, List.map_map]
  apply List.map_congr_left
  intro lease hlease
  exact decode_encode (h lease hlease)

/-- The file as the checks of its length see it: a row of whole records. -/
theorem read_lease_records_eq_ok {bytes : Bytes} {leases : List PersistedLease} :
    read_lease_records bytes = .ok leases ↔
      bytes.length % JOURNAL_RECORD_LEN = 0 ∧
      bytes.length / JOURNAL_RECORD_LEN ≤ MAX_LEASES_HARD_CAP ∧
      decode_records (chunks_exact JOURNAL_RECORD_LEN bytes) = .ok leases := by
  rw [read_lease_records, Outcome.except_ite_eq_ok, Outcome.except_ite_eq_ok,
    Outcome.except_ite_eq_ok, not_not, Nat.not_lt, Nat.not_lt]
  constructor
  · rintro ⟨-, hwhole, hcount, hdecode⟩
    exact ⟨hwhole, hcount, hdecode⟩
  · rintro ⟨hwhole, hcount, hdecode⟩
    refine ⟨?_, hwhole, hcount, hdecode⟩
    -- the limit on the bytes is the limit on the records
    unfold MAX_JOURNAL_BYTES JOURNAL_RECORD_LEN at *
    omega

/-- The records of the file of a map. -/
theorem chunks_exact_rewritten (entries : LeaseStore) :
    chunks_exact JOURNAL_RECORD_LEN (rewritten_journal entries) =
      (ordered_leases entries).map encode_lease_record :=
  chunks_exact_flatten (by decide) (length_of_mem_encoded _)

/-! ### The map of a file -/

/-- A lease under its key. -/
def PersistedLease.entry (lease : PersistedLease) : Σ _ : SessionId, PersistedLease :=
  ⟨lease.session_id, lease⟩

/-- What the loop read: leases of different sessions, all of them new to the map. -/
theorem insert_leases_eq_ok {leases : List PersistedLease} {map loaded : LeaseStore}
    (h : insert_leases leases map = .ok loaded) :
    (leases.map PersistedLease.session_id).Nodup ∧
      (∀ lease ∈ leases, lease.session_id ∉ map) ∧
      loaded.entries.Perm (leases.map PersistedLease.entry ++ map.entries) := by
  induction leases generalizing map with
  | nil =>
    obtain rfl := Except.ok.inj h
    simp
  | cons lease leases ih =>
    rw [insert_leases, Outcome.except_ite_eq_ok, AList.lookup_isSome] at h
    obtain ⟨hnew, h⟩ := h
    obtain ⟨hnodup, hothers, hperm⟩ := ih h
    have hdifferent : lease.session_id ∉ leases.map PersistedLease.session_id := by
      intro hmem
      obtain ⟨other, hother, hsame⟩ := List.mem_map.mp hmem
      apply hothers other hother
      rw [AList.mem_insert, hsame]
      exact .inl rfl
    refine ⟨List.nodup_cons.mpr ⟨hdifferent, hnodup⟩, ?_, ?_⟩
    · intro other hother
      rcases List.mem_cons.mp hother with rfl | hother
      · exact hnew
      · intro hmem
        exact hothers other hother ((AList.mem_insert _).mpr (.inr hmem))
    · rw [AList.entries_insert_of_notMem hnew] at hperm
      exact hperm.trans List.perm_middle

/-- Leases of different sessions are read. -/
theorem insert_leases_of_nodup {leases : List PersistedLease} {map : LeaseStore}
    (hnodup : (leases.map PersistedLease.session_id).Nodup)
    (hnew : ∀ lease ∈ leases, lease.session_id ∉ map) :
    ∃ loaded, insert_leases leases map = .ok loaded := by
  induction leases generalizing map with
  | nil => exact ⟨map, rfl⟩
  | cons lease leases ih =>
    rw [List.map_cons, List.nodup_cons] at hnodup
    obtain ⟨hdifferent, hnodup⟩ := hnodup
    have hhead : lease.session_id ∉ map := hnew lease List.mem_cons_self
    rw [insert_leases, if_neg (by rwa [AList.lookup_isSome])]
    apply ih hnodup
    intro other hother hmem
    rcases (AList.mem_insert _).mp hmem with hsame | hmem
    · exact hdifferent (List.mem_map.mpr ⟨other, hother, hsame⟩)
    · exact hnew other (List.mem_cons_of_mem _ hother) hmem

/-- A mirror as a file can hold it. -/
structure LeaseStore.Journaled (entries : LeaseStore) : Prop where
  keyed : ∀ session_id lease, entries.lookup session_id = some lease →
    lease.session_id = session_id
  fits : ∀ session_id lease, entries.lookup session_id = some lease → lease.Fits
  bounded : entries.len ≤ MAX_LEASES_HARD_CAP

theorem LeaseStore.Journaled.empty : LeaseStore.Journaled ∅ where
  keyed := by simp
  fits := by simp
  bounded := Nat.zero_le _

theorem LeaseStore.Journaled.insert {entries : LeaseStore} (h : entries.Journaled)
    {lease : PersistedLease} (hfits : lease.Fits)
    (hbounded : (AList.insert lease.session_id lease entries).len ≤ MAX_LEASES_HARD_CAP) :
    LeaseStore.Journaled (AList.insert lease.session_id lease entries) where
  keyed := by
    intro session_id other hlookup
    rcases AList.of_lookup_insert hlookup with hlookup | ⟨rfl, rfl⟩
    · exact h.keyed session_id other hlookup
    · rfl
  fits := by
    intro session_id other hlookup
    rcases AList.of_lookup_insert hlookup with hlookup | ⟨rfl, rfl⟩
    · exact h.fits session_id other hlookup
    · exact hfits
  bounded := hbounded

/-- The entries of a keyed map are its leases under their keys. -/
theorem entries_of_keyed {entries : LeaseStore}
    (hkeyed : ∀ session_id lease, entries.lookup session_id = some lease →
      lease.session_id = session_id) :
    entries.values.map PersistedLease.entry = entries.entries := by
  rw [AList.values, List.map_map]
  refine (List.map_congr_left ?_).trans (List.map_id _)
  rintro ⟨session_id, lease⟩ hmem
  have hkey := hkeyed session_id lease (AList.mem_entries_iff.mp hmem)
  simp [PersistedLease.entry, hkey]

theorem ordered_leases_perm (entries : LeaseStore) :
    (ordered_leases entries).Perm entries.values :=
  List.perm_insertionSort _ _

/-- A map whose entries are some leases under their keys, of sessions that are different. -/
theorem journaled_of_entries {leases : List PersistedLease} {entries : LeaseStore}
    (hentries : entries.entries.Perm (leases.map PersistedLease.entry))
    (hfits : ∀ lease ∈ leases, lease.Fits) (hcount : leases.length ≤ MAX_LEASES_HARD_CAP) :
    entries.Journaled := by
  have hmem : ∀ session_id lease, entries.lookup session_id = some lease →
      lease ∈ leases ∧ lease.session_id = session_id := by
    intro session_id lease hlookup
    have hentry := hentries.mem_iff.mp (AList.mem_entries_iff.mpr hlookup)
    obtain ⟨other, hother, hsame⟩ := List.mem_map.mp hentry
    rw [PersistedLease.entry, Sigma.mk.injEq, heq_eq_eq] at hsame
    obtain ⟨hkey, rfl⟩ := hsame
    exact ⟨hother, hkey⟩
  refine ⟨?_, ?_, ?_⟩
  · intro session_id lease hlookup
    exact (hmem session_id lease hlookup).2
  · intro session_id lease hlookup
    exact hfits lease (hmem session_id lease hlookup).1
  · rw [AList.len, hentries.length_eq, List.length_map]
    exact hcount

/-- The values of such a map are the leases. -/
theorem values_of_entries {leases : List PersistedLease} {entries : LeaseStore}
    (hentries : entries.entries.Perm (leases.map PersistedLease.entry)) :
    entries.values.Perm leases := by
  have hvalues := hentries.map fun e => e.2
  have hleases : (leases.map PersistedLease.entry).map (fun e => e.2) = leases := by
    rw [List.map_map]
    exact List.map_id leases
  rw [hleases] at hvalues
  exact hvalues

/-! ### The order of the records -/

instance lease_le.total : Std.Total lease_le where
  total a b := by
    rcases List.le_total (id_bytes a.session_id.bytes) (id_bytes b.session_id.bytes) with h | h
    · rcases List.le_iff_lt_or_eq.mp h with hlt | heq
      · exact .inl (.inl hlt)
      · rcases List.le_total (id_bytes a.device_id.bytes) (id_bytes b.device_id.bytes) with hd | hd
        · exact .inl (.inr ⟨heq, hd⟩)
        · exact .inr (.inr ⟨heq.symm, hd⟩)
    · rcases List.le_iff_lt_or_eq.mp h with hlt | heq
      · exact .inr (.inl hlt)
      · rcases List.le_total (id_bytes a.device_id.bytes) (id_bytes b.device_id.bytes) with hd | hd
        · exact .inl (.inr ⟨heq.symm, hd⟩)
        · exact .inr (.inr ⟨heq, hd⟩)

instance lease_le.trans : IsTrans PersistedLease lease_le where
  trans a b c hab hbc := by
    rcases hab with hab | ⟨hab, hdevice⟩
    · rcases hbc with hbc | ⟨hbc, -⟩
      · exact .inl (List.lt_trans hab hbc)
      · left
        rwa [← hbc]
    · rcases hbc with hbc | ⟨hbc, hdevice'⟩
      · left
        rwa [hab]
      · exact .inr ⟨hab.trans hbc, List.le_trans hdevice hdevice'⟩

/-- The leases of a keyed map are of different sessions. -/
theorem ordered_sessions_nodup {entries : LeaseStore}
    (hkeyed : ∀ session_id lease, entries.lookup session_id = some lease →
      lease.session_id = session_id) :
    ((ordered_leases entries).map PersistedLease.session_id).Nodup := by
  rw [((ordered_leases_perm entries).map _).nodup_iff]
  apply AList.nodup_map_values
  intro k k' v v' hv hv' hsame
  rw [← hkeyed k v hv, ← hkeyed k' v' hv', hsame]

/-- Where no session has two leases, the records are sorted by session alone. -/
theorem ordered_leases_sorted {entries : LeaseStore}
    (hkeyed : ∀ session_id lease, entries.lookup session_id = some lease →
      lease.session_id = session_id) :
    (ordered_leases entries).Pairwise fun a b =>
      id_bytes a.session_id.bytes < id_bytes b.session_id.bytes := by
  have hsorted : (ordered_leases entries).Pairwise lease_le := List.pairwise_insertionSort _ _
  have hdifferent : (ordered_leases entries).Pairwise fun a b => a.session_id ≠ b.session_id :=
    List.pairwise_map.mp (ordered_sessions_nodup hkeyed)
  refine hsorted.imp₂ ?_ hdifferent
  intro a b hle hne
  rcases hle with hlt | ⟨heq, -⟩
  · exact hlt
  · exact absurd (congrArg SessionId.mk (array_bytes_inj heq)) hne

/-! ## Reading and writing -/

/-- The same inversion for a result that is only wrapped. -/
theorem except_map_eq_ok {ε α β : Type} {f : α → β} {x : Except ε α} {b : β} :
    x.map f = .ok b ↔ ∃ a, x = .ok a ∧ f a = b := by
  cases x with
  | error e => simp [Except.map]
  | ok a => simp [Except.map]

theorem open_present_eq_ok {bytes : Bytes} {store : JournalLeaseStore} :
    JournalLeaseStore.open (.present bytes) = .ok store ↔
      store.journal = .present bytes ∧
      ∃ leases, read_lease_records bytes = .ok leases ∧ load_leases leases = .ok store.entries := by
  rw [JournalLeaseStore.open, Outcome.except_bind_eq_ok]
  constructor
  · rintro ⟨leases, hread, h⟩
    obtain ⟨entries, hload, rfl⟩ := except_map_eq_ok.mp h
    exact ⟨rfl, leases, hread, hload⟩
  · rintro ⟨hjournal, leases, hread, hload⟩
    refine ⟨leases, hread, except_map_eq_ok.mpr ⟨store.entries, hload, ?_⟩⟩
    rw [← hjournal]

/-- **What is written is read back**: the file of a map opens, as the same map. -/
theorem open_rewritten {entries : LeaseStore} (h : entries.Journaled) :
    ∃ store, JournalLeaseStore.open (.present (rewritten_journal entries)) = .ok store ∧
      ∀ session_id, store.entries.lookup session_id = entries.lookup session_id := by
  have hperm := ordered_leases_perm entries
  have hcount : (ordered_leases entries).length ≤ MAX_LEASES_HARD_CAP := by
    rw [hperm.length_eq, AList.values, List.length_map]
    exact h.bounded
  have hfits : ∀ lease ∈ ordered_leases entries, lease.Fits := by
    intro lease hlease
    obtain ⟨session_id, hlookup⟩ := AList.mem_values_iff.mp (hperm.mem_iff.mp hlease)
    exact h.fits session_id lease hlookup
  -- the checks of the length
  have hread : read_lease_records (rewritten_journal entries) = .ok (ordered_leases entries) := by
    have hsize : (rewritten_journal entries).length =
        (ordered_leases entries).length * JOURNAL_RECORD_LEN := by
      rw [rewritten_journal, length_flatten_records (length_of_mem_encoded _),
        List.length_map]
    rw [read_lease_records_eq_ok, hsize, Nat.mul_div_cancel _ (by decide), chunks_exact_rewritten]
    exact ⟨Nat.mul_mod_left _ _, hcount, decode_encoded_records hfits⟩
  -- the check of the sessions
  have hnodup := ordered_sessions_nodup h.keyed
  obtain ⟨loaded, hloaded⟩ : ∃ loaded, insert_leases (ordered_leases entries) ∅ = .ok loaded :=
    insert_leases_of_nodup hnodup (by simp)
  have hentries : loaded.entries.Perm entries.entries := by
    obtain ⟨-, -, hloaded⟩ := insert_leases_eq_ok hloaded
    rw [← entries_of_keyed h.keyed]
    simpa using hloaded.trans ((hperm.map PersistedLease.entry).append_right _)
  refine ⟨⟨.present (rewritten_journal entries), loaded⟩, ?_, ?_⟩
  · refine open_present_eq_ok.mpr ⟨rfl, ordered_leases entries, hread, ?_⟩
    rw [load_leases, if_neg (by omega)]
    exact hloaded
  · intro session_id
    exact AList.perm_lookup hentries

/-- **What is read is what would be written**: a file that opens is a row of the records
of its leases, and its map is written as the same records in the order of the sessions. -/
theorem rewritten_of_open {bytes : Bytes} {store : JournalLeaseStore}
    (h : JournalLeaseStore.open (.present bytes) = .ok store) :
    (chunks_exact JOURNAL_RECORD_LEN bytes).flatten = bytes ∧
    (∀ record ∈ chunks_exact JOURNAL_RECORD_LEN bytes, ∃ lease,
      decode_lease_record record = some lease ∧ encode_lease_record lease = record) ∧
    store.entries.Journaled ∧
    (chunks_exact JOURNAL_RECORD_LEN (rewritten_journal store.entries)).Perm
      (chunks_exact JOURNAL_RECORD_LEN bytes) := by
  obtain ⟨-, leases, hread, hload⟩ := open_present_eq_ok.mp h
  obtain ⟨hwhole, hcount, hdecode⟩ := read_lease_records_eq_ok.mp hread
  obtain ⟨hencode, hfits⟩ := encode_decoded_records
    (fun record hrecord => length_of_mem_chunks_exact hrecord) hdecode
  rw [load_leases, Outcome.except_ite_eq_ok, Nat.not_lt] at hload
  obtain ⟨hcap, hload⟩ := hload
  obtain ⟨-, -, hentries⟩ := insert_leases_eq_ok hload
  have hentries : store.entries.entries.Perm (leases.map PersistedLease.entry) := by
    simpa using hentries
  refine ⟨flatten_chunks_exact hwhole, ?_, journaled_of_entries hentries hfits hcap, ?_⟩
  · intro record hrecord
    have hmem := hrecord
    rw [← hencode] at hmem
    obtain ⟨lease, hlease, rfl⟩ := List.mem_map.mp hmem
    exact ⟨lease, decode_encode (hfits lease hlease), rfl⟩
  · rw [chunks_exact_rewritten, ← hencode]
    exact ((ordered_leases_perm _).trans (values_of_entries hentries)).map _

/-- A map within the bound is written. -/
theorem rewrite_journal_written {entries : LeaseStore} (h : entries.len ≤ MAX_LEASES_HARD_CAP)
    (journal : JournalFile) :
    rewrite_journal_locked journal entries .written =
      (.present (rewritten_journal entries), .ok ()) := by
  rw [rewrite_journal_locked, if_neg (by omega)]
  rfl

/-- The sessions of the records that are written stand in increasing order. -/
theorem rewritten_sorted {entries : LeaseStore} (h : entries.Journaled) :
    (chunks_exact JOURNAL_RECORD_LEN (rewritten_journal entries)).Pairwise fun a b =>
      field a 6 22 < field b 6 22 := by
  have hsession : ∀ lease : PersistedLease,
      field (encode_lease_record lease) 6 22 = id_bytes lease.session_id.bytes := by
    intro lease
    have h0 : (encode_lease_record lease).drop 0 = _ := encode_lease_record_eq lease
    have h6 := drop_after (j := 6) (drop_after (j := 5) (drop_after (j := 4) h0 rfl) rfl) rfl
    exact field_of_drop h6 (length_array_bytes 16 _)
  rw [chunks_exact_rewritten, List.pairwise_map]
  simp only [hsession]
  exact ordered_leases_sorted h.keyed

/-- **The round trip of the lease journal.** The file of every map opens as that map, and
every file that opens is a row of the records of its leases; its map is written as
the same records, sorted by session. -/
theorem journal_round_trip :
    (∀ entries : LeaseStore, entries.Journaled → ∀ journal : JournalFile,
      ∃ bytes store, rewrite_journal_locked journal entries .written = (.present bytes, .ok ()) ∧
        JournalLeaseStore.open (.present bytes) = .ok store ∧
        ∀ session_id, store.entries.lookup session_id = entries.lookup session_id) ∧
    ∀ (bytes : Bytes) (store : JournalLeaseStore),
      JournalLeaseStore.open (.present bytes) = .ok store →
      (chunks_exact JOURNAL_RECORD_LEN bytes).flatten = bytes ∧
      (∀ record ∈ chunks_exact JOURNAL_RECORD_LEN bytes, ∃ lease,
        decode_lease_record record = some lease ∧ encode_lease_record lease = record) ∧
      ∀ journal : JournalFile, ∃ rewritten,
        rewrite_journal_locked journal store.entries .written = (.present rewritten, .ok ()) ∧
        (chunks_exact JOURNAL_RECORD_LEN rewritten).Perm (chunks_exact JOURNAL_RECORD_LEN bytes) ∧
        (chunks_exact JOURNAL_RECORD_LEN rewritten).flatten = rewritten ∧
        (chunks_exact JOURNAL_RECORD_LEN rewritten).Pairwise fun a b =>
          field a 6 22 < field b 6 22 := by
  constructor
  · intro entries h journal
    obtain ⟨store, hopen, hsame⟩ := open_rewritten h
    exact ⟨rewritten_journal entries, store, rewrite_journal_written h.bounded journal, hopen,
      hsame⟩
  · intro bytes store h
    obtain ⟨hbytes, hrecords, hjournaled, hperm⟩ := rewritten_of_open h
    refine ⟨hbytes, hrecords, ?_⟩
    intro journal
    refine ⟨rewritten_journal store.entries, rewrite_journal_written hjournaled.bounded journal,
      hperm, ?_, rewritten_sorted hjournaled⟩
    rw [chunks_exact_rewritten, rewritten_journal]

/-- A lease of a pool on `10.64.0.0/24`. -/
def journaled_lease (session device : BitVec 128) (host : Ipv4) : PersistedLease where
  session_id := ⟨session⟩
  device_id := ⟨device⟩
  addresses := ⟨0x0a400000 + host, 24, 0xfd000000000000010000000000000000, 64⟩
  state := .Active
  expires_at_ms := 60000

/-- The later session comes first in this file. -/
def unsorted_journal : Bytes :=
  encode_lease_record (journaled_lease 2 11 3) ++ encode_lease_record (journaled_lease 1 12 2)

theorem journal_round_trip_two :
    (∃ bytes store,
      rewrite_journal_locked .missing
        (AList.insert ⟨1⟩ (journaled_lease 1 12 2) (AList.insert ⟨2⟩ (journaled_lease 2 11 3) ∅))
        .written = (.present bytes, .ok ()) ∧
      JournalLeaseStore.open (.present bytes) = .ok store ∧
      store.entries.lookup ⟨2⟩ = some (journaled_lease 2 11 3)) ∧
    ∃ store rewritten, JournalLeaseStore.open (.present unsorted_journal) = .ok store ∧
      rewrite_journal_locked .missing store.entries .written = (.present rewritten, .ok ()) ∧
      (chunks_exact JOURNAL_RECORD_LEN rewritten).Perm
        (chunks_exact JOURNAL_RECORD_LEN unsorted_journal) := by
  have hfits : ∀ session device host, (journaled_lease session device host).Fits := by
    intro session device host
    constructor
    all_goals simp [journaled_lease, u64Max]
  constructor
  · have hone : LeaseStore.Journaled (AList.insert ⟨2⟩ (journaled_lease 2 11 3) ∅) :=
      LeaseStore.Journaled.empty.insert (hfits 2 11 3) (by decide)
    have htwo : LeaseStore.Journaled (AList.insert ⟨1⟩ (journaled_lease 1 12 2)
        (AList.insert ⟨2⟩ (journaled_lease 2 11 3) ∅)) :=
      hone.insert (hfits 1 12 2) (by decide)
    obtain ⟨bytes, store, hwrite, hopen, hsame⟩ := journal_round_trip.1 _ htwo .missing
    refine ⟨bytes, store, hwrite, hopen, ?_⟩
    rw [hsame]
    decide
  · have hsome : (JournalLeaseStore.open (.present unsorted_journal)).toOption.isSome = true := by
      decide +kernel
    obtain ⟨store, hstore⟩ := Option.isSome_iff_exists.mp hsome
    have hopen : JournalLeaseStore.open (.present unsorted_journal) = .ok store := by
      cases hresult : JournalLeaseStore.open (.present unsorted_journal) with
      | error error => simp [hresult, Except.toOption] at hstore
      | ok opened =>
        rw [hresult] at hstore
        rw [Option.some.inj hstore]
    obtain ⟨-, -, hwritten⟩ := journal_round_trip.2 unsorted_journal store hopen
    obtain ⟨rewritten, hwrite, hperm, -⟩ := hwritten .missing
    exact ⟨store, rewritten, hopen, hwrite, hperm⟩

/-! ## Runs of the store

Between two writes the file is the mirror, whatever fails before the rename. -/

/-- The file at the path opens as the mirror. -/
structure JournalLeaseStore.Mirrored (store : JournalLeaseStore) : Prop where
  journaled : store.entries.Journaled
  reopens : ∃ reopened, JournalLeaseStore.open store.journal = .ok reopened ∧
    ∀ session_id, reopened.entries.lookup session_id = store.entries.lookup session_id

/-- Whatever is opened is mirrored. -/
theorem open_mirrored {journal : JournalFile} {store : JournalLeaseStore}
    (h : JournalLeaseStore.open journal = .ok store) : store.Mirrored := by
  cases journal with
  | missing =>
    have hopen := h
    rw [JournalLeaseStore.open] at h
    obtain ⟨entries, hload, rfl⟩ := except_map_eq_ok.mp h
    have hentries : ∅ = entries := Except.ok.inj hload
    subst hentries
    exact ⟨LeaseStore.Journaled.empty, _, hopen, fun _ => rfl⟩
  | insecure => contradiction
  | unreadable => contradiction
  | present bytes =>
    obtain ⟨-, -, hjournaled, -⟩ := rewritten_of_open h
    refine ⟨hjournaled, store, ?_, fun _ => rfl⟩
    rw [(open_present_eq_ok.mp h).1, h]

/-- A critical section leaves the file and the mirror together, unless the write fails
after its rename. -/
theorem commit_mirrored {store : JournalLeaseStore} {snapshot : LeaseStore} {write : AtomicWrite}
    (h : store.Mirrored)
    (hsnapshot : snapshot.len ≤ MAX_LEASES_HARD_CAP → snapshot.Journaled)
    (hwrite : write ≠ .failed true) : (store.commit snapshot write).1.Mirrored := by
  by_cases hlen : MAX_LEASES_HARD_CAP < snapshot.len
  · rw [JournalLeaseStore.commit, rewrite_journal_locked, if_pos hlen]
    exact h
  · have hjournaled := hsnapshot (Nat.not_lt.mp hlen)
    cases write with
    | written =>
      rw [JournalLeaseStore.commit, rewrite_journal_written hjournaled.bounded]
      exact ⟨hjournaled, open_rewritten hjournaled⟩
    | failed renamed =>
      cases renamed with
      | true => exact absurd rfl hwrite
      | false =>
        rw [JournalLeaseStore.commit, rewrite_journal_locked, if_neg hlen]
        exact h

inductive JournalCall where
  | persist (lease : PersistedLease) (write : AtomicWrite)
  | release (session_id : SessionId) (write : AtomicWrite)

/-- A call that persists a lease of the source's types, and whose write does not fail
after its rename. -/
def JournalCall.Clean : JournalCall → Prop
  | .persist lease write => lease.Fits ∧ write ≠ .failed true
  | .release _ write => write ≠ .failed true

def JournalLeaseStore.call (store : JournalLeaseStore) : JournalCall → JournalLeaseStore
  | .persist lease write => (store.persist lease write).1
  | .release session_id write => (store.release session_id write).1

theorem call_mirrored {store : JournalLeaseStore} (h : store.Mirrored) {call : JournalCall}
    (hclean : call.Clean) : (store.call call).Mirrored := by
  cases call with
  | persist lease write =>
    obtain ⟨hfits, hwrite⟩ := hclean
    apply commit_mirrored h _ hwrite
    intro hbounded
    exact h.journaled.insert hfits hbounded
  | release session_id write =>
    apply commit_mirrored h _ hclean
    intro hbounded
    refine ⟨?_, ?_, hbounded⟩
    · intro other lease hlookup
      exact h.journaled.keyed other lease (AList.lookup_of_erase hlookup)
    · intro other lease hlookup
      exact h.journaled.fits other lease (AList.lookup_of_erase hlookup)

/-- **A restart finds the mirror**: after any calls the file opens as the map that the store
answers from. -/
theorem run_mirrored {journal : JournalFile} {store : JournalLeaseStore}
    (hopen : JournalLeaseStore.open journal = .ok store) {calls : List JournalCall}
    (hclean : ∀ call ∈ calls, call.Clean) :
    (calls.foldl JournalLeaseStore.call store).Mirrored := by
  have h := open_mirrored hopen
  clear hopen
  induction calls generalizing store with
  | nil => exact h
  | cons call calls ih =>
    rw [List.foldl_cons]
    apply ih (fun c hc => hclean c (List.mem_cons_of_mem _ hc))
    exact call_mirrored h (hclean call List.mem_cons_self)

end StreamGuard.Gateway
