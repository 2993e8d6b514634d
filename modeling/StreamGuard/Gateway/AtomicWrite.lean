/-
The atomic rewrite of a journal: `secure_atomic_write` of
`streamguard-gateway/src/v2/persistence.rs`, on Unix.

The snapshot is written to a temporary file next to the journal and renamed over it.
Every system call may fail, and the process may stop after any of them; both are
arguments here (`Faults`, and the states a run passes). Up to the rename only
the temporary file changes, which is what `prepare_meets` says of the whole
first part, and the rename replaces the journal by the complete new one.

But the call is not over then: it still syncs the directory and looks at the new
journal, and when one of these calls fails it reports the error although the journal
has changed. `atomic_iff` says that this is the only way to break the contract.
-/
import StreamGuard.Gateway.ReplayJournal
import StreamGuard.Lib.Crash
import Mathlib.Logic.Function.Basic

set_option autoImplicit false

namespace StreamGuard.Gateway.SecureJournal

open StreamGuard StreamGuard.Lib

/-! ## The file system -/

/-- The permission bits of a file. -/
abbrev Mode := BitVec 12

/-- What a name stands for: `lstat` does not follow a link. `special` is a FIFO, a socket or a
device. -/
inductive Entry where
  | file (bytes : Bytes) (mode : Mode)
  | directory (mode : Mode)
  | symlink
  | special
  deriving DecidableEq

/-- A name in the directory of the journal, cut at its last dot. -/
structure FileName where
  stem : String
  extension : Option String
  deriving DecidableEq

/-- The parent directory itself, and what is in it. -/
structure FileSystem where
  parent : Option Entry
  entries : FileName → Option Entry

def FileSystem.set (fs : FileSystem) (name : FileName) (entry : Option Entry) : FileSystem :=
  { fs with entries := Function.update fs.entries name entry }

inductive IoError where
  | NotFound
  | Other
  deriving DecidableEq

inductive SecureJournalError where
  | InvalidReference
  | Io

/-- The system calls of `secure_atomic_write`, in its order. -/
inductive Syscall where
  | lstat_parent
  | lstat_tmp
  | remove_stale
  | create_new
  | write_all
  | sync_all
  | set_permissions
  | lstat_created
  | set_permissions_again
  | lstat_again
  | remove_created
  | rename
  | lstat_parent_again
  | open_parent
  | sync_parent
  | lstat_journal
  deriving DecidableEq

/-- Which calls fail, how much a failing `write_all` has written, and the umask. -/
structure Faults where
  fails : Syscall → Bool
  accepted : ℕ
  umask : Mode

/-! ### System calls

What a call does to the file system and what it returns, if it does not fail. -/

namespace FileSystem

variable (fs : FileSystem) (name : FileName)

def removed : FileSystem × Except IoError Unit :=
  match fs.entries name with
  | none => (fs, .error .NotFound)
  | some (.directory _) => (fs, .error .Other)
  | some _ => (fs.set name none, .ok ())

/-- `create_new(true).mode(mode)`. -/
def created (umask mode : Mode) : FileSystem × Except IoError Unit :=
  match fs.entries name with
  | some _ => (fs, .error .Other)
  | none => (fs.set name (some (.file [] (mode &&& ~~~umask))), .ok ())

/-- The file at a name with other bytes. -/
def rewritten (bytes : Bytes) : FileSystem :=
  match fs.entries name with
  | some (.file _ mode) => fs.set name (some (.file bytes mode))
  | _ => fs

def permitted (mode : Mode) : FileSystem × Except IoError Unit :=
  match fs.entries name with
  | some (.file bytes _) => (fs.set name (some (.file bytes mode)), .ok ())
  | _ => (fs, .ok ())

/-- A directory is not replaced by a file. -/
def renamed (source target : FileName) : FileSystem × Except IoError Unit :=
  match fs.entries source, fs.entries target with
  | none, _ => (fs, .error .NotFound)
  | some _, some (.directory _) => (fs, .error .Other)
  | some entry, _ => ((fs.set source none).set target (some entry), .ok ())

end FileSystem

/-- A system call that may fail, and then does nothing. -/
def syscall {α : Type} (fails : Bool) (call : FileSystem → FileSystem × Except IoError α) :
    Prog FileSystem IoError α :=
  .step fun fs => if fails = true then (fs, .error .Other) else call fs

section Calls

variable (fails : Bool) (name : FileName)

def lstat (place : FileSystem → Option Entry) : Prog FileSystem IoError Entry :=
  syscall fails fun fs => (fs, (place fs).elim (.error .NotFound) .ok)

def remove_file : Prog FileSystem IoError Unit := syscall fails (·.removed name)

def create_new (umask mode : Mode) : Prog FileSystem IoError Unit :=
  syscall fails (·.created name umask mode)

/-- The file just created grows; a crash or an error leaves the first part of the bytes. -/
def write_all (accepted : ℕ) (bytes : Bytes) : Prog FileSystem IoError Unit :=
  .steps (fun fs => (List.range bytes.length).map fun count => fs.rewritten name (bytes.take count))
    fun fs =>
      if fails = true then (fs.rewritten name (bytes.take accepted), .error .Other)
      else (fs.rewritten name bytes, .ok ())

/-- A sync of a file or a directory, or the opening of one. -/
def sync_all : Prog FileSystem IoError Unit := syscall fails fun fs => (fs, .ok ())

def set_permissions (mode : Mode) : Prog FileSystem IoError Unit :=
  syscall fails (·.permitted name mode)

def rename (source target : FileName) : Prog FileSystem IoError Unit :=
  syscall fails (·.renamed source target)

end Calls

/-! ## `secure_atomic_write` -/

def Entry.mode : Entry → Mode
  | .file _ mode => mode
  | .directory mode => mode
  | .symlink => 0o777
  | .special => 0

def Entry.is_file : Entry → Bool
  | .file _ _ => true
  | _ => false

def Entry.is_dir : Entry → Bool
  | .directory _ => true
  | _ => false

section Write

variable (faults : Faults) (journal : FileName)

/-- `journal_path.with_extension("tmp")`. -/
def journal_tmp_path : FileName := { journal with extension := some "tmp" }

/-- `map_err` to one error. -/
def or_error {α : Type} (error : SecureJournalError) (p : Prog FileSystem IoError α) :
    Prog FileSystem SecureJournalError α :=
  .handle p .done fun _ => .fail error

def validate_parent_dir : Prog FileSystem SecureJournalError Unit :=
  .handle (lstat (faults.fails .lstat_parent) (·.parent))
    (fun metadata =>
      if metadata.is_dir = false then .fail .InvalidReference
      else if metadata.mode &&& 0o022 ≠ 0 then .fail .InvalidReference
      else .done ())
    fun _ => .fail .InvalidReference

/-- `let _ = remove_file(&tmp_path)` and then the error. -/
def give_up (call : Syscall) : Prog FileSystem SecureJournalError Unit := do
  .ignore (remove_file (faults.fails call) (journal_tmp_path journal))
  .fail .Io

/-- A stale regular file is removed; a link is left alone. -/
def clear_tmp : Prog FileSystem SecureJournalError Unit :=
  .handle (lstat (faults.fails .lstat_tmp) (·.entries (journal_tmp_path journal)))
    (fun metadata =>
      if metadata = .symlink then .fail .Io
      else if metadata.is_file = false then give_up faults journal .remove_stale
      else .ignore (remove_file (faults.fails .remove_stale) (journal_tmp_path journal)))
    fun error => if error = .NotFound then .done () else .fail .Io

def write_tmp (bytes : Bytes) : Prog FileSystem SecureJournalError Unit := do
  let tmp := journal_tmp_path journal
  or_error .Io (create_new (faults.fails .create_new) tmp faults.umask 0o600)
  .handle (write_all (faults.fails .write_all) tmp faults.accepted bytes) .done
    fun _ => give_up faults journal .remove_created
  .handle (sync_all (faults.fails .sync_all)) .done
    fun _ => give_up faults journal .remove_created
  .ignore (set_permissions (faults.fails .set_permissions) tmp 0o600)

def validate_tmp : Prog FileSystem SecureJournalError Unit :=
  .handle (lstat (faults.fails .lstat_created) (·.entries (journal_tmp_path journal)))
    (fun metadata =>
      if metadata.is_file = false then give_up faults journal .remove_created
      else if metadata.mode &&& 0o077 ≠ 0 then do
        .ignore (set_permissions (faults.fails .set_permissions_again)
          (journal_tmp_path journal) 0o600)
        let fixed ← or_error .Io
          (lstat (faults.fails .lstat_again) (·.entries (journal_tmp_path journal)))
        if fixed.mode &&& 0o077 ≠ 0 then give_up faults journal .remove_created else .done ()
      else .done ())
    fun _ => give_up faults journal .remove_created

/-- Up to the rename. -/
def prepare (bytes : Bytes) : Prog FileSystem SecureJournalError Unit := do
  validate_parent_dir faults
  clear_tmp faults journal
  write_tmp faults journal bytes
  validate_tmp faults journal

def publish : Prog FileSystem SecureJournalError Unit :=
  .handle (rename (faults.fails .rename) (journal_tmp_path journal) journal) .done
    fun _ => give_up faults journal .remove_created

def fsync_parent_dir : Prog FileSystem SecureJournalError Unit := do
  let metadata ← or_error .Io (lstat (faults.fails .lstat_parent_again) (·.parent))
  if metadata.is_dir = false then .fail .Io else do
  or_error .Io (sync_all (faults.fails .open_parent))
  or_error .Io (sync_all (faults.fails .sync_parent))

def validate_final : Prog FileSystem SecureJournalError Unit := do
  let metadata ← or_error .Io (lstat (faults.fails .lstat_journal) (·.entries journal))
  if metadata.is_file = false then .fail .Io
  else if metadata.mode &&& 0o077 ≠ 0 then .fail .Io
  else .done ()

def secure_atomic_write (bytes : Bytes) : Prog FileSystem SecureJournalError Unit := do
  prepare faults journal bytes
  publish faults journal
  fsync_parent_dir faults
  validate_final faults journal

end Write

/-! ## What a run passes -/

/-- Nothing, or a regular file. -/
def Plain (entry : Option Entry) : Prop :=
  entry = none ∨ ∃ bytes mode, entry = some (.file bytes mode)

/-- The mode of the file that is renamed; a failed `set_permissions` leaves what the umask left. -/
def Faults.created_mode (faults : Faults) : Mode :=
  if faults.fails .set_permissions = true then 0o600 &&& ~~~faults.umask else 0o600

section States

variable (fs₀ : FileSystem) (faults : Faults) (journal : FileName) (bytes : Bytes)

/-- The journal is untouched, and the temporary file no worse than before. -/
structure Old (t : FileSystem) : Prop where
  parent : t.parent = fs₀.parent
  kept : t.entries journal = fs₀.entries journal
  tmp : Plain (fs₀.entries (journal_tmp_path journal)) →
    Plain (t.entries (journal_tmp_path journal))

/-- The new journal is complete, and the temporary file gone. -/
structure New (t : FileSystem) : Prop where
  parent : t.parent = fs₀.parent
  written : t.entries journal = some (.file bytes faults.created_mode)
  tmp : t.entries (journal_tmp_path journal) = none

/-- The temporary file is complete. -/
structure Staged (t : FileSystem) : Prop where
  old : Old fs₀ journal t
  staged : t.entries (journal_tmp_path journal) = some (.file bytes faults.created_mode)

/-- The parent is a directory that only its owner can write, and is found to be one. -/
def ParentAccepted : Prop :=
  faults.fails .lstat_parent = false ∧
    ∃ mode, fs₀.parent = some (.directory mode) ∧ mode &&& 0o022 = 0

/-- The name of the temporary file is free, or its stale file is removed. -/
def TmpCleared : Prop :=
  faults.fails .lstat_tmp = false ∧ (fs₀.entries (journal_tmp_path journal) = none ∨
    (∃ bytes mode, fs₀.entries (journal_tmp_path journal) = some (.file bytes mode)) ∧
      faults.fails .remove_stale = false)

/-- The new file is seen and renamed. -/
def Renamed : Prop :=
  faults.fails .lstat_created = false ∧ faults.fails .rename = false ∧
    ∀ mode, fs₀.entries journal ≠ some (.directory mode)

/-- The new file is created, written and synced. -/
def Written : Prop :=
  TmpCleared fs₀ faults journal ∧ faults.fails .create_new = false ∧
    faults.fails .write_all = false ∧ faults.fails .sync_all = false

/-- The call gets past its rename. -/
def Published : Prop :=
  ParentAccepted fs₀ faults ∧ Written fs₀ faults journal ∧ Renamed fs₀ faults journal

/-- None of the calls after the rename fails. -/
def SettlesAfter : Prop :=
  faults.fails .lstat_parent_again = false ∧ faults.fails .open_parent = false ∧
    faults.fails .sync_parent = false ∧ faults.fails .lstat_journal = false

end States

section Specs

variable {fs₀ : FileSystem} {faults : Faults} {journal : FileName} {bytes : Bytes}
  {I P : FileSystem → Prop} {fails : Bool}

theorem set_entries_self (fs : FileSystem) (name : FileName) (entry : Option Entry) :
    (fs.set name entry).entries name = entry := by
  simp [FileSystem.set]

theorem set_entries_of_ne {fs : FileSystem} {name other : FileName} (h : other ≠ name)
    (entry : Option Entry) : (fs.set name entry).entries other = fs.entries other := by
  simp [FileSystem.set, h]

theorem created_mode_private (faults : Faults) : faults.created_mode &&& 0o077 = 0 := by
  have hbits : (0o600 : Mode) &&& 0o077 = 0 := by decide
  unfold Faults.created_mode
  split
  · rw [BitVec.and_assoc, BitVec.and_comm (~~~faults.umask), ← BitVec.and_assoc, hbits]
    exact BitVec.zero_and
  · exact hbits

theorem created_file_private (faults : Faults) (bytes : Bytes) :
    ¬ (Entry.file bytes faults.created_mode).mode &&& 0o077 ≠ 0 :=
  not_not.mpr (created_mode_private faults)

theorem journal_ne_tmp (hdistinct : journal.extension ≠ some "tmp") :
    journal ≠ journal_tmp_path journal := by
  intro hsame
  exact hdistinct (congrArg FileName.extension hsame)

theorem old_self : Old fs₀ journal fs₀ := ⟨rfl, rfl, id⟩

/-- A write to the temporary file leaves the journal. -/
theorem Old.set_tmp (hdistinct : journal.extension ≠ some "tmp") {t : FileSystem}
    (h : Old fs₀ journal t) {entry : Option Entry} (hentry : Plain entry) :
    Old fs₀ journal (t.set (journal_tmp_path journal) entry) := by
  refine ⟨h.parent, ?_, ?_⟩
  · rw [set_entries_of_ne (journal_ne_tmp hdistinct)]
    exact h.kept
  · intro _
    rw [set_entries_self]
    exact hentry

/-! ### System calls -/

/-- A call that fails changes nothing, and one that does not fail does what it does. -/
theorem syscall_meets {α : Type} {call : FileSystem → FileSystem × Except IoError α}
    {Q : α → FileSystem → Prop} {E : IoError → FileSystem → Prop} (hI : ∀ t, P t → I t)
    (hfails : fails = true → ∀ t, P t → E .Other t)
    (hpassed : ∀ t, P t → I (call t).1)
    (hok : fails = false → ∀ t, P t → ∀ a, (call t).2 = .ok a → Q a (call t).1)
    (herror : fails = false → ∀ t, P t → ∀ error, (call t).2 = .error error →
      E error (call t).1) :
    (syscall fails call).Meets I P Q E := by
  cases fails with
  | true =>
    refine Prog.meets_step hI (by simp) ?_
    intro t ht error he
    obtain rfl := Except.error.inj he
    exact hfails rfl t ht
  | false => exact Prog.meets_step hpassed (hok rfl) (herror rfl)

theorem lstat_meets (hI : ∀ t, P t → I t) (place : FileSystem → Option Entry) :
    (lstat fails place).Meets I P (fun metadata t => P t ∧ fails = false ∧ place t = some metadata)
      fun error t => P t ∧ (fails = true ∧ error = .Other ∨
        fails = false ∧ place t = none ∧ error = .NotFound) := by
  refine syscall_meets hI (fun hfails t ht => ⟨ht, .inl ⟨hfails, rfl⟩⟩) hI ?_ ?_
  · intro hfails t ht metadata hok
    cases hplace : place t with
    | none => simp [hplace] at hok
    | some entry =>
      rw [hplace] at hok
      exact ⟨ht, hfails, congrArg some (Except.ok.inj hok)⟩
  · intro hfails t ht error herror
    cases hplace : place t with
    | some entry => simp [hplace] at herror
    | none =>
      rw [hplace] at herror
      exact ⟨ht, .inr ⟨hfails, rfl, (Except.error.inj herror).symm⟩⟩

theorem sync_meets (hI : ∀ t, P t → I t) :
    (sync_all fails).Meets I P (fun _ t => P t ∧ fails = false)
      fun _ t => P t ∧ fails = true :=
  syscall_meets hI (fun hfails _ ht => ⟨ht, hfails⟩) hI (fun hfails _ ht _ _ => ⟨ht, hfails⟩)
    (by simp)

theorem removed_cases (t : FileSystem) (name : FileName) :
    (t.removed name).1 = t ∨ (t.removed name).1 = t.set name none := by
  unfold FileSystem.removed
  split
  · exact .inl rfl
  · exact .inl rfl
  · exact .inr rfl

/-- The temporary file is removed or not. -/
theorem remove_meets (hI : ∀ t, P t → I t)
    (hP : ∀ t, P t → P (t.set (journal_tmp_path journal) none)) :
    (remove_file fails (journal_tmp_path journal)).Meets I P (fun _ t => P t) fun _ t => P t := by
  have hcall : ∀ t, P t → P (t.removed (journal_tmp_path journal)).1 := by
    intro t ht
    rcases removed_cases t (journal_tmp_path journal) with hsame | hset
    · rwa [hsame]
    · rw [hset]
      exact hP t ht
  exact syscall_meets hI (fun _ _ ht => ht) (fun t ht => hI _ (hcall t ht))
    (fun _ t ht _ _ => hcall t ht) (fun _ t ht _ _ => hcall t ht)

/-- Giving up leaves the journal as it is. -/
theorem give_up_meets (hdistinct : journal.extension ≠ some "tmp") (c : Prop) (call : Syscall)
    (Q : Unit → FileSystem → Prop) :
    (give_up faults journal call).Meets (Old fs₀ journal) (fun t => Old fs₀ journal t ∧ c) Q
      fun _ t => Old fs₀ journal t ∧ c := by
  refine Prog.meets_bind (R := fun _ t => Old fs₀ journal t ∧ c) ?_ ?_
  · refine Prog.meets_ignore (remove_meets (fun t ht => ht.1) ?_) fun _ ht => ht
    rintro t ⟨hold, hc⟩
    exact ⟨hold.set_tmp hdistinct (.inl rfl), hc⟩
  · intro _
    exact Prog.meets_fail fun _ ht => ht

/-! ### The blocks of the call -/

theorem validate_parent_meets :
    (validate_parent_dir faults).Meets (Old fs₀ journal) (· = fs₀)
      (fun _ t => t = fs₀ ∧ ParentAccepted fs₀ faults)
      fun _ t => t = fs₀ ∧ ¬ ParentAccepted fs₀ faults := by
  refine Prog.meets_handle (lstat_meets (fun t ht => ht ▸ old_self) _) ?_ ?_
  · intro metadata
    refine Prog.meets_ite (fun hkind => Prog.meets_fail ?_) fun hkind =>
      Prog.meets_ite (fun hmode => Prog.meets_fail ?_) fun hmode => Prog.meets_done ?_
    · rintro t ⟨rfl, -, hparent⟩
      refine ⟨rfl, ?_⟩
      rintro ⟨-, mode, hdirectory, -⟩
      rw [hparent, Option.some.injEq] at hdirectory
      simp [hdirectory, Entry.is_dir] at hkind
    · rintro t ⟨rfl, -, hparent⟩
      refine ⟨rfl, ?_⟩
      rintro ⟨-, mode, hdirectory, hprivate⟩
      rw [hparent, Option.some.injEq] at hdirectory
      rw [hdirectory] at hmode
      exact hmode hprivate
    · rintro t ⟨rfl, hfails, hparent⟩
      refine ⟨rfl, hfails, ?_⟩
      cases metadata with
      | directory mode => exact ⟨mode, hparent, not_not.mp hmode⟩
      | file bytes mode => simp [Entry.is_dir] at hkind
      | symlink => simp [Entry.is_dir] at hkind
      | special => simp [Entry.is_dir] at hkind
  · intro error
    refine Prog.meets_fail ?_
    rintro t ⟨rfl, hlstat⟩
    refine ⟨rfl, ?_⟩
    rintro ⟨hfails, mode, hdirectory, -⟩
    rcases hlstat with ⟨hfailed, -⟩ | ⟨-, hparent, -⟩
    · simp [hfails] at hfailed
    · simp [hdirectory] at hparent

theorem removed_file {t : FileSystem} {name : FileName} {mode : Mode}
    (h : t.entries name = some (.file bytes mode)) :
    t.removed name = (t.set name none, .ok ()) := by
  simp only [FileSystem.removed, h]

/-- A stale file is gone unless its removal failed. -/
theorem remove_stale_meets (hdistinct : journal.extension ≠ some "tmp") {stale : Bytes}
    {mode : Mode} {E : SecureJournalError → FileSystem → Prop} :
    Prog.Meets (Old fs₀ journal)
      (fun t => t = fs₀ ∧ faults.fails .lstat_tmp = false ∧
        t.entries (journal_tmp_path journal) = some (.file stale mode))
      (.ignore (remove_file (faults.fails .remove_stale) (journal_tmp_path journal)))
      (fun _ t => Old fs₀ journal t ∧
        (t.entries (journal_tmp_path journal) = none ↔ TmpCleared fs₀ faults journal)) E := by
  refine Prog.meets_ignore (syscall_meets ?_ ?_ ?_ ?_ ?_) fun _ ht => ht
  · rintro t ⟨rfl, -⟩
    exact old_self
  · rintro hfailed t ⟨rfl, -, htmp⟩
    refine ⟨old_self, iff_of_false (by simp [htmp]) ?_⟩
    rintro ⟨-, hnone | ⟨-, hremoved⟩⟩
    · simp [hnone] at htmp
    · simp [hfailed] at hremoved
  · rintro t ⟨rfl, -, htmp⟩
    rw [removed_file htmp]
    exact old_self.set_tmp hdistinct (.inl rfl)
  · rintro hremoved t ⟨rfl, hlstat, htmp⟩ _ -
    rw [removed_file htmp]
    exact ⟨old_self.set_tmp hdistinct (.inl rfl),
      iff_of_true (set_entries_self _ _ _) ⟨hlstat, .inr ⟨⟨stale, mode, htmp⟩, hremoved⟩⟩⟩
  · rintro - t ⟨rfl, -, htmp⟩ error herror
    rw [removed_file htmp] at herror
    contradiction

/-- The name of the temporary file is free afterwards, or it could not be cleared. -/
theorem clear_tmp_meets (hdistinct : journal.extension ≠ some "tmp") :
    (clear_tmp faults journal).Meets (Old fs₀ journal) (· = fs₀)
      (fun _ t => Old fs₀ journal t ∧
        (t.entries (journal_tmp_path journal) = none ↔ TmpCleared fs₀ faults journal))
      fun _ t => Old fs₀ journal t ∧ ¬ TmpCleared fs₀ faults journal := by
  refine Prog.meets_handle (lstat_meets (fun t ht => ht ▸ old_self) _) ?_ ?_
  · intro metadata
    refine Prog.meets_ite (fun hsymlink => Prog.meets_fail ?_) fun _ =>
      Prog.meets_ite (fun hkind => ?_) fun hkind => ?_
    · rintro t ⟨rfl, -, htmp⟩
      refine ⟨old_self, ?_⟩
      rintro ⟨-, hnone | ⟨⟨bytes, mode, hfile⟩, -⟩⟩
      · simp [hnone] at htmp
      · rw [hfile, Option.some.injEq] at htmp
        simp [← htmp] at hsymlink
    · refine (give_up_meets hdistinct (¬ TmpCleared fs₀ faults journal) _ _).pre ?_
      rintro t ⟨rfl, -, htmp⟩
      refine ⟨old_self, ?_⟩
      rintro ⟨-, hnone | ⟨⟨bytes, mode, hfile⟩, -⟩⟩
      · simp [hnone] at htmp
      · rw [hfile, Option.some.injEq] at htmp
        simp [← htmp, Entry.is_file] at hkind
    · cases metadata with
      | file stale mode =>
        exact remove_stale_meets hdistinct
      | directory mode => simp [Entry.is_file] at hkind
      | symlink => simp [Entry.is_file] at hkind
      | special => simp [Entry.is_file] at hkind
  · intro error
    refine Prog.meets_ite (fun hfound => Prog.meets_done ?_) fun hother => Prog.meets_fail ?_
    · rintro t ⟨rfl, hlstat⟩
      subst hfound
      rcases hlstat with ⟨-, hwrong⟩ | ⟨hfails, hnone, -⟩
      · contradiction
      · exact ⟨old_self, iff_of_true hnone ⟨hfails, .inl hnone⟩⟩
    · rintro t ⟨rfl, hlstat⟩
      refine ⟨old_self, ?_⟩
      rintro ⟨hfails, -⟩
      rcases hlstat with ⟨hfailed, -⟩ | ⟨-, -, hfound⟩
      · simp [hfails] at hfailed
      · exact hother hfound

theorem or_error_meets {α : Type} {p : Prog FileSystem IoError α} {error : SecureJournalError}
    {Q : α → FileSystem → Prop} {F : IoError → FileSystem → Prop}
    {E : SecureJournalError → FileSystem → Prop} (hp : p.Meets I P Q F)
    (hE : ∀ e t, F e t → E error t) : (or_error error p).Meets I P Q E :=
  Prog.meets_handle hp (fun _ => Prog.meets_done fun _ ht => ht)
    (fun e => Prog.meets_fail fun t ht => hE e t ht)

/-- What `create_new` leaves: an empty file. -/
theorem create_meets (hdistinct : journal.extension ≠ some "tmp") :
    (or_error .Io (create_new (faults.fails .create_new) (journal_tmp_path journal) faults.umask
      0o600)).Meets (Old fs₀ journal)
      (fun t => Old fs₀ journal t ∧
        (t.entries (journal_tmp_path journal) = none ↔ TmpCleared fs₀ faults journal))
      (fun _ t => Old fs₀ journal t ∧
        t.entries (journal_tmp_path journal) = some (.file [] (0o600 &&& ~~~faults.umask)) ∧
        TmpCleared fs₀ faults journal ∧ faults.fails .create_new = false)
      fun _ t => Old fs₀ journal t ∧ ¬ Written fs₀ faults journal := by
  have hnone : ∀ t : FileSystem, t.entries (journal_tmp_path journal) = none →
      t.created (journal_tmp_path journal) faults.umask 0o600 = (t.set (journal_tmp_path journal)
        (some (.file [] (0o600 &&& ~~~faults.umask))), .ok ()) := by
    intro t ht
    simp only [FileSystem.created, ht]
  have hsome : ∀ (t : FileSystem) entry, t.entries (journal_tmp_path journal) = some entry →
      t.created (journal_tmp_path journal) faults.umask 0o600 = (t, .error .Other) := by
    intro t entry ht
    simp only [FileSystem.created, ht]
  refine or_error_meets (F := fun _ t => Old fs₀ journal t ∧ ¬ Written fs₀ faults journal)
    (syscall_meets (fun _ ht => ht.1) ?_ ?_ ?_ ?_) fun _ _ ht => ht
  · rintro hfailed t ⟨hold, -⟩
    refine ⟨hold, ?_⟩
    rintro ⟨-, hcreated, -⟩
    simp [hcreated] at hfailed
  · rintro t ⟨hold, -⟩
    cases htmp : t.entries (journal_tmp_path journal) with
    | none =>
      rw [hnone t htmp]
      exact hold.set_tmp hdistinct (.inr ⟨_, _, rfl⟩)
    | some entry =>
      rw [hsome t entry htmp]
      exact hold
  · rintro hcreate t ⟨hold, hcleared⟩ _ hok
    cases htmp : t.entries (journal_tmp_path journal) with
    | none =>
      rw [hnone t htmp]
      exact ⟨hold.set_tmp hdistinct (.inr ⟨_, _, rfl⟩), set_entries_self _ _ _,
        hcleared.mp htmp, hcreate⟩
    | some entry =>
      rw [hsome t entry htmp] at hok
      contradiction
  · rintro - t ⟨hold, hcleared⟩ error herror
    cases htmp : t.entries (journal_tmp_path journal) with
    | none =>
      rw [hnone t htmp] at herror
      contradiction
    | some entry =>
      rw [hsome t entry htmp]
      refine ⟨hold, ?_⟩
      rintro ⟨htmp_cleared, -⟩
      simp [hcleared.mpr htmp_cleared] at htmp

theorem rewritten_file {t : FileSystem} {name : FileName} {before : Bytes} {mode : Mode}
    (h : t.entries name = some (.file before mode)) (bytes : Bytes) :
    t.rewritten name bytes = t.set name (some (.file bytes mode)) := by
  simp only [FileSystem.rewritten, h]

theorem permitted_file {t : FileSystem} {name : FileName} {before : Mode}
    (h : t.entries name = some (.file bytes before)) (mode : Mode) :
    t.permitted name mode = (t.set name (some (.file bytes mode)), .ok ()) := by
  simp only [FileSystem.permitted, h]

/-- The bytes go to the temporary file alone, and all of them unless the write fails. -/
theorem write_all_meets (hdistinct : journal.extension ≠ some "tmp") {mode : Mode} {c : Prop} :
    (write_all (faults.fails .write_all) (journal_tmp_path journal) faults.accepted bytes).Meets
      (Old fs₀ journal)
      (fun t => Old fs₀ journal t ∧
        t.entries (journal_tmp_path journal) = some (.file [] mode) ∧ c)
      (fun _ t => Old fs₀ journal t ∧
        t.entries (journal_tmp_path journal) = some (.file bytes mode) ∧ c ∧
        faults.fails .write_all = false)
      fun _ t => Old fs₀ journal t ∧ faults.fails .write_all = true := by
  have hold : ∀ t written, Old fs₀ journal t →
      t.entries (journal_tmp_path journal) = some (.file [] mode) →
      Old fs₀ journal (t.rewritten (journal_tmp_path journal) written) := by
    intro t written ht htmp
    rw [rewritten_file htmp]
    exact ht.set_tmp hdistinct (.inr ⟨_, _, rfl⟩)
  refine Prog.meets_steps ?_ ?_ ?_ ?_
  · rintro t ⟨ht, htmp, -⟩ between hbetween
    obtain ⟨count, -, rfl⟩ := List.mem_map.mp hbetween
    exact hold t _ ht htmp
  · rintro t ⟨ht, htmp, -⟩
    split
    · exact hold t _ ht htmp
    · exact hold t _ ht htmp
  · rintro t ⟨ht, htmp, hc⟩ _ hok
    by_cases hfails : faults.fails .write_all = true
    · simp [hfails] at hok
    · rw [if_neg hfails]
      refine ⟨hold t _ ht htmp, ?_, hc, by simpa using hfails⟩
      rw [rewritten_file htmp, set_entries_self]
  · rintro t ⟨ht, htmp, -⟩ error herror
    by_cases hfails : faults.fails .write_all = true
    · rw [if_pos hfails]
      exact ⟨hold t _ ht htmp, hfails⟩
    · simp [hfails] at herror

/-- The complete file, and the mode that `set_permissions` leaves it. -/
theorem set_permissions_meets (hdistinct : journal.extension ≠ some "tmp") {c : Prop}
    {E : SecureJournalError → FileSystem → Prop} :
    Prog.Meets (Old fs₀ journal)
      (fun t => Old fs₀ journal t ∧
        t.entries (journal_tmp_path journal) = some (.file bytes (0o600 &&& ~~~faults.umask)) ∧ c)
      (.ignore (set_permissions (faults.fails .set_permissions) (journal_tmp_path journal) 0o600))
      (fun _ t => Staged fs₀ faults journal bytes t ∧ c) E := by
  refine Prog.meets_ignore (syscall_meets (fun _ ht => ht.1) ?_ ?_ ?_ ?_) fun _ ht => ht
  · rintro hfails t ⟨hold, htmp, hc⟩
    refine ⟨⟨hold, ?_⟩, hc⟩
    rw [htmp, Faults.created_mode, if_pos hfails]
  · rintro t ⟨hold, htmp, -⟩
    rw [permitted_file htmp]
    exact hold.set_tmp hdistinct (.inr ⟨_, _, rfl⟩)
  · rintro hfails t ⟨hold, htmp, hc⟩ _ -
    rw [permitted_file htmp]
    refine ⟨⟨hold.set_tmp hdistinct (.inr ⟨_, _, rfl⟩), ?_⟩, hc⟩
    rw [set_entries_self, Faults.created_mode, hfails]
    rfl
  · rintro - t ⟨-, htmp, -⟩ error herror
    rw [permitted_file htmp] at herror
    contradiction

/-- The temporary file is complete, or the call gave up. -/
theorem write_tmp_meets (hdistinct : journal.extension ≠ some "tmp") :
    (write_tmp faults journal bytes).Meets (Old fs₀ journal)
      (fun t => Old fs₀ journal t ∧
        (t.entries (journal_tmp_path journal) = none ↔ TmpCleared fs₀ faults journal))
      (fun _ t => Staged fs₀ faults journal bytes t ∧ Written fs₀ faults journal)
      fun _ t => Old fs₀ journal t ∧ ¬ Written fs₀ faults journal := by
  refine Prog.meets_bind (create_meets hdistinct) fun _ => ?_
  refine Prog.meets_bind (Prog.meets_handle (write_all_meets hdistinct)
    (fun _ => Prog.meets_done fun _ ht => ht) fun _ => ?_) fun _ => ?_
  · refine (give_up_meets hdistinct _ _ _).pre ?_
    rintro t ⟨hold, hfailed⟩
    refine ⟨hold, ?_⟩
    rintro ⟨-, -, hwritten, -⟩
    simp [hwritten] at hfailed
  refine Prog.meets_bind (Prog.meets_handle (sync_meets fun _ ht => ht.1)
    (fun _ => Prog.meets_done fun _ ht => ht) fun _ => ?_) fun _ => ?_
  · refine (give_up_meets hdistinct _ _ _).pre ?_
    rintro t ⟨⟨hold, -⟩, hfailed⟩
    refine ⟨hold, ?_⟩
    rintro ⟨-, -, -, hsynced⟩
    simp [hsynced] at hfailed
  refine (set_permissions_meets hdistinct (c := Written fs₀ faults journal)).pre ?_
  rintro t ⟨⟨hold, htmp, ⟨hcleared, hcreated⟩, hwritten⟩, hsynced⟩
  exact ⟨hold, htmp, hcleared, hcreated, hwritten, hsynced⟩

/-- What is renamed is a private file, so the fallback of `validate_tmp` is never taken. -/
theorem validate_tmp_meets (hdistinct : journal.extension ≠ some "tmp") {c : Prop} :
    (validate_tmp faults journal).Meets (Old fs₀ journal)
      (fun t => Staged fs₀ faults journal bytes t ∧ c)
      (fun _ t => Staged fs₀ faults journal bytes t ∧ c ∧ faults.fails .lstat_created = false)
      fun _ t => Old fs₀ journal t ∧ faults.fails .lstat_created = true := by
  refine Prog.meets_handle (lstat_meets (fun t ht => ht.1.old) _) ?_ ?_
  · intro metadata
    refine Prog.meets_of_pre (c := metadata = .file bytes faults.created_mode) ?_ ?_
    · rintro t ⟨⟨hstaged, -⟩, -, htmp⟩
      rw [hstaged.staged] at htmp
      exact (Option.some.inj htmp).symm
    · rintro rfl
      rw [if_neg (by simp [Entry.is_file]), if_neg (created_file_private faults bytes)]
      exact Prog.meets_done fun t ht => ⟨ht.1.1, ht.1.2, ht.2.1⟩
  · intro error
    refine (give_up_meets hdistinct _ _ _).pre ?_
    rintro t ⟨⟨hstaged, -⟩, ⟨hfailed, -⟩ | ⟨-, hnone, -⟩⟩
    · exact ⟨hstaged.old, hfailed⟩
    · rw [hstaged.staged] at hnone
      contradiction

/-- Up to the rename the journal is untouched. -/
theorem prepare_meets (hdistinct : journal.extension ≠ some "tmp") :
    (prepare faults journal bytes).Meets (Old fs₀ journal) (· = fs₀)
      (fun _ t => Staged fs₀ faults journal bytes t ∧
        (ParentAccepted fs₀ faults ∧ Written fs₀ faults journal) ∧
        faults.fails .lstat_created = false)
      fun _ t => Old fs₀ journal t ∧ ¬ Published fs₀ faults journal := by
  refine Prog.meets_bind (R := fun _ t => t = fs₀ ∧ ParentAccepted fs₀ faults)
    (validate_parent_meets.mono (fun _ ht => ht) (fun _ _ ht => ht) ?_) fun _ => ?_
  · rintro _ t ⟨rfl, hrefused⟩
    exact ⟨old_self, fun hpublished => hrefused hpublished.1⟩
  -- from here on the parent is known to be accepted
  refine Prog.meets_of_pre (fun _ ht => ht.2) fun hparent => ?_
  refine Prog.meets_bind (((clear_tmp_meets hdistinct).pre fun _ ht => ht.1).mono
    (fun _ ht => ht) (fun _ _ ht => ht) ?_) fun _ => ?_
  · rintro _ t ⟨hold, hblocked⟩
    exact ⟨hold, fun hpublished => hblocked hpublished.2.1.1⟩
  refine Prog.meets_bind ((write_tmp_meets hdistinct).mono
    (fun _ ht => ht) (fun _ _ ht => ht) ?_) fun _ => ?_
  · rintro _ t ⟨hold, hunwritten⟩
    exact ⟨hold, fun hpublished => hunwritten hpublished.2.1⟩
  refine (validate_tmp_meets hdistinct).mono (fun _ ht => ht) ?_ ?_
  · rintro _ t ⟨hstaged, hwritten, hseen⟩
    exact ⟨hstaged, ⟨hparent, hwritten⟩, hseen⟩
  · rintro _ t ⟨hold, hfailed⟩
    refine ⟨hold, ?_⟩
    rintro ⟨-, -, hseen, -⟩
    simp [hseen] at hfailed

theorem renamed_file {t : FileSystem} {source target : FileName} {entry : Entry}
    (h : t.entries source = some entry)
    (htarget : ∀ mode, t.entries target ≠ some (.directory mode)) :
    t.renamed source target = ((t.set source none).set target (some entry), .ok ()) := by
  unfold FileSystem.renamed
  rw [h]
  split
  · contradiction
  · next mode _ hdirectory => exact absurd hdirectory (htarget mode)
  · next hsource _ => rw [Option.some.inj hsource]

theorem renamed_onto_directory {t : FileSystem} {source target : FileName} {entry : Entry}
    {mode : Mode} (h : t.entries source = some entry)
    (htarget : t.entries target = some (.directory mode)) :
    t.renamed source target = (t, .error .Other) := by
  simp only [FileSystem.renamed, h, htarget]

/-- The rename is the one step that changes the journal. -/
theorem Staged.renamed (hdistinct : journal.extension ≠ some "tmp") {t : FileSystem}
    (h : Staged fs₀ faults journal bytes t)
    (hjournal : ∀ mode, fs₀.entries journal ≠ some (.directory mode)) :
    (t.renamed (journal_tmp_path journal) journal).2 = .ok () ∧
      New fs₀ faults journal bytes (t.renamed (journal_tmp_path journal) journal).1 := by
  rw [renamed_file h.staged (by simpa [h.old.kept] using hjournal)]
  refine ⟨rfl, h.old.parent, set_entries_self _ _ _, ?_⟩
  rw [set_entries_of_ne (journal_ne_tmp hdistinct).symm, set_entries_self]

theorem publish_meets (hdistinct : journal.extension ≠ some "tmp") :
    (publish faults journal).Meets
      (fun t => Old fs₀ journal t ∨ New fs₀ faults journal bytes t)
      (fun t => Staged fs₀ faults journal bytes t ∧
        (ParentAccepted fs₀ faults ∧ Written fs₀ faults journal) ∧
        faults.fails .lstat_created = false)
      (fun _ t => New fs₀ faults journal bytes t ∧ Published fs₀ faults journal)
      fun _ t => Old fs₀ journal t ∧ ¬ Published fs₀ faults journal := by
  refine Prog.meets_handle (R := fun _ t => New fs₀ faults journal bytes t ∧
    Published fs₀ faults journal) (F := fun _ t => Old fs₀ journal t ∧
    ¬ Published fs₀ faults journal) ?_ (fun _ => Prog.meets_done fun _ ht => ht) fun _ =>
      (give_up_meets hdistinct _ _ _).mono (fun _ ht => .inl ht) (fun _ _ ht => ht)
        (fun _ _ ht => ht)
  by_cases hjournal : ∃ mode, fs₀.entries journal = some (.directory mode)
  · obtain ⟨mode, hjournal⟩ := hjournal
    have hrefused : ¬ Published fs₀ faults journal := fun h => h.2.2.2.2 mode hjournal
    have hcall : ∀ t, Staged fs₀ faults journal bytes t →
        t.renamed (journal_tmp_path journal) journal = (t, .error .Other) := fun t ht =>
      renamed_onto_directory ht.staged (ht.old.kept.trans hjournal)
    refine syscall_meets (fun _ ht => .inl ht.1.old) (fun _ _ ht => ⟨ht.1.old, hrefused⟩) ?_ ?_ ?_
    · rintro t ⟨hstaged, -⟩
      rw [hcall t hstaged]
      exact .inl hstaged.old
    · rintro - t ⟨hstaged, -⟩ _ hok
      rw [hcall t hstaged] at hok
      contradiction
    · rintro - t ⟨hstaged, -⟩ _ -
      rw [hcall t hstaged]
      exact ⟨hstaged.old, hrefused⟩
  · have hjournal : ∀ mode, fs₀.entries journal ≠ some (.directory mode) := by
      simpa using hjournal
    refine syscall_meets (fun _ ht => .inl ht.1.old) ?_ ?_ ?_ ?_
    · rintro hfailed t ⟨hstaged, -⟩
      refine ⟨hstaged.old, ?_⟩
      rintro ⟨-, -, -, hrenamed, -⟩
      simp [hrenamed] at hfailed
    · rintro t ⟨hstaged, -⟩
      exact .inr (hstaged.renamed hdistinct hjournal).2
    · rintro hrename t ⟨hstaged, ⟨hparent, hwritten⟩, hseen⟩ _ -
      exact ⟨(hstaged.renamed hdistinct hjournal).2, hparent, hwritten, hseen, hrename, hjournal⟩
    · rintro - t ⟨hstaged, -⟩ _ herror
      rw [(hstaged.renamed hdistinct hjournal).1] at herror
      contradiction

/-! ### After the rename -/

/-- A call after the rename that must not fail, to look at `place`. -/
theorem lstat_after_meets {place : FileSystem → Option Entry} {entry : Entry} {c : Prop}
    (hplace : ∀ t, New fs₀ faults journal bytes t → place t = some entry)
    (hsettles : SettlesAfter faults → fails = false) :
    (or_error SecureJournalError.Io (lstat fails place)).Meets (New fs₀ faults journal bytes)
      (fun t => New fs₀ faults journal bytes t ∧ c)
      (fun metadata t => metadata = entry ∧ New fs₀ faults journal bytes t ∧ c ∧ fails = false)
      fun _ t => New fs₀ faults journal bytes t ∧ ¬ SettlesAfter faults := by
  refine or_error_meets ((lstat_meets (fun _ ht => ht.1) place).mono (fun _ ht => ht) ?_
    fun _ _ ht => ht) ?_
  · rintro metadata t ⟨⟨hnew, hc⟩, hfails, hfound⟩
    rw [hplace t hnew] at hfound
    exact ⟨(Option.some.inj hfound).symm, hnew, hc, hfails⟩
  · rintro error t ⟨⟨hnew, -⟩, ⟨hfailed, -⟩ | ⟨-, hnone, -⟩⟩
    · refine ⟨hnew, fun h => ?_⟩
      simp [hsettles h] at hfailed
    · simp [hplace t hnew] at hnone

theorem sync_after_meets {c : Prop} (hsettles : SettlesAfter faults → fails = false) :
    (or_error SecureJournalError.Io (sync_all fails)).Meets (New fs₀ faults journal bytes)
      (fun t => New fs₀ faults journal bytes t ∧ c)
      (fun _ t => New fs₀ faults journal bytes t ∧ c ∧ fails = false)
      fun _ t => New fs₀ faults journal bytes t ∧ ¬ SettlesAfter faults := by
  refine or_error_meets ((sync_meets fun _ ht => ht.1).mono (fun _ ht => ht)
    (fun _ _ ht => ⟨ht.1.1, ht.1.2, ht.2⟩) fun _ _ ht => ht) ?_
  rintro _ t ⟨⟨hnew, -⟩, hfailed⟩
  refine ⟨hnew, fun h => ?_⟩
  simp [hsettles h] at hfailed

/-- The new journal stays whatever the sync does, and an error is one of the calls failing. -/
theorem fsync_parent_meets (hparent : ParentAccepted fs₀ faults) :
    (fsync_parent_dir faults).Meets (New fs₀ faults journal bytes) (New fs₀ faults journal bytes)
      (fun _ t => New fs₀ faults journal bytes t ∧ faults.fails .lstat_parent_again = false ∧
        faults.fails .open_parent = false ∧ faults.fails .sync_parent = false)
      fun _ t => New fs₀ faults journal bytes t ∧ ¬ SettlesAfter faults := by
  obtain ⟨-, mode, hdirectory, -⟩ := hparent
  have hplace : ∀ t, New fs₀ faults journal bytes t → t.parent = some (.directory mode) :=
    fun t ht => ht.parent.trans hdirectory
  refine Prog.meets_bind ((lstat_after_meets (c := True) hplace fun h => h.1).pre
    fun _ ht => ⟨ht, trivial⟩) ?_
  intro metadata
  refine Prog.meets_of_pre (fun _ ht => ht.1) fun hmetadata => ?_
  rw [if_neg (by simp [hmetadata, Entry.is_dir])]
  refine Prog.meets_bind ((sync_after_meets (fun h => h.2.1)).pre fun _ ht =>
    ⟨ht.2.1, ht.2.2.2⟩) fun _ => ?_
  refine (sync_after_meets (fun h => h.2.2.1)).mono (fun _ ht => ht) ?_ (fun _ _ ht => ht)
  rintro _ t ⟨hnew, ⟨hlstat, hopen⟩, hsync⟩
  exact ⟨hnew, hlstat, hopen, hsync⟩

theorem validate_final_meets {c : Prop} :
    (validate_final faults journal).Meets (New fs₀ faults journal bytes)
      (fun t => New fs₀ faults journal bytes t ∧ c)
      (fun _ t => New fs₀ faults journal bytes t ∧ c ∧ faults.fails .lstat_journal = false)
      fun _ t => New fs₀ faults journal bytes t ∧ ¬ SettlesAfter faults := by
  refine Prog.meets_bind (lstat_after_meets (fun _ ht => ht.written) fun h => h.2.2.2) ?_
  intro metadata
  refine Prog.meets_of_pre (fun _ ht => ht.1) fun hmetadata => ?_
  rw [hmetadata, if_neg (by simp [Entry.is_file]),
    if_neg (created_file_private faults bytes)]
  exact Prog.meets_done fun _ ht => ht.2

/-! ### The call -/

/-- What the call passes and where it ends. -/
theorem secure_atomic_write_meets (faults : Faults) (bytes : Bytes)
    (hdistinct : journal.extension ≠ some "tmp") :
    (secure_atomic_write faults journal bytes).Meets
      (fun t => Old fs₀ journal t ∨ New fs₀ faults journal bytes t) (· = fs₀)
      (fun _ t => New fs₀ faults journal bytes t ∧ Published fs₀ faults journal ∧
        SettlesAfter faults)
      fun _ t => Old fs₀ journal t ∧ ¬ Published fs₀ faults journal ∨
        New fs₀ faults journal bytes t ∧ Published fs₀ faults journal ∧ ¬ SettlesAfter faults := by
  refine Prog.meets_bind ((prepare_meets hdistinct).mono (fun _ ht => .inl ht)
    (fun _ _ ht => ht) fun _ _ ht => .inl ht) fun _ => ?_
  refine Prog.meets_bind ((publish_meets hdistinct).mono (fun _ ht => ht)
    (fun _ _ ht => ht) fun _ _ ht => .inl ht) fun _ => ?_
  refine Prog.meets_of_pre (fun _ ht => ht.2) fun hpublished => ?_
  refine Prog.meets_bind (((fsync_parent_meets hpublished.1).pre fun _ ht => ht.1).mono
    (fun _ ht => .inr ht) (fun _ _ ht => ht) fun _ _ ht => .inr ⟨ht.1, hpublished, ht.2⟩)
    fun _ => ?_
  refine validate_final_meets.mono (fun _ ht => .inr ht) ?_
    fun _ _ ht => .inr ⟨ht.1, hpublished, ht.2⟩
  rintro _ t ⟨hnew, ⟨hlstat, hopen, hsync⟩, hseen⟩
  exact ⟨hnew, hpublished, hlstat, hopen, hsync, hseen⟩

end Specs

/-! ## The contract -/

section Contract

variable (fs₀ : FileSystem) (faults : Faults) (journal : FileName) (bytes : Bytes)

/-- Whatever it writes, a call need not fail. -/
def CanSucceed (fs : FileSystem) : Prop :=
  ∀ bytes, ∃ faults, (secure_atomic_write faults journal bytes fs).result = .ok ()

/-- An error leaves the journal, a success replaces it, a crash leaves it whole, and what the
crash leaves behind is no obstacle to a later call. -/
structure Atomic : Prop where
  unchanged : ∀ error, (secure_atomic_write faults journal bytes fs₀).result = .error error →
    (secure_atomic_write faults journal bytes fs₀).final.entries journal = fs₀.entries journal
  replaced : (secure_atomic_write faults journal bytes fs₀).result = .ok () →
    (∃ mode, (secure_atomic_write faults journal bytes fs₀).final.entries journal =
      some (.file bytes mode) ∧ mode &&& 0o077 = 0) ∧
    (secure_atomic_write faults journal bytes fs₀).final.entries (journal_tmp_path journal) = none
  whole : ∀ t ∈ fs₀ :: (secure_atomic_write faults journal bytes fs₀).passed,
    t.entries journal = fs₀.entries journal ∨ ∃ mode, t.entries journal = some (.file bytes mode)
  retried : CanSucceed journal fs₀ →
    ∀ t ∈ fs₀ :: (secure_atomic_write faults journal bytes fs₀).passed, CanSucceed journal t

/-- What no call refuses: an owner's directory, and nothing but files at the two names, where a
link at the journal's own name is replaced. -/
structure Accepts (fs : FileSystem) : Prop where
  parent : ∃ mode, fs.parent = some (.directory mode) ∧ mode &&& 0o022 = 0
  tmp : Plain (fs.entries (journal_tmp_path journal))
  journal_file : ∀ mode, fs.entries journal ≠ some (.directory mode)

def no_faults : Faults := { fails := fun _ => false, accepted := 0, umask := 0 }

end Contract

section Contracts

variable {fs₀ : FileSystem} {faults : Faults} {journal : FileName} {bytes : Bytes}

/-- The call succeeds where it gets past the rename and nothing fails after it. -/
theorem result_ok_iff (hdistinct : journal.extension ≠ some "tmp") :
    (secure_atomic_write faults journal bytes fs₀).result = .ok () ↔
      Published fs₀ faults journal ∧ SettlesAfter faults := by
  obtain ⟨-, hok, herror⟩ := secure_atomic_write_meets faults bytes hdistinct fs₀ rfl
  constructor
  · intro hresult
    exact (hok () hresult).2
  · rintro ⟨hpublished, hsettles⟩
    cases hresult : (secure_atomic_write faults journal bytes fs₀).result with
    | ok _ => rfl
    | error error =>
      rcases herror error hresult with ⟨-, hunpublished⟩ | ⟨-, -, hunsettled⟩
      · exact absurd hpublished hunpublished
      · exact absurd hsettles hunsettled

/-- Past the rename the journal is the new one, and up to it the old one. -/
theorem final_new (bytes : Bytes) (hdistinct : journal.extension ≠ some "tmp")
    (hpublished : Published fs₀ faults journal) :
    New fs₀ faults journal bytes (secure_atomic_write faults journal bytes fs₀).final := by
  obtain ⟨-, hok, herror⟩ := secure_atomic_write_meets faults bytes hdistinct fs₀ rfl
  cases hresult : (secure_atomic_write faults journal bytes fs₀).result with
  | ok _ => exact (hok () hresult).1
  | error error =>
    rcases herror error hresult with ⟨-, hunpublished⟩ | ⟨hnew, -⟩
    · exact absurd hpublished hunpublished
    · exact hnew

theorem final_old (bytes : Bytes) (hdistinct : journal.extension ≠ some "tmp")
    (hunpublished : ¬ Published fs₀ faults journal) :
    Old fs₀ journal (secure_atomic_write faults journal bytes fs₀).final := by
  obtain ⟨-, hok, herror⟩ := secure_atomic_write_meets faults bytes hdistinct fs₀ rfl
  cases hresult : (secure_atomic_write faults journal bytes fs₀).result with
  | ok _ => exact absurd (hok () hresult).2.1 hunpublished
  | error error =>
    rcases herror error hresult with ⟨hold, -⟩ | ⟨-, hpublished, -⟩
    · exact hold
    · exact absurd hpublished hunpublished

/-- A call can succeed exactly in the states that none refuses. -/
theorem can_succeed_iff (hdistinct : journal.extension ≠ some "tmp") (fs : FileSystem) :
    CanSucceed journal fs ↔ Accepts journal fs := by
  constructor
  · intro hcan
    obtain ⟨faults, hresult⟩ := hcan []
    obtain ⟨⟨⟨-, hparent⟩, ⟨⟨-, htmp⟩, -⟩, -, -, hjournal⟩, -⟩ :=
      (result_ok_iff hdistinct).mp hresult
    refine ⟨hparent, ?_, hjournal⟩
    rcases htmp with hnone | ⟨hfile, -⟩
    · exact .inl hnone
    · exact .inr hfile
  · intro haccepts bytes
    refine ⟨no_faults, (result_ok_iff hdistinct).mpr ⟨⟨⟨rfl, haccepts.parent⟩, ⟨⟨rfl, ?_⟩,
      rfl, rfl, rfl⟩, rfl, rfl, haccepts.journal_file⟩, rfl, rfl, rfl, rfl⟩⟩
    rcases haccepts.tmp with hnone | hfile
    · exact .inl hnone
    · exact .inr ⟨hfile, rfl⟩

theorem Old.accepts {t : FileSystem} (h : Old fs₀ journal t) (haccepts : Accepts journal fs₀) :
    Accepts journal t := by
  refine ⟨?_, h.tmp haccepts.tmp, ?_⟩
  · rw [h.parent]
    exact haccepts.parent
  · rw [h.kept]
    exact haccepts.journal_file

theorem New.accepts {t : FileSystem} (h : New fs₀ faults journal bytes t)
    (haccepts : Accepts journal fs₀) : Accepts journal t := by
  refine ⟨?_, .inl h.tmp, ?_⟩
  · rw [h.parent]
    exact haccepts.parent
  · simp [h.written]

/-- A crash never leaves anything that a later call refuses. -/
theorem passed_states (hdistinct : journal.extension ≠ some "tmp") :
    ∀ t ∈ fs₀ :: (secure_atomic_write faults journal bytes fs₀).passed,
      Old fs₀ journal t ∨ New fs₀ faults journal bytes t := by
  intro t ht
  rcases List.mem_cons.mp ht with rfl | ht
  · exact .inl old_self
  · exact (secure_atomic_write_meets faults bytes hdistinct fs₀ rfl).1 t ht

/-- **The contract holds but for one case**: the call got past its rename, one of the
calls after it failed, and the journal was not the very file that was written. -/
theorem atomic_iff (hdistinct : journal.extension ≠ some "tmp") :
    Atomic fs₀ faults journal bytes ↔
      ¬ Published fs₀ faults journal ∨ SettlesAfter faults ∨
        fs₀.entries journal = some (.file bytes faults.created_mode) := by
  constructor
  · intro hatomic
    by_cases hpublished : Published fs₀ faults journal
    · by_cases hsettles : SettlesAfter faults
      · exact .inr (.inl hsettles)
      · -- the journal is the new one, and the error says it is the old one
        have hwritten := (final_new bytes hdistinct hpublished).written
        cases hresult : (secure_atomic_write faults journal bytes fs₀).result with
        | ok _ => exact absurd ((result_ok_iff hdistinct).mp hresult).2 hsettles
        | error error =>
          rw [hatomic.unchanged error hresult] at hwritten
          exact .inr (.inr hwritten)
    · exact .inl hpublished
  · intro hcondition
    refine ⟨?_, ?_, ?_, ?_⟩
    · intro error hresult
      by_cases hpublished : Published fs₀ faults journal
      · rw [(final_new bytes hdistinct hpublished).written]
        rcases hcondition with hunpublished | hsettles | hsame
        · exact absurd hpublished hunpublished
        · rw [(result_ok_iff hdistinct).mpr ⟨hpublished, hsettles⟩] at hresult
          contradiction
        · exact hsame.symm
      · exact (final_old bytes hdistinct hpublished).kept
    · intro hresult
      have hnew := final_new bytes hdistinct ((result_ok_iff hdistinct).mp hresult).1
      exact ⟨⟨_, hnew.written, created_mode_private faults⟩, hnew.tmp⟩
    · intro t ht
      rcases passed_states hdistinct t ht with hold | hnew
      · exact .inl hold.kept
      · exact .inr ⟨_, hnew.written⟩
    · intro hcan t ht
      have haccepts := (can_succeed_iff hdistinct fs₀).mp hcan
      refine (can_succeed_iff hdistinct t).mpr ?_
      rcases passed_states hdistinct t ht with hold | hnew
      · exact hold.accepts haccepts
      · exact hnew.accepts haccepts

end Contracts

/-! ### A directory sync that fails -/

def leases : FileName := ⟨"leases", some "journal"⟩

def leases_directory : FileSystem where
  parent := some (.directory 0o700)
  entries := fun name => if name = leases then some (.file [1] 0o600) else none

def sync_fails : Faults := { no_faults with fails := fun call => decide (call = .sync_parent) }

/-- A rewrite in which nothing fails keeps the contract. -/
theorem atomic_iff_leases : Atomic leases_directory no_faults leases [2] :=
  (atomic_iff (by decide)).mpr (.inr (.inl ⟨rfl, rfl, rfl, rfl⟩))

/-- The call reports an error, and the journal holds the new bytes. -/
theorem failed_sync_replaces_journal : ¬ Atomic leases_directory sync_fails leases [2] := by
  intro hatomic
  have hresult : (secure_atomic_write sync_fails leases [2] leases_directory).result =
      .error .Io := by rfl
  have hjournal : (secure_atomic_write sync_fails leases [2] leases_directory).final.entries
      leases = some (.file [2] 0o600) := by rfl
  have hunchanged := hatomic.unchanged .Io hresult
  rw [hjournal] at hunchanged
  exact absurd hunchanged (by decide)

/-! ## What the replay journal makes of it -/

/-- The journal as its reader finds it. -/
def journal_file : Option Entry → JournalFile
  | none => .missing
  | some (.file bytes mode) => if mode &&& 0o077 = 0 then .present bytes else .insecure
  | some _ => .insecure

/-- A call is one of the three outcomes that the replay store reckons with, and the one with an
error and a new journal is among them. -/
theorem secure_atomic_write_refines (fs₀ : FileSystem) (faults : Faults) {journal : FileName}
    (bytes : Bytes) (hdistinct : journal.extension ≠ some "tmp") :
    ∃ write, Gateway.secure_atomic_write (journal_file (fs₀.entries journal)) bytes write =
      (journal_file ((secure_atomic_write faults journal bytes fs₀).final.entries journal),
        (secure_atomic_write faults journal bytes fs₀).result.mapError
          fun _ => ReplayJournalError.Io) := by
  by_cases hpublished : Published fs₀ faults journal
  · have hnew : journal_file ((secure_atomic_write faults journal bytes fs₀).final.entries
        journal) = .present bytes := by
      rw [(final_new bytes hdistinct hpublished).written, journal_file,
        if_pos (created_mode_private faults)]
    rw [hnew]
    cases (secure_atomic_write faults journal bytes fs₀).result with
    | ok _ => exact ⟨.written, rfl⟩
    | error _ => exact ⟨.failed true, rfl⟩
  · rw [(final_old bytes hdistinct hpublished).kept]
    cases hresult : (secure_atomic_write faults journal bytes fs₀).result with
    | ok _ => exact absurd ((result_ok_iff hdistinct).mp hresult).1 hpublished
    | error _ => exact ⟨.failed false, rfl⟩

end StreamGuard.Gateway.SecureJournal
