/-
The paths of one V2 session over any sequence of calls on it.

A path number comes back when its path was aborted, or when it was detached and
has left quarantine. What keeps an old packet from naming the new path is the
epoch history: a number it knows is handed out again only with both epochs above
the recorded ones, and the record of a number never falls. `records` is that
fact about one number, and everything a run promises about epochs follows from
every reservation being recorded when it is made.

Each call is described once, by what it leaves: a lemma ending in `_cases` says
either that the call changed nothing that matters here or which one entry it
wrote.
-/
import StreamGuard.Session.Lifecycle
import StreamGuard.Lib.Run

set_option autoImplicit false

namespace StreamGuard.Session

open StreamGuard StreamGuard.Lib

namespace V2Session

variable {s : V2Session} {connection_id : ConnectionId} {path_id : PathId} {path_epoch : U64}
  {key_epoch : U32} {now_ms : ℕ} {reservation : AttachReservation}

/-- The bounds of the session's tables, which nothing changes. -/
def limits (s : V2Session) : ℕ × ℕ × ℕ × ℕ :=
  (s.maximum_paths, s.maximum_path_epoch_history, s.maximum_path_tombstones,
    s.path_tombstone_ttl_ms)

/-! ## What one call does -/

theorem prune_tombstone_order_lookup {tombstone : PathTombstone} (order : List PathId)
    (tombstones : Map PathId PathTombstone)
    (h : (prune_tombstone_order now_ms order tombstones).2.lookup path_id = some tombstone) :
    tombstones.lookup path_id = some tombstone := by
  induction order generalizing tombstones with
  | nil => exact h
  | cons first order ih =>
    rw [prune_tombstone_order] at h
    split at h
    · exact ih _ h
    split at h
    · exact h
    · exact AList.lookup_of_erase (ih _ h)

/-- A tombstone whose time is not up is not pruned. -/
theorem prune_tombstone_order_keeps {tombstone : PathTombstone} (order : List PathId)
    (tombstones : Map PathId PathTombstone) (h : tombstones.lookup path_id = some tombstone)
    (hnow : now_ms < tombstone.expires_at_ms) :
    (prune_tombstone_order now_ms order tombstones).2.lookup path_id = some tombstone := by
  induction order generalizing tombstones with
  | nil => exact h
  | cons first order ih =>
    rw [prune_tombstone_order]
    split
    · exact ih _ h
    next expired hfirst =>
    by_cases hlive : now_ms < expired.expires_at_ms
    · rw [if_pos hlive]
      exact h
    · rw [if_neg hlive]
      have hne : path_id ≠ first := by
        rintro rfl
        rw [h, Option.some.injEq] at hfirst
        rw [hfirst] at hnow
        omega
      refine ih _ ?_
      rwa [AList.lookup_erase_of, if_neg hne]

/-- Pruning only takes tombstones away. -/
theorem mem_of_prune (h : path_id ∈ (s.prune_path_tombstones now_ms).path_tombstones) :
    path_id ∈ s.path_tombstones := by
  obtain ⟨tombstone, hlookup⟩ := AList.mem_iff_lookup.mp h
  exact AList.mem_of_lookup (prune_tombstone_order_lookup _ _ hlookup)

theorem evict_tombstones_lookup {tombstone : PathTombstone} (maximum : ℕ) (order : List PathId)
    (tombstones : Map PathId PathTombstone)
    (h : (evict_tombstones maximum order tombstones).2.lookup path_id = some tombstone) :
    tombstones.lookup path_id = some tombstone := by
  induction order generalizing tombstones with
  | nil => exact h
  | cons first order ih =>
    rw [evict_tombstones] at h
    split at h
    · exact AList.lookup_of_erase (ih _ h)
    · exact h

theorem eligible_path_id_free (h : s.eligible_path_id path_epoch key_epoch path_id = true) :
    path_id ∉ s.paths ∧ path_id ∉ s.path_tombstones := by
  rw [eligible_path_id] at h
  split at h
  · contradiction
  · next hfree => exact not_or.mp hfree

/-- A number that was given out before comes back with both epochs above the record. -/
theorem eligible_path_id_epochs {previous : PathEpochs}
    (h : s.eligible_path_id path_epoch key_epoch path_id = true)
    (hlookup : s.path_epoch_history.lookup path_id = some previous) :
    previous.path_epoch < path_epoch ∧ previous.key_epoch < key_epoch := by
  rw [eligible_path_id, if_neg (not_or.mpr (eligible_path_id_free h)), hlookup] at h
  simpa using h

/-- A new number needs room in the history. -/
theorem eligible_path_id_room (h : s.eligible_path_id path_epoch key_epoch path_id = true)
    (hlookup : s.path_epoch_history.lookup path_id = none) :
    s.path_epoch_history.len < s.maximum_path_epoch_history := by
  rw [eligible_path_id, if_neg (not_or.mpr (eligible_path_id_free h)), hlookup] at h
  simpa using h

/-- The scan only ever settles on an eligible number. -/
theorem scan_path_id_eligible (rounds : ℕ) (next : U16)
    (h : (s.scan_path_id path_epoch key_epoch rounds next).2 = some path_id) :
    s.eligible_path_id path_epoch key_epoch path_id = true := by
  induction rounds generalizing next with
  | zero => contradiction
  | succ rounds ih =>
    rw [scan_path_id] at h
    by_cases heligible : s.eligible_path_id path_epoch key_epoch ⟨next⟩ = true
    · rw [if_pos heligible] at h
      rwa [← Option.some.inj h]
    · rw [if_neg heligible] at h
      exact ih _ h

/-- The session with the reservation entered as an uncommitted path. -/
def enter_path (s : V2Session) (next : U16) (reservation : AttachReservation) : V2Session :=
  { s with
    next_path_id := next
    path_epoch_history := s.path_epoch_history.insert reservation.path_id
      ⟨reservation.path_epoch, reservation.key_epoch⟩
    paths := s.paths.insert reservation.path_id
      ⟨⟨reservation.path_id, reservation.path_epoch, reservation.key_epoch,
        reservation.connection_id, .Connecting⟩, true⟩ }

/-- What `reserve_attach` needs for the reservation it returns. -/
structure Admits (s : V2Session) (now_ms : ℕ) (reservation : AttachReservation) : Prop where
  live : s.is_expired now_ms = false
  active : s.state = .Active
  unbound : ∀ path_id entry, s.paths.lookup path_id = some entry →
    entry.binding.connection_id ≠ reservation.connection_id
  room : s.paths.len < s.maximum_paths
  eligible : (s.prune_path_tombstones now_ms).eligible_path_id reservation.path_epoch
    reservation.key_epoch reservation.path_id = true

/-- `reserve_attach` fails, having moved no more than the tombstones and the
allocator, or enters the path it returns. -/
theorem reserve_attach_cases (s : V2Session) (connection_id : ConnectionId) (path_epoch : U64)
    (key_epoch : U32) (now_ms : ℕ) :
    (∃ next e, s.reserve_attach connection_id path_epoch key_epoch now_ms =
      ({ s.prune_path_tombstones now_ms with next_path_id := next }, .error e)) ∨
    ∃ next path_id, s.Admits now_ms ⟨path_id, path_epoch, key_epoch, connection_id⟩ ∧
      s.reserve_attach connection_id path_epoch key_epoch now_ms =
        ((s.prune_path_tombstones now_ms).enter_path next
          ⟨path_id, path_epoch, key_epoch, connection_id⟩,
          .ok ⟨path_id, path_epoch, key_epoch, connection_id⟩) := by
  rw [reserve_attach]
  dsimp only
  split
  · exact .inl ⟨_, _, rfl⟩
  next hlive =>
  split
  · exact .inl ⟨_, _, rfl⟩
  next hactive =>
  split
  · exact .inl ⟨_, _, rfl⟩
  split
  · exact .inl ⟨_, _, rfl⟩
  split
  · exact .inl ⟨_, _, rfl⟩
  next hunbound =>
  split
  · exact .inl ⟨_, _, rfl⟩
  next hroom =>
  -- The allocator moves on whether or not it finds a number.
  rw [allocate_path_id]
  generalize hscan : (s.prune_path_tombstones now_ms).scan_path_id path_epoch key_epoch u16Max.val
    (s.prune_path_tombstones now_ms).next_path_id = r
  obtain ⟨next, found⟩ := r
  dsimp only
  cases found with
  | none => exact .inl ⟨next, _, rfl⟩
  | some path_id =>
    refine .inr ⟨next, path_id, ⟨?_, ?_, ?_, ?_, ?_⟩, rfl⟩
    · exact Bool.eq_false_iff.mpr hlive
    · exact not_not.mp hactive
    · intro other entry hlookup hsame
      refine hunbound (List.any_eq_true.mpr ⟨entry, AList.mem_values_iff.mpr ⟨other, hlookup⟩, ?_⟩)
      simpa using hsame
    · exact Nat.not_le.mp hroom
    · exact scan_path_id_eligible _ _ (congrArg Prod.snd hscan)

theorem commit_attach_cases (s : V2Session) (reservation : AttachReservation) :
    (∃ e, s.commit_attach reservation = (s, .error e)) ∨
    ∃ entry, s.paths.lookup reservation.path_id = some entry ∧ reserves entry reservation = true ∧
      s.commit_attach reservation =
        ({ s with
            paths := s.paths.insert reservation.path_id
              ⟨{ entry.binding with state := .Attached }, false⟩ },
          .ok { entry.binding with state := .Attached }) := by
  rw [commit_attach]
  split
  · exact .inl ⟨_, rfl⟩
  next entry hlookup =>
  by_cases hreserves : reserves entry reservation = true
  · refine .inr ⟨entry, hlookup, hreserves, ?_⟩
    simp [hreserves]
  · refine .inl ⟨.UnknownReservation, ?_⟩
    simp [hreserves]

theorem abort_attach_cases (s : V2Session) (reservation : AttachReservation) :
    s.abort_attach reservation = (s, false) ∨
    ∃ entry, s.paths.lookup reservation.path_id = some entry ∧ reserves entry reservation = true ∧
      s.abort_attach reservation = ({ s with paths := s.paths.erase reservation.path_id }, true) := by
  rw [abort_attach]
  split
  · exact .inl rfl
  next entry hlookup =>
  split
  · next hreserves => exact .inr ⟨entry, hlookup, hreserves, rfl⟩
  · exact .inl rfl

/-- The session with the path taken out and its number in quarantine. -/
def quarantine_path (s : V2Session) (path_id : PathId) (entry : PathEntry) (now_ms : ℕ) :
    V2Session :=
  { s.insert_tombstone path_id entry.binding.path_epoch entry.binding.key_epoch now_ms with
    paths := s.paths.erase path_id }

/-- A tombstone is the one just inserted or an old one. -/
theorem mem_of_quarantine {other : PathId} {entry : PathEntry}
    (h : other ∈ (s.quarantine_path path_id entry now_ms).path_tombstones) :
    other = path_id ∨ other ∈ s.path_tombstones := by
  rcases (AList.mem_insert _).mp h with he | hmem
  · exact .inl he
  · obtain ⟨tombstone, hlookup⟩ := AList.mem_iff_lookup.mp hmem
    exact .inr (AList.mem_of_lookup (evict_tombstones_lookup _ _ _ hlookup))

theorem detach_cases (s : V2Session) (path_id : PathId) (connection_id : ConnectionId)
    (path_epoch : U64) (now_ms : ℕ) :
    s.detach path_id connection_id path_epoch now_ms = (s, false) ∨
    ∃ entry, s.paths.lookup path_id = some entry ∧ entry.reserved = false ∧
      entry.binding.connection_id = connection_id ∧ entry.binding.path_epoch = path_epoch ∧
      s.detach path_id connection_id path_epoch now_ms =
        (s.quarantine_path path_id entry now_ms, true) := by
  rw [detach]
  split
  · exact .inl rfl
  next entry hlookup =>
  split
  · exact .inl rfl
  next hbound =>
  push Not at hbound
  exact .inr ⟨entry, hlookup, Bool.eq_false_iff.mpr hbound.1, hbound.2.1, hbound.2.2, rfl⟩

theorem detach_bound {entry : PathEntry} (hlookup : s.paths.lookup path_id = some entry)
    (hcommitted : entry.reserved = false) (now_ms : ℕ) :
    s.detach path_id entry.binding.connection_id entry.binding.path_epoch now_ms =
      (s.quarantine_path path_id entry now_ms, true) := by
  rw [detach, hlookup]
  simp [hcommitted, quarantine_path, insert_tombstone]

/-- A path just committed becomes healthy at once. -/
theorem set_path_state_committed (s : V2Session) (binding : PathBinding)
    (hkeyed : binding.path_id = path_id) :
    ({ s with
        paths := s.paths.insert path_id
          ⟨{ binding with state := .Attached }, false⟩ } : V2Session).set_path_state
      binding.path_id .Healthy =
      ({ s with paths := s.paths.insert path_id ⟨{ binding with state := .Healthy }, false⟩ },
        .ok { binding with state := .Healthy }) := by
  subst hkeyed
  rw [set_path_state]
  simp [valid_path_transition]

theorem set_path_state_cases (s : V2Session) (path_id : PathId) (next : PathState) :
    (∃ e, s.set_path_state path_id next = (s, .error e)) ∨
    ∃ entry, s.paths.lookup path_id = some entry ∧ entry.reserved = false ∧
      valid_path_transition entry.binding.state next = true ∧
      s.set_path_state path_id next =
        ({ s with
            paths := s.paths.insert path_id
              ⟨{ entry.binding with state := next }, entry.reserved⟩ },
          .ok { entry.binding with state := next }) := by
  rw [set_path_state]
  split
  · exact .inl ⟨_, rfl⟩
  next entry hlookup =>
  split
  · exact .inl ⟨_, rfl⟩
  next hvalid =>
  refine .inr ⟨entry, hlookup, ?_, ?_, rfl⟩
  · simp_all
  · simp_all

/-! ## Distinct paths -/

/-- Every path is under its own number, and no two share a connection. -/
structure Distinct (paths : Map PathId PathEntry) : Prop where
  keyed : ∀ {path_id entry}, paths.lookup path_id = some entry → entry.binding.path_id = path_id
  single : ∀ {path_id other entry entry'}, paths.lookup path_id = some entry →
    paths.lookup other = some entry' →
    entry.binding.connection_id = entry'.binding.connection_id → path_id = other

variable {paths : Map PathId PathEntry} {entry entry' : PathEntry}

theorem Distinct.empty : Distinct ∅ := ⟨fun h => absurd h (by simp), fun h => absurd h (by simp)⟩

theorem Distinct.erase (h : Distinct paths) (path_id : PathId) : Distinct (paths.erase path_id) :=
  ⟨fun hl => h.keyed (AList.lookup_of_erase hl),
    fun hl hl' => h.single (AList.lookup_of_erase hl) (AList.lookup_of_erase hl')⟩

/-- An entry under its own number, whose connection no other path has. -/
theorem Distinct.insert (h : Distinct paths) (hkeyed : entry.binding.path_id = path_id)
    (hsingle : ∀ {other entry'}, paths.lookup other = some entry' →
      entry'.binding.connection_id = entry.binding.connection_id → other = path_id) :
    Distinct (paths.insert path_id entry) := by
  refine ⟨?_, ?_⟩
  · intro other entry' hl
    rw [AList.lookup_insert_of] at hl
    by_cases hother : other = path_id
    · rw [if_pos hother, Option.some.injEq] at hl
      rw [← hl, hkeyed, hother]
    · rw [if_neg hother] at hl
      exact h.keyed hl
  · intro first second entry₁ entry₂ hfirst hsecond hsame
    rw [AList.lookup_insert_of] at hfirst hsecond
    by_cases h₁ : first = path_id
    · by_cases h₂ : second = path_id
      · rw [h₁, h₂]
      · rw [if_pos h₁, Option.some.injEq] at hfirst
        rw [if_neg h₂] at hsecond
        rw [h₁, hsingle hsecond (by rw [← hsame, hfirst])]
    · rw [if_neg h₁] at hfirst
      by_cases h₂ : second = path_id
      · rw [if_pos h₂, Option.some.injEq] at hsecond
        rw [h₂, hsingle hfirst (by rw [hsame, hsecond])]
      · rw [if_neg h₂] at hsecond
        exact h.single hfirst hsecond hsame

/-- An entry rewritten in place. -/
theorem Distinct.rewrite (h : Distinct paths) (hlookup : paths.lookup path_id = some entry)
    (hpath : entry'.binding.path_id = entry.binding.path_id)
    (hconnection : entry'.binding.connection_id = entry.binding.connection_id) :
    Distinct (paths.insert path_id entry') := by
  refine h.insert ?_ ?_
  · rw [hpath, h.keyed hlookup]
  · intro other entry₁ hl hsame
    exact h.single hl hlookup (by rw [hsame, hconnection])

/-- The session holds this path, committed, for this connection. -/
def Binds (s : V2Session) (path_id : PathId) (path_epoch : U64) (key_epoch : U32)
    (connection_id : ConnectionId) : Prop :=
  ∃ entry, s.paths.lookup path_id = some entry ∧ entry.reserved = false ∧
    entry.binding.connection_id = connection_id ∧ entry.binding.path_epoch = path_epoch ∧
    entry.binding.key_epoch = key_epoch

/-! ## The epoch record -/

/-- The history holds epochs for this number at least as high as these. -/
def records (s : V2Session) (path_id : PathId) (path_epoch : U64) (key_epoch : U32) : Prop :=
  ∃ epochs, s.path_epoch_history.lookup path_id = some epochs ∧
    path_epoch ≤ epochs.path_epoch ∧ key_epoch ≤ epochs.key_epoch

/-- The record never falls. -/
def RecordsMore (s s' : V2Session) : Prop :=
  ∀ path_id path_epoch key_epoch, s.records path_id path_epoch key_epoch →
    s'.records path_id path_epoch key_epoch

theorem RecordsMore.of_eq {s' : V2Session} (h : s'.path_epoch_history = s.path_epoch_history) :
    s.RecordsMore s' := by
  intro path_id path_epoch key_epoch hrecords
  unfold records
  rwa [h]

/-- A write that stays at or above the record it replaces. -/
theorem RecordsMore.write {s' : V2Session} {epochs : PathEpochs}
    (h : s'.path_epoch_history = s.path_epoch_history.insert path_id epochs)
    (habove : ∀ previous, s.path_epoch_history.lookup path_id = some previous →
      previous.path_epoch ≤ epochs.path_epoch ∧ previous.key_epoch ≤ epochs.key_epoch) :
    s.RecordsMore s' := by
  rintro other path_epoch key_epoch ⟨previous, hlookup, hpath, hkey⟩
  unfold records
  rw [h]
  by_cases hother : other = path_id
  · subst hother
    obtain ⟨hpath', hkey'⟩ := habove previous hlookup
    exact ⟨epochs, AList.lookup_insert _, hpath.trans hpath', hkey.trans hkey'⟩
  · refine ⟨previous, ?_, hpath, hkey⟩
    rw [AList.lookup_insert_of, if_neg hother]
    exact hlookup

theorem enter_path_records_more (next : U16) (h : s.eligible_path_id reservation.path_epoch
    reservation.key_epoch reservation.path_id = true) :
    s.RecordsMore (s.enter_path next reservation) := by
  refine .write rfl ?_
  intro previous hlookup
  obtain ⟨hpath, hkey⟩ := eligible_path_id_epochs h hlookup
  exact ⟨hpath.le, hkey.le⟩

theorem quarantine_path_records_more (path_id : PathId) (entry : PathEntry) (now_ms : ℕ) :
    s.RecordsMore (s.quarantine_path path_id entry now_ms) := by
  refine .write rfl ?_
  intro previous hlookup
  rw [hlookup]
  exact ⟨le_max_left _ _, le_max_left _ _⟩

/-- A reservation is above everything recorded for its number. -/
theorem eligible_path_id_above {old_path : U64} {old_key : U32}
    (h : s.eligible_path_id path_epoch key_epoch path_id = true)
    (hrecords : s.records path_id old_path old_key) :
    old_path < path_epoch ∧ old_key < key_epoch := by
  obtain ⟨previous, hlookup, hpath, hkey⟩ := hrecords
  obtain ⟨hpath', hkey'⟩ := eligible_path_id_epochs h hlookup
  exact ⟨hpath.trans_lt hpath', hkey.trans_lt hkey'⟩

/-! ## The invariant -/

/-- What holds of a session between two calls. -/
structure Orderly (s : V2Session) : Prop where
  distinct : Distinct s.paths
  capacity : s.paths.len ≤ s.maximum_paths
  untombed : ∀ path_id ∈ s.paths, path_id ∉ s.path_tombstones
  recorded : ∀ {path_id entry}, s.paths.lookup path_id = some entry →
    s.records path_id entry.binding.path_epoch entry.binding.key_epoch
  history : s.path_epoch_history.len ≤ s.maximum_path_epoch_history

/-- A new session is empty, under its configured bounds. -/
theorem new_ok {config : V2SessionConfig} {admission : Admission}
    (h : V2Session.new config admission now_ms = .ok s) :
    s = ⟨admission, .Pending, config.maximum_paths, ∅, 1, ∅, ∅, [],
      config.maximum_path_epoch_history, config.maximum_path_tombstones,
      config.path_tombstone_ttl_ms⟩ := by
  rw [V2Session.new] at h
  split at h
  · contradiction
  split at h
  · contradiction
  · exact (Except.ok.inj h).symm

/-- A session without paths is orderly. -/
theorem Orderly.of_empty (hpaths : s.paths = ∅) (hhistory : s.path_epoch_history = ∅) :
    s.Orderly := by
  refine ⟨?_, ?_, ?_, ?_, ?_⟩
  · rw [hpaths]
    exact .empty
  · simp [hpaths]
  · intro path_id hmem
    simp [hpaths] at hmem
  · intro path_id entry hlookup
    simp [hpaths] at hlookup
  · simp [hhistory]

theorem Orderly.prune (h : s.Orderly) (now_ms : ℕ) : (s.prune_path_tombstones now_ms).Orderly :=
  ⟨h.distinct, h.capacity, fun path_id hmem hpruned => h.untombed path_id hmem (mem_of_prune hpruned),
    h.recorded, h.history⟩

/-- The numbers that are live, with their epochs, do not depend on what is written
into an entry otherwise. -/
theorem Orderly.rewrite (h : s.Orderly) (hlookup : s.paths.lookup path_id = some entry)
    (hpath : entry'.binding.path_id = entry.binding.path_id)
    (hconnection : entry'.binding.connection_id = entry.binding.connection_id)
    (hepoch : entry'.binding.path_epoch = entry.binding.path_epoch)
    (hkey : entry'.binding.key_epoch = entry.binding.key_epoch) :
    Orderly { s with paths := s.paths.insert path_id entry' } := by
  have hmem : path_id ∈ s.paths := AList.mem_of_lookup hlookup
  refine ⟨h.distinct.rewrite hlookup hpath hconnection, ?_, ?_, ?_, h.history⟩
  · change (s.paths.insert path_id entry').len ≤ s.maximum_paths
    rw [AList.len_insert_of_mem hmem]
    exact h.capacity
  · intro other hother
    rcases (AList.mem_insert _).mp hother with rfl | hother
    · exact h.untombed other hmem
    · exact h.untombed other hother
  · intro other entry₁ hl
    change (s.paths.insert path_id entry').lookup other = some entry₁ at hl
    rw [AList.lookup_insert_of] at hl
    by_cases hother : other = path_id
    · rw [if_pos hother, Option.some.injEq] at hl
      subst hother hl
      rw [hepoch, hkey]
      exact h.recorded hlookup
    · rw [if_neg hother] at hl
      exact h.recorded hl

theorem Orderly.erase (h : s.Orderly) (hmem : path_id ∈ s.paths) :
    Orderly { s with paths := s.paths.erase path_id } := by
  refine ⟨h.distinct.erase path_id, ?_, ?_, ?_, h.history⟩
  · have hlen := AList.len_erase hmem
    have hcapacity := h.capacity
    change (s.paths.erase path_id).len ≤ s.maximum_paths
    omega
  · intro other hother
    exact h.untombed other ((AList.mem_erase).mp hother).2
  · intro other entry hl
    exact h.recorded (AList.lookup_of_erase hl)

/-- A number with a record stays within the history when it is written again. -/
theorem Orderly.quarantine (h : s.Orderly) (hlookup : s.paths.lookup path_id = some entry) :
    (s.quarantine_path path_id entry now_ms).Orderly := by
  have herased := h.erase (AList.mem_of_lookup hlookup)
  obtain ⟨epochs, hepochs, -, -⟩ := h.recorded hlookup
  refine ⟨herased.distinct, herased.capacity, ?_, ?_, ?_⟩
  · intro other hother htomb
    obtain ⟨hne, hmem⟩ := (AList.mem_erase).mp hother
    rcases mem_of_quarantine htomb with rfl | hold
    · exact hne rfl
    · exact h.untombed other hmem hold
  · intro other entry' hl
    exact quarantine_path_records_more _ _ _ _ _ _ (herased.recorded hl)
  · refine le_trans (le_of_eq ?_) h.history
    exact AList.len_insert_of_mem (AList.mem_of_lookup hepochs)

theorem Orderly.enter (h : s.Orderly) (next : U16) (hadmits : s.Admits now_ms reservation) :
    ((s.prune_path_tombstones now_ms).enter_path next reservation).Orderly := by
  have heligible := hadmits.eligible
  obtain ⟨hfree, huntombed⟩ := eligible_path_id_free heligible
  have hpruned := h.prune now_ms
  have hmore := enter_path_records_more next heligible
  refine ⟨?_, ?_, ?_, ?_, ?_⟩
  · refine h.distinct.insert rfl ?_
    intro other entry hl hsame
    exact absurd hsame (hadmits.unbound other entry hl)
  · have hlen := AList.len_insert_le s.paths reservation.path_id
      ⟨⟨reservation.path_id, reservation.path_epoch, reservation.key_epoch,
        reservation.connection_id, .Connecting⟩, true⟩
    exact hlen.trans hadmits.room
  · intro other hother
    rcases (AList.mem_insert _).mp hother with rfl | hother
    · exact huntombed
    · exact hpruned.untombed other hother
  · intro other entry hl
    change (s.paths.insert _ _).lookup other = some entry at hl
    rw [AList.lookup_insert_of] at hl
    by_cases hother : other = reservation.path_id
    · rw [if_pos hother, Option.some.injEq] at hl
      subst hother hl
      exact ⟨_, AList.lookup_insert _, le_rfl, le_rfl⟩
    · rw [if_neg hother] at hl
      exact hmore _ _ _ (h.recorded hl)
  · -- A number new to the history was only eligible while there was room.
    change (s.path_epoch_history.insert _ _).len ≤ s.maximum_path_epoch_history
    cases hknown : s.path_epoch_history.lookup reservation.path_id with
    | some previous =>
      rw [AList.len_insert_of_mem (AList.mem_of_lookup hknown)]
      exact h.history
    | none =>
      have hroom := eligible_path_id_room heligible hknown
      exact (AList.len_insert_le _ _ _).trans hroom

end V2Session

/-! ## Calls -/

/-- A call on a session. -/
inductive SessionCall where
  | activate (now_ms : ℕ)
  | reserve_attach (connection_id : ConnectionId) (path_epoch : U64) (key_epoch : U32) (now_ms : ℕ)
  | commit_attach (reservation : AttachReservation)
  | abort_attach (reservation : AttachReservation)
  | detach (path_id : PathId) (connection_id : ConnectionId) (path_epoch : U64) (now_ms : ℕ)
  | set_path_state (path_id : PathId) (next : PathState)
  | prune_path_tombstones (now_ms : ℕ)
  | begin_draining
  | close

/-- The session after a call, and the reservation if the call returned one. -/
def SessionCall.apply (s : V2Session) : SessionCall → V2Session × Option AttachReservation
  | .activate now_ms => ((s.activate now_ms).1, none)
  | .reserve_attach connection_id path_epoch key_epoch now_ms =>
    let r := s.reserve_attach connection_id path_epoch key_epoch now_ms
    (r.1, r.2.toOption)
  | .commit_attach reservation => ((s.commit_attach reservation).1, none)
  | .abort_attach reservation => ((s.abort_attach reservation).1, none)
  | .detach path_id connection_id path_epoch now_ms =>
    ((s.detach path_id connection_id path_epoch now_ms).1, none)
  | .set_path_state path_id next => ((s.set_path_state path_id next).1, none)
  | .prune_path_tombstones now_ms => (s.prune_path_tombstones now_ms, none)
  | .begin_draining => (s.begin_draining.1, none)
  | .close => (s.close.1, none)

/-- One call, whose output is the reservation it returned. -/
def session_step (s : V2Session) (call : SessionCall) :
    Option (V2Session × List AttachReservation) :=
  some ((call.apply s).1, (call.apply s).2.toList)

/-- What a call leaves: an orderly session with the same limits, whose record has
not fallen; and a reservation it returns is recorded and above the old record. -/
structure Advances (s : V2Session) (r : V2Session × Option AttachReservation) : Prop where
  orderly : r.1.Orderly
  limits : r.1.limits = s.limits
  more : s.RecordsMore r.1
  above : ∀ reservation ∈ r.2,
    r.1.records reservation.path_id reservation.path_epoch reservation.key_epoch ∧
    ∀ path_epoch key_epoch, s.records reservation.path_id path_epoch key_epoch →
      path_epoch < reservation.path_epoch ∧ key_epoch < reservation.key_epoch

/-- A call that returns no reservation and writes no epoch. -/
theorem Advances.quiet {s s' : V2Session} (h : s'.Orderly)
    (hlimits : s'.limits = s.limits) (hhistory : s'.path_epoch_history = s.path_epoch_history) :
    Advances s (s', none) :=
  ⟨h, hlimits, .of_eq hhistory, fun _ hr => absurd hr (Option.not_mem_none _)⟩

theorem reserve_attach_advances {s : V2Session} (h : s.Orderly) (connection_id : ConnectionId)
    (path_epoch : U64) (key_epoch : U32) (now_ms : ℕ) :
    Advances s ((SessionCall.reserve_attach connection_id path_epoch key_epoch now_ms).apply s) := by
  have hpruned := h.prune now_ms
  rcases s.reserve_attach_cases connection_id path_epoch key_epoch now_ms with
    ⟨next, e, hr⟩ | ⟨next, path_id, hadmits, hr⟩
  · rw [SessionCall.apply, hr]
    exact .quiet ⟨hpruned.distinct, hpruned.capacity, hpruned.untombed, hpruned.recorded,
      hpruned.history⟩ rfl rfl
  · rw [SessionCall.apply, hr]
    have hmore : s.RecordsMore ((s.prune_path_tombstones now_ms).enter_path next
        ⟨path_id, path_epoch, key_epoch, connection_id⟩) :=
      V2Session.enter_path_records_more (s := s.prune_path_tombstones now_ms) next hadmits.eligible
    refine ⟨h.enter next hadmits, rfl, hmore, ?_⟩
    rintro reservation hreservation
    obtain rfl : _ = reservation := Option.some.inj hreservation
    refine ⟨⟨_, AList.lookup_insert _, le_rfl, le_rfl⟩, ?_⟩
    intro old_path old_key hrecords
    exact V2Session.eligible_path_id_above (s := s.prune_path_tombstones now_ms) hadmits.eligible
      hrecords

theorem detach_advances {s : V2Session} (h : s.Orderly) (path_id : PathId)
    (connection_id : ConnectionId) (path_epoch : U64) (now_ms : ℕ) :
    Advances s ((SessionCall.detach path_id connection_id path_epoch now_ms).apply s) := by
  rcases s.detach_cases path_id connection_id path_epoch now_ms with
    hr | ⟨entry, hlookup, -, -, -, hr⟩
  · rw [SessionCall.apply, hr]
    exact .quiet h rfl rfl
  · rw [SessionCall.apply, hr]
    exact ⟨h.quarantine hlookup, rfl, V2Session.quarantine_path_records_more _ _ _,
      fun _ hr => absurd hr (Option.not_mem_none _)⟩

/-- The spec of a call, whatever its arguments. -/
theorem SessionCall.advances {s : V2Session} (h : s.Orderly) (call : SessionCall) :
    Advances s (call.apply s) := by
  cases call with
  | activate now_ms =>
    rw [apply, V2Session.activate]
    split
    · exact .quiet h rfl rfl
    split
    · exact .quiet h rfl rfl
    · exact .quiet ⟨h.distinct, h.capacity, h.untombed, h.recorded, h.history⟩ rfl rfl
  | reserve_attach connection_id path_epoch key_epoch now_ms =>
    exact reserve_attach_advances h connection_id path_epoch key_epoch now_ms
  | commit_attach reservation =>
    rw [apply]
    rcases s.commit_attach_cases reservation with ⟨e, hr⟩ | ⟨entry, hlookup, -, hr⟩
    · rw [hr]
      exact .quiet h rfl rfl
    · rw [hr]
      exact .quiet (h.rewrite hlookup rfl rfl rfl rfl) rfl rfl
  | abort_attach reservation =>
    rw [apply]
    rcases s.abort_attach_cases reservation with hr | ⟨entry, hlookup, -, hr⟩
    · rw [hr]
      exact .quiet h rfl rfl
    · rw [hr]
      exact .quiet (h.erase (AList.mem_of_lookup hlookup)) rfl rfl
  | detach path_id connection_id path_epoch now_ms =>
    exact detach_advances h path_id connection_id path_epoch now_ms
  | set_path_state path_id next =>
    rw [apply]
    rcases s.set_path_state_cases path_id next with ⟨e, hr⟩ | ⟨entry, hlookup, -, -, hr⟩
    · rw [hr]
      exact .quiet h rfl rfl
    · rw [hr]
      exact .quiet (h.rewrite hlookup rfl rfl rfl rfl) rfl rfl
  | prune_path_tombstones now_ms => exact .quiet (h.prune now_ms) rfl rfl
  | begin_draining =>
    rw [apply, V2Session.begin_draining]
    split
    · exact .quiet h rfl rfl
    · exact .quiet ⟨h.distinct, h.capacity, h.untombed, h.recorded, h.history⟩ rfl rfl
  | close =>
    rw [apply, V2Session.close]
    split
    · exact .quiet h rfl rfl
    · -- Closing drops every path; the history and the quarantine stay.
      refine .quiet ⟨.empty, Nat.zero_le _, ?_, ?_, h.history⟩ rfl rfl
      · intro path_id hmem
        simp at hmem
      · intro path_id entry hlookup
        simp at hlookup

/-! ## Whole runs -/

/-- The reservations of one number come with strictly increasing epochs. -/
def Increasing (reservations : List AttachReservation) : Prop :=
  reservations.Pairwise fun earlier later => earlier.path_id = later.path_id →
    earlier.path_epoch < later.path_epoch ∧ earlier.key_epoch < later.key_epoch

/-- The invariant of a run: the session is orderly and has every reservation so far
on record. -/
structure Recorded (limits : ℕ × ℕ × ℕ × ℕ) (s : V2Session) (reservations : List AttachReservation) :
    Prop where
  orderly : s.Orderly
  limits : s.limits = limits
  increasing : Increasing reservations
  recorded : ∀ r ∈ reservations, s.records r.path_id r.path_epoch r.key_epoch

theorem session_step_recorded {limits : ℕ × ℕ × ℕ × ℕ} {s s' : V2Session} {call : SessionCall}
    {out reservations : List AttachReservation} (h : Recorded limits s reservations)
    (hs : session_step s call = some (s', out)) : Recorded limits s' (reservations ++ out) := by
  have hadvances := call.advances h.orderly
  obtain ⟨rfl, rfl⟩ := step_inj hs
  have habove : ∀ r ∈ (call.apply s).2.toList, r ∈ (call.apply s).2 :=
    fun r hr => Option.mem_toList.mp hr
  refine ⟨hadvances.orderly, ?_, ?_, ?_⟩
  · rw [hadvances.limits, h.limits]
  · refine List.pairwise_append.mpr ⟨h.increasing, ?_, ?_⟩
    · cases (call.apply s).2 with
      | none => exact .nil
      | some r => exact List.pairwise_singleton _ _
    · intro earlier hearlier later hlater hsame
      refine (hadvances.above later (habove later hlater)).2 _ _ ?_
      rw [← hsame]
      exact h.recorded earlier hearlier
  · intro r hr
    rcases List.mem_append.mp hr with hr | hr
    · exact hadvances.more _ _ _ (h.recorded r hr)
    · exact (hadvances.above r (habove r hr)).1

theorem session_run_recorded {config : V2SessionConfig} {admission : Admission} {now_ms : ℕ}
    {s t : V2Session} {calls : List SessionCall} {reservations : List AttachReservation}
    (hnew : V2Session.new config admission now_ms = .ok s)
    (h : exec session_step s calls = some (t, reservations)) :
    Recorded (config.maximum_paths, config.maximum_path_epoch_history,
      config.maximum_path_tombstones, config.path_tombstone_ttl_ms) t reservations := by
  refine exec_along_induct (C := fun _ _ => True) (P := Recorded _) (a := [])
    (fun s call s' out reservations hs _ hstep => session_step_recorded hs hstep)
    ⟨?_, ?_, .nil, fun r hr => absurd hr List.not_mem_nil⟩ (along_true s calls) h
  · rw [V2Session.new_ok hnew]
    exact .of_empty rfl rfl
  · rw [V2Session.new_ok hnew]
    rfl

/-- **Path bindings never repeat.** Whatever is called on a session in whatever
order, the reservations of one path number strictly increase both epochs, and in
the state reached the paths have distinct numbers and distinct connections, none
of them in quarantine, within the limits of the configuration. -/
theorem path_bindings_never_repeat {config : V2SessionConfig} {admission : Admission} {now_ms : ℕ}
    {s t : V2Session} {calls : List SessionCall} {reservations : List AttachReservation}
    (hnew : V2Session.new config admission now_ms = .ok s)
    (h : exec session_step s calls = some (t, reservations)) :
    Increasing reservations ∧
      (t.paths.values.map (·.binding.path_id)).Nodup ∧
      (t.paths.values.map (·.binding.connection_id)).Nodup ∧
      t.paths.len ≤ config.maximum_paths ∧
      (∀ entry ∈ t.paths.values, entry.binding.path_id ∉ t.path_tombstones) ∧
      t.path_epoch_history.len ≤ config.maximum_path_epoch_history := by
  have hrun := session_run_recorded hnew h
  have hdistinct := hrun.orderly.distinct
  have hpaths : t.maximum_paths = config.maximum_paths := congrArg Prod.fst hrun.limits
  have hhistory : t.maximum_path_epoch_history = config.maximum_path_epoch_history :=
    congrArg (fun limits => limits.2.1) hrun.limits
  refine ⟨hrun.increasing, ?_, ?_, ?_, ?_, ?_⟩
  · refine AList.nodup_map_values ?_
    intro path_id other entry entry' hl hl' hsame
    rw [← hdistinct.keyed hl, ← hdistinct.keyed hl', hsame]
  · refine AList.nodup_map_values ?_
    intro path_id other entry entry' hl hl' hsame
    exact hdistinct.single hl hl' hsame
  · rw [← hpaths]
    exact hrun.orderly.capacity
  · intro entry hentry
    obtain ⟨path_id, hlookup⟩ := AList.mem_values_iff.mp hentry
    rw [hdistinct.keyed hlookup]
    exact hrun.orderly.untombed path_id (AList.mem_of_lookup hlookup)
  · rw [← hhistory]
    exact hrun.orderly.history

/-- A path detached into quarantine, and the next one reserved beside it. -/
theorem detached_run :
    ∃ s t, V2Session.new ⟨2, 2, 1, 5⟩ ⟨⟨1⟩, ⟨1⟩, 100⟩ 0 = .ok s ∧
      exec session_step s [.activate 0, .reserve_attach ⟨7⟩ 1 1 0, .commit_attach ⟨⟨1⟩, 1, 1, ⟨7⟩⟩,
        .detach ⟨1⟩ ⟨7⟩ 1 3, .reserve_attach ⟨8⟩ 2 2 4] =
          some (t, [⟨⟨1⟩, 1, 1, ⟨7⟩⟩, ⟨⟨2⟩, 2, 2, ⟨8⟩⟩]) := by
  have hnew : V2Session.new ⟨2, 2, 1, 5⟩ ⟨⟨1⟩, ⟨1⟩, 100⟩ 0 =
      .ok ⟨⟨⟨1⟩, ⟨1⟩, 100⟩, .Pending, 2, ∅, 1, ∅, ∅, [], 2, 1, 5⟩ := rfl
  have hrun : (exec session_step ⟨⟨⟨1⟩, ⟨1⟩, 100⟩, .Pending, 2, ∅, 1, ∅, ∅, [], 2, 1, 5⟩
      [.activate 0, .reserve_attach ⟨7⟩ 1 1 0, .commit_attach ⟨⟨1⟩, 1, 1, ⟨7⟩⟩,
        .detach ⟨1⟩ ⟨7⟩ 1 3, .reserve_attach ⟨8⟩ 2 2 4]).map (·.2) =
      some [⟨⟨1⟩, 1, 1, ⟨7⟩⟩, ⟨⟨2⟩, 2, 2, ⟨8⟩⟩] := by decide
  obtain ⟨⟨t, out⟩, hexec, rfl⟩ := Option.map_eq_some_iff.mp hrun
  exact ⟨_, t, hnew, hexec⟩

theorem path_bindings_never_repeat_detached :
    ∃ s t, V2Session.new ⟨2, 2, 1, 5⟩ ⟨⟨1⟩, ⟨1⟩, 100⟩ 0 = .ok s ∧
      exec session_step s [.activate 0, .reserve_attach ⟨7⟩ 1 1 0, .commit_attach ⟨⟨1⟩, 1, 1, ⟨7⟩⟩,
        .detach ⟨1⟩ ⟨7⟩ 1 3, .reserve_attach ⟨8⟩ 2 2 4] =
          some (t, [⟨⟨1⟩, 1, 1, ⟨7⟩⟩, ⟨⟨2⟩, 2, 2, ⟨8⟩⟩]) ∧
      (∀ entry ∈ t.paths.values, entry.binding.path_id ∉ t.path_tombstones) := by
  obtain ⟨s, t, hnew, hexec⟩ := detached_run
  exact ⟨s, t, hnew, hexec, (path_bindings_never_repeat hnew hexec).2.2.2.2.1⟩

end StreamGuard.Session
