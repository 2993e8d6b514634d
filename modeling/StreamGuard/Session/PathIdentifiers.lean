/-
Which path number a V2 session gives out, `allocate_path_id` in `sg-session/src/v2.rs`.

The loop of the allocator is a search from its cursor in the ring `1, …, u16::MAX`, with as many
rounds as there are numbers. So it comes by every number once and finds the first that may be given
out, wherever the cursor is and whatever the tables hold, provided the cursor is on the ring. It
begins there and no call takes it off (`session_run_in_range`).
-/
import StreamGuard.Lib.Tour
import StreamGuard.Session.PathBindings

set_option autoImplicit false

namespace StreamGuard.Session

open StreamGuard StreamGuard.Lib

/-! ## Numbers -/

/-- The numbers `1..=65535`. -/
def InRange (id : U16) : Prop := 1 ≤ id.val ∧ id.val ≤ 65535

/-- How many numbers come before `id` in the cyclic order that begins with `first`. -/
def steps (first id : U16) : ℕ := (id.val + 65535 - first.val) % 65535

namespace V2Session

/-- A number may be given out for these epochs: it is neither a live path nor tombstoned, and it is
unknown with room in the epoch history, or known with both stored epochs strictly smaller. -/
structure Eligible (s : V2Session) (path_epoch : U64) (key_epoch : U32) (path_id : PathId) :
    Prop where
  not_live : path_id ∉ s.paths
  not_tombstoned : path_id ∉ s.path_tombstones
  history : path_id ∉ s.path_epoch_history ∧
      s.path_epoch_history.len < s.maximum_path_epoch_history ∨
    ∃ previous, s.path_epoch_history.lookup path_id = some previous ∧
      previous.path_epoch < path_epoch ∧ previous.key_epoch < key_epoch

/-- The allocator finds nothing exactly if no number is eligible, and else the first eligible one
from the cursor on; and the cursor is on the ring before and after. -/
structure AllocatesFirst (s : V2Session) (path_epoch : U64) (key_epoch : U32) : Prop where
  none_iff : (s.allocate_path_id path_epoch key_epoch).2 = none ↔
    ∀ path_id : PathId, InRange path_id.get → ¬ s.Eligible path_epoch key_epoch path_id
  some_iff : ∀ path_id : PathId, (s.allocate_path_id path_epoch key_epoch).2 = some path_id ↔
    InRange path_id.get ∧ s.Eligible path_epoch key_epoch path_id ∧
      ∀ other : PathId, InRange other.get → s.Eligible path_epoch key_epoch other →
        steps s.next_path_id path_id.get ≤ steps s.next_path_id other.get
  cursor : InRange s.next_path_id
  cursor_after : InRange (s.allocate_path_id path_epoch key_epoch).1.next_path_id

variable {s : V2Session} {path_epoch : U64} {key_epoch : U32} {path_id : PathId} {next : U16}

/-! ## The loop is a search -/

theorem val_following_path_id (id : U16) : (following_path_id id).val = ring_next 65535 id.val := by
  rw [following_path_id, ring_next]
  by_cases hlast : id = u16Max
  · -- `u16::MAX` wraps to 1, never to 0
    have hval : id.val = 65535 := congrArg Fin.val hlast
    rw [if_pos hlast, if_pos hval]
    rfl
  · have hval : id.val ≠ 65535 := fun hsame => hlast (Fin.ext hsame)
    have hlt : id < Fin.last (2 ^ 16 - 1) := Fin.lt_last_iff_ne_last.mpr hlast
    rw [if_neg hlast, if_neg hval]
    exact Fin.val_add_one_of_lt hlt

/-- **The cursor tours the numbers** `1..=65535`. -/
theorem path_id_tour (h : InRange next) :
    Tour following_path_id u16Max.val next { id | InRange id } (steps next) :=
  (ring_tour h).pull Fin.val_injective val_following_path_id

theorem scan_path_id_eq (s : V2Session) (path_epoch : U64) (key_epoch : U32) (rounds : ℕ)
    (next : U16) :
    s.scan_path_id path_epoch key_epoch rounds next =
      ((search (fun id => s.eligible_path_id path_epoch key_epoch ⟨id⟩) following_path_id rounds
          next).1,
        (search (fun id => s.eligible_path_id path_epoch key_epoch ⟨id⟩) following_path_id rounds
          next).2.map PathId.mk) := by
  induction rounds generalizing next with
  | zero => rfl
  | succ rounds ih =>
    rw [scan_path_id, search]
    by_cases heligible : s.eligible_path_id path_epoch key_epoch ⟨next⟩ = true
    · rw [if_pos heligible, if_pos heligible]
      rfl
    · rw [if_neg heligible, if_neg heligible, ih]

theorem eligible_path_id_iff :
    s.eligible_path_id path_epoch key_epoch path_id = true ↔
      s.Eligible path_epoch key_epoch path_id := by
  constructor
  · intro h
    obtain ⟨hlive, htombstoned⟩ := eligible_path_id_free h
    refine ⟨hlive, htombstoned, ?_⟩
    cases hlookup : s.path_epoch_history.lookup path_id with
    | none =>
      left
      exact ⟨AList.lookup_eq_none.mp hlookup, eligible_path_id_room h hlookup⟩
    | some previous =>
      right
      exact ⟨previous, rfl, eligible_path_id_epochs h hlookup⟩
  · rintro ⟨hlive, htombstoned, hhistory⟩
    rw [eligible_path_id, if_neg (not_or.mpr ⟨hlive, htombstoned⟩)]
    rcases hhistory with ⟨hunknown, hroom⟩ | ⟨previous, hlookup, hpath, hkey⟩
    · rw [AList.lookup_eq_none.mpr hunknown]
      exact decide_eq_true hroom
    · rw [hlookup]
      refine decide_eq_true ?_
      rintro (hle | hle)
      · exact hle.not_gt hpath
      · exact hle.not_gt hkey

/-- **The allocator** from a cursor on the ring. -/
theorem allocatesFirst (h : InRange s.next_path_id) (path_epoch : U64) (key_epoch : U32) :
    s.AllocatesFirst path_epoch key_epoch := by
  have htour := path_id_tour h
  refine ⟨?_, ?_, h, ?_⟩
  · rw [allocate_path_id, scan_path_id_eq, Option.map_eq_none_iff, htour.search_eq_none_iff]
    constructor
    · intro hnone path_id hrange heligible
      have hfalse := hnone path_id.get hrange
      rw [eligible_path_id_iff.mpr heligible] at hfalse
      contradiction
    · intro hnone id hrange
      rw [← Bool.not_eq_true, eligible_path_id_iff]
      exact hnone ⟨id⟩ hrange
  · intro path_id
    have hfound : (s.allocate_path_id path_epoch key_epoch).2 = some path_id ↔
        (search (fun id => s.eligible_path_id path_epoch key_epoch ⟨id⟩) following_path_id
          u16Max.val s.next_path_id).2 = some path_id.get := by
      rw [allocate_path_id, scan_path_id_eq, Option.map_eq_some_iff]
      constructor
      · rintro ⟨id, hid, rfl⟩
        exact hid
      · intro hid
        exact ⟨path_id.get, hid, rfl⟩
    rw [hfound, htour.search_eq_some_iff, eligible_path_id_iff]
    refine and_congr_right fun _ => and_congr_right fun _ => ?_
    constructor
    · intro hfirst other hrange heligible
      exact hfirst other.get hrange (eligible_path_id_iff.mpr heligible)
    · intro hfirst id hrange heligible
      exact hfirst ⟨id⟩ hrange (eligible_path_id_iff.mp heligible)
  · rw [allocate_path_id, scan_path_id_eq]
    exact htour.search_mem _

/-! ## The cursor stays on the ring -/

/-- A reservation is refused before a number is sought, which leaves the cursor, or it is as the
allocator says after the pruning. -/
theorem reserve_attach_sought (s : V2Session) (connection_id : ConnectionId) (path_epoch : U64)
    (key_epoch : U32) (now_ms : ℕ) :
    (∃ e, e ≠ .PathIdentifierExhausted ∧
      (s.reserve_attach connection_id path_epoch key_epoch now_ms).2 = .error e ∧
      (s.reserve_attach connection_id path_epoch key_epoch now_ms).1.next_path_id =
        s.next_path_id) ∨
    ∃ s' found, (s.prune_path_tombstones now_ms).allocate_path_id path_epoch key_epoch =
        (s', found) ∧
      (s.reserve_attach connection_id path_epoch key_epoch now_ms).2 =
        found.elim (.error .PathIdentifierExhausted)
          (fun path_id => .ok ⟨path_id, path_epoch, key_epoch, connection_id⟩) ∧
      (s.reserve_attach connection_id path_epoch key_epoch now_ms).1.next_path_id =
        s'.next_path_id := by
  rw [reserve_attach]
  -- six checks come before the allocator, each with an error of its own
  split
  · exact .inl ⟨.Expired, by decide, rfl, rfl⟩
  split
  · exact .inl ⟨.InvalidSessionState, by decide, rfl, rfl⟩
  split
  · exact .inl ⟨.InvalidPathEpoch, by decide, rfl, rfl⟩
  split
  · exact .inl ⟨.InvalidKeyEpoch, by decide, rfl, rfl⟩
  split
  · exact .inl ⟨.ConnectionAlreadyBound, by decide, rfl, rfl⟩
  split
  · exact .inl ⟨.PathCapacity, by decide, rfl, rfl⟩
  right
  -- the cursor has moved even where nothing was found
  generalize (s.prune_path_tombstones now_ms).allocate_path_id path_epoch key_epoch = allocated
  obtain ⟨s', found⟩ := allocated
  refine ⟨s', found, rfl, ?_⟩
  cases found with
  | none => exact ⟨rfl, rfl⟩
  | some path_id => exact ⟨rfl, rfl⟩

end V2Session

open V2Session

theorem session_step_in_range {s s' : V2Session} {call : SessionCall}
    {out : List AttachReservation} (h : InRange s.next_path_id)
    (hs : session_step s call = some (s', out)) : InRange s'.next_path_id := by
  obtain ⟨rfl, -⟩ := step_inj hs
  cases call with
  | activate now_ms =>
    rw [SessionCall.apply, activate]
    split
    · exact h
    split
    · exact h
    · exact h
  | reserve_attach connection_id path_epoch key_epoch now_ms =>
    rw [SessionCall.apply]
    rcases s.reserve_attach_sought connection_id path_epoch key_epoch now_ms with
      ⟨e, -, -, hsame⟩ | ⟨s', found, hallocated, -, hmoved⟩
    · rwa [hsame]
    · rw [hmoved]
      -- pruning does not touch the cursor
      have hafter := (allocatesFirst (s := s.prune_path_tombstones now_ms) h path_epoch
        key_epoch).cursor_after
      rwa [hallocated] at hafter
  | commit_attach reservation =>
    rw [SessionCall.apply]
    rcases s.commit_attach_cases reservation with ⟨e, hr⟩ | ⟨entry, -, -, hr⟩
    · rwa [hr]
    · rwa [hr]
  | abort_attach reservation =>
    rw [SessionCall.apply]
    rcases s.abort_attach_cases reservation with hr | ⟨entry, -, -, hr⟩
    · rwa [hr]
    · rwa [hr]
  | detach path_id connection_id path_epoch now_ms =>
    rw [SessionCall.apply]
    rcases s.detach_cases path_id connection_id path_epoch now_ms with
      hr | ⟨entry, -, -, -, -, hr⟩
    · rwa [hr]
    · rwa [hr]
  | set_path_state path_id next =>
    rw [SessionCall.apply]
    rcases s.set_path_state_cases path_id next with ⟨e, hr⟩ | ⟨entry, -, -, -, hr⟩
    · rwa [hr]
    · rwa [hr]
  | prune_path_tombstones now_ms => exact h
  | begin_draining =>
    rw [SessionCall.apply, begin_draining]
    split
    · exact h
    · exact h
  | close =>
    rw [SessionCall.apply, close]
    split
    · exact h
    · exact h

section Runs

variable {config : V2SessionConfig} {admission : Admission} {now_ms : ℕ} {s t : V2Session}
  {calls : List SessionCall} {reservations : List AttachReservation}

theorem session_run_in_range (hnew : V2Session.new config admission now_ms = .ok s)
    (h : exec session_step s calls = some (t, reservations)) : InRange t.next_path_id := by
  have hstart : InRange s.next_path_id := by
    rw [new_ok hnew]
    exact ⟨le_rfl, show (1 : U16).val ≤ 65535 by decide⟩
  exact exec_along_induct (P := fun s _ => InRange s.next_path_id) (C := fun _ _ => True) (a := [])
    (fun s call s' out _ hrange _ hstep => session_step_in_range hrange hstep) hstart
    (along_true s calls) h

/-- **Path number allocation is complete.** In every state that calls lead to, and for all epochs,
the allocator finds a number exactly if one is eligible, and then the first in cyclic order. -/
theorem path_id_allocation_complete (hnew : V2Session.new config admission now_ms = .ok s)
    (h : exec session_step s calls = some (t, reservations)) (path_epoch : U64) (key_epoch : U32) :
    t.AllocatesFirst path_epoch key_epoch :=
  allocatesFirst (session_run_in_range hnew h) path_epoch key_epoch

/-- The history has room for two, of which one is live and one in quarantine. -/
theorem path_id_allocation_complete_full :
    ∃ s t, V2Session.new ⟨2, 2, 1, 5⟩ ⟨⟨1⟩, ⟨1⟩, 100⟩ 0 = .ok s ∧
      exec session_step s [.activate 0, .reserve_attach ⟨7⟩ 1 1 0, .commit_attach ⟨⟨1⟩, 1, 1, ⟨7⟩⟩,
        .detach ⟨1⟩ ⟨7⟩ 1 3, .reserve_attach ⟨8⟩ 2 2 4] =
          some (t, [⟨⟨1⟩, 1, 1, ⟨7⟩⟩, ⟨⟨2⟩, 2, 2, ⟨8⟩⟩]) ∧
      t.AllocatesFirst 3 3 := by
  obtain ⟨s, t, hnew, hexec⟩ := detached_run
  exact ⟨s, t, hnew, hexec, path_id_allocation_complete hnew hexec 3 3⟩

end Runs

end StreamGuard.Session
