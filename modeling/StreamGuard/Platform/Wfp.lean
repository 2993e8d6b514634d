/-
The selected-app policy over the Windows filtering platform (`sg-platform/src/wfp.rs`).

The filter engine is a set of live filters. It gives every filter an id that it has not given
before, and each of its calls may fail. `install` adds one filter after the other and takes them
back if one fails; `uninstall` deletes the ids of the report, in their order, up to the first
failure. So an `uninstall` that fails after it has deleted a filter is never completed, since it
comes to that filter first the next time.

An image path is given by its UTF-16 units.
-/
import StreamGuard.Lib.AssocMap
import Mathlib.Algebra.Order.BigOperators.Group.List
import Mathlib.Algebra.Order.Group.Nat
import Mathlib.Data.UInt
import Mathlib.Data.List.TakeWhile

set_option autoImplicit false

namespace StreamGuard.Platform

open StreamGuard.Lib

/-- The errors of the platform layer, with their texts. -/
structure Error where
  message : String
  deriving DecidableEq

inductive WfpAction where
  | Permit
  | Block

structure SelectedApp where
  image_path : List UInt16

/-- The data of a filter. The app id is given by the file name it is made from. -/
structure Filter where
  action : WfpAction
  name : String
  description : String
  app_id : Option (List UInt16)
  literal_weight : Option ℕ

structure InstallReport where
  app_filter_ids : List ℕ
  denied_all_id : ℕ
  count : ℕ

/-! ## The filter engine -/

/-- Where the ids of new filters come from. -/
structure IdSource where
  pick : List ℕ → ℕ
  fresh : ∀ used, pick used ∉ used

/-- A session with the live filters, and all ids that have been given. -/
structure WfpSession where
  live : Map ℕ Filter
  used : List ℕ
  allotted : ∀ id ∈ live, id ∈ used

/-- What the calls of the filter engine answer, in their order: where one fails the transaction is
aborted. -/
abbrev Answers := ℕ → Except Error Unit

/-- A unit of a surrogate pair. -/
def is_high (u : UInt16) : Bool := 0xd800 ≤ u && u < 0xdc00

def is_low (u : UInt16) : Bool := 0xdc00 ≤ u && u < 0xe000

/-- The units of `to_string_lossy`: a surrogate that is not in a pair is replaced. -/
def to_string_lossy : List UInt16 → List UInt16
  | [] => []
  | [u] => if is_high u || is_low u then [0xfffd] else [u]
  | u :: v :: rest =>
    if is_high u && is_low v then u :: v :: to_string_lossy rest
    else (if is_high u || is_low u then 0xfffd else u) :: to_string_lossy (v :: rest)

/-- `wide`: the buffer for a string. -/
def wide (s : List UInt16) : List UInt16 := s.take 255 ++ [0]

/-- What is read of such a buffer. -/
def read_wide (buffer : List UInt16) : List UInt16 := buffer.takeWhile (fun u => u ≠ 0)

namespace WfpSession

def add_filter (source : IdSource) (s : WfpSession) (filter : Filter) (answer : Except Error Unit) :
    WfpSession × Except Error ℕ :=
  match answer with
  | .error e => (s, .error e)
  | .ok () =>
    ({ live := s.live.insert (source.pick s.used) filter
       used := source.pick s.used :: s.used
       allotted := by
         intro id hid
         rcases (AList.mem_insert _).mp hid with rfl | hold
         · exact List.mem_cons_self
         · exact List.mem_cons_of_mem _ (s.allotted id hold) },
      .ok (source.pick s.used))

/-- The filter for an application, by the file name of its image. -/
def app_filter (file_name : List UInt16) (permit : Bool) : Filter :=
  { action := if permit = true then .Permit else .Block
    name := "StreamGuard selected-app permit"
    description := "ALE_APP_ID permit (spec 19)"
    app_id := some file_name
    literal_weight := none }

def add_app_filter (source : IdSource) (s : WfpSession) (image_path : List UInt16) (permit : Bool)
    (answer : Except Error Unit) : WfpSession × Except Error ℕ :=
  s.add_filter source (app_filter (read_wide (wide image_path)) permit) answer

/-- `DENY_ALL_WEIGHT`. -/
def DENY_ALL_WEIGHT : ℕ := 1

def deny_all : Filter :=
  { action := .Block
    name := "StreamGuard deny-all (selected-app mode)"
    description := "Catch-all block below app permits (spec 19)"
    app_id := none
    literal_weight := some DENY_ALL_WEIGHT }

def add_deny_all (source : IdSource) (s : WfpSession) (answer : Except Error Unit) :
    WfpSession × Except Error ℕ := s.add_filter source deny_all answer

/-- The filter engine does not know the id. -/
def not_found : Error := ⟨"FwpmFilterDeleteById0 failed: 0x80320003"⟩

/-- One round of `delete_filters`. -/
def delete_filter (s : WfpSession) (id : ℕ) (answer : Except Error Unit) :
    WfpSession × Except Error Unit :=
  match answer with
  | .error e => (s, .error e)
  | .ok () =>
    if id ∈ s.live then
      ({ live := s.live.erase id
         used := s.used
         allotted := fun _ hid => s.allotted _ (AList.mem_erase.mp hid).2 }, .ok ())
    else (s, .error not_found)

def delete_filters (s : WfpSession) (answers : Answers) : List ℕ → WfpSession × Except Error Unit
  | [] => (s, .ok ())
  | id :: ids =>
    match s.delete_filter id (answers 0) with
    | (s, .error e) => (s, .error e)
    | (s, .ok ()) => s.delete_filters (fun i => answers (i + 1)) ids

end WfpSession

/-! ## The policy -/

structure FwpmEngine where
  backend : WfpSession
  installed : Bool
  closed : Bool

namespace FwpmEngine

/-- The loop over the applications, with the ids so far; where an add fails it is left with them. -/
def add_permits (source : IdSource) (adds : Answers) :
    ℕ → WfpSession → List ℕ → List SelectedApp →
      WfpSession × List ℕ × Except Error Unit
  | _, s, ids, [] => (s, ids, .ok ())
  | i, s, ids, app :: apps =>
    match s.add_app_filter source (to_string_lossy app.image_path) true (adds i) with
    | (s, .ok id) => add_permits source adds (i + 1) s (ids ++ [id]) apps
    | (s, .error e) => (s, ids, .error e)

/-- `adds` and `rollback` are the answers to the adds and to the deletes of a rollback. -/
def install (source : IdSource) (s : FwpmEngine) (policy : List SelectedApp)
    (adds rollback : Answers) : FwpmEngine × Except Error InstallReport :=
  if s.installed = true then
    (s, .error ⟨"selected-app WFP policy already installed; call uninstall() first"⟩)
  else if s.closed = true then
    (s, .error ⟨"selected-app WFP engine already closed; create a new engine"⟩)
  else
    match add_permits source adds 0 s.backend [] policy with
    | (backend, app_filter_ids, .error e) =>
      ({ s with backend := (backend.delete_filters rollback app_filter_ids).1 }, .error e)
    | (backend, app_filter_ids, .ok ()) =>
      match backend.add_deny_all source (adds policy.length) with
      | (backend, .error e) =>
        ({ s with backend := (backend.delete_filters rollback app_filter_ids).1 }, .error e)
      | (backend, .ok denied_all_id) =>
        ({ s with backend, installed := true },
          .ok ⟨app_filter_ids, denied_all_id, policy.length⟩)

/-- The ids of a report in the order of their deletion. -/
def report_ids (report : InstallReport) : List ℕ :=
  report.app_filter_ids ++ [report.denied_all_id]

def uninstall (s : FwpmEngine) (report : InstallReport) (deletes : Answers) :
    FwpmEngine × Except Error Unit :=
  if s.installed = false then
    (s, .error ⟨"no selected-app WFP policy installed; call install() first"⟩)
  else
    match s.backend.delete_filters deletes (report_ids report) with
    | (backend, .error e) => ({ s with backend }, .error e)
    | (backend, .ok ()) => ({ s with backend, installed := false }, .ok ())

end FwpmEngine

/-! ## Names of files -/

section Names

variable {units : List UInt16}

theorem length_to_string_lossy (units : List UInt16) :
    (to_string_lossy units).length = units.length := by
  fun_induction to_string_lossy units with
  | case1 => rfl
  | case2 => rfl
  | case3 => rfl
  | case4 u v rest hpair ih => simp [ih]
  | case5 u v rest hpair ih => simp [ih]

/-- A path that reaches the filter engine as it is. -/
structure Plain (units : List UInt16) : Prop where
  lossless : to_string_lossy units = units
  short : units.length ≤ 255
  no_nul : 0 ∉ units

/-- **The file name that is read is the path** exactly if the path is plain. -/
theorem read_wide_iff : read_wide (wide (to_string_lossy units)) = units ↔ Plain units := by
  constructor
  · intro h
    have hnul : 0 ∉ units := by
      intro hmem
      rw [← h, read_wide] at hmem
      simpa using List.mem_takeWhile_imp hmem
    have hbuffer : units <+: wide (to_string_lossy units) := by
      conv_lhs => rw [← h]
      exact List.takeWhile_prefix _
    have hlength := length_to_string_lossy units
    have hshort : units.length ≤ 255 := by
      by_contra hlong
      -- the whole buffer is read, and ends with a NUL
      have hwide : (wide (to_string_lossy units)).length = 256 := by
        rw [wide, List.length_append, List.length_take]
        simp only [List.length_singleton]
        omega
      have hall : units = wide (to_string_lossy units) :=
        hbuffer.eq_of_length (le_antisymm hbuffer.length_le (by omega))
      apply hnul
      rw [hall, wide]
      simp
    refine ⟨?_, hshort, hnul⟩
    rw [wide, List.take_of_length_le (by omega)] at hbuffer
    exact ((List.prefix_of_prefix_length_le hbuffer (List.prefix_append _ _)
      hlength.ge).eq_of_length hlength.symm).symm
  · intro h
    rw [h.lossless, wide, List.take_of_length_le h.short, read_wide,
      List.takeWhile_append_of_pos ?_]
    · simp
    · intro u hu
      rw [decide_eq_true_eq]
      rintro rfl
      exact h.no_nul hu

end Names

/-! ## Adding and deleting -/

namespace WfpSession

variable {source : IdSource} {s s' s'' : WfpSession} {ids : List ℕ} {filters : List Filter}
  {filter : Filter} {id : ℕ} {answers : Answers}

/-- Filters have been added under new ids, and nothing else has changed. -/
structure Added (s s' : WfpSession) (ids : List ℕ) (filters : List Filter) : Prop where
  nodup : ids.Nodup
  fresh : ∀ id ∈ ids, id ∉ s.used
  used : ∀ id, id ∈ s'.used ↔ id ∈ s.used ∨ id ∈ ids
  lookups : ids.map s'.live.lookup = filters.map some
  others : ∀ id ∉ ids, s'.live.lookup id = s.live.lookup id

theorem Added.refl (s : WfpSession) : Added s s [] [] :=
  ⟨List.nodup_nil, by simp, by simp, rfl, fun _ _ => rfl⟩

/-- The ids are not those of filters that were there. -/
theorem Added.not_live (h : Added s s' ids filters) (hid : id ∈ ids) : s.live.lookup id = none :=
  AList.lookup_eq_none.mpr fun hlive => h.fresh id hid (s.allotted id hlive)

theorem Added.live (h : Added s s' ids filters) (hid : id ∈ ids) : id ∈ s'.live := by
  have hmem : s'.live.lookup id ∈ filters.map some := h.lookups ▸ List.mem_map_of_mem hid
  obtain ⟨filter, -, hlookup⟩ := List.mem_map.mp hmem
  exact AList.mem_of_lookup hlookup.symm

/-- One more filter. -/
theorem Added.add_filter {answer : Except Error Unit} (h : Added s s' ids filters)
    (hadd : s'.add_filter source filter answer = (s'', .ok id)) :
    answer = .ok () ∧ Added s s'' (ids ++ [id]) (filters ++ [filter]) := by
  unfold WfpSession.add_filter at hadd
  split at hadd
  · simp at hadd
  · rw [Prod.mk.injEq, Except.ok.injEq] at hadd
    obtain ⟨rfl, rfl⟩ := hadd
    -- the new id was never given, neither before nor to one of these filters
    have hnew := source.fresh s'.used
    rw [h.used, not_or] at hnew
    refine ⟨rfl, ?_, ?_, ?_, ?_, ?_⟩
    · exact List.nodup_append.mpr ⟨h.nodup, List.nodup_singleton _, by
        intro a ha b hb hab
        rw [List.mem_singleton] at hb
        exact hnew.2 (hb ▸ hab ▸ ha)⟩
    · intro id hid
      rcases List.mem_append.mp hid with hid | hid
      · exact h.fresh id hid
      · rw [List.mem_singleton.mp hid]
        exact hnew.1
    · intro id
      simp only [List.mem_cons, List.mem_append, List.not_mem_nil, or_false, h.used]
      tauto
    · rw [List.map_append, List.map_append, ← h.lookups]
      congr 1
      · refine List.map_congr_left fun id hid => AList.lookup_insert_ne ?_
        rintro rfl
        exact hnew.2 hid
      · simp
    · intro id hid
      rw [List.mem_append, List.mem_singleton, not_or] at hid
      rw [← h.others id hid.1]
      exact AList.lookup_insert_ne hid.2

theorem add_filter_error {answer : Except Error Unit} {e : Error}
    (h : s.add_filter source filter answer = (s', .error e)) : s' = s := by
  unfold WfpSession.add_filter at h
  split at h
  · exact (Prod.mk.inj h).1.symm
  · simp at h

/-- A delete that succeeds. -/
theorem delete_filter_eq_ok {answer : Except Error Unit}
    (h : s.delete_filter id answer = (s', .ok ())) :
    answer = .ok () ∧ id ∈ s.live ∧ s'.live = s.live.erase id := by
  unfold delete_filter at h
  split at h
  · simp at h
  · split at h
    · next hlive =>
      rw [Prod.mk.injEq] at h
      exact ⟨rfl, hlive, by rw [← h.1]⟩
    · simp at h

theorem delete_filter_of_live (hid : id ∈ s.live) :
    ∃ s', s.delete_filter id (.ok ()) = (s', .ok ()) ∧ s'.live = s.live.erase id := by
  refine ⟨(s.delete_filter id (.ok ())).1, ?_, ?_⟩
  · simp [delete_filter, hid]
  · simp [delete_filter, hid]

theorem delete_filter_error {answer : Except Error Unit} {e : Error}
    (h : s.delete_filter id answer = (s', .error e)) : s' = s := by
  unfold delete_filter at h
  split at h
  · exact (Prod.mk.inj h).1.symm
  · split at h
    · simp at h
    · exact (Prod.mk.inj h).1.symm

/-- **A deletion of live filters** succeeds exactly if none of its calls fails, and then deletes
them. -/
theorem delete_filters_eq_ok_iff (answers : Answers) (hnodup : ids.Nodup)
    (hlive : ∀ id ∈ ids, id ∈ s.live) :
    (s.delete_filters answers ids).2 = .ok () ↔ ∀ i < ids.length, answers i = .ok () := by
  induction ids generalizing s answers with
  | nil => simp [delete_filters]
  | cons id ids ih =>
    rw [List.nodup_cons] at hnodup
    rw [delete_filters]
    cases hanswer : answers 0 with
    | error e =>
      refine iff_of_false (by simp [delete_filter]) fun h => ?_
      have hfirst := h 0 (by simp)
      rw [hanswer] at hfirst
      contradiction
    | ok u =>
      obtain ⟨s₁, hs₁, herased⟩ := delete_filter_of_live (hlive id List.mem_cons_self)
      rw [hs₁]
      have hrest : ∀ id' ∈ ids, id' ∈ s₁.live := by
        intro id' hid'
        rw [herased, AList.mem_erase]
        refine ⟨?_, hlive id' (List.mem_cons_of_mem id hid')⟩
        rintro rfl
        exact hnodup.1 hid'
      refine (ih _ hnodup.2 hrest).trans ⟨?_, ?_⟩
      · intro h i hi
        cases i with
        | zero => exact hanswer
        | succ i => exact h i (by simpa using hi)
      · intro h i hi
        exact h (i + 1) (by simpa using hi)

/-- What is left, whether or not all is deleted. -/
theorem lookup_delete_filters (s : WfpSession) (answers : Answers) (ids : List ℕ) (id : ℕ) :
    (s.delete_filters answers ids).1.live.lookup id = s.live.lookup id ∨
      id ∈ ids ∧ (s.delete_filters answers ids).1.live.lookup id = none := by
  induction ids generalizing s answers with
  | nil => exact .inl rfl
  | cons first ids ih =>
    rw [delete_filters]
    split
    · next herror =>
      rw [delete_filter_error herror]
      exact .inl rfl
    · next s₁ hdelete =>
      obtain ⟨-, -, herased⟩ := delete_filter_eq_ok hdelete
      have hfirst : s₁.live.lookup id = if id = first then none else s.live.lookup id := by
        rw [herased, AList.lookup_erase_of]
      rcases ih s₁ (fun i => answers (i + 1)) with hsame | ⟨hmem, hnone⟩
      · rw [hsame, hfirst]
        by_cases hid : id = first
        · rw [if_pos hid]
          exact .inr ⟨by simp [hid], rfl⟩
        · rw [if_neg hid]
          exact .inl rfl
      · exact .inr ⟨List.mem_cons_of_mem first hmem, hnone⟩

/-- After a deletion that succeeds the filters were live, and are not any more. -/
theorem of_delete_filters_ok (hnodup : ids.Nodup) (h : (s.delete_filters answers ids).2 = .ok ())
    (hid : id ∈ ids) :
    id ∈ s.live ∧ (s.delete_filters answers ids).1.live.lookup id = none := by
  induction ids generalizing s answers with
  | nil => simp at hid
  | cons first ids ih =>
    rw [List.nodup_cons] at hnodup
    rw [delete_filters] at h ⊢
    split at h
    · simp at h
    · next s₁ hdelete =>
      obtain ⟨-, hlive, herased⟩ := delete_filter_eq_ok hdelete
      rcases List.mem_cons.mp hid with rfl | hid
      · refine ⟨hlive, ?_⟩
        have hgone : s₁.live.lookup id = none := by
          rw [herased, AList.lookup_erase]
        rcases lookup_delete_filters s₁ (fun i => answers (i + 1)) ids id with hsame | ⟨-, hnone⟩
        · exact hsame.trans hgone
        · exact hnone
      · obtain ⟨hlive', hnone⟩ := ih hnodup.2 h hid
        rw [herased, AList.mem_erase] at hlive'
        exact ⟨hlive'.2, hnone⟩

/-- **What was added and is deleted** has changed nothing. -/
theorem Added.lookup_deleted (h : Added s s' ids filters)
    (hok : (s'.delete_filters answers ids).2 = .ok ()) (id : ℕ) :
    (s'.delete_filters answers ids).1.live.lookup id = s.live.lookup id := by
  by_cases hid : id ∈ ids
  · rw [(of_delete_filters_ok h.nodup hok hid).2, h.not_live hid]
  · rcases lookup_delete_filters s' answers ids id with hsame | ⟨hmem, -⟩
    · exact hsame.trans (h.others id hid)
    · exact absurd hmem hid

/-- It can be deleted where no call fails. -/
theorem Added.delete_eq_ok_iff (h : Added s s' ids filters) (answers : Answers) :
    (s'.delete_filters answers ids).2 = .ok () ↔ ∀ i < ids.length, answers i = .ok () :=
  delete_filters_eq_ok_iff answers h.nodup fun _ => h.live

end WfpSession

namespace FwpmEngine

open WfpSession

variable {source : IdSource} {s s' : FwpmEngine} {base b b' : WfpSession} {ids ids' : List ℕ}
  {filters : List Filter} {policy apps : List SelectedApp} {adds rollback deletes : Answers}
  {report : InstallReport} {i : ℕ} {e : Error}

/-! ## An install -/

/-- The permit that an application gets. -/
def permit_of (app : SelectedApp) : Filter :=
  app_filter (read_wide (wide (to_string_lossy app.image_path))) true

/-- The loop over the applications. -/
theorem added_permits (h : Added base b ids filters)
    (hadd : add_permits source adds i b ids apps = (b', ids', .ok ())) :
    (∀ j < apps.length, adds (i + j) = .ok ()) ∧
      Added base b' ids' (filters ++ apps.map permit_of) := by
  induction apps generalizing i b ids filters with
  | nil =>
    rw [add_permits, Prod.mk.injEq, Prod.mk.injEq] at hadd
    obtain ⟨rfl, rfl, -⟩ := hadd
    refine ⟨by simp, ?_⟩
    rwa [List.map_nil, List.append_nil]
  | cons app apps ih =>
    rw [add_permits] at hadd
    split at hadd
    · next b₁ id hfilter =>
      obtain ⟨hanswer, hadded⟩ := h.add_filter hfilter
      obtain ⟨hanswers, hall⟩ := ih hadded hadd
      refine ⟨?_, by rwa [List.map_cons, List.append_cons]⟩
      intro j hj
      cases j with
      | zero => exact hanswer
      | succ j =>
        rw [show i + (j + 1) = i + 1 + j by omega]
        exact hanswers j (by simpa using hj)
    · simp at hadd

/-- Where it ends with a failure it is left with what it has added. -/
theorem added_before_failure (h : Added base b ids filters)
    (hadd : add_permits source adds i b ids apps = (b', ids', .error e)) :
    ∃ filters', Added base b' ids' filters' := by
  induction apps generalizing i b ids filters with
  | nil => simp [add_permits] at hadd
  | cons app apps ih =>
    rw [add_permits] at hadd
    split at hadd
    · next b₁ id hfilter =>
      exact ih (h.add_filter hfilter).2 hadd
    · next b₁ e' hfilter =>
      simp only [Prod.mk.injEq] at hadd
      obtain ⟨rfl, rfl, -⟩ := hadd
      rw [add_filter_error hfilter]
      exact ⟨filters, h⟩

theorem add_filter_of_ok (source : IdSource) (b : WfpSession) (filter : Filter) :
    ∃ b' id, b.add_filter source filter (.ok ()) = (b', .ok id) := ⟨_, _, rfl⟩

theorem add_permits_of_ok (source : IdSource) (b : WfpSession) (ids : List ℕ)
    (hadds : ∀ j < apps.length, adds (i + j) = .ok ()) :
    ∃ b' ids', add_permits source adds i b ids apps = (b', ids', .ok ()) := by
  induction apps generalizing i b ids with
  | nil => exact ⟨b, ids, rfl⟩
  | cons app apps ih =>
    have hfirst := hadds 0 (by simp)
    rw [Nat.add_zero] at hfirst
    obtain ⟨b₁, id, hfilter⟩ := add_filter_of_ok source b (permit_of app)
    have hadd : b.add_app_filter source (to_string_lossy app.image_path) true (adds i) =
        (b₁, .ok id) := by
      rw [hfirst]
      exact hfilter
    rw [add_permits, hadd]
    refine ih _ _ fun j hj => ?_
    rw [show i + 1 + j = i + (j + 1) by omega]
    exact hadds (j + 1) (by simpa using hj)

/-- The filters of a rollback that succeeds are gone, and no others. -/
theorem lookup_rollback (h : Added base b ids filters) (hrollback : ∀ i, rollback i = .ok ())
    (id : ℕ) : (b.delete_filters rollback ids).1.live.lookup id = base.live.lookup id :=
  h.lookup_deleted ((h.delete_eq_ok_iff rollback).mpr fun i _ => hrollback i) id

/-- **A failed install** leaves nothing if its rollback succeeds. -/
theorem install_error (h : s.install source policy adds rollback = (s', .error e))
    (hrollback : ∀ i, rollback i = .ok ()) (id : ℕ) :
    s'.backend.live.lookup id = s.backend.live.lookup id := by
  unfold install at h
  split at h
  · rw [(Prod.mk.inj h).1]
  · split at h
    · rw [(Prod.mk.inj h).1]
    · split at h
      · next hadd =>
        rw [← (Prod.mk.inj h).1]
        obtain ⟨filters, hadded⟩ := added_before_failure (.refl s.backend) hadd
        exact lookup_rollback hadded hrollback id
      · next b ids hadd =>
        split at h
        · next b' e' hdeny =>
          rw [← (Prod.mk.inj h).1]
          rw [add_filter_error hdeny]
          exact lookup_rollback (added_permits (.refl s.backend) hadd).2 hrollback id
        · simp at h

/-- **An install** adds a permit for each application and the catch-all. -/
theorem install_ok (h : s.install source policy adds rollback = (s', .ok report)) :
    s.installed = false ∧ s.closed = false ∧ (∀ i ≤ policy.length, adds i = .ok ()) ∧
      s'.installed = true ∧ s'.closed = false ∧
      Added s.backend s'.backend (report_ids report) (policy.map permit_of ++ [deny_all]) := by
  unfold install at h
  split at h
  · simp at h
  · next hinstalled =>
    split at h
    · simp at h
    · next hclosed =>
      split at h
      · simp at h
      · next b ids hadd =>
        split at h
        · simp at h
        · next b' id hdeny =>
          simp only [Prod.mk.injEq, Except.ok.injEq] at h
          obtain ⟨rfl, rfl⟩ := h
          obtain ⟨hanswers, hadded⟩ := added_permits (.refl s.backend) hadd
          obtain ⟨hanswer, hall⟩ := hadded.add_filter hdeny
          rw [Bool.not_eq_true] at hinstalled hclosed
          refine ⟨hinstalled, hclosed, ?_, rfl, hclosed, hall⟩
          intro i hi
          rcases Nat.lt_or_eq_of_le hi with hlt | rfl
          · simpa using hanswers i hlt
          · exact hanswer

theorem install_of_ok (source : IdSource) (rollback : Answers) (hinstalled : s.installed = false)
    (hclosed : s.closed = false) (hadds : ∀ i ≤ policy.length, adds i = .ok ()) :
    ∃ s' report, s.install source policy adds rollback = (s', .ok report) := by
  have hfrom : ∀ j < policy.length, adds (0 + j) = .ok () := by
    intro j hj
    rw [Nat.zero_add]
    exact hadds j hj.le
  obtain ⟨b, ids, hpermits⟩ := add_permits_of_ok source s.backend [] hfrom
  obtain ⟨b', id, hdeny⟩ := add_filter_of_ok source b deny_all
  refine ⟨{ s with backend := b', installed := true }, ⟨ids, id, policy.length⟩, ?_⟩
  unfold install add_deny_all
  rw [hinstalled, hclosed, hpermits, hadds policy.length le_rfl]
  simp only [Bool.false_eq_true, ↓reduceIte, hdeny]

/-! ## Uninstalls -/

/-- The engine, after some attempts to uninstall. -/
def after_attempts (s : FwpmEngine) (report : InstallReport) (attempts : List Answers) :
    FwpmEngine := attempts.foldl (fun s deletes => (s.uninstall report deletes).1) s

/-- Nothing of the policy is left, and one can be installed. -/
structure Gone (source : IdSource) (base : WfpSession) (s : FwpmEngine) : Prop where
  live : ∀ id, s.backend.live.lookup id = base.live.lookup id
  installable : ∀ policy adds rollback, (∀ i, adds i = .ok ()) →
    ∃ s' report, s.install source policy adds rollback = (s', .ok report)

/-- An uninstall whose deletes do not fail succeeds; or one has succeeded. -/
structure Retryable (source : IdSource) (base : WfpSession) (report : InstallReport)
    (s : FwpmEngine) : Prop where
  uninstalls : s.installed = true → ∀ deletes, (∀ i, deletes i = .ok ()) →
    (s.uninstall report deletes).2 = .ok () ∧ Gone source base (s.uninstall report deletes).1
  gone : s.installed = false → Gone source base s

/-- The policy of the report is installed in full. -/
structure Full (base : WfpSession) (report : InstallReport) (s : FwpmEngine) : Prop where
  installed : s.installed = true
  closed : s.closed = false
  added : ∃ filters, Added base s.backend (report_ids report) filters

theorem uninstall_snd (report : InstallReport) (h : s.installed = true) :
    (s.uninstall report deletes).2 =
      (s.backend.delete_filters deletes (report_ids report)).2 := by
  unfold uninstall
  rw [if_neg (by simp [h])]
  generalize s.backend.delete_filters deletes (report_ids report) = deleted
  obtain ⟨b, answer⟩ := deleted
  cases answer with
  | ok u => rfl
  | error e => rfl

theorem uninstall_of_ok (h : s.installed = true)
    (hok : (s.backend.delete_filters deletes (report_ids report)).2 = .ok ()) :
    (s.uninstall report deletes).1 = { s with
      backend := (s.backend.delete_filters deletes (report_ids report)).1
      installed := false } := by
  unfold uninstall
  rw [if_neg (by simp [h])]
  generalize s.backend.delete_filters deletes (report_ids report) = deleted at hok
  obtain ⟨b, answer⟩ := deleted
  obtain rfl : answer = .ok () := hok
  rfl

/-- Where a delete fails the policy still counts as installed. -/
theorem uninstall_of_not_ok (h : s.installed = true)
    (hnot : (s.backend.delete_filters deletes (report_ids report)).2 ≠ .ok ()) :
    (s.uninstall report deletes).1 = { s with
      backend := (s.backend.delete_filters deletes (report_ids report)).1 } := by
  unfold uninstall
  rw [if_neg (by simp [h])]
  generalize s.backend.delete_filters deletes (report_ids report) = deleted at hnot
  obtain ⟨b, answer⟩ := deleted
  cases answer with
  | ok u => exact absurd rfl hnot
  | error e => rfl

theorem gone_of_uninstall (source : IdSource) (h : Full base report s)
    (hdeletes : ∀ i < (report_ids report).length, deletes i = .ok ()) :
    (s.uninstall report deletes).2 = .ok () ∧ (s.uninstall report deletes).1.installed = false ∧
      Gone source base (s.uninstall report deletes).1 := by
  obtain ⟨filters, hadded⟩ := h.added
  have hok := (hadded.delete_eq_ok_iff deletes).mpr hdeletes
  rw [uninstall_snd report h.installed, uninstall_of_ok h.installed hok]
  refine ⟨hok, rfl, ?_, ?_⟩
  · exact fun id => hadded.lookup_deleted hok id
  · intro policy adds rollback hadds
    exact install_of_ok source rollback rfl h.closed fun i _ => hadds i

theorem retryable_of_full (h : Full base report s) : Retryable source base report s := by
  refine ⟨?_, ?_⟩
  · intro _ deletes hdeletes
    obtain ⟨hok, -, hgone⟩ := gone_of_uninstall source h fun i _ => hdeletes i
    exact ⟨hok, hgone⟩
  · intro hnot
    rw [h.installed] at hnot
    contradiction

/-- An attempt that fails at once changes nothing. -/
theorem uninstall_fails_first (report : InstallReport) (h : s.installed = true)
    (hfirst : deletes 0 ≠ .ok ()) :
    (s.uninstall report deletes).1 = s := by
  obtain ⟨id, ids, hids⟩ : ∃ id ids, report_ids report = id :: ids :=
    List.exists_cons_of_ne_nil (by simp [report_ids])
  unfold uninstall
  rw [if_neg (by simp [h]), hids, delete_filters]
  cases hanswer : deletes 0 with
  | ok u => exact absurd hanswer hfirst
  | error e => rfl

/-- A deletion whose first call succeeds has deleted the first filter, whatever follows. -/
theorem first_deleted (hlive : i ∈ b.live) (hfirst : deletes 0 = .ok ()) :
    (b.delete_filters deletes (i :: ids)).1.live.lookup i = none := by
  obtain ⟨b₁, hb₁, herased⟩ := delete_filter_of_live hlive
  have hnone : b₁.live.lookup i = none := by rw [herased, AList.lookup_erase]
  rw [delete_filters, hfirst, hb₁]
  dsimp only
  rcases lookup_delete_filters b₁ (fun i => deletes (i + 1)) ids i with hsame | ⟨-, hlost⟩
  · exact hsame.trans hnone
  · exact hlost

/-- **An attempt that fails later** cannot be repeated. -/
theorem not_retryable_of_partial (h : Full base report s) (hfirst : deletes 0 = .ok ())
    (hfails : ¬ ∀ i < (report_ids report).length, deletes i = .ok ()) :
    ¬ Retryable source base report (s.uninstall report deletes).1 := by
  obtain ⟨filters, hadded⟩ := h.added
  obtain ⟨id, ids, hids⟩ : ∃ id ids, report_ids report = id :: ids :=
    List.exists_cons_of_ne_nil (by simp [report_ids])
  have hid : id ∈ report_ids report := by simp [hids]
  have hgone : (s.backend.delete_filters deletes (report_ids report)).1.live.lookup id = none := by
    rw [hids]
    exact first_deleted (hadded.live hid) hfirst
  have hdelete := mt (hadded.delete_eq_ok_iff deletes).mp hfails
  rw [uninstall_of_not_ok h.installed hdelete]
  intro hretry
  -- the report still begins with the id of the filter that is gone
  have hagain := (hretry.uninstalls h.installed (fun _ => .ok ()) fun _ => rfl).1
  rw [uninstall_snd report (by exact h.installed)] at hagain
  exact AList.lookup_eq_none.mp hgone (of_delete_filters_ok hadded.nodup hagain hid).1

/-- Each attempt, up to one that deletes all filters, fails before it deletes any. -/
def FailFirst (n : ℕ) : List Answers → Prop
  | [] => True
  | deletes :: rest => (deletes 0 = .ok () → ∀ i < n, deletes i = .ok ()) ∧
    (deletes 0 ≠ .ok () → FailFirst n rest)

theorem after_attempts_of_not_installed (report : InstallReport) (h : s.installed = false)
    (attempts : List Answers) :
    s.after_attempts report attempts = s := by
  induction attempts with
  | nil => rfl
  | cons deletes attempts ih =>
    have hstep : (s.uninstall report deletes).1 = s := by
      unfold uninstall
      rw [if_pos h]
    rw [after_attempts, List.foldl_cons, hstep]
    exact ih

/-- **Uninstalls can be repeated** exactly if they fail first. -/
theorem retryable_iff (h : Full base report s) (attempts : List Answers) :
    (∀ n, Retryable source base report (s.after_attempts report (attempts.take n))) ↔
      FailFirst (report_ids report).length attempts := by
  -- an attempt that fails first leaves the full policy, so what follows is as from the install
  induction attempts generalizing s with
  | nil => exact iff_of_true (fun n => by simpa [after_attempts] using retryable_of_full h) trivial
  | cons deletes attempts ih =>
    have hzero : Retryable source base report (s.after_attempts report []) := retryable_of_full h
    by_cases hfirst : deletes 0 = .ok ()
    · by_cases hall : ∀ i < (report_ids report).length, deletes i = .ok ()
      · refine iff_of_true ?_ ⟨fun _ => hall, fun hnot => absurd hfirst hnot⟩
        intro n
        cases n with
        | zero => exact hzero
        | succ n =>
          obtain ⟨-, hinstalled, hgone⟩ := gone_of_uninstall source h hall
          have hrest := after_attempts_of_not_installed report hinstalled (attempts.take n)
          rw [List.take_succ_cons, after_attempts, List.foldl_cons, ← after_attempts, hrest]
          refine ⟨?_, fun _ => hgone⟩
          rw [hinstalled]
          simp
      · refine iff_of_false ?_ fun hfails => hall (hfails.1 hfirst)
        intro hretry
        exact not_retryable_of_partial h hfirst hall (hretry 1)
    · have hsame := uninstall_fails_first report h.installed hfirst
      rw [FailFirst, ← ih h]
      constructor
      · intro hretry
        refine ⟨fun hok => absurd hok hfirst, fun _ n => ?_⟩
        have hnext := hretry (n + 1)
        rwa [List.take_succ_cons, after_attempts, List.foldl_cons, hsame] at hnext
      · rintro ⟨-, hretry⟩ n
        cases n with
        | zero => exact hzero
        | succ n =>
          rw [List.take_succ_cons, after_attempts, List.foldl_cons, hsame]
          exact hretry hfirst n

/-! ## All or nothing -/

/-- What is expected of an install, and of the attempts to take it back. -/
structure AllOrNothing (source : IdSource) (s : FwpmEngine) (policy : List SelectedApp)
    (adds rollback : Answers) (attempts : List Answers) : Prop where
  /-- A failed install whose rollback succeeds leaves no filter. -/
  rolled_back : ∀ s' e, s.install source policy adds rollback = (s', .error e) →
    (∀ i, rollback i = .ok ()) → ∀ id, s'.backend.live.lookup id = s.backend.live.lookup id
  /-- An install adds one permit for each application, for its full path, and the catch-all. -/
  enforced : ∀ s' report, s.install source policy adds rollback = (s', .ok report) →
    Added s.backend s'.backend (report_ids report)
      (policy.map (fun app => app_filter app.image_path true) ++ [deny_all])
  /-- An uninstall can be repeated until it succeeds. -/
  retryable : ∀ s' report, s.install source policy adds rollback = (s', .ok report) →
    ∀ n, Retryable source s.backend report (s'.after_attempts report (attempts.take n))

/-- If nothing keeps the policy from being installed, then all paths are plain and each attempt to
take it back fails at its first delete, up to one that does not fail. -/
def Dependable (s : FwpmEngine) (policy : List SelectedApp) (adds : Answers)
    (attempts : List Answers) : Prop :=
  s.installed = false → s.closed = false → (∀ i ≤ policy.length, adds i = .ok ()) →
    (∀ app ∈ policy, Plain app.image_path) ∧ FailFirst (policy.length + 1) attempts

theorem added_full_iff {s s' : WfpSession}
    (h : Added s s' ids (policy.map permit_of ++ [deny_all])) :
    Added s s' ids (policy.map (fun app => app_filter app.image_path true) ++ [deny_all]) ↔
      ∀ app ∈ policy, Plain app.image_path := by
  have hplain : ∀ app : SelectedApp,
      permit_of app = app_filter app.image_path true ↔ Plain app.image_path := by
    intro app
    rw [← read_wide_iff]
    simp [permit_of, app_filter]
  constructor
  · intro hfull
    have hsame := h.lookups.symm.trans hfull.lookups
    have hfilters := (Option.some_injective _).list_map hsame
    have hmap := List.append_cancel_right hfilters
    intro app happ
    exact (hplain app).mp (List.map_inj_left.mp hmap app happ)
  · intro hall
    have hmap : policy.map permit_of = policy.map (fun app => app_filter app.image_path true) :=
      List.map_congr_left fun app happ => (hplain app).mpr (hall app happ)
    rwa [hmap] at h

/-- **The policy is all or nothing, and can be taken back**, exactly if it is dependable. -/
theorem all_or_nothing_iff (source : IdSource) (s : FwpmEngine) (policy : List SelectedApp)
    (adds rollback : Answers) (attempts : List Answers) :
    AllOrNothing source s policy adds rollback attempts ↔ Dependable s policy adds attempts := by
  have hlength : ∀ {s' report}, s.install source policy adds rollback = (s', .ok report) →
      (report_ids report).length = policy.length + 1 := by
    intro s' report h
    obtain ⟨-, -, -, -, -, hadded⟩ := install_ok h
    have hlookups := congrArg List.length hadded.lookups
    simpa using hlookups
  constructor
  · intro h hinstalled hclosed hadds
    obtain ⟨s', report, hinstall⟩ := install_of_ok source rollback hinstalled hclosed hadds
    obtain ⟨-, -, -, hinstalled', hclosed', hadded⟩ := install_ok hinstall
    refine ⟨(added_full_iff hadded).mp (h.enforced s' report hinstall), ?_⟩
    rw [← hlength hinstall]
    exact (retryable_iff ⟨hinstalled', hclosed', _, hadded⟩ attempts).mp
      (h.retryable s' report hinstall)
  · intro h
    refine ⟨?_, ?_, ?_⟩
    · exact fun s' e hinstall hrollback => install_error hinstall hrollback
    · intro s' report hinstall
      obtain ⟨hinstalled, hclosed, hadds, -, -, hadded⟩ := install_ok hinstall
      exact (added_full_iff hadded).mpr (h hinstalled hclosed hadds).1
    · intro s' report hinstall
      obtain ⟨hinstalled, hclosed, hadds, hinstalled', hclosed', hadded⟩ := install_ok hinstall
      refine (retryable_iff ⟨hinstalled', hclosed', _, hadded⟩ attempts).mpr ?_
      rw [hlength hinstall]
      exact (h hinstalled hclosed hadds).2

/-- Ids above all that have been given. -/
def above : IdSource where
  pick used := used.sum + 1
  fresh used hmem := by
    have hle := List.le_sum_of_mem hmem
    omega

/-- An engine without filters. -/
def no_filters : FwpmEngine :=
  { backend := { live := ∅, used := [], allotted := fun _ hid => absurd hid (AList.notMem_empty _) }
    installed := false
    closed := false }

theorem no_filters_install (app : SelectedApp) :
    ∃ s' report, no_filters.install above [app] (fun _ => .ok ()) (fun _ => .ok ()) =
      (s', .ok report) :=
  install_of_ok (s := no_filters) above _ rfl rfl fun _ _ => rfl

/-- **Two ways to be left with half a policy.** A path of 256 units loses its last one. And where
the permit is deleted but not the catch-all, all that follows fails. -/
theorem half_a_policy :
    ¬ AllOrNothing above no_filters [⟨List.replicate 256 0x61⟩] (fun _ => .ok ()) (fun _ => .ok ())
        [] ∧
      ¬ AllOrNothing above no_filters [⟨[0x61]⟩] (fun _ => .ok ()) (fun _ => .ok ())
        [fun i => if i = 0 then .ok () else .error ⟨"FwpmFilterDeleteById0 failed: 0x5"⟩] := by
  constructor
  · intro h
    obtain ⟨s', report, hinstall⟩ := no_filters_install ⟨List.replicate 256 0x61⟩
    obtain ⟨-, -, -, -, -, hadded⟩ := install_ok hinstall
    have hplain := (added_full_iff hadded).mp (h.enforced s' report hinstall) _ List.mem_cons_self
    have hshort := hplain.short
    rw [List.length_replicate] at hshort
    omega
  · intro h
    obtain ⟨s', report, hinstall⟩ := no_filters_install ⟨[0x61]⟩
    obtain ⟨-, -, -, hinstalled, hclosed, hadded⟩ := install_ok hinstall
    have hlookups := congrArg List.length hadded.lookups
    refine not_retryable_of_partial ⟨hinstalled, hclosed, _, hadded⟩ ?_ ?_
      (h.retryable s' report hinstall 1)
    · rfl
    · intro hall
      have hsecond := hall 1 (by simp at hlookups; omega)
      simp at hsecond

end FwpmEngine

end StreamGuard.Platform
