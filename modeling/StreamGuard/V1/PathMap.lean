/-
Interfaces and their path numbers: `PathMap` of `sg-network/src/lib.rs` and `filter_candidates`
of `streamguard-service/src/client.rs`.

A `PathMap` numbers interfaces in the order in which it first meets them. After the last
number of the byte it goes on with 254 and 255 in turn. What the scan says of an interface
beyond its identity decides only whether it is a candidate.
-/
import StreamGuard.Core.V1
import StreamGuard.Lib.AssocMap
import StreamGuard.Lib.FirstSeen

set_option autoImplicit false

namespace StreamGuard.V1

open StreamGuard StreamGuard.Lib

/-! ## Interfaces -/

inductive InterfaceKind where
  | Ethernet
  | Wifi
  | Cellular
  | UsbTether
  | Virtual
  | Unknown
  deriving DecidableEq

inductive InterfaceState where
  | Up
  | Down
  | Dormant
  deriving DecidableEq

/-- The bytes of an IP address. -/
inductive IpAddr where
  | V4 (octets : BitVec 32)
  | V6 (octets : BitVec 128)

/-- `Interface`, without what only logs and status read. -/
structure Interface where
  id : String
  ifindex : UInt32
  kind : InterfaceKind
  state : InterfaceState
  gateway : Option IpAddr

/-- `is_candidate`. -/
def Interface.is_candidate (i : Interface) : Bool :=
  i.state = .Up && i.kind ≠ .Virtual && i.gateway.isSome && i.ifindex ≠ 0

/-- The strict filter, or the loose one if the strict one lets nothing pass. -/
def filter_candidates (interfaces : List Interface) : List Interface :=
  let physical := interfaces.filter Interface.is_candidate
  if physical.isEmpty then interfaces.filter (fun i => i.state = .Up && i.kind ≠ .Virtual)
  else physical

/-! ## The numbering -/

structure PathMap where
  by_interface : Map String PathId
  next : UInt8

/-- `checked_add(1).unwrap_or(u8::MAX - 1)`. -/
def next_path (n : UInt8) : UInt8 := if n = 255 then 254 else n + 1

namespace PathMap

def new : PathMap := ⟨∅, 0⟩

/-- The number of an interface, a fresh one if it is new. -/
def id_for (m : PathMap) (iface : Interface) : PathMap × PathId :=
  match m.by_interface.lookup iface.id with
  | some id => (m, id)
  | none =>
    (⟨m.by_interface.insert iface.id ⟨m.next⟩, next_path m.next⟩, ⟨m.next⟩)

/-- The numbers of some interfaces, one after the other. -/
def ids_for (m : PathMap) : List Interface → PathMap × List (PathId × Interface)
  | [] => (m, [])
  | iface :: rest =>
    let first := m.id_for iface
    let later := ids_for first.1 rest
    (later.1, (first.2, iface) :: later.2)

/-! ## What the numbers are -/

/-- The number of the `k`-th interface. -/
def path_number : ℕ → UInt8
  | 0 => 0
  | k + 1 => next_path (path_number k)

def path_id (k : ℕ) : PathId := ⟨path_number k⟩

theorem path_number_toNat {k : ℕ} (h : k < 256) : (path_number k).toNat = k := by
  induction k with
  | zero => rfl
  | succ k ih =>
    have hk := ih (by omega)
    have hne : path_number k ≠ 255 := by
      intro heq
      rw [heq] at hk
      simp at hk
      omega
    rw [path_number, next_path, if_neg hne, UInt8.toNat_add, hk]
    simp
    omega

/-- The first 256 numbers are different. -/
theorem path_id_inj : ∀ k < 256, ∀ l < 256, path_id k = path_id l → k = l := by
  intro k hk l hl heq
  have hnumber : path_number k = path_number l := congrArg PathId.get heq
  have hk := path_number_toNat hk
  rw [hnumber, path_number_toNat hl] at hk
  exact hk.symm

/-- The next one is the last but one again. -/
theorem path_id_clash : ∃ k < 256, path_id k = path_id 256 := by
  have hlast : path_number 255 = 255 := by
    rw [← UInt8.toNat_inj, path_number_toNat (by omega)]
    rfl
  have hbefore : path_number 254 = 254 := by
    rw [← UInt8.toNat_inj, path_number_toNat (by omega)]
    rfl
  refine ⟨254, by omega, ?_⟩
  rw [path_id, path_id, show path_number 256 = next_path (path_number 255) from rfl, hlast, hbefore]
  rfl

/-- **The map is its order of first appearance.** -/
structure Numbers (m : PathMap) (order : List String) : Prop where
  nodup : order.Nodup
  next : m.next = path_number order.length
  lookup : ∀ i p, m.by_interface.lookup i = some p ↔ Assigned path_id order i p

section Numbers

variable {m : PathMap} {order : List String} {iface : Interface} {interfaces : List Interface}
  {i : String} {p : PathId}

theorem numbers_new : new.Numbers [] where
  nodup := List.nodup_nil
  next := rfl
  lookup := by
    intro i p
    refine iff_of_false (by simp [new]) ?_
    rintro ⟨k, hk, -⟩
    simp at hk

theorem Numbers.lookup_eq_none (h : m.Numbers order) :
    m.by_interface.lookup i = none ↔ i ∉ order := by
  rw [Option.eq_none_iff_forall_ne_some]
  constructor
  · intro hnone hmem
    obtain ⟨p, hp⟩ := exists_assigned path_id hmem
    exact hnone p ((h.lookup i p).mpr hp)
  · intro hnot p hp
    exact hnot ((h.lookup i p).mp hp).mem

/-- The number given is the one the map has afterwards. -/
theorem id_for_lookup (m : PathMap) (iface : Interface) :
    (m.id_for iface).1.by_interface.lookup iface.id = some (m.id_for iface).2 := by
  unfold PathMap.id_for
  cases hl : m.by_interface.lookup iface.id with
  | some id => exact hl
  | none => exact AList.lookup_insert _

/-- What the map has it keeps. -/
theorem id_for_keeps (hl : m.by_interface.lookup i = some p) (iface : Interface) :
    (m.id_for iface).1.by_interface.lookup i = some p := by
  unfold PathMap.id_for
  cases hiface : m.by_interface.lookup iface.id with
  | some id => exact hl
  | none =>
    have hne : i ≠ iface.id := by
      rintro rfl
      rw [hl] at hiface
      contradiction
    exact (AList.lookup_insert_ne hne).trans hl

/-- One interface. -/
theorem Numbers.id_for (h : m.Numbers order) (iface : Interface) :
    (m.id_for iface).1.Numbers (enrol order iface.id) := by
  unfold PathMap.id_for
  cases hl : m.by_interface.lookup iface.id with
  | some id =>
    rw [enrol, if_pos ((h.lookup _ _).mp hl).mem]
    exact h
  | none =>
    have hnot := h.lookup_eq_none.mp hl
    refine ⟨nodup_enrol h.nodup _, ?_, ?_⟩
    · rw [enrol, if_neg hnot, List.length_append]
      exact congrArg next_path h.next
    · intro i p
      rw [assigned_enrol, ← h.lookup, AList.lookup_insert_of]
      by_cases hi : i = iface.id
      · subst hi
        rw [if_pos rfl, hl]
        simp [hnot, path_id, h.next, eq_comm]
      · simp [hi]

/-- **Some interfaces**: the map goes on in the order of first appearance. -/
theorem Numbers.ids_for (h : m.Numbers order) (interfaces : List Interface) :
    (m.ids_for interfaces).1.Numbers (first_seen order (interfaces.map (·.id))) := by
  induction interfaces generalizing m order with
  | nil => exact h
  | cons iface rest ih => exact ih (h.id_for iface)

theorem ids_for_keeps (hl : m.by_interface.lookup i = some p) (interfaces : List Interface) :
    (m.ids_for interfaces).1.by_interface.lookup i = some p := by
  induction interfaces generalizing m with
  | nil => exact hl
  | cons iface rest ih => exact ih (id_for_keeps hl iface)

theorem map_snd_ids_for (m : PathMap) (interfaces : List Interface) :
    (m.ids_for interfaces).2.map Prod.snd = interfaces := by
  induction interfaces generalizing m with
  | nil => rfl
  | cons iface rest ih => exact congrArg (iface :: ·) (ih _)

/-- The number an interface gets is the one the map has for it afterwards. -/
theorem lookup_of_mem_ids_for (h : (p, iface) ∈ (m.ids_for interfaces).2) :
    (m.ids_for interfaces).1.by_interface.lookup iface.id = some p := by
  induction interfaces generalizing m with
  | nil => contradiction
  | cons first rest ih =>
    rcases List.mem_cons.mp h with heq | hmem
    · obtain ⟨rfl, rfl⟩ := Prod.mk.inj heq
      exact ids_for_keeps (id_for_lookup m iface) rest
    · exact ih hmem

/-- Every interface gets a number. -/
theorem exists_mem_ids_for (m : PathMap) (h : iface ∈ interfaces) :
    ∃ p, (p, iface) ∈ (m.ids_for interfaces).2 := by
  rw [← map_snd_ids_for m interfaces] at h
  obtain ⟨⟨p, _⟩, hmem, rfl⟩ := List.mem_map.mp h
  exact ⟨p, hmem⟩

end Numbers

end PathMap

end StreamGuard.V1
