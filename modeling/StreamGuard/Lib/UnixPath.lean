/-
Paths of a Unix file system without links.

A path is a list of components, and where it leads from a working directory depends on the
components alone: `..` is the way back. So every path has a normal form, which is the anchor it
starts from and the names that follow: it leads to the same place (`resolve_eq`) and is spelled in
one way (`spell_inj`).
-/
import Mathlib.Data.List.Basic
import Mathlib.Logic.Function.Iterate

set_option autoImplicit false

namespace StreamGuard.Lib.UnixPath

abbrev Name := List Char

inductive Component where
  | RootDir
  | CurDir
  | ParentDir
  | Normal (name : Name)
  deriving DecidableEq

/-! ## Reading a path -/

/-- What stands between two separators. Nothing and a single dot are skipped. -/
def read_piece (piece : Name) : Option Component :=
  if piece = [] ∨ piece = ['.'] then none
  else if piece = ['.', '.'] then some .ParentDir
  else some (.Normal piece)

/-- The components of a path. A dot counts only at the beginning. -/
def components (path : List Char) : List Component :=
  let pieces := path.splitOn '/'
  if path.head? = some '/' then .RootDir :: pieces.filterMap read_piece
  else if pieces.head? = some ['.'] then .CurDir :: pieces.filterMap read_piece
  else pieces.filterMap read_piece

/-- The last component, if it is a name. -/
def file_name (path : List Component) : Option Name :=
  match path.getLast? with
  | some (.Normal name) => some name
  | _ => none

/-- A name without its last dot and what follows it. A dot at the beginning does not count. -/
def file_stem (name : Name) : Name :=
  let before := ((name.reverse.dropWhile (fun c => c ≠ '.')).drop 1).reverse
  if before = [] then name else before

/-- The same directory, and the name with another extension. -/
def with_extension (path : List Component) (extension : Name) : List Component :=
  match file_name path with
  | none => path
  | some name => path.dropLast ++ [.Normal (file_stem name ++ '.' :: extension)]

/-! ## Where a path leads -/

/-- One component on from a directory, which is given by its names from the root. The root is its
own parent. -/
def walk (dir : List Name) : Component → List Name
  | .RootDir => []
  | .CurDir => dir
  | .ParentDir => dir.dropLast
  | .Normal name => dir ++ [name]

/-- Where a path leads from a working directory. -/
def resolve (cwd : List Name) (path : List Component) : List Name := path.foldl walk cwd

/-! ## The normal form -/

/-- What the names of a path start from: the root, or so many steps up. -/
inductive Anchor where
  | root
  | climb (k : ℕ)
  deriving DecidableEq

/-- Where that is. -/
def Anchor.base (cwd : List Name) : Anchor → List Name
  | .root => []
  | .climb k => List.dropLast^[k] cwd

/-- An anchor and the names that follow. -/
@[ext] structure Spot where
  anchor : Anchor
  names : List Name
  deriving DecidableEq

namespace Spot

/-- One component on. -/
def advance (spot : Spot) : Component → Spot
  | .RootDir => ⟨.root, []⟩
  | .CurDir => spot
  | .ParentDir =>
    if spot.names ≠ [] then { spot with names := spot.names.dropLast }
    else match spot.anchor with
      | .root => spot
      | .climb k => ⟨.climb (k + 1), []⟩
  | .Normal name => { spot with names := spot.names ++ [name] }

/-- The spelling of a normal form. -/
def spell (spot : Spot) : List Component :=
  match spot.anchor with
  | .root => .RootDir :: spot.names.map .Normal
  | .climb k => List.replicate k .ParentDir ++ spot.names.map .Normal

/-- Where it is. -/
def place (cwd : List Name) (spot : Spot) : List Name := spot.anchor.base cwd ++ spot.names

end Spot

/-- The normal form of a path. -/
def locate (path : List Component) : Spot := path.foldl Spot.advance ⟨.climb 0, []⟩

section Normal

variable {cwd : List Name} {spot spot' : Spot} {c : Component} {path : List Component} {name : Name}

theorem place_advance : (spot.advance c).place cwd = walk (spot.place cwd) c := by
  obtain ⟨anchor, names⟩ := spot
  cases c with
  | RootDir => rfl
  | CurDir => rfl
  | ParentDir =>
    by_cases hnames : names = []
    · subst hnames
      cases anchor with
      | root => rfl
      | climb k =>
        simp only [Spot.advance, Spot.place, walk, Anchor.base, ne_eq, not_true_eq_false,
          ↓reduceIte, List.append_nil, Function.iterate_succ_apply']
    · simp [Spot.advance, Spot.place, walk, hnames, List.dropLast_append_of_ne_nil]
  | Normal name => simp [Spot.advance, Spot.place, walk]

/-- **A path leads to where its normal form is.** -/
theorem resolve_eq (cwd : List Name) (path : List Component) :
    resolve cwd path = (locate path).place cwd := by
  have hfold : ∀ spot : Spot,
      path.foldl walk (spot.place cwd) = (path.foldl Spot.advance spot).place cwd := by
    induction path with
    | nil => exact fun _ => rfl
    | cons c path ih =>
      intro spot
      rw [List.foldl_cons, List.foldl_cons, ← place_advance, ih]
  have hstart : (⟨.climb 0, []⟩ : Spot).place cwd = cwd := by simp [Spot.place, Anchor.base]
  rw [resolve, locate, ← hfold, hstart]

theorem locate_append_normal :
    locate (path ++ [.Normal name]) =
      ⟨(locate path).anchor, (locate path).names ++ [name]⟩ := by
  rw [locate, List.foldl_append]
  rfl

theorem normal_injective : Function.Injective Component.Normal := by
  intro a b h
  injection h

/-- A normal form is spelled in one way. -/
theorem spell_inj : spot.spell = spot'.spell ↔ spot = spot' := by
  refine ⟨?_, congrArg Spot.spell⟩
  obtain ⟨anchor, names⟩ := spot
  obtain ⟨anchor', names'⟩ := spot'
  have hroot : ∀ k (names names' : List Name),
      Component.RootDir :: names.map .Normal ≠
        List.replicate k .ParentDir ++ names'.map .Normal := by
    intro k names names' h
    have hmem : Component.RootDir ∈ List.replicate k Component.ParentDir ++ names'.map .Normal :=
      h ▸ List.mem_cons_self
    simp at hmem
  intro h
  cases anchor with
  | root =>
    cases anchor' with
    | root =>
      simp only [Spot.spell, List.cons.injEq, true_and] at h
      rw [normal_injective.list_map h]
    | climb k => exact absurd h (hroot k names names')
  | climb k =>
    cases anchor' with
    | root => exact absurd h.symm (hroot k names' names)
    | climb k' =>
      simp only [Spot.spell] at h
      have hk : k = k' := by
        have hcount := congrArg (List.count Component.ParentDir) h
        have hnone : ∀ names : List Name,
            List.count Component.ParentDir (names.map Component.Normal) = 0 := by
          intro names
          simp [List.count_eq_zero]
        simpa [List.count_append, hnone] using hcount
      subst hk
      rw [normal_injective.list_map (List.append_cancel_left h)]

theorem file_name_eq_some : file_name path = some name ↔ ∃ dir, path = dir ++ [.Normal name] := by
  constructor
  · intro h
    rw [file_name] at h
    split at h
    · next last hlast =>
      obtain rfl := Option.some.inj h
      exact ⟨path.dropLast, (List.dropLast_append_getLast? _ hlast).symm⟩
    · contradiction
  · rintro ⟨dir, rfl⟩
    simp [file_name]

theorem with_extension_of_name {dir : List Component} {extension : Name} :
    with_extension (dir ++ [.Normal name]) extension =
      dir ++ [.Normal (file_stem name ++ '.' :: extension)] := by
  have hname : file_name (dir ++ [.Normal name]) = some name := file_name_eq_some.mpr ⟨dir, rfl⟩
  simp [with_extension, hname]

end Normal

end StreamGuard.Lib.UnixPath
