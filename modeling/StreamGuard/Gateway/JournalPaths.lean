/-
The journal paths of the V2 gateway (`streamguard-gateway/src/v2/config.rs`), on a Unix file system
without links.

`reject_journal_collisions` compares the spelling of four normal forms. Two paths with one anchor
are spelled alike exactly if they lead to one file, and a journal and its temporary file always
have one anchor. So what can be missed is a directory that the two journals reach from different
anchors: one from the root and the other from the working directory, or from different numbers of
steps up.
-/
import StreamGuard.Lib.UnixPath

set_option autoImplicit false

namespace StreamGuard.Gateway

open StreamGuard.Lib.UnixPath

inductive V2GatewayConfigError where
  | FilesystemRef
  deriving DecidableEq

/-! ## The check -/

/-- One component of `lexical_normalize`. -/
def push_normalized (normalized : List Component) : Component → List Component
  | .RootDir => [.RootDir]
  | .CurDir => normalized
  | .ParentDir =>
    if (file_name normalized).isSome = true then normalized.dropLast
    else if normalized.head? ≠ some .RootDir then normalized ++ [.ParentDir]
    else normalized
  | .Normal part => normalized ++ [.Normal part]

def lexical_normalize (path : List Component) : List Component :=
  let normalized := path.foldl push_normalized []
  if normalized.isEmpty = true then [.CurDir] else normalized

/-- `journal_tmp_path`. -/
def journal_tmp_path (journal_path : List Component) : List Component :=
  with_extension journal_path ['t', 'm', 'p']

def has_trailing_separator (path : List Char) : Bool :=
  match path.getLast? with
  | none => true
  | some last => last = '/'

/-- The loop over all pairs. -/
def any_equal : List (List Component) → Bool
  | [] => false
  | first :: rest => rest.any (fun second => decide (first = second)) || any_equal rest

def reject_journal_collisions (lease replay : List Char) : Except V2GatewayConfigError Unit :=
  if has_trailing_separator lease = true ∨ has_trailing_separator replay = true then
    .error .FilesystemRef
  else
    let lease_norm := lexical_normalize (components lease)
    let replay_norm := lexical_normalize (components replay)
    if file_name lease_norm = none ∨ file_name replay_norm = none then .error .FilesystemRef
    else
      let lease_tmp_norm := lexical_normalize (journal_tmp_path (components lease))
      let replay_tmp_norm := lexical_normalize (journal_tmp_path (components replay))
      if file_name lease_tmp_norm = none ∨ file_name replay_tmp_norm = none then
        .error .FilesystemRef
      else if any_equal [lease_norm, lease_tmp_norm, replay_norm, replay_tmp_norm] = true then
        .error .FilesystemRef
      else .ok ()

/-! ## What it compares -/

section Normalize

variable {path dir : List Component} {spot : Spot} {name : Name}

theorem file_name_spell (spot : Spot) : file_name spot.spell = spot.names.getLast? := by
  obtain ⟨anchor, names⟩ := spot
  rcases List.eq_nil_or_concat names with rfl | ⟨init, last, rfl⟩
  · cases anchor with
    | root => rfl
    | climb k =>
      cases k with
      | zero => rfl
      | succ k => simp [Spot.spell, file_name, List.replicate_succ']
  · rw [List.concat_eq_append, List.getLast?_concat]
    refine file_name_eq_some.mpr ?_
    cases anchor with
    | root => exact ⟨.RootDir :: init.map .Normal, by simp [Spot.spell]⟩
    | climb k =>
      exact ⟨List.replicate k .ParentDir ++ init.map .Normal, by simp [Spot.spell]⟩

/-- A step of the loop is one of the normal form. -/
theorem push_normalized_spell (c : Component) :
    push_normalized spot.spell c = (spot.advance c).spell := by
  cases c with
  | RootDir => rfl
  | CurDir => rfl
  | Normal part =>
    obtain ⟨anchor, names⟩ := spot
    cases anchor with
    | root => simp [push_normalized, Spot.spell, Spot.advance]
    | climb k => simp [push_normalized, Spot.spell, Spot.advance]
  | ParentDir =>
    rw [push_normalized, file_name_spell]
    obtain ⟨anchor, names⟩ := spot
    rcases List.eq_nil_or_concat names with rfl | ⟨init, last, rfl⟩
    · cases anchor with
      | root => rfl
      | climb k =>
        have hhead : ¬ (List.replicate k Component.ParentDir).head? = some .RootDir := by
          cases k with
          | zero => simp
          | succ k => simp [List.replicate_succ]
        simp [Spot.spell, Spot.advance, hhead, List.replicate_succ']
    · cases anchor with
      | root => simp [Spot.spell, Spot.advance, List.dropLast_cons_of_ne_nil]
      | climb k => simp [Spot.spell, Spot.advance, ← List.append_assoc]

theorem foldl_push_normalized (path : List Component) :
    path.foldl push_normalized [] = (locate path).spell := by
  have hfold : ∀ spot : Spot,
      path.foldl push_normalized spot.spell = (path.foldl Spot.advance spot).spell := by
    induction path with
    | nil => exact fun _ => rfl
    | cons c path ih =>
      intro spot
      rw [List.foldl_cons, List.foldl_cons, push_normalized_spell, ih]
  exact hfold ⟨.climb 0, []⟩

/-- A path to a file is normalized to the spelling of its normal form. -/
theorem lexical_normalize_file :
    lexical_normalize (dir ++ [.Normal name]) =
      (⟨(locate dir).anchor, (locate dir).names ++ [name]⟩ : Spot).spell := by
  have hne : ¬ ((⟨(locate dir).anchor, (locate dir).names ++ [name]⟩ : Spot).spell).isEmpty =
      true := by
    have hname := file_name_spell ⟨(locate dir).anchor, (locate dir).names ++ [name]⟩
    rw [List.getLast?_concat, file_name_eq_some] at hname
    obtain ⟨init, hinit⟩ := hname
    simp [hinit]
  rw [lexical_normalize, foldl_push_normalized, locate_append_normal]
  simp only [hne, Bool.false_eq_true, ↓reduceIte]

/-- Without a name at the end there is no temporary file either. -/
theorem journal_tmp_path_eq_self (h : file_name path = none) : journal_tmp_path path = path := by
  rw [journal_tmp_path, with_extension, h]

end Normalize

/-! ## Which pairs are accepted -/

/-- The temporary name beside a name. -/
def tmp_name (name : Name) : Name := file_stem name ++ '.' :: ['t', 'm', 'p']

/-- A path that names a file in a directory, and not by a temporary name. -/
structure NamesJournal (path : List Char) (dir : List Component) (name : Name) : Prop where
  no_separator : has_trailing_separator path = false
  components : components path = dir ++ [.Normal name]
  not_tmp : tmp_name name ≠ name

section Accepted

variable {lease replay : List Char} {dir dir' : List Component} {name name' : Name}

theorem any_equal_four {a b c d : List Component} : any_equal [a, b, c, d] = false ↔
    a ≠ b ∧ a ≠ c ∧ a ≠ d ∧ b ≠ c ∧ b ≠ d ∧ c ≠ d := by
  simp only [any_equal, List.any_cons, List.any_nil, Bool.or_false, Bool.or_eq_false_iff,
    decide_eq_false_iff_not]
  tauto

theorem journal_tmp_path_name :
    journal_tmp_path (dir ++ [.Normal name]) = dir ++ [.Normal (tmp_name name)] :=
  with_extension_of_name

/-- Files are spelled alike exactly if their directories lead to one spot. -/
theorem lexical_normalize_inj :
    lexical_normalize (dir ++ [.Normal name]) = lexical_normalize (dir' ++ [.Normal name']) ↔
      locate dir = locate dir' ∧ name = name' := by
  rw [lexical_normalize_file, lexical_normalize_file, spell_inj, Spot.mk.injEq, Spot.ext_iff,
    and_assoc, List.append_singleton_inj]

/-- The names under which the two journals and their temporary files can meet. -/
def Apart (name name' : Name) : Prop :=
  name ≠ name' ∧ name ≠ tmp_name name' ∧ tmp_name name ≠ name' ∧ tmp_name name ≠ tmp_name name'

/-- **Two journals are accepted** exactly if they are spelled in different directories or their
names are apart. -/
theorem accepts_iff (hlease : NamesJournal lease dir name)
    (hreplay : NamesJournal replay dir' name') :
    reject_journal_collisions lease replay = .ok () ↔
      locate dir ≠ locate dir' ∨ Apart name name' := by
  have hfile : ∀ (dir : List Component) (name : Name),
      file_name (lexical_normalize (dir ++ [.Normal name])) = some name := by
    intro dir name
    rw [lexical_normalize_file, file_name_spell, List.getLast?_concat]
  -- neither journal meets its own temporary file, so of six pairs there are four
  have hmeet : any_equal [lexical_normalize (dir ++ [.Normal name]),
      lexical_normalize (dir ++ [.Normal (tmp_name name)]),
      lexical_normalize (dir' ++ [.Normal name']),
      lexical_normalize (dir' ++ [.Normal (tmp_name name')])] = false ↔
      locate dir ≠ locate dir' ∨ Apart name name' := by
    rw [any_equal_four]
    simp only [ne_eq, lexical_normalize_inj, hlease.not_tmp.symm, hreplay.not_tmp.symm, and_false,
      not_false_eq_true, true_and, and_true, Apart]
    tauto
  unfold reject_journal_collisions
  rw [hlease.no_separator, hreplay.no_separator, hlease.components, hreplay.components]
  simp only [journal_tmp_path_name, hfile, Bool.false_eq_true, or_self, ↓reduceIte, reduceCtorEq]
  rw [← hmeet]
  generalize any_equal _ = met
  cases met with
  | true => simp
  | false => simp

/-- A path that differs from its temporary path after normalization names a journal. -/
theorem namesJournal_of_ne {path : List Char} (hseparator : has_trailing_separator path = false)
    (hne : lexical_normalize (components path) ≠
      lexical_normalize (journal_tmp_path (components path))) :
    ∃ dir name, NamesJournal path dir name := by
  cases hname : file_name (components path) with
  | none =>
    -- `a/b/..` has a name once it is normalized, but it is its own temporary path
    rw [journal_tmp_path_eq_self hname] at hne
    exact absurd rfl hne
  | some name =>
    obtain ⟨dir, hdir⟩ := file_name_eq_some.mp hname
    refine ⟨dir, name, hseparator, hdir, ?_⟩
    intro hsame
    rw [hdir, journal_tmp_path_name, hsame] at hne
    exact hne rfl

theorem namesJournal_of_accepted (h : reject_journal_collisions lease replay = .ok ()) :
    (∃ dir name, NamesJournal lease dir name) ∧ ∃ dir name, NamesJournal replay dir name := by
  unfold reject_journal_collisions at h
  split at h
  · contradiction
  · next hseparator =>
    rw [not_or, Bool.not_eq_true, Bool.not_eq_true] at hseparator
    dsimp only at h
    split at h
    · contradiction
    · split at h
      · contradiction
      · split at h
        · contradiction
        · next hclear =>
          rw [Bool.not_eq_true, any_equal_four] at hclear
          exact ⟨namesJournal_of_ne hseparator.1 hclear.1,
            namesJournal_of_ne hseparator.2 hclear.2.2.2.2.2⟩

/-! ## What is missed -/

/-- Where the two journals and their temporary files are. -/
def journal_files (cwd : List Name) (lease replay : List Char) : List (List Name) :=
  [resolve cwd (components lease), resolve cwd (journal_tmp_path (components lease)),
    resolve cwd (components replay), resolve cwd (journal_tmp_path (components replay))]

/-- If the paths are accepted then the four files are different. -/
def Detects (cwd : List Name) (lease replay : List Char) : Prop :=
  reject_journal_collisions lease replay = .ok () → (journal_files cwd lease replay).Nodup

/-- Both are journals, and from different anchors they lead to one directory, where two of their
names meet. -/
def Aliased (cwd : List Name) (lease replay : List Char) : Prop :=
  ∃ dir name dir' name', NamesJournal lease dir name ∧ NamesJournal replay dir' name' ∧
    (locate dir).anchor ≠ (locate dir').anchor ∧ resolve cwd dir = resolve cwd dir' ∧
    ¬ Apart name name'

variable {cwd : List Name}

theorem resolve_append_normal :
    resolve cwd (dir ++ [.Normal name]) = resolve cwd dir ++ [name] := by
  rw [resolve, List.foldl_append]
  rfl

theorem journal_files_nodup_iff (hlease : NamesJournal lease dir name)
    (hreplay : NamesJournal replay dir' name') :
    (journal_files cwd lease replay).Nodup ↔
      (resolve cwd dir = resolve cwd dir' → Apart name name') := by
  have hsame : ∀ (D D' : List Name) (x y : Name), D ++ [x] = D' ++ [y] ↔ D = D' ∧ x = y :=
    fun _ _ _ _ => List.append_singleton_inj
  rw [journal_files, hlease.components, hreplay.components]
  simp only [journal_tmp_path_name, resolve_append_normal, List.nodup_cons, List.mem_cons, hsame,
    true_and, hlease.not_tmp.symm, hreplay.not_tmp.symm, List.not_mem_nil, or_false, false_or,
    not_false_eq_true, List.nodup_nil, and_true, Apart]
  tauto

/-- Different spellings of one directory have different anchors. -/
theorem anchor_ne_iff (hplace : resolve cwd dir = resolve cwd dir') :
    (locate dir).anchor ≠ (locate dir').anchor ↔ locate dir ≠ locate dir' := by
  rw [resolve_eq, resolve_eq] at hplace
  refine not_congr ⟨?_, congrArg Spot.anchor⟩
  intro hanchor
  refine Spot.ext hanchor ?_
  rw [Spot.place, Spot.place, hanchor] at hplace
  exact List.append_cancel_left hplace

/-- **Journal path collisions are detected** exactly if the journals are not aliased. -/
theorem collisions_detected_iff (cwd : List Name) (lease replay : List Char) :
    Detects cwd lease replay ↔ ¬ Aliased cwd lease replay := by
  constructor
  · rintro hdetects ⟨dir, name, dir', name', hlease, hreplay, hanchor, hplace, hmeet⟩
    have haccepted := (accepts_iff hlease hreplay).mpr (.inl ((anchor_ne_iff hplace).mp hanchor))
    exact hmeet ((journal_files_nodup_iff hlease hreplay).mp (hdetects haccepted) hplace)
  · intro halias haccepted
    obtain ⟨⟨dir, name, hlease⟩, dir', name', hreplay⟩ := namesJournal_of_accepted haccepted
    rw [journal_files_nodup_iff hlease hreplay]
    intro hplace
    by_contra hmeet
    have hspelled := ((accepts_iff hlease hreplay).mp haccepted).resolve_right hmeet
    exact halias ⟨dir, name, dir', name', hlease, hreplay, (anchor_ne_iff hplace).mpr hspelled,
      hplace, hmeet⟩

/-- The gateway runs in `/v`, and its lease journal is `/v/j`, and `j` its replay journal. -/
theorem absolute_alias_accepted :
    reject_journal_collisions ['/', 'v', '/', 'j'] ['j'] = .ok () ∧
      resolve [['v']] (components ['/', 'v', '/', 'j']) = resolve [['v']] (components ['j']) ∧
      ¬ Detects [['v']] ['/', 'v', '/', 'j'] ['j'] := by
  have haccepted : reject_journal_collisions ['/', 'v', '/', 'j'] ['j'] = .ok () := by decide
  have hsame : resolve [['v']] (components ['/', 'v', '/', 'j']) =
      resolve [['v']] (components ['j']) := by decide
  refine ⟨haccepted, hsame, ?_⟩
  intro hdetects
  have hnodup := hdetects haccepted
  rw [journal_files, hsame] at hnodup
  simp at hnodup

end Accepted

end StreamGuard.Gateway
