import WorkspaceLint.Proofs.Json.Plain
import WorkspaceLint.Proofs.Path.Order
import WorkspaceLint.FileSystem.Tree

/-!
# Writing to trees

What is found in a tree after a file was stored: its contents (`contents?_withFile`), what exists
(`dirExists_withFile`, `contains_withFile`), and the list of all directories, which stays as it was
when the file or another entry of its directory before it was stored already
(`allDirs_withFile_of_stored`, `allDirs_withFile_of_sibling`).  For the latter, files and
directories have to be in the order of their paths, as they are in every tree that was built by
operations.
-/

namespace WorkspaceLint

namespace Tree

/-! ## Stored contents -/

theorem lookup_congr {p q : Path} (h : p.components = q.components) (fs : List (Path × String)) :
    lookup p fs = lookup q fs := by
  induction fs with
  | nil => rfl
  | cons f fs ih =>
    have same : f.1.same p = f.1.same q := by rw [Path.same, Path.same, h]
    simp only [lookup, same, ih]

theorem contents?_congr {p q : Path} (h : p.components = q.components) (t : Tree) :
    t.contents? p = t.contents? q := lookup_congr h t.files

theorem lookup_store (p q : Path) (contents : String) (fs : List (Path × String)) :
    lookup q (store p contents fs) = if p.same q then some contents else lookup q fs := by
  induction fs with
  | nil => rfl
  | cons f fs ih =>
    obtain ⟨r, old⟩ := f
    unfold store
    split
    · rfl
    split
    · rename_i same
      have alike : r.same q = p.same q := by rw [Path.same, Path.same, Path.same_iff.1 same]
      simp only [lookup, alike]
      split <;> rfl
    · rename_i other
      simp only [lookup, ih]
      by_cases here : r.same q = true
      · have elsewhere : ¬ p.same q = true := by
          rw [Path.same_iff] at here other ⊢
          exact fun same => other (here.trans same.symm)
        rw [if_pos here, if_pos here, if_neg elsewhere]
      · rw [if_neg here, if_neg here]

theorem contents?_withFile (t : Tree) (p q : Path) (contents : String) :
    (t.withFile p contents).contents? q = if p.same q then some contents else t.contents? q :=
  lookup_store p q contents t.files

theorem contents?_isSome_iff {t : Tree} {p : Path} :
    (t.contents? p).isSome = true ↔ ∃ f ∈ t.files, f.1.components = p.components := by
  unfold contents?
  induction t.files with
  | nil => simp [lookup]
  | cons f fs ih =>
    obtain ⟨q, contents⟩ := f
    rw [lookup]
    split
    · rename_i same
      simp [Path.same_iff.1 same]
    · rename_i other
      rw [Path.same_iff] at other
      simp [ih, other]

/-- The later of two contents stays. -/
theorem store_store (p : Path) (contents later : String) (fs : List (Path × String)) :
    store p later (store p contents fs) = store p later fs := by
  have inOrder : ¬ p.before p = true := Path.not_before_of_same rfl
  induction fs with
  | nil => simp only [store, if_neg inOrder, p.same_self, if_true]
  | cons f fs ih =>
    obtain ⟨q, old⟩ := f
    by_cases before : p.before q = true
    · simp only [store, if_pos before, if_neg inOrder, p.same_self, if_true]
    by_cases same : q.same p = true
    · simp only [store, if_neg before, if_pos same]
    · simp only [store, if_neg before, if_neg same, ih]

@[simp] theorem withFile_withFile (t : Tree) (p : Path) (contents later : String) :
    (t.withFile p contents).withFile p later = t.withFile p later :=
  congrArg (Tree.mk · t.dirs) (store_store p contents later t.files)

/-! ## Order -/

/-- The paths of the stored files. -/
def paths (t : Tree) : List Path := t.files.map Prod.fst

/-- Files and directories are in the order of their paths, each of them once. -/
structure Ordered (t : Tree) : Prop where
  files : Path.Ascending t.paths
  dirs : Path.Ascending t.dirs

instance (ps : List Path) : Decidable (Path.Ascending ps) :=
  inferInstanceAs (Decidable (ps.Pairwise fun p q => p.before q = true))

instance (t : Tree) : Decidable t.Ordered :=
  decidable_of_iff (Path.Ascending t.paths ∧ Path.Ascending t.dirs)
    ⟨fun h => ⟨h.1, h.2⟩, fun h => ⟨h.files, h.dirs⟩⟩

theorem contents?_isSome_iff_paths {t : Tree} {p : Path} :
    (t.contents? p).isSome = true ↔ p.components ∈ t.paths.map Path.components := by
  rw [contents?_isSome_iff, paths]
  simp only [List.map_map, List.mem_map, Function.comp_apply]

/-- Storing a file puts its path in order. -/
theorem map_fst_store (p : Path) (contents : String) (fs : List (Path × String)) :
    (store p contents fs).map Prod.fst = p.insertSorted (fs.map Prod.fst) := by
  induction fs with
  | nil => rfl
  | cons f fs ih =>
    obtain ⟨q, old⟩ := f
    rw [List.map_cons, store, Path.insertSorted, Path.same_comm p q]
    split
    · rfl
    split
    · rfl
    · rw [List.map_cons, ih]

theorem paths_withFile (t : Tree) (p : Path) (contents : String) :
    (t.withFile p contents).paths = p.insertSorted t.paths := map_fst_store p contents t.files

theorem Ordered.withFile {t : Tree} (h : t.Ordered) (p : Path) (contents : String) :
    (t.withFile p contents).Ordered where
  files := by
    rw [paths_withFile]
    exact Path.ascending_insertSorted h.files
  dirs := h.dirs

theorem Ordered.withDir {t : Tree} (h : t.Ordered) (p : Path) : (t.withDir p).Ordered where
  files := h.files
  dirs := Path.ascending_insertSorted h.dirs

/-- A path that is stored keeps its place. -/
theorem Ordered.paths_withFile_of_stored {t : Tree} (h : t.Ordered) {p : Path}
    (stored : (t.contents? p).isSome = true) (contents : String) :
    (t.withFile p contents).paths = t.paths := by
  rw [paths_withFile, Path.insertSorted_eq_self h.files (contents?_isSome_iff_paths.1 stored)]

theorem store_eq_self {p : Path} {contents : String} {fs : List (Path × String)}
    (h : Path.Ascending (fs.map Prod.fst)) (stored : lookup p fs = some contents) :
    store p contents fs = fs := by
  induction fs with
  | nil => cases stored
  | cons f fs ih =>
    obtain ⟨q, old⟩ := f
    obtain ⟨first, rest⟩ := List.pairwise_cons.1 h
    rw [lookup] at stored
    unfold store
    split at stored
    · rename_i same
      rw [if_neg (Path.not_before_of_same (Path.same_iff.1 same).symm), if_pos same,
        Option.some.inj stored]
    · rename_i other
      have inLater : (lookup p fs).isSome = true := by rw [stored]; rfl
      obtain ⟨g, member, same⟩ := (contents?_isSome_iff (t := ⟨fs, []⟩)).1 inLater
      have after : q.before p = true := by
        rw [Path.before_iff, ← same]
        exact Path.before_iff.1 (first g.1 (List.mem_map_of_mem member))
      rw [if_neg (Path.before_asymm after), if_neg other, ih rest stored]

/-- Storing the contents that are there changes nothing. -/
theorem Ordered.withFile_eq_self {t : Tree} (h : t.Ordered) {p : Path} {contents : String}
    (stored : t.contents? p = some contents) : t.withFile p contents = t :=
  congrArg (Tree.mk · t.dirs) (store_eq_self h.files stored)

/-! ## What exists -/

theorem created_iff {t : Tree} {p : Path} :
    t.created p = true ↔ ∃ d ∈ t.dirs, d.components = p.components := by
  simp only [created, List.any_eq_true, Path.same_iff]

/-- A path is a directory when it has no parent, or when a directory or file is there or below,
and no file there. -/
theorem dirExists_iff {t : Tree} {p : Path} :
    t.dirExists p = true ↔ (p.components = [] ∨ p.components = [.root]) ∨
      (∃ d ∈ t.dirs, p.components <+: d.components) ∨
      ∃ q ∈ t.paths, p.components <+: q.components ∧ q.components ≠ p.components := by
  simp only [dirExists, Bool.or_eq_true, Option.isNone_iff_eq_none, Path.parent?_eq_none_iff,
    created_iff, List.any_eq_true, Path.startsWith_iff, Bool.and_eq_true, Bool.not_eq_true',
    Bool.eq_false_iff, ne_eq, Path.same_iff, paths, List.mem_map]
  constructor
  · rintro (((none | ⟨d, member, same⟩) | ⟨f, member, other, below⟩) | created)
    · exact .inl none
    · exact .inr (.inl ⟨d, member, same ▸ List.prefix_rfl⟩)
    · exact .inr (.inr ⟨f.1, ⟨f, member, rfl⟩, below, other⟩)
    · exact .inr (.inl created)
  · rintro (none | created | ⟨q, ⟨f, member, rfl⟩, below, other⟩)
    · exact .inl (.inl (.inl none))
    · exact .inr created
    · exact .inl (.inr ⟨f, member, other, below⟩)

theorem dirExists_congr {p q : Path} (h : p.components = q.components) (t : Tree) :
    t.dirExists p = t.dirExists q := by
  rw [Bool.eq_iff_iff, dirExists_iff, dirExists_iff, h]

theorem created_congr {p q : Path} (h : p.components = q.components) (t : Tree) :
    t.created p = t.created q := by
  rw [Bool.eq_iff_iff, created_iff, created_iff, h]

/-- What is above a directory is a directory. -/
theorem dirExists_of_prefix {t : Tree} {p q : Path} (h : t.dirExists q = true)
    (above : p.components <+: q.components) : t.dirExists p = true := by
  rw [dirExists_iff] at h ⊢
  obtain none | ⟨d, member, below⟩ | ⟨r, member, below, other⟩ := h
  · left
    rcases none with none | none <;> rw [none] at above
    · exact .inl (List.prefix_nil.1 above)
    · obtain same | same := List.prefix_cons_iff.1 above
      · exact .inl same
      · obtain ⟨cs, same, empty⟩ := same
        rw [List.prefix_nil.1 empty] at same
        exact .inr same
  · exact .inr (.inl ⟨d, member, above.trans below⟩)
  · refine .inr (.inr ⟨r, member, above.trans below, fun same => other ?_⟩)
    rw [same] at below
    rw [same, above.eq_of_length_le below.length_le]

theorem parentExists_iff {t : Tree} {p : Path} :
    t.parentExists p = true ↔ ∀ q, p.parent? = some q → t.dirExists q = true := by
  unfold parentExists
  rcases p.parent? with _ | q <;> simp

/-- The directory of a path exists when everything properly above it does. -/
theorem dirExists_of_parentExists {t : Tree} {p q : Path} (h : t.parentExists p = true)
    (above : q.components <+: p.components) (other : q.components ≠ p.components) :
    t.dirExists q = true := by
  rcases hp : p.parent? with _ | r
  · have none := (Path.eq_of_prefix_of_parent?_eq_none hp above).resolve_right other
    exact dirExists_iff.2 (.inl (.inl none))
  · exact dirExists_of_prefix (parentExists_iff.1 h r hp)
      ((Path.prefix_parent?_iff hp).2 ⟨above, other.symm⟩)

/-- The directory of a stored file exists. -/
theorem parentExists_of_stored {t : Tree} {p : Path} (h : (t.contents? p).isSome = true) :
    t.parentExists p = true := by
  obtain ⟨f, member, same⟩ := contents?_isSome_iff.1 h
  rw [parentExists_iff]
  intro q hq
  have above := (Path.prefix_parent?_iff hq).1 List.prefix_rfl
  rw [← same] at above
  exact dirExists_iff.2 (.inr (.inr ⟨f.1, List.mem_map_of_mem member, above⟩))

/-- An entry's directory exists exactly when that is a directory. -/
theorem parentExists_entry {t : Tree} {dir : Path} {name : String} (h : Path.IsName name) :
    t.parentExists (dir.entry name) = t.dirExists dir := by
  obtain ⟨q, parent, same⟩ := Path.parent?_entry dir h
  unfold parentExists
  rw [parent]
  exact dirExists_congr same t

theorem dirExists_withFile_of_dirExists {t : Tree} {p : Path} (h : t.dirExists p = true)
    (q : Path) (contents : String) : (t.withFile q contents).dirExists p = true := by
  rw [dirExists_iff] at h ⊢
  refine h.imp_right (Or.imp_right ?_)
  rintro ⟨r, member, below, other⟩
  have known : r.components ∈ (t.withFile q contents).paths.map Path.components := by
    rw [paths_withFile, Path.mem_map_components_insertSorted]
    exact .inr (List.mem_map_of_mem member)
  obtain ⟨r', member', same⟩ := List.mem_map.1 known
  exact ⟨r', member', by rwa [same], by rwa [same]⟩

/-- Storing a file in a directory makes no new directory. -/
theorem dirExists_withFile {t : Tree} {q : Path} (parent : t.parentExists q = true) (p : Path)
    (contents : String) : (t.withFile q contents).dirExists p = t.dirExists p := by
  rw [Bool.eq_iff_iff]
  refine ⟨fun h => ?_, fun h => dirExists_withFile_of_dirExists h q contents⟩
  obtain none | created | ⟨r, member, below, other⟩ := dirExists_iff.1 h
  · exact dirExists_iff.2 (.inl none)
  · exact dirExists_iff.2 (.inr (.inl created))
  · have known := List.mem_map_of_mem (f := Path.components) member
    rw [paths_withFile, Path.mem_map_components_insertSorted] at known
    rcases known with same | old
    · rw [same] at below other
      exact dirExists_of_parentExists parent below (Ne.symm other)
    · obtain ⟨r', member', same⟩ := List.mem_map.1 old
      exact dirExists_iff.2 (.inr (.inr ⟨r', member', by rwa [same], by rwa [same]⟩))

theorem mem_dirs_withDir {t : Tree} {p : Path} {cs : List Path.Component} :
    cs ∈ (t.withDir p).dirs.map Path.components ↔
      cs = p.components ∨ cs ∈ t.dirs.map Path.components :=
  Path.mem_map_components_insertSorted

theorem created_withDir_self (t : Tree) (p : Path) : (t.withDir p).created p = true := by
  obtain ⟨d, member, same⟩ :=
    List.mem_map.1 ((mem_dirs_withDir (t := t)).2 (.inl (rfl : p.components = _)))
  exact created_iff.2 ⟨d, member, same⟩

theorem dirExists_of_created {t : Tree} {p : Path} (h : t.created p = true) :
    t.dirExists p = true := by
  obtain ⟨d, member, same⟩ := created_iff.1 h
  exact dirExists_iff.2 (.inr (.inl ⟨d, member, same ▸ List.prefix_rfl⟩))

/-- With a directory there are those above it. -/
theorem dirExists_withDir {t : Tree} {p q : Path} :
    (t.withDir q).dirExists p = true ↔ t.dirExists p = true ∨ p.components <+: q.components := by
  constructor
  · intro h
    obtain none | ⟨d, member, below⟩ | file := dirExists_iff.1 h
    · exact .inl (dirExists_iff.2 (.inl none))
    · rcases mem_dirs_withDir.1 (List.mem_map_of_mem member) with same | old
      · exact .inr (same ▸ below)
      · obtain ⟨d', member', same⟩ := List.mem_map.1 old
        exact .inl (dirExists_iff.2 (.inr (.inl ⟨d', member', same ▸ below⟩)))
    · exact .inl (dirExists_iff.2 (.inr (.inr file)))
  · rintro (h | below)
    · rw [dirExists_iff] at h ⊢
      refine h.imp_right (Or.imp_left ?_)
      rintro ⟨d, member, below⟩
      obtain ⟨d', member', same⟩ :=
        List.mem_map.1 ((mem_dirs_withDir (p := q)).2 (.inr (List.mem_map_of_mem member)))
      exact ⟨d', member', by rwa [same]⟩
    · exact dirExists_of_prefix (dirExists_of_created (t.created_withDir_self q)) below

theorem contains_eq (t : Tree) (p : Path) :
    FileSystem.contains t p = ((t.contents? p).isSome || t.dirExists p) := rfl

theorem contains_withFile {t : Tree} {q : Path} (parent : t.parentExists q = true) (p : Path)
    (contents : String) :
    FileSystem.contains (t.withFile q contents) p = (q.same p || FileSystem.contains t p) := by
  rw [contains_eq, contains_eq, contents?_withFile, dirExists_withFile parent]
  split
  · rename_i same
    simp [same]
  · rename_i other
    simp [Bool.eq_false_iff.2 other]

theorem parentExists_withFile {t : Tree} {q : Path} (parent : t.parentExists q = true) (p : Path)
    (contents : String) : (t.withFile q contents).parentExists p = t.parentExists p := by
  unfold parentExists
  split
  · rfl
  · exact dirExists_withFile parent _ contents

/-! ## All directories -/

/-- The directories above a stored file. -/
def above (p : Path) : List Path := ((p.parent?).map (·.ancestors)).getD []

/-- Put paths in order one after the other. -/
def collect (acc ps : List Path) : List Path := ps.foldl (fun acc d => d.insertSorted acc) acc

theorem allDirs_eq (t : Tree) :
    t.allDirs = collect [] (t.dirs.flatMap (·.ancestors) ++ t.paths.flatMap above) := by
  unfold allDirs collect paths
  rw [List.flatMap_map]
  rfl

theorem collect_append (acc ps qs : List Path) :
    collect acc (ps ++ qs) = collect (collect acc ps) qs := List.foldl_append

theorem ascending_collect {acc : List Path} (h : Path.Ascending acc) (ps : List Path) :
    Path.Ascending (collect acc ps) := by
  induction ps generalizing acc with
  | nil => exact h
  | cons p ps ih => exact ih (Path.ascending_insertSorted h)

theorem mem_map_components_collect {acc ps : List Path} {cs : List Path.Component} :
    cs ∈ (collect acc ps).map Path.components ↔
      cs ∈ acc.map Path.components ∨ cs ∈ ps.map Path.components := by
  induction ps generalizing acc with
  | nil => simp [collect]
  | cons p ps ih =>
    show cs ∈ (collect (p.insertSorted acc) ps).map Path.components ↔ _
    rw [ih, Path.mem_map_components_insertSorted, List.map_cons, List.mem_cons]
    simp only [or_assoc, or_left_comm]

/-- Paths that are there already are not collected again. -/
theorem mem_of_mem_collect {acc ps : List Path} {p : Path} (h : p ∈ collect acc ps) :
    p ∈ acc ∨ p ∈ ps := by
  induction ps generalizing acc with
  | nil => exact .inl h
  | cons q ps ih =>
    rcases ih h with inserted | later
    · refine (Path.eq_or_mem_of_mem_insertSorted inserted).symm.imp_right ?_
      rintro rfl
      exact List.mem_cons_self
    · exact .inr (List.mem_cons_of_mem _ later)

theorem collect_eq_self {acc ps : List Path} (h : Path.Ascending acc)
    (there : ∀ cs ∈ ps.map Path.components, cs ∈ acc.map Path.components) :
    collect acc ps = acc := by
  induction ps with
  | nil => rfl
  | cons p ps ih =>
    obtain ⟨first, rest⟩ := List.forall_mem_cons.1 there
    show collect (p.insertSorted acc) ps = acc
    rw [Path.insertSorted_eq_self h first]
    exact ih rest

theorem ascending_allDirs (t : Tree) : Path.Ascending t.allDirs := by
  rw [allDirs_eq]
  exact ascending_collect .nil _

theorem map_components_above {p q : Path} (h : p.components = q.components) :
    (above p).map Path.components = (above q).map Path.components := by
  have parent := Path.components_parent? p
  have parent' := Path.components_parent? q
  unfold above
  rcases hp : p.parent? with _ | p' <;> rcases hq : q.parent? with _ | q' <;>
    rw [hp] at parent <;> rw [hq] at parent'
  · rw [h] at parent
    exact absurd parent (not_or.2 ⟨parent'.1, parent'.2.1⟩)
  · rw [← h] at parent'
    exact absurd parent' (not_or.2 ⟨parent.1, parent.2.1⟩)
  · refine Path.map_components_ancestors ?_
    rw [parent.2.2, parent'.2.2, h]

/-- Above an entry are its directory and what is above that. -/
theorem map_components_above_entry (dir : Path) {name : String} (h : Path.IsName name) :
    (above (dir.entry name)).map Path.components = dir.ancestors.map Path.components := by
  obtain ⟨q, parent, same⟩ := Path.parent?_entry dir h
  unfold above
  rw [parent]
  exact Path.map_components_ancestors same

theorem Ordered.allDirs_withFile_of_stored {t : Tree} (h : t.Ordered) {p : Path}
    (stored : (t.contents? p).isSome = true) (contents : String) :
    (t.withFile p contents).allDirs = t.allDirs := by
  rw [allDirs_eq, allDirs_eq, h.paths_withFile_of_stored stored]
  rfl

/-- A file next to one that is stored before it adds no directory. -/
theorem Ordered.allDirs_withFile_of_sibling {t : Tree} (h : t.Ordered) {dir : Path}
    {sibling name : String} (hs : Path.IsName sibling) (hn : Path.IsName name)
    (before : Text.before sibling name = true)
    (stored : (t.contents? (dir.entry sibling)).isSome = true) (contents : String) :
    (t.withFile (dir.entry name) contents).allDirs = t.allDirs := by
  rw [allDirs_eq, allDirs_eq, paths_withFile]
  obtain same | ⟨front, back, parts, inserted, after⟩ :=
    Path.exists_insertSorted h.files (dir.entry name)
  · rw [same]
    rfl
  rw [inserted, parts]
  -- The sibling comes before the file, and everything above the one is above the other.
  obtain ⟨q, member, same⟩ := List.mem_map.1 (contents?_isSome_iff_paths.1 stored)
  have inFront : q ∈ front := by
    rw [parts, List.mem_append] at member
    refine member.resolve_right fun inBack => ?_
    have later := Path.before_iff.1 (after q inBack)
    rw [same] at later
    exact Path.before_asymm (Path.entry_before_entry dir hs hn before) (Path.before_iff.2 later)
  have known : (above (dir.entry name)).map Path.components = (above q).map Path.components :=
    (map_components_above_entry dir hn).trans
      ((map_components_above_entry dir hs).symm.trans (map_components_above same.symm))
  show collect []
    (t.dirs.flatMap (·.ancestors) ++ (front ++ dir.entry name :: back).flatMap above) = _
  simp only [List.flatMap_append, List.flatMap_cons, ← List.append_assoc, collect_append]
  refine congrArg (collect · _) ?_
  refine collect_eq_self (ascending_collect (ascending_collect .nil _) _) fun cs member => ?_
  rw [known] at member
  obtain ⟨d, up, rfl⟩ := List.mem_map.1 member
  refine mem_map_components_collect.2 (.inr (List.mem_map_of_mem ?_))
  exact List.mem_flatMap.2 ⟨q, inFront, up⟩

/-! ## Writing, reading and listing -/

theorem write_eq (t : Tree) (p : Path) (contents : String) :
    FileSystem.write t p contents =
      if !t.parentExists p then .error (.refused .write p .noParent)
      else if t.created p then .error (.refused .write p .isDirectory)
      else .ok (t.withFile p contents) := rfl

theorem write_eq_ok_iff {t t' : Tree} {p : Path} {contents : String} :
    FileSystem.write t p contents = .ok t' ↔
      t.parentExists p = true ∧ t.created p = false ∧ t' = t.withFile p contents := by
  rw [write_eq]
  rcases t.parentExists p <;> rcases t.created p <;> simp [eq_comm]

theorem read_eq (t : Tree) (p : Path) :
    FileSystem.read t p = match t.contents? p with
      | none => .error (.refused .read p .noSuchFile)
      | some contents => .ok contents := rfl

theorem globDirs_eq (t : Tree) (root : Path) (pattern : String) :
    FileSystem.globDirs t root pattern =
      match DirGlob.parse (DirGlob.rooted root.text pattern) with
      | .error fault => .error (.badPattern (DirGlob.rooted root.text pattern) fault)
      | .ok g => .ok (t.allDirs.filter fun d => DirGlob.accepts g d.text.toList) := by
  show Tree.globDirs t root pattern = _
  rcases read : DirGlob.parse (DirGlob.rooted root.text pattern) with fault | g <;>
    simp only [Tree.globDirs, read]

/-- A pattern that can be read finds the listed directories that it accepts. -/
theorem globDirs_of_parse {root : Path} {pattern : String} {g : DirGlob}
    (read : DirGlob.parse (DirGlob.rooted root.text pattern) = .ok g) (t : Tree) :
    FileSystem.globDirs t root pattern =
      .ok (t.allDirs.filter fun d => DirGlob.accepts g d.text.toList) := by
  rw [globDirs_eq, read]

theorem readJson_eq_ok_iff {t : Tree} {p : Path} {v : Json} :
    FileSystem.readJson t p = .ok v ↔
      ∃ text, t.contents? p = some text ∧ Json.parse text = .ok v := by
  unfold FileSystem.readJson
  rw [read_eq]
  rcases t.contents? p with _ | text
  · simp only [reduceCtorEq, false_and, exists_false, iff_false]
    exact nofun
  · simp only [Option.some.injEq, exists_eq_left']
    show (Json.parse text).mapError _ = _ ↔ _
    rcases Json.parse text with e | v'
    · constructor <;> intro h <;> cases h
    · constructor <;> intro h <;> exact congrArg Except.ok (Except.ok.inj h)

theorem toOption_readJson (t : Tree) (p : Path) :
    (FileSystem.readJson t p).toOption =
      (t.contents? p).bind fun text => (Json.parse text).toOption := by
  unfold FileSystem.readJson
  rw [read_eq]
  rcases t.contents? p with _ | text
  · rfl
  · show ((Json.parse text).mapError _).toOption = (Json.parse text).toOption
    rcases Json.parse text with e | v <;> rfl

theorem stored_of_readJson {t : Tree} {p : Path} {v : Json} (h : FileSystem.readJson t p = .ok v) :
    (t.contents? p).isSome = true := by
  obtain ⟨text, stored, -⟩ := readJson_eq_ok_iff.1 h
  rw [stored]
  rfl

theorem readJson_congr {t t' : Tree} {p : Path} (h : t'.contents? p = t.contents? p) :
    FileSystem.readJson t' p = FileSystem.readJson t p := by
  unfold FileSystem.readJson
  rw [read_eq, read_eq, h]

theorem readJson_withFile_of_ne {t : Tree} {p q : Path} (h : q.components ≠ p.components)
    (contents : String) :
    FileSystem.readJson (t.withFile q contents) p = FileSystem.readJson t p := by
  refine readJson_congr ?_
  rw [contents?_withFile, if_neg (by rwa [Path.same_iff])]

/-- A plain document is read back from the file that it was written to. -/
theorem readJson_withFile {t : Tree} {p q : Path} (h : q.components = p.components) {v : Json}
    (plain : v.Plain Json.Reader.nestingLimit) :
    FileSystem.readJson (t.withFile q v.canonical) p = .ok v :=
  readJson_eq_ok_iff.2 ⟨v.canonical, by rw [contents?_withFile, if_pos (Path.same_iff.2 h)],
    plain.parse_canonical⟩

end Tree

end WorkspaceLint
