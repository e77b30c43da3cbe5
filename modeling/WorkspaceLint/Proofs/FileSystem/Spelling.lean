import WorkspaceLint.Proofs.FileSystem.Directories
import WorkspaceLint.Proofs.Glob.Below

/-!
# Directories and their spelling

Whether there is a directory at a path is asked of the entries of a tree, while patterns are matched
with the list of all directories.  Both find the same ones (`dirExists_iff_listed`).  The list has
each of them once, spelled as by the first entry at or below it (`Tree.spelling`), so a pattern finds
the directories that exist and whose spelling it covers (`directories_agree`).
-/

namespace WorkspaceLint

namespace Path

/-! ## Absolute paths -/

theorem isAbsolute_parent? {p q : Path} (parent : p.parent? = some q)
    (absolute : p.isAbsolute = true) : q.isAbsolute = true := by
  have shorter := components_parent? p
  rw [parent] at shorter
  obtain ⟨-, below, same⟩ := shorter
  rw [isAbsolute_iff_components] at absolute ⊢
  obtain ⟨cs, whole⟩ := absolute
  have more : cs ≠ [] := by
    rintro rfl
    exact below whole
  exact ⟨cs.dropLast, by rw [same, whole, List.dropLast_cons_of_ne_nil more]⟩

theorem isAbsolute_of_mem_ancestors {p q : Path} (absolute : p.isAbsolute = true)
    (h : q ∈ p.ancestors) : q.isAbsolute = true := by
  have upward {fuel : Nat} {p : Path} (absolute : p.isAbsolute = true)
      (h : q ∈ ancestorsFrom fuel p) : q.isAbsolute = true := by
    induction fuel generalizing p with
    | zero => rwa [List.mem_singleton.1 h]
    | succ fuel ih =>
      rw [ancestorsFrom] at h
      rcases hp : p.parent? with _ | r <;> rw [hp] at h
      · rwa [List.mem_singleton.1 h]
      · rcases List.mem_cons.1 h with rfl | higher
        · exact absolute
        · exact ih (isAbsolute_parent? hp absolute) higher
  exact upward absolute h

/-- Every absolute path but the top has a parent. -/
theorem parent?_ne_none_of_isAbsolute {p : Path} (absolute : p.isAbsolute = true)
    (below : p.same ⟨"/"⟩ = false) : p.parent? ≠ none := by
  obtain ⟨cs, whole⟩ := isAbsolute_iff_components.1 absolute
  intro none
  rcases parent?_eq_none_iff.1 none with empty | top
  · rw [whole] at empty
    cases empty
  · exact Bool.eq_false_iff.1 below (same_iff.2 top)

end Path

namespace Tree

variable {t : Tree}

/-- All paths of a tree start at the root. -/
structure Absolute (t : Tree) : Prop where
  files : ∀ p ∈ t.paths, p.isAbsolute = true
  dirs : ∀ p ∈ t.dirs, p.isAbsolute = true

theorem Absolute.of_mem_allDirs (h : t.Absolute) {d : Path} (listed : d ∈ t.allDirs) :
    d.isAbsolute = true := by
  rcases exists_of_mem_allDirs listed with ⟨e, member, above⟩ | ⟨q, member, e, parent, above⟩
  · exact Path.isAbsolute_of_mem_ancestors (h.dirs e member) above
  · exact Path.isAbsolute_of_mem_ancestors (Path.isAbsolute_parent? parent (h.files q member)) above

/-! ## What exists is listed -/

/-- A directory that has a parent exists exactly when it is listed. -/
theorem dirExists_iff_listed {p : Path} (below : p.parent? ≠ none) :
    t.dirExists p = true ↔ ∃ d ∈ t.allDirs, d.same p = true := by
  rw [Ne, Path.parent?_eq_none_iff, not_or] at below
  have listed := mem_map_components_allDirs (t := t) below.1
  rw [List.mem_map] at listed
  simp only [Path.same_iff]
  rw [listed, dirExists_iff, or_iff_right (not_or.2 below)]

/-! ## Spelling -/

/-- The directories that a tree has of its own, those that were created and those of the files; all
others are above these. -/
def ownDirs (t : Tree) : List Path := t.dirs ++ t.paths.filterMap (·.parent?)

/-- How a tree spells a directory: as the first of its own directories does that is there or below
it. -/
def spelling (t : Tree) (p : Path) : Path :=
  (t.ownDirs.findSome? fun d => d.ancestors.find? (·.same p)).getD p

theorem find?_collect {acc : List Path} (h : Path.Ascending acc) (ps : List Path) (q : Path) :
    (collect acc ps).find? (·.same q) = (acc ++ ps).find? (·.same q) := by
  induction ps generalizing acc with
  | nil =>
    rw [List.append_nil]
    rfl
  | cons p ps ih =>
    show (collect (p.insertSorted acc) ps).find? (·.same q) = _
    rw [ih (Path.ascending_insertSorted h), List.append_cons, List.find?_append,
      Path.find?_insertSorted h, ← List.find?_append]

theorem allDirs_eq_collect (t : Tree) :
    t.allDirs = collect [] (t.ownDirs.flatMap (·.ancestors)) := by
  have above_eq : above = fun q => (q.parent?.toList).flatMap (·.ancestors) := by
    funext q
    unfold above
    rcases q.parent? with _ | dir
    · rfl
    · exact (List.append_nil _).symm
  rw [allDirs_eq, ownDirs, List.flatMap_append, List.filterMap_eq_flatMap_toList, List.flatMap_assoc,
    above_eq]

theorem find?_allDirs (t : Tree) (p : Path) :
    t.allDirs.find? (·.same p) = t.ownDirs.findSome? fun d => d.ancestors.find? (·.same p) := by
  rw [allDirs_eq_collect, find?_collect .nil, List.nil_append, List.find?_flatMap]

theorem spelling_eq (t : Tree) (p : Path) :
    t.spelling p = (t.allDirs.find? (·.same p)).getD p := by
  rw [spelling, find?_allDirs]

/-- A directory is spelled with its own components. -/
theorem components_spelling (t : Tree) (p : Path) :
    (t.spelling p).components = p.components := by
  rw [spelling_eq]
  rcases found : t.allDirs.find? (·.same p) with _ | d
  · rw [found, Option.getD_none]
  · rw [found, Option.getD_some]
    exact Path.components_of_find? found

/-- What is listed has the spelling of the tree. -/
theorem spelling_of_mem_allDirs {d : Path} (listed : d ∈ t.allDirs) : t.spelling d = d := by
  rw [spelling_eq, t.ascending_allDirs.mem_iff_find?.1 listed]
  rfl

theorem spelling_mem_allDirs {p : Path} (below : p.parent? ≠ none) (dir : t.dirExists p = true) :
    t.spelling p ∈ t.allDirs := by
  obtain ⟨d, found⟩ :=
    Option.isSome_iff_exists.1 (List.find?_isSome.2 ((dirExists_iff_listed below).1 dir))
  rw [spelling_eq, found]
  exact List.mem_of_find?_eq_some found

/-- Below the top, the list has the directories that exist under the spelling of the tree. -/
theorem Absolute.mem_allDirs_iff_spelling (h : t.Absolute) {d : Path}
    (below : d.same ⟨"/"⟩ = false) :
    d ∈ t.allDirs ↔ ∃ p, p.isAbsolute = true ∧ t.dirExists p = true ∧ t.spelling p = d := by
  constructor
  · intro listed
    have absolute := h.of_mem_allDirs listed
    have dir := (dirExists_iff_listed (Path.parent?_ne_none_of_isAbsolute absolute below)).2
      ⟨d, listed, d.same_self⟩
    exact ⟨d, absolute, dir, spelling_of_mem_allDirs listed⟩
  · rintro ⟨p, absolute, dir, rfl⟩
    have below' : p.same ⟨"/"⟩ = false := by
      rwa [Path.same, components_spelling] at below
    exact spelling_mem_allDirs (Path.parent?_ne_none_of_isAbsolute absolute below') dir

/-! ## Patterns -/

/-- A pattern that can be read finds the listed directories that it covers. -/
theorem exists_globDirs (t : Tree) (root : Path) {pattern : String}
    (valid : DirGlob.Valid pattern) :
    ∃ found, FileSystem.globDirs t root pattern = .ok found ∧ Path.Ascending found ∧
      ∀ d, d ∈ found ↔ d ∈ t.allDirs ∧ DirGlob.Covers root pattern d := by
  obtain ⟨g, read⟩ := (DirGlob.valid_iff_rooted root).1 valid
  refine ⟨_, globDirs_of_parse read t, ?_, fun d => ?_⟩
  · exact t.ascending_allDirs.sublist List.filter_sublist
  · rw [List.mem_filter, DirGlob.accepts_rooted_iff read]

/-- The test for a directory and the list of all directories agree on every path below the top.  So
a pattern finds, apart from the top, just the directories that exist and whose spelling in the tree
it covers, in the order of their components and each of them once. -/
theorem directories_agree (absolute : t.Absolute) :
    (∀ p : Path, p.isAbsolute = true → p.same ⟨"/"⟩ = false →
      (t.dirExists p = true ↔ ∃ d ∈ t.allDirs, d.same p = true)) ∧
    ∀ (root : Path) (pattern : String), DirGlob.Valid pattern →
      ∃ found, FileSystem.globDirs t root pattern = .ok found ∧ Path.Ascending found ∧
        ∀ d : Path, d.same ⟨"/"⟩ = false →
          (d ∈ found ↔ DirGlob.Covers root pattern d ∧
            ∃ p, p.isAbsolute = true ∧ t.dirExists p = true ∧ t.spelling p = d) := by
  refine ⟨fun p start below => ?_, fun root pattern valid => ?_⟩
  · exact dirExists_iff_listed (Path.parent?_ne_none_of_isAbsolute start below)
  · obtain ⟨found, listed, ascending, mem⟩ := t.exists_globDirs root valid
    refine ⟨found, listed, ascending, fun d below => ?_⟩
    rw [mem, absolute.mem_allDirs_iff_spelling below, and_comm]

/-- Directories that their entries spell with more slashes and dots than needed. -/
def respelled : Tree where
  files := [(⟨"/r//c/x"⟩, ""), (⟨"/r/a/b/y"⟩, "")]
  dirs := [⟨"/r/./a/"⟩]

/-- They are found under this spelling, in the order of their components and not of their texts. -/
theorem directories_agree_respelled :
    respelled.Absolute ∧
    (respelled.dirExists ⟨"/r/a"⟩ = true ↔
      ∃ d ∈ respelled.allDirs, d.same ⟨"/r/a"⟩ = true) ∧
    respelled.dirExists ⟨"/r/a"⟩ = true ∧ respelled.spelling ⟨"/r/a"⟩ = ⟨"/r/./a/"⟩ ∧
    FileSystem.globDirs respelled ⟨"/r"⟩ "**" = .ok [⟨"/r/./a/"⟩, ⟨"/r/a/b"⟩, ⟨"/r//c"⟩] ∧
    Path.Ascending [⟨"/r/./a/"⟩, ⟨"/r/a/b"⟩, ⟨"/r//c"⟩] ∧
    ∀ d : Path, d.same ⟨"/"⟩ = false →
      (d ∈ [Path.mk "/r/./a/", ⟨"/r/a/b"⟩, ⟨"/r//c"⟩] ↔ DirGlob.Covers ⟨"/r"⟩ "**" d ∧
        ∃ p, p.isAbsolute = true ∧ respelled.dirExists p = true ∧ respelled.spelling p = d) := by
  have absolute : respelled.Absolute := ⟨by decide, by decide⟩
  have listed : FileSystem.globDirs respelled ⟨"/r"⟩ "**" =
      .ok [⟨"/r/./a/"⟩, ⟨"/r/a/b"⟩, ⟨"/r//c"⟩] := by rfl
  obtain ⟨tested, patterns⟩ := directories_agree absolute
  obtain ⟨found, same, ascending, mem⟩ := patterns ⟨"/r"⟩ "**" (by decide)
  obtain rfl := Except.ok.inj (listed.symm.trans same)
  exact ⟨absolute, tested ⟨"/r/a"⟩ (by decide) (by decide), by decide, by decide, listed, ascending,
    mem⟩

end Tree

end WorkspaceLint
