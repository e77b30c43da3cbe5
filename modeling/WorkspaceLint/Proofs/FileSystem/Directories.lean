import WorkspaceLint.Proofs.Path.Names

/-!
# The list of all directories

A directory is listed when an entry of the tree lies at or below it
(`mem_map_components_allDirs`), and under its plain spelling when everything below it is spelled
plainly as well (`mem_allDirs_iff`).
-/

namespace WorkspaceLint

namespace Path

theorem prefix_of_mem_ancestors {p q : Path} (h : q ∈ p.ancestors) :
    q.components <+: p.components := by
  by_cases some : q.components = []
  · rw [some]
    exact List.nil_prefix
  · exact (mem_map_components_ancestors some).1 (List.mem_map_of_mem h)

/-- A path is below the directories at and above its parent. -/
theorem below_of_mem_ancestors_parent? {p q dir : Path} (parent : q.parent? = some dir)
    (h : p ∈ dir.ancestors) : p.components <+: q.components ∧ q.components ≠ p.components :=
  (prefix_parent?_iff parent).1 (prefix_of_mem_ancestors h)

end Path

open WorkspaceLint.Path (AreNames down)

namespace Tree

/-- All paths of a tree are absolute and in normal form. -/
structure Plain (t : Tree) : Prop where
  files : ∀ p ∈ t.paths, p.Plain
  dirs : ∀ p ∈ t.dirs, p.Plain

/-- The files below a directory have absolute paths in normal form, and so have the directories
that were created at or below it. -/
structure PlainUnder (t : Tree) (dir : Path) : Prop where
  files : ∀ p ∈ t.paths, dir.components <+: p.components → p.components ≠ dir.components → p.Plain
  dirs : ∀ p ∈ t.dirs, dir.components <+: p.components → p.Plain

theorem Plain.under {t : Tree} (h : t.Plain) (dir : Path) : t.PlainUnder dir :=
  ⟨fun p member _ _ => h.files p member, fun p member _ => h.dirs p member⟩

theorem PlainUnder.of_prefix {t : Tree} {dir below : Path} (h : t.PlainUnder dir)
    (within : dir.components <+: below.components) : t.PlainUnder below where
  files p member further other := by
    refine h.files p member (within.trans further) fun same => other ?_
    exact (further.eq_of_length_le (same ▸ within.length_le)).symm
  dirs p member further := h.dirs p member (within.trans further)

theorem PlainUnder.congr {t : Tree} {dir dir' : Path} (h : t.PlainUnder dir)
    (same : dir.components = dir'.components) : t.PlainUnder dir' :=
  h.of_prefix (same ▸ List.prefix_rfl)

/-- A listed directory is at or above an entry: a created directory, or the directory of a file. -/
theorem exists_of_mem_allDirs {t : Tree} {p : Path} (h : p ∈ t.allDirs) :
    (∃ d ∈ t.dirs, p ∈ d.ancestors) ∨ ∃ q ∈ t.paths, ∃ dir, q.parent? = some dir ∧
      p ∈ dir.ancestors := by
  rw [allDirs_eq] at h
  rcases mem_of_mem_collect h with none | listed
  · cases none
  rcases List.mem_append.1 listed with created | higher
  · exact .inl (List.mem_flatMap.1 created)
  · obtain ⟨q, member, upward⟩ := List.mem_flatMap.1 higher
    unfold above at upward
    rcases hq : q.parent? with _ | dir <;> rw [hq] at upward
    · cases upward
    · exact .inr ⟨q, member, dir, hq, upward⟩

theorem plain_of_mem_allDirs {t : Tree} {p : Path} (plain : t.PlainUnder p)
    (h : p ∈ t.allDirs) : p.Plain := by
  rcases exists_of_mem_allDirs h with ⟨d, member, upward⟩ | ⟨q, member, dir, parent, upward⟩
  · obtain ⟨more, hm, rfl⟩ := plain.dirs d member (Path.prefix_of_mem_ancestors upward)
    obtain ⟨names, within, rfl⟩ := (Path.mem_ancestors_down hm).1 upward
    exact ⟨names, hm.of_prefix within, rfl⟩
  · obtain ⟨within, other⟩ := Path.below_of_mem_ancestors_parent? parent upward
    obtain ⟨more, hm, rfl⟩ := plain.files q member within other
    have some : more ≠ [] := by
      rintro rfl
      rw [Path.parent?_down_nil] at parent
      cases parent
    rw [Path.parent?_down hm some] at parent
    obtain rfl := Option.some.inj parent
    obtain ⟨names, isPrefix, rfl⟩ := (Path.mem_ancestors_down hm.dropLast).1 upward
    exact ⟨names, hm.dropLast.of_prefix isPrefix, rfl⟩

/-- What is above the directory of a file is properly above the file. -/
theorem mem_map_components_above {q : Path} {cs : List Path.Component} (some : cs ≠ []) :
    cs ∈ (above q).map Path.components ↔ cs <+: q.components ∧ q.components ≠ cs := by
  unfold above
  rcases hq : q.parent? with _ | dir
  · refine iff_of_false List.not_mem_nil ?_
    rintro ⟨within, other⟩
    rcases Path.eq_of_prefix_of_parent?_eq_none hq within with none | same
    · exact some none
    · exact other same.symm
  · exact (Path.mem_map_components_ancestors some).trans (Path.prefix_parent?_iff hq)

/-- A directory is listed, under some spelling, when a directory was created at or below it or a
file is stored below it. -/
theorem mem_map_components_allDirs {t : Tree} {cs : List Path.Component} (some : cs ≠ []) :
    cs ∈ t.allDirs.map Path.components ↔
      (∃ d ∈ t.dirs, cs <+: d.components) ∨
        ∃ q ∈ t.paths, cs <+: q.components ∧ q.components ≠ cs := by
  rw [allDirs_eq, mem_map_components_collect, List.map_append, List.mem_append, List.map_flatMap,
    List.map_flatMap, List.mem_flatMap, List.mem_flatMap]
  simp only [Path.mem_map_components_ancestors some, mem_map_components_above some, List.map_nil,
    List.not_mem_nil, false_or]

/-- A directory that is spelled plainly, like all that is at or below it, is listed when a directory
was created at or below it or a file is stored below it. -/
theorem mem_allDirs_iff {t : Tree} {names : List String} (hn : AreNames names)
    (plain : t.PlainUnder (down names)) :
    down names ∈ t.allDirs ↔
      (∃ d ∈ t.dirs, (down names).components <+: d.components) ∨
        ∃ q ∈ t.paths, (down names).components <+: q.components ∧
          q.components ≠ (down names).components := by
  have some : (down names).components ≠ [] := by
    rw [Path.components_down hn]
    exact List.cons_ne_nil _ _
  rw [← mem_map_components_allDirs some]
  refine ⟨List.mem_map_of_mem, fun known => ?_⟩
  obtain ⟨p, member, same⟩ := List.mem_map.1 known
  obtain ⟨more, hm, rfl⟩ := plain_of_mem_allDirs (plain.congr same.symm) member
  rwa [(Path.components_down_inj hm hn).1 same] at member

/-- Below the root of the file system the listed directories are those that exist. -/
theorem mem_allDirs_iff_dirExists {t : Tree} {names : List String} (hn : AreNames names)
    (some : names ≠ []) (plain : t.PlainUnder (down names)) :
    down names ∈ t.allDirs ↔ t.dirExists (down names) = true := by
  rw [mem_allDirs_iff hn plain, dirExists_iff, Path.components_down hn]
  simp [some]

/-- A directory is listed when one was created at or below it, or a file is stored below it. -/
theorem mem_allDirs_iff_exists {t : Tree} {names : List String} (hn : AreNames names)
    (plain : t.PlainUnder (down names)) :
    down names ∈ t.allDirs ↔
      (∃ more, AreNames more ∧ t.created (down (names ++ more)) = true) ∨
        ∃ more, AreNames more ∧ more ≠ [] ∧
          (t.contents? (down (names ++ more))).isSome = true := by
  have within (more : List String) (hm : AreNames more) :
      (down names).components <+: (down (names ++ more)).components :=
    (Path.prefix_components_down hn (Path.areNames_append.2 ⟨hn, hm⟩)).2 (List.prefix_append _ _)
  simp only [mem_allDirs_iff hn plain, created_iff, contents?_isSome_iff_paths, List.mem_map]
  refine or_congr ⟨?_, ?_⟩ ⟨?_, ?_⟩
  · rintro ⟨d, member, below⟩
    obtain ⟨_, hm, rfl⟩ := plain.dirs d member below
    obtain ⟨more, rfl⟩ := (Path.prefix_components_down hn hm).1 below
    exact ⟨more, (Path.areNames_append.1 hm).2, _, member, rfl⟩
  · rintro ⟨more, hm, d, member, same⟩
    exact ⟨d, member, same ▸ within more hm⟩
  · rintro ⟨q, member, below, other⟩
    obtain ⟨_, hm, rfl⟩ := plain.files q member below other
    obtain ⟨more, rfl⟩ := (Path.prefix_components_down hn hm).1 below
    refine ⟨more, (Path.areNames_append.1 hm).2, ?_, _, member, rfl⟩
    rintro rfl
    exact other (by rw [List.append_nil])
  · rintro ⟨more, hm, further, q, member, same⟩
    refine ⟨q, member, same ▸ within more hm, ?_⟩
    rw [same, Ne, Path.components_down_inj (Path.areNames_append.2 ⟨hn, hm⟩) hn]
    simpa using further

end Tree

end WorkspaceLint
