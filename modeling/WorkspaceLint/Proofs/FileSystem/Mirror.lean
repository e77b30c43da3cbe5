import Mathlib.Data.List.Infix
import Mathlib.Data.List.Pairwise
import WorkspaceLint.Fixer
import WorkspaceLint.Proofs.FileSystem.Directories
import WorkspaceLint.Proofs.FileSystem.Disk

/-!
# Trees on a disk

A tree is *on* a disk when both hold the same files and directories, all of them under plain paths.
Looking at a plain path and reading it then come to the same in both, up to the wording of errors,
and so does writing a file where no directory is.  Creating directories does as long as no file
stands in the way; the tree creates a directory below a file all the same.
-/

namespace WorkspaceLint

namespace Tree

open WorkspaceLint.Path (AreNames down)

/-- The disk holds what the tree holds. -/
structure OnDisk (t : Tree) (d : Disk) : Prop where
  paths : ∀ p ∈ t.paths, p.Plain
  dirs : ∀ p ∈ t.dirs, p.Plain
  fileNames : ∀ f ∈ d.files, AreNames f.1
  dirNames : ∀ names ∈ d.dirs, AreNames names
  contents : ∀ names, AreNames names → t.contents? (down names) = d.file? names
  isDir : ∀ names, AreNames names → t.dirExists (down names) = d.isDir names
  apart : ∀ names, (d.file? names).isSome = true → d.isDir names = false

/-- Both results are errors, or the tree is on the disk. -/
inductive Agreed : Except Trouble Tree → Except Trouble Disk → Prop where
  | ok {t : Tree} {d : Disk} (h : t.OnDisk d) : Agreed (.ok t) (.ok d)
  | error (e e' : Trouble) : Agreed (.error e) (.error e')

namespace OnDisk

variable {t : Tree} {d : Disk} {names : List String}

section

variable (h : t.OnDisk d)

include h

theorem sound : d.Sound where
  dirNames := h.dirNames
  fileNames := h.fileNames
  dirParent := by
    intro names dir
    have hn : AreNames names := by
      rcases Disk.isDir_iff.1 dir with rfl | member
      · exact nofun
      · exact h.dirNames names member
    have front := hn.dropLast
    rw [← h.isDir names hn] at dir
    rw [← h.isDir _ front]
    have above := (Path.prefix_components_down front hn).2 (List.dropLast_prefix names)
    exact dirExists_of_prefix dir above
  fileParent := by
    intro names file
    obtain ⟨contents, stored⟩ := Option.isSome_iff_exists.1 file
    have hn := h.fileNames _ (Disk.mem_of_lookup stored)
    have some : names ≠ [] := by
      rintro rfl
      exact absurd (h.apart [] file) (by simp)
    rw [← h.contents names hn] at file
    have parent := parentExists_iff.1 (parentExists_of_stored file) _ (Path.parent?_down hn some)
    rwa [h.isDir _ hn.dropLast] at parent
  apart := h.apart

/-! ## Looking -/

theorem contains (hn : AreNames names) :
    FileSystem.contains d (down names) = FileSystem.contains t (down names) := by
  rw [contains_eq, h.contents names hn, h.isDir names hn, Bool.or_comm]
  exact h.sound.contains_down hn

theorem read (hn : AreNames names) :
    (FileSystem.read d (down names)).toOption = (FileSystem.read t (down names)).toOption := by
  have same : (FileSystem.read t (down names)).toOption = t.contents? (down names) := by
    rw [read_eq]
    rcases t.contents? (down names) with _ | contents <;> rfl
  rw [same, h.contents names hn]
  exact h.sound.toOption_read_down hn

theorem readJson (hn : AreNames names) :
    (FileSystem.readJson d (down names)).toOption =
      (FileSystem.readJson t (down names)).toOption := by
  have read := h.read hn
  unfold FileSystem.readJson
  rcases hd : FileSystem.read d (down names) with e | text <;>
    rcases ht : FileSystem.read t (down names) with e' | text' <;> rw [hd, ht] at read
  · rfl
  · cases read
  · cases read
  · rw [Option.some.inj read]

theorem parentExists (hn : AreNames names) (some : names ≠ []) :
    t.parentExists (down names) = d.isDir names.dropLast := by
  rw [Tree.parentExists, Path.parent?_down hn some]
  exact h.isDir _ hn.dropLast

/-! ## Writing -/

theorem withFile (hn : AreNames names) (noDir : d.isDir names = false)
    (parent : d.isDir names.dropLast = true) (contents : String) :
    (t.withFile (down names) contents).OnDisk (d.setFile names contents) := by
  have some : names ≠ [] := by
    rintro rfl
    cases noDir
  have sound := h.sound.setFile hn noDir parent contents
  refine ⟨fun p member => ?_, h.dirs, sound.fileNames, sound.dirNames, fun more hm => ?_,
    fun more hm => ?_, sound.apart⟩
  · rw [paths_withFile] at member
    rcases Path.eq_or_mem_of_mem_insertSorted member with rfl | old
    · exact ⟨names, hn, rfl⟩
    · exact h.paths p old
  · rw [contents?_withFile, Disk.file?_setFile, h.contents more hm]
    simp only [Path.same_down hn hm]
  · rw [dirExists_withFile (by rw [h.parentExists hn some, parent]), Disk.isDir_setFile,
      h.isDir more hm]

/-- A file is written in both or in none. -/
theorem write (hn : AreNames names) (noDir : d.isDir names = false) (contents : String) :
    Agreed (FileSystem.write t (down names) contents)
      (FileSystem.write d (down names) contents) := by
  have some : names ≠ [] := by
    rintro rfl
    cases noDir
  have uncreated : t.created (down names) = false := by
    rw [Bool.eq_false_iff]
    intro created
    rw [← h.isDir names hn, dirExists_of_created created] at noDir
    cases noDir
  have written := h.sound.toOption_write_down hn noDir contents
  rw [write_eq, h.parentExists hn some, uncreated]
  by_cases parent : d.isDir names.dropLast = true
  · rw [if_pos parent] at written
    rcases made : d.write (down names) contents with e | d' <;> rw [made] at written
    · cases written
    · rw [parent, show FileSystem.write d (down names) contents = .ok d' from made,
        Option.some.inj written]
      exact .ok (h.withFile hn noDir parent contents)
  · rw [if_neg parent] at written
    rw [Bool.not_eq_true] at parent
    rcases made : d.write (down names) contents with e | d' <;> rw [made] at written
    · rw [parent, show FileSystem.write d (down names) contents = .error e from made]
      exact .error _ _
    · cases written

/-- A member of the JSON object in a file is set in both or in none. -/
theorem setJsonKey (hn : AreNames names) (key : String) (value : Json) :
    Agreed ((FixOp.setJsonKey (down names) key value).apply t)
      ((FixOp.setJsonKey (down names) key value).apply d) := by
  have same := h.readJson hn
  simp only [FixOp.apply]
  rcases disk : FileSystem.readJson d (down names) with e | v <;>
    rcases tree : FileSystem.readJson t (down names) with e' | v' <;> rw [disk, tree] at same
  · exact .error e' e
  · cases same
  · cases same
  obtain rfl := Option.some.inj same
  have stored := stored_of_readJson tree
  rw [h.contents names hn] at stored
  cases v with
  | object members => exact h.write hn (h.apart names stored) _
  | _ => exact .error _ _

/-! ## Creating directories -/

theorem withDir (hn : AreNames names) (free : ∀ above, above <+: names → d.file? above = none)
    {d' : Disk} (deepened : Disk.Deepened names d d') : (t.withDir (down names)).OnDisk d' := by
  have sound := deepened.sound h.sound hn free
  refine ⟨h.paths, fun p member => ?_, sound.fileNames, sound.dirNames, fun more hm => ?_,
    fun more hm => ?_, sound.apart⟩
  · rcases Path.eq_or_mem_of_mem_insertSorted member with rfl | old
    · exact ⟨names, hn, rfl⟩
    · exact h.dirs p old
  · rw [deepened.file?]
    exact h.contents more hm
  · rw [Bool.eq_iff_iff, dirExists_withDir, deepened.dirs, h.isDir more hm,
      Path.prefix_components_down hm hn]

/-- When no file is above a directory, it is created in both, and nothing but it and what is above
it becomes a directory. -/
theorem createDirs (hn : AreNames names)
    (free : ∀ above, above <+: names → above ≠ names → d.file? above = none) :
    ∃ t' d', (FixOp.createDirs (down names)).apply t = .ok t' ∧
      (FixOp.createDirs (down names)).apply d = .ok d' ∧ t'.OnDisk d' ∧
      ∀ more, d'.isDir more = true → d.isDir more = true ∨ more <+: names := by
  have tree : (FixOp.createDirs (down names)).apply t =
      if FileSystem.contains t (down names) then .ok t
      else FileSystem.makeDir t (down names) true := rfl
  have disk : (FixOp.createDirs (down names)).apply d =
      if FileSystem.contains d (down names) then .ok d
      else FileSystem.makeDir d (down names) true := rfl
  rw [tree, disk, h.contains hn]
  by_cases there : FileSystem.contains t (down names) = true
  · rw [if_pos there, if_pos there]
    exact ⟨t, d, rfl, rfl, h, fun _ => .inl⟩
  · rw [if_neg there, if_neg there]
    rw [contains_eq, h.contents names hn, h.isDir names hn, Bool.or_eq_true, not_or,
      Bool.not_eq_true, Bool.not_eq_true, Option.isSome_eq_false_iff,
      Option.isNone_iff_eq_none] at there
    have allFree : ∀ above, above <+: names → d.file? above = none := by
      intro above isPrefix
      by_cases same : above = names
      · rw [same, there.1]
      · exact free above isPrefix same
    have length := Path.length_components_le (down names)
    rw [Path.components_down hn, List.length_cons, List.length_map, String.length_toList] at length
    have enough : names.length < (down names).text.length + 1 := by omega
    obtain ⟨d', made, deepened⟩ := h.sound.makeDirs hn there.2 allFree enough
    refine ⟨t.withDir (down names), d', ?_, ?_, h.withDir hn allFree deepened,
      fun more => (deepened.dirs more).1⟩
    · show t.makeDir (down names) true = _
      rw [makeDir, h.contents names hn, there.1]
      rfl
    · show d.makeDir (down names) true = _
      rw [Disk.makeDir, if_pos rfl, made]
      rfl

end

end OnDisk

end Tree

/-! ## The same files in both -/

/-- Files under their names from the top down, none of them the top, above another or the same. -/
structure Laid (files : List (List String × String)) : Prop where
  names : ∀ f ∈ files, Path.AreNames f.1
  nonempty : ∀ f ∈ files, f.1 ≠ []
  apart : files.Pairwise fun f g => ¬ f.1 <+: g.1 ∧ ¬ g.1 <+: f.1

/-- The tree of files. -/
def Tree.ofFiles (files : List (List String × String)) : Tree :=
  ⟨files.map fun f => (Path.down f.1, f.2), []⟩

/-- The disk with files and the directories above them. -/
def Disk.ofFiles (files : List (List String × String)) : Disk :=
  ⟨files.flatMap fun f => f.1.dropLast.inits, files⟩

section

open WorkspaceLint.Path (AreNames down)

variable {files : List (List String × String)}

theorem Disk.isDir_ofFiles {names : List String} :
    (Disk.ofFiles files).isDir names = true ↔
      names = [] ∨ ∃ f ∈ files, names <+: f.1.dropLast := by
  rw [Disk.isDir_iff]
  simp only [Disk.ofFiles, List.mem_flatMap, List.mem_inits]

theorem Tree.paths_ofFiles (files : List (List String × String)) :
    (Tree.ofFiles files).paths = files.map fun f => down f.1 := by
  rw [Tree.paths, Tree.ofFiles, List.map_map]
  rfl

theorem Tree.plain_ofFiles (names : ∀ f ∈ files, AreNames f.1) : (Tree.ofFiles files).Plain where
  files p member := by
    rw [Tree.paths_ofFiles] at member
    obtain ⟨f, there, rfl⟩ := List.mem_map.1 member
    exact ⟨f.1, names f there, rfl⟩
  dirs := nofun

theorem Tree.contents?_ofFiles (laid : ∀ f ∈ files, AreNames f.1) {names : List String}
    (hn : AreNames names) : (Tree.ofFiles files).contents? (down names) = files.lookup names := by
  rw [Tree.contents?, Tree.ofFiles]
  induction files with
  | nil => rfl
  | cons f files ih =>
    obtain ⟨first, later⟩ := List.forall_mem_cons.1 laid
    have same : (down f.1).same (down names) = (names == f.1) := by
      rw [Bool.eq_iff_iff, Path.same_down first hn, beq_iff_eq, eq_comm]
    rw [List.map_cons, Tree.lookup, List.lookup_cons, ih later, same]
    cases names == f.1 <;> rfl

/-- Files that are laid out make a tree that is on the disk of the same files. -/
theorem Laid.onDisk (laid : Laid files) : (Tree.ofFiles files).OnDisk (Disk.ofFiles files) where
  paths := (Tree.plain_ofFiles laid.names).files
  dirs := nofun
  fileNames := laid.names
  dirNames names member := by
    obtain ⟨f, there, above⟩ := List.mem_flatMap.1 member
    have all := laid.names f there
    exact all.dropLast.of_prefix ((List.mem_inits _ _).1 above)
  contents names hn := Tree.contents?_ofFiles laid.names hn
  isDir names hn := by
    rw [Bool.eq_iff_iff, Disk.isDir_ofFiles, Tree.dirExists_iff, Tree.paths_ofFiles,
      Path.components_down hn]
    constructor
    · rintro (none | ⟨p, none, -⟩ | ⟨p, member, above, other⟩)
      · exact .inl (by simpa using none)
      · cases none
      · obtain ⟨f, there, rfl⟩ := List.mem_map.1 member
        rw [← Path.components_down hn] at above other
        have hf := laid.names f there
        refine .inr ⟨f, there, (prefix_dropLast_iff (laid.nonempty f there)).2
          ⟨(Path.prefix_components_down hn hf).1 above, fun same => other (by rw [same])⟩⟩
    · rintro (rfl | ⟨f, there, above⟩)
      · exact .inl (.inr rfl)
      · obtain ⟨above, other⟩ := (prefix_dropLast_iff (laid.nonempty f there)).1 above
        have hf := laid.names f there
        refine .inr (.inr ⟨down f.1, List.mem_map_of_mem there, ?_, ?_⟩)
        · rw [← Path.components_down hn]
          exact (Path.prefix_components_down hn hf).2 above
        · rw [← Path.components_down hn, Ne, Path.components_down_inj hf hn]
          exact other
  apart names file := by
    obtain ⟨contents, stored⟩ := Option.isSome_iff_exists.1 file
    have member : (names, contents) ∈ files := Disk.mem_of_lookup stored
    rw [Bool.eq_false_iff, Ne, Disk.isDir_ofFiles]
    rintro (none | ⟨f, there, above⟩)
    · exact laid.nonempty _ member none
    · obtain ⟨above, other⟩ := (prefix_dropLast_iff (laid.nonempty f there)).1 above
      have differ : (names, contents) ≠ f := fun same => other (by rw [← same])
      have symmetric : Std.Symm fun f g : List String × String =>
        ¬ f.1 <+: g.1 ∧ ¬ g.1 <+: f.1 := ⟨fun _ _ h => h.symm⟩
      exact (laid.apart.forall member there differ).1 above

end

end WorkspaceLint
