import WorkspaceLint.Proofs.FileSystem.Tree
import WorkspaceLint.Proofs.Manifest.Blocks
import WorkspaceLint.Proofs.Workspace.Caches
import WorkspaceLint.Rule.StandardTsconfig

/-!
# What members are read from

Enumerating members reads the patterns in the manifest of the root and looks at which directories
there are and which of them have a manifest; their names are read from their manifests.  A change
that leaves all of this as it is leaves the members as they are (`SameMembers`).  Rewriting a
manifest with the same patterns and name does, and so does writing a `tsconfig.json` next to a
manifest.
-/

namespace WorkspaceLint

open StandardTsconfig (tsconfigFile)

theorem isName_manifestFile : Path.IsName manifestFile := by decide

theorem isName_tsconfigFile : Path.IsName tsconfigFile := by decide

namespace Path

theorem components_manifest (dir : Path) :
    dir.manifest.components = dir.components ++ [.name manifestFile] :=
  components_entry dir isName_manifestFile

theorem components_tsconfig (dir : Path) :
    (dir.entry tsconfigFile).components = dir.components ++ [.name tsconfigFile] :=
  components_entry dir isName_tsconfigFile

theorem components_manifest_inj {dir dir' : Path} :
    dir.manifest.components = dir'.manifest.components ↔ dir.components = dir'.components := by
  rw [components_manifest, components_manifest]
  exact List.append_left_inj _

theorem components_tsconfig_inj {dir dir' : Path} :
    (dir.entry tsconfigFile).components = (dir'.entry tsconfigFile).components ↔
      dir.components = dir'.components := by
  rw [components_tsconfig, components_tsconfig]
  exact List.append_left_inj _

/-- No `tsconfig.json` is a manifest. -/
theorem components_tsconfig_ne_manifest (dir dir' : Path) :
    (dir.entry tsconfigFile).components ≠ dir'.manifest.components := by
  rw [components_tsconfig, components_manifest]
  intro same
  have last := congrArg List.getLast? same
  rw [List.getLast?_concat, List.getLast?_concat] at last
  exact absurd last (by decide)

end Path

/-- Results with the same image are the same error or values with the same image. -/
theorem cases_of_map_eq_map {ε α β : Type} {f : α → β} {r r' : Except ε α}
    (h : r'.map f = r.map f) :
    (∃ e, r' = .error e ∧ r = .error e) ∨ ∃ a' a, r' = .ok a' ∧ r = .ok a ∧ f a' = f a := by
  rcases r' with e' | a' <;> rcases r with e | a <;> simp_all [Except.map]

namespace Workspace

/-- Two states of a file system have the same members with the same names. -/
structure SameMembers {σ : Type} [FileSystem σ] (fs fs' : σ) : Prop where
  dirs : ∀ root, memberDirs fs' root = memberDirs fs root
  names : ∀ dir, nameAt? fs' dir = nameAt? fs dir

namespace SameMembers

variable {σ : Type} [FileSystem σ] {fs fs₁ fs₂ : σ}

theorem refl (fs : σ) : SameMembers fs fs := ⟨fun _ => rfl, fun _ => rfl⟩

theorem trans (h : SameMembers fs fs₁) (h' : SameMembers fs₁ fs₂) : SameMembers fs fs₂ :=
  ⟨fun root => (h'.dirs root).trans (h.dirs root), fun dir => (h'.names dir).trans (h.names dir)⟩

theorem addNames (h : SameMembers fs fs₁) (names : List (String × Path)) (dirs : List Path) :
    Workspace.addNames fs₁ names dirs = Workspace.addNames fs names dirs := by
  induction dirs generalizing names with
  | nil => rfl
  | cons dir dirs ih => simp only [Workspace.addNames, h.names, ih]

theorem memberNames (h : SameMembers fs fs₁) (dirs : List Path) :
    Workspace.memberNames fs₁ dirs = Workspace.memberNames fs dirs := h.addNames [] dirs

end SameMembers

/-! ## Enumeration -/

section

variable {t t' : Tree}

theorem globDirs_congr (dirs : t'.allDirs = t.allDirs) (root : Path) (pattern : String) :
    FileSystem.globDirs t' root pattern = FileSystem.globDirs t root pattern := by
  rw [Tree.globDirs_eq, Tree.globDirs_eq, dirs]

theorem addFound_congr
    (there : ∀ dir : Path, FileSystem.contains t' dir.manifest = FileSystem.contains t dir.manifest)
    (found dirs : List Path) : addFound t' found dirs = addFound t found dirs := by
  induction dirs generalizing found with
  | nil => rfl
  | cons dir dirs ih => simp only [addFound, there, ih]

theorem declareAll_congr (dirs : t'.allDirs = t.allDirs)
    (there : ∀ dir : Path, FileSystem.contains t' dir.manifest = FileSystem.contains t dir.manifest)
    (root : Path) (found : List Path) (globs : List String) :
    declareAll t' root found globs = declareAll t root found globs := by
  induction globs generalizing found with
  | nil => rfl
  | cons glob globs ih =>
    have one : declare t' root found glob = declare t root found glob := by
      have added : addFound t' found = addFound t found := funext (addFound_congr there found)
      simp only [declare, globDirs_congr dirs, added]
    simp only [declareAll, one, ih]

/-- What is read of a manifest for the members: the patterns and the name. -/
def outline (v : Json) : List String × Option String :=
  (Manifest.workspaceGlobs v, (v.get? "name").bind Json.asString?)

theorem sameMembers_of (dirs : t'.allDirs = t.allDirs)
    (there : ∀ dir : Path, FileSystem.contains t' dir.manifest = FileSystem.contains t dir.manifest)
    (outlines : ∀ dir : Path, (FileSystem.readJson t' dir.manifest).map outline =
      (FileSystem.readJson t dir.manifest).map outline) : SameMembers t t' := by
  constructor
  · intro root
    unfold memberDirs
    obtain ⟨e, read', read⟩ | ⟨v', v, read', read, same⟩ := cases_of_map_eq_map (outlines root)
    · rw [read', read]
      rfl
    · have globs : Manifest.workspaceGlobs v' = Manifest.workspaceGlobs v := congrArg Prod.fst same
      rw [read', read]
      show declareAll t' root [] _ = declareAll t root [] _
      rw [globs, declareAll_congr dirs there]
  · intro dir
    unfold nameAt?
    obtain ⟨e, read', read⟩ | ⟨v', v, read', read, same⟩ := cases_of_map_eq_map (outlines dir)
    · rw [read', read]
    · rw [read', read]
      exact congrArg Prod.snd same

theorem outline_mapBlocks (f : DependencyKind → Members → Members) (m : Manifest) :
    outline (m.mapBlocks f).toJson = outline m.toJson :=
  Prod.ext (Manifest.workspaceGlobs_mapBlocks f m) (Manifest.name?_mapBlocks f m)

theorem sameMembers_withManifest (ordered : t.Ordered) {dir : Path} {v v' : Json}
    (reads : FileSystem.readJson t dir.manifest = .ok v)
    (plain : v'.Plain Json.Reader.nestingLimit) (same : outline v' = outline v) :
    SameMembers t (t.withFile dir.manifest v'.canonical) := by
  have stored := Tree.stored_of_readJson reads
  refine sameMembers_of (ordered.allDirs_withFile_of_stored stored _) (fun d => ?_) fun d => ?_
  · rw [Tree.contains_withFile (Tree.parentExists_of_stored stored)]
    by_cases here : dir.manifest.components = d.manifest.components
    · rw [Tree.contains_eq t, ← Tree.contents?_congr here, stored, Path.same_iff.2 here]
      rfl
    · rw [Bool.eq_false_iff.2 (fun alike => here (Path.same_iff.1 alike)), Bool.false_or]
  · by_cases here : dir.manifest.components = d.manifest.components
    · obtain ⟨text, there, parsed⟩ := Tree.readJson_eq_ok_iff.1 reads
      have before : FileSystem.readJson t d.manifest = .ok v :=
        Tree.readJson_eq_ok_iff.2 ⟨text, by rw [← Tree.contents?_congr here]; exact there, parsed⟩
      rw [Tree.readJson_withFile here plain, before]
      exact congrArg Except.ok same
    · rw [Tree.readJson_withFile_of_ne here]

theorem sameMembers_withTsconfig (ordered : t.Ordered) {dir : Path}
    (stored : (t.contents? dir.manifest).isSome = true) (text : String) :
    SameMembers t (t.withFile (dir.entry tsconfigFile) text) := by
  have parent : t.parentExists (dir.entry tsconfigFile) = true := by
    have housed := Tree.parentExists_of_stored stored
    rw [Path.manifest, Tree.parentExists_entry isName_manifestFile] at housed
    rw [Tree.parentExists_entry isName_tsconfigFile, housed]
  have before : Text.before manifestFile tsconfigFile = true := by decide
  refine sameMembers_of (ordered.allDirs_withFile_of_sibling isName_manifestFile isName_tsconfigFile
    before stored text) (fun d => ?_) fun d => ?_
  · have other := Path.components_tsconfig_ne_manifest dir d
    rw [Tree.contains_withFile parent,
      Bool.eq_false_iff.2 (fun alike => other (Path.same_iff.1 alike)), Bool.false_or]
  · rw [Tree.readJson_withFile_of_ne (Path.components_tsconfig_ne_manifest dir d)]

end

end Workspace

end WorkspaceLint
