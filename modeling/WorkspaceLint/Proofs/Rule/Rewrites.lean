import Mathlib.Data.List.Basic
import WorkspaceLint.Proofs.Rule.Dependencies

/-!
# Rewriting manifests

The fixers of a rule about dependencies set one block after the other in the file of the manifest.
Together they rewrite it (`Tree.Rewritten`): the file is left alone if the manifest is as the rule
wants it, and otherwise holds the canonical text of the revised one (`applied_findings`).
-/

namespace WorkspaceLint

/-- The changes that fix mode owes to a finding: those of the fixer of an error. -/
def Reported.due (r : Reported) : List FixOp := ((Run.fixerToTry true r).map (·.ops)).getD []

/-- The changes that fix mode owes to findings, in their order. -/
def dueOps (rs : List Reported) : List FixOp := rs.flatMap Reported.due

/-! ## Changes in order -/

namespace FixOp

section

variable {σ : Type} [FileSystem σ]

theorem Applied.exists_of_append {fs fs₂ : σ} (ops : List FixOp) {ops' : List FixOp}
    (h : Applied fs (ops ++ ops') fs₂) : ∃ fs₁, Applied fs ops fs₁ ∧ Applied fs₁ ops' fs₂ := by
  induction ops generalizing fs with
  | nil => exact ⟨fs, .nil fs, h⟩
  | cons op ops ih =>
    cases h with
    | cons made rest =>
      obtain ⟨fs₁, first, second⟩ := ih rest
      exact ⟨fs₁, .cons made first, second⟩

/-- Changes lead to one file system only. -/
theorem Applied.unique {fs fs₁ fs₂ : σ} {ops : List FixOp} (h : Applied fs ops fs₁)
    (h' : Applied fs ops fs₂) : fs₁ = fs₂ := by
  induction h with
  | nil fs =>
    cases h'
    rfl
  | cons made rest ih =>
    cases h' with
    | cons made' rest' =>
      rw [made] at made'
      cases made'
      exact ih rest'

theorem Applied.applyOps_eq {fs fs' : σ} {ops : List FixOp} (h : Applied fs ops fs') :
    Fixer.applyOps fs ops = (fs', none) := by
  induction h with
  | nil fs => rfl
  | cons made rest ih =>
    rw [Fixer.applyOps, made]
    exact ih

/-- When all changes that are owed can be made, settling the findings makes them. -/
theorem Applied.settleAll_fst {fs fs' : σ} {rs : List Reported} (h : Applied fs (dueOps rs) fs')
    (name : String) (dir : Path) : (Run.settleAll true name dir fs rs).1 = fs' := by
  induction rs generalizing fs with
  | nil =>
    cases h
    rfl
  | cons r rs ih =>
    obtain ⟨fs₁, first, rest⟩ := Applied.exists_of_append r.due h
    have settled : (Run.settle true name dir fs r).1 = fs₁ := by
      unfold Reported.due at first
      unfold Run.settle
      rcases hf : Run.fixerToTry true r with _ | fixer
      · rw [hf] at first
        cases first
        rfl
      · rw [hf] at first
        have applied : fixer.apply fs = (fs₁, none) := first.applyOps_eq
        simp only [applied]
    rw [Run.settleAll, settled]
    exact ih rest

end

/-- A key of an object is set in a file unless there is a directory too. -/
theorem apply_setJsonKey {t : Tree} {p : Path} {ms : Members}
    (reads : FileSystem.readJson t p = .ok (.object ms)) (key : String) (v : Json) :
    (setJsonKey p key v).apply t =
      if t.created p then .error (.refused .write p .isDirectory)
      else .ok (t.withFile p (Json.object (Members.insert key v ms)).canonical) := by
  have parent := Tree.parentExists_of_stored (Tree.stored_of_readJson reads)
  rw [apply, reads]
  show FileSystem.write t p (Json.object (Members.insert key v ms)).canonical = _
  rw [Tree.write_eq, parent]
  rfl

end FixOp

/-! ## Rewritten manifests -/

/-- The manifest `m` in a directory of a tree becomes `m'`: a file that is rewritten has the
canonical text. -/
inductive Tree.Rewritten (t : Tree) (dir : Path) (m m' : Manifest) : Tree → Prop where
  | kept (same : m' = m) : Rewritten t dir m m' t
  | written (changed : m' ≠ m) :
      Rewritten t dir m m' (t.withFile dir.manifest m'.toJson.canonical)

namespace Tree.Rewritten

variable {t t₁ t₂ : Tree} {dir : Path} {m m₁ m₂ : Manifest}

theorem unique (h : Rewritten t dir m m₁ t₁) (h' : Rewritten t dir m m₁ t₂) : t₁ = t₂ := by
  cases h with
  | kept same =>
    cases h' with
    | kept => rfl
    | written changed => exact absurd same changed
  | written changed =>
    cases h' with
    | kept same => exact absurd same changed
    | written => rfl

/-- A second revision on top of the first, unless it takes the first one back. -/
theorem trans (h : Rewritten t dir m m₁ t₁) (h' : Rewritten t₁ dir m₁ m₂ t₂)
    (onward : m₂ = m → m₁ = m) : Rewritten t dir m m₂ t₂ := by
  cases h with
  | kept same =>
    subst same
    exact h'
  | written changed =>
    have new : m₂ ≠ m := fun back => changed (onward back)
    cases h' with
    | kept same =>
      subst same
      exact .written new
    | written changed' =>
      rw [Tree.withFile_withFile]
      exact .written new

end Tree.Rewritten

/-! ## The fixers of a rule -/

namespace DependencyRule

variable {rule : DependencyRule} {root m : Manifest}

theorem due_of_fixer {f : Finding} {path : Path} {kind : DependencyKind} {block : Members}
    (h : f.fixer = some (rule.blockFixer path root kind block)) :
    Reported.due ⟨.error, f⟩ =
      [.setJsonKey path kind.key (.object (rule.wanted (sharedBy root) kind block))] := by
  simp [Reported.due, Run.fixerToTry, h, blockFixer]

/-- A manifest with some of its blocks as they are wanted. -/
def revisedIn (rule : DependencyRule) (root : Manifest) (kinds : List DependencyKind)
    (m : Manifest) : Manifest :=
  m.mapBlocks (Manifest.only kinds (rule.wanted (sharedBy root)))

theorem revisedIn_nil (rule : DependencyRule) (root m : Manifest) :
    rule.revisedIn root [] m = m := by
  have none : Manifest.only [] (rule.wanted (sharedBy root)) = fun _ block => block := by
    funext kind block
    simp [Manifest.only]
  rw [revisedIn, none]
  exact m.mapBlocks_id

section

variable {kind : DependencyKind} {kinds : List DependencyKind} {block : Members}

theorem plain_revisedIn (rule : DependencyRule) (plainRoot : root.Plain) (plain : m.Plain)
    (kinds : List DependencyKind) : (rule.revisedIn root kinds m).Plain := by
  refine plain.mapBlocks fun other block there => ?_
  unfold Manifest.only
  split
  · exact plainBlock_wanted rule (plainBlock_sharedBy plainRoot other) (plain.block there)
  · exact plain.block there

/-- A block that is as it is wanted need not be revised. -/
theorem revisedIn_cons_of_kept (plain : m.Plain) (new : kind ∉ kinds)
    (kept : ∀ block, m.block? kind = some block → rule.wanted (sharedBy root) kind block = block) :
    rule.revisedIn root (kind :: kinds) m = rule.revisedIn root kinds m := by
  refine Manifest.mapBlocks_congr plain.nodup fun other block there => ?_
  by_cases first : other = kind
  · subst first
    simp [Manifest.only, new, kept block there]
  · simp [Manifest.only, first]

theorem revisedIn_revisedIn (new : kind ∉ kinds) :
    rule.revisedIn root kinds (rule.revisedIn root [kind] m) =
      rule.revisedIn root (kind :: kinds) m := Manifest.only_only new

theorem revisedIn_ne_self (plain : m.Plain) (member : kind ∈ kinds)
    (there : m.block? kind = some block)
    (changed : rule.wanted (sharedBy root) kind block ≠ block) :
    rule.revisedIn root kinds m ≠ m := by
  intro same
  have value := (Manifest.mapBlocks_eq_self_iff plain.nodup).1 same kind block there
  exact changed (by simpa [Manifest.only, member] using value)

/-- Revising one block leaves the findings on others as they are. -/
theorem findings_revisedIn (rule : DependencyRule) (path : Path) (root m : Manifest)
    (new : kind ∉ kinds) :
    rule.findings path (rule.revisedIn root [kind] m) root kinds =
      rule.findings path m root kinds := by
  have blocks : ∀ other ∈ kinds,
      (rule.revisedIn root [kind] m).block? other = m.block? other := by
    intro other member
    have different : other ≠ kind := by
      rintro rfl
      exact new member
    have unchanged : Manifest.only [kind] (rule.wanted (sharedBy root)) other = id := by
      funext block
      simp [Manifest.only, different]
    rw [revisedIn, Manifest.block?_mapBlocks, unchanged, Option.map_id, id]
  unfold findings
  congr 1
  exact List.filterMap_congr fun other member => blockFinding?_congr (blocks other member) rfl

theorem apply_setBlock (rule : DependencyRule) (root : Manifest) {t : Tree} {dir : Path}
    (plain : m.Plain) (reads : FileSystem.readJson t dir.manifest = .ok m.toJson)
    (apart : t.created dir.manifest = false) (there : m.block? kind = some block) :
    (FixOp.setJsonKey dir.manifest kind.key
      (.object (rule.wanted (sharedBy root) kind block))).apply t =
      .ok (t.withFile dir.manifest (rule.revisedIn root [kind] m).toJson.canonical) := by
  have inserted := Manifest.insert_eq_mapBlocks (f := rule.wanted (sharedBy root)) plain.nodup there
  have made := FixOp.apply_setJsonKey reads kind.key
    (.object (rule.wanted (sharedBy root) kind block))
  rw [if_neg (by rw [apart]; exact Bool.false_ne_true)] at made
  exact made.trans (congrArg (fun m' : Manifest =>
    Except.ok (t.withFile dir.manifest m'.toJson.canonical)) inserted)

end

/-- The fixers for some blocks put the manifest with these blocks as they are wanted into its
file. -/
theorem applied_findings_of (rule : DependencyRule) (plainRoot : root.Plain)
    {kinds : List DependencyKind} (nodup : kinds.Nodup) {t : Tree} {dir : Path} (plain : m.Plain)
    (reads : FileSystem.readJson t dir.manifest = .ok m.toJson)
    (apart : t.created dir.manifest = false) :
    ∃ t', t.Rewritten dir m (rule.revisedIn root kinds m) t' ∧
      FixOp.Applied t (dueOps (rule.findings dir.manifest m root kinds)) t' := by
  -- The blocks are set one after the other; those that are left are as they were.
  induction kinds generalizing m t with
  | nil => exact ⟨t, .kept (rule.revisedIn_nil root m), .nil t⟩
  | cons kind kinds ih =>
    obtain ⟨new, rest⟩ := List.nodup_cons.1 nodup
    rcases rule.blockFinding?_cases dir.manifest plain plainRoot kind with
      ⟨none, kept⟩ | ⟨f, block, some, there, changed, fixer⟩
    · rw [revisedIn_cons_of_kept plain new kept, findings, List.filterMap_cons_none none]
      exact ih rest plain reads apart
    · have plain₁ := rule.plain_revisedIn plainRoot plain [kind]
      have made := rule.apply_setBlock root plain reads apart there
      obtain ⟨t', rewritten, applied⟩ := ih rest plain₁ (Tree.readJson_withFile rfl plain₁) apart
      rw [revisedIn_revisedIn new] at rewritten
      rw [findings_revisedIn rule _ root m new] at applied
      have first := revisedIn_ne_self plain (List.mem_singleton_self kind) there changed
      have whole := revisedIn_ne_self plain (List.mem_cons_self (l := kinds)) there changed
      refine ⟨t', (Tree.Rewritten.written first).trans rewritten fun back => absurd back whole, ?_⟩
      rw [findings, List.filterMap_cons_some some, List.map_cons, dueOps, List.flatMap_cons,
        due_of_fixer fixer]
      exact .cons made applied

/-- The fixers of a rule put the revised manifest into its file. -/
theorem applied_findings (rule : DependencyRule) (plainRoot : root.Plain) {t : Tree} {dir : Path}
    (plain : m.Plain) (reads : FileSystem.readJson t dir.manifest = .ok m.toJson)
    (apart : t.created dir.manifest = false) :
    ∃ t', t.Rewritten dir m (rule.revise (sharedBy root) m) t' ∧
      FixOp.Applied t (dueOps (rule.findings dir.manifest m root DependencyKind.all)) t' := by
  have nodup : DependencyKind.all.Nodup := by decide
  have all := applied_findings_of rule plainRoot nodup plain reads apart
  rwa [revisedIn, Manifest.only_all] at all

end DependencyRule

end WorkspaceLint
