import WorkspaceLint.Proofs.FileSystem.Tree
import WorkspaceLint.Proofs.Manifest.Blocks
import WorkspaceLint.Proofs.Run.Repairs
import WorkspaceLint.Proofs.Workspace.Checks
import WorkspaceLint.Rule.BannedDependencies
import WorkspaceLint.Rule.ConsistentDependencies

/-!
# Rules about dependencies

The two rules about dependencies want each block of a manifest to be something else: the versions of
the workspace root in place of its own, or no banned entries.  `DependencyRule.wanted` says what, and
`revise` is the manifest with all blocks as they are wanted.  Revisions do not change anything when
made again and can be made in any order (`reviseAll_perm`).  What the checks report is compared with
the revision: there is a finding on a block exactly when it is not as wanted, and applying the fixers
of the findings puts the revised manifest into the file (`applied_findings`).
-/

namespace WorkspaceLint

/-! ## Manifests that were read -/

section

variable {σ : Type} [FileSystem σ] {fs : σ} {dir : Path} {m : Manifest}

theorem Package.legible_of_load (loaded : Package.load fs dir = .ok m) :
    m.toJson.Legible Json.Reader.nestingLimit := by
  obtain ⟨-, reads⟩ := Package.load_eq_ok_iff.1 loaded
  simp only [FileSystem.readJson, bind_eq_ok_iff, mapError_eq_ok_iff] at reads
  obtain ⟨text, -, parsed⟩ := reads
  exact Json.legible_of_parse parsed

theorem Package.plain_of_load (loaded : Package.load fs dir = .ok m)
    (free : m.toJson.floatFree = true) : m.Plain := ⟨Package.legible_of_load loaded, free⟩

end

/-- A rule about dependencies. -/
inductive DependencyRule where
  | consistent
  | banned (names : PatternSet)
  deriving Inhabited

namespace DependencyRule

/-- The check of a rule. -/
def check : DependencyRule → Check Unit
  | consistent => ConsistentDependencies.check
  | banned names => BannedDependencies.check names

/-! ## Revisions -/

/-- What a rule wants in place of a block of a package, when the workspace root has the blocks
`shared` in common with it. -/
def wanted (rule : DependencyRule) (shared : DependencyKind → Members) (kind : DependencyKind)
    (block : Members) : Members :=
  match rule with
  | consistent => ConsistentDependencies.expected block (shared kind)
  | banned names => BannedDependencies.retained block names

/-- The blocks that packages are compared with. -/
def sharedBy (root : Manifest) (kind : DependencyKind) : Members :=
  if kind ∈ ConsistentDependencies.blocks then (root.block? kind).getD [] else []

/-- Nothing in common, as for the root itself. -/
def nothingShared (_ : DependencyKind) : Members := []

/-- The manifest with all blocks as a rule wants them. -/
def revise (rule : DependencyRule) (shared : DependencyKind → Members) (m : Manifest) : Manifest :=
  m.mapBlocks (rule.wanted shared)

/-- The manifest revised for one rule after the other. -/
def reviseAll (shared : DependencyKind → Members) (rules : List DependencyRule) (m : Manifest) :
    Manifest :=
  rules.foldl (fun m rule => rule.revise shared m) m

variable (rule rule' : DependencyRule) (shared : DependencyKind → Members) (kind : DependencyKind)
  (block : Members)

theorem expected_nil : ConsistentDependencies.expected block [] = block := by
  simp [ConsistentDependencies.expected, Members.get?]

/-- What a rule wants is what it wants in place of that. -/
theorem wanted_wanted :
    rule.wanted shared kind (rule.wanted shared kind block) = rule.wanted shared kind block := by
  cases rule with
  | consistent =>
    simp only [wanted, ConsistentDependencies.expected, List.map_map]
    refine List.map_congr_left fun d _ => ?_
    simp only [Function.comp_apply]
    cases Members.get? d.1 (shared kind) <;> rfl
  | banned names => simp [wanted, BannedDependencies.retained]

/-- Versions are replaced under their names, so it does not matter whether names are banned before
or after that. -/
theorem expected_retained (names : PatternSet) (root : Members) :
    ConsistentDependencies.expected (BannedDependencies.retained block names) root =
      BannedDependencies.retained (ConsistentDependencies.expected block root) names := by
  simp only [BannedDependencies.retained, ConsistentDependencies.expected, List.filter_map]
  rfl

theorem wanted_comm :
    rule.wanted shared kind (rule'.wanted shared kind block) =
      rule'.wanted shared kind (rule.wanted shared kind block) := by
  cases rule with
  | consistent =>
    cases rule' with
    | consistent => rfl
    | banned names => exact expected_retained block names (shared kind)
  | banned names =>
    cases rule' with
    | consistent => exact (expected_retained block names (shared kind)).symm
    | banned names' =>
      simp only [wanted, BannedDependencies.retained, List.filter_filter]
      exact List.filter_congr fun d _ => Bool.and_comm _ _

variable {rule rule' shared kind block}
variable {m : Manifest} {rules rules' : List DependencyRule}

theorem revise_revise : rule.revise shared (rule.revise shared m) = rule.revise shared m := by
  rw [revise, revise, Manifest.mapBlocks_mapBlocks]
  simp only [wanted_wanted]

theorem revise_comm :
    rule.revise shared (rule'.revise shared m) = rule'.revise shared (rule.revise shared m) := by
  simp only [revise, Manifest.mapBlocks_mapBlocks]
  congr 1
  funext kind block
  exact wanted_comm rule rule' shared kind block

theorem name?_reviseAll : (reviseAll shared rules m).name? = m.name? := by
  induction rules generalizing m with
  | nil => rfl
  | cons rule rules ih => exact ih.trans (Manifest.name?_mapBlocks _ m)

/-- The order of the rules does not matter. -/
theorem reviseAll_perm (h : rules.Perm rules') :
    reviseAll shared rules m = reviseAll shared rules' m :=
  h.foldl_eq' (fun _ _ _ _ _ => revise_comm) m

theorem revise_reviseAll_comm :
    rule.revise shared (reviseAll shared rules m) =
      reviseAll shared rules (rule.revise shared m) := by
  induction rules generalizing m with
  | nil => rfl
  | cons first rules ih =>
    show rule.revise shared (reviseAll shared rules (first.revise shared m)) = _
    rw [ih, revise_comm]
    rfl

theorem revise_eq_self_of_wanted (kept : ∀ kind block, rule.wanted shared kind block = block) :
    rule.revise shared m = m := by
  have same : rule.wanted shared = fun _ block => block := funext fun kind => funext (kept kind)
  rw [revise, same, Manifest.mapBlocks_id]

theorem consistent_revise_nothingShared : consistent.revise nothingShared m = m :=
  revise_eq_self_of_wanted fun _ block => expected_nil block

/-- A manifest revised for rules is as each of them wants it. -/
theorem revise_reviseAll (member : rule ∈ rules) :
    rule.revise shared (reviseAll shared rules m) = reviseAll shared rules m := by
  induction rules generalizing m with
  | nil => cases member
  | cons first rules ih =>
    show rule.revise shared (reviseAll shared rules (first.revise shared m)) = _
    rcases List.mem_cons.1 member with rfl | later
    · rw [revise_reviseAll_comm, revise_revise]
      rfl
    · exact ih later

/-- What all revisions together leave as it is, each of them does. -/
theorem revise_eq_self_of_reviseAll (same : reviseAll shared rules m = m) (member : rule ∈ rules) :
    rule.revise shared m = m := by
  have kept : rule.revise shared (reviseAll shared rules m) = reviseAll shared rules m :=
    revise_reviseAll member
  rwa [same] at kept

/-! ### Plain blocks -/

open Manifest (PlainBlock)

theorem plainBlock_nil : PlainBlock [] :=
  Json.plain_object_iff.2 ⟨by decide, List.nodup_nil, nofun⟩

theorem plainBlock_sharedBy {root : Manifest} (plain : root.Plain) (kind : DependencyKind) :
    PlainBlock (sharedBy root kind) := by
  unfold sharedBy
  split
  · rcases hb : root.block? kind with _ | block
    · exact plainBlock_nil
    · exact plain.block hb
  · exact plainBlock_nil

theorem plainBlock_wanted (rule : DependencyRule) (plainShared : PlainBlock (shared kind))
    (plain : PlainBlock block) :
    PlainBlock (rule.wanted shared kind block) := by
  cases rule with
  | consistent =>
    refine Json.Plain.mapValues plain fun d member => ?_
    rcases hv : Members.get? d.1 (shared kind) with _ | v
    · exact (Json.plain_object_iff.1 plain).2.2 d member
    · exact Json.Plain.get? plainShared hv
  | banned names => exact Json.Plain.filter plain _

theorem plain_revise (plainShared : ∀ kind, PlainBlock (shared kind)) (plain : m.Plain) :
    (rule.revise shared m).Plain :=
  plain.mapBlocks fun kind _ there => plainBlock_wanted rule (plainShared kind) (plain.block there)

theorem plain_reviseAll (plainShared : ∀ kind, PlainBlock (shared kind)) (plain : m.Plain) :
    (reviseAll shared rules m).Plain := by
  induction rules generalizing m with
  | nil => exact plain
  | cons rule rules ih => exact ih (plain_revise plainShared plain)

/-- The root is as consistent as itself. -/
theorem revise_sharedBy_self (plain : m.Plain) :
    rule.revise (sharedBy m) m = rule.revise nothingShared m := by
  cases rule with
  | banned names => rfl
  | consistent =>
    refine Manifest.mapBlocks_congr plain.nodup fun kind block there => ?_
    simp only [wanted, nothingShared, expected_nil, sharedBy]
    split
    · rw [there, Option.getD_some, ConsistentDependencies.expected]
      refine (List.map_congr_left fun d member => ?_).trans (List.map_id block)
      have nodup : (Members.keys block).Nodup := Json.Plain.nodup_keys (plain.block there)
      rw [Members.get?_of_mem nodup member]
      rfl
    · exact expected_nil block

/-! ## Findings -/

/-- The finding of a rule on a block. -/
def blockFinding? (rule : DependencyRule) (path : Path) (m root : Manifest)
    (kind : DependencyKind) : Option Finding :=
  match rule with
  | consistent =>
    if kind ∈ ConsistentDependencies.blocks then
      ConsistentDependencies.blockFinding? path m root kind
    else none
  | banned names => BannedDependencies.blockFinding? path m names kind

/-- The findings of a rule on blocks, all of them errors. -/
def findings (rule : DependencyRule) (path : Path) (m root : Manifest)
    (kinds : List DependencyKind) : List Reported :=
  (kinds.filterMap (rule.blockFinding? path m root)).map (Reported.mk .error)

/-- The fixer that sets a block as a rule wants it. -/
def blockFixer (rule : DependencyRule) (path : Path) (root : Manifest) (kind : DependencyKind)
    (block : Members) : Fixer :=
  ⟨[.setJsonKey path kind.key (.object (rule.wanted (sharedBy root) kind block))]⟩

/-- A finding on a block that is not as wanted comes with a fixer that makes it so. -/
theorem blockFinding?_cases (rule : DependencyRule) (path : Path) {m root : Manifest}
    (plain : m.Plain) (plainRoot : root.Plain) (kind : DependencyKind) :
    (rule.blockFinding? path m root kind = none ∧
      ∀ block, m.block? kind = some block → rule.wanted (sharedBy root) kind block = block) ∨
    ∃ f block, rule.blockFinding? path m root kind = some f ∧ m.block? kind = some block ∧
      rule.wanted (sharedBy root) kind block ≠ block ∧
      f.fixer = some (rule.blockFixer path root kind block) := by
  rcases hb : m.block? kind with _ | block
  · left
    refine ⟨?_, nofun⟩
    cases rule <;>
      simp [blockFinding?, ConsistentDependencies.blockFinding?,
        BannedDependencies.blockFinding?, hb]
  · simp only [Option.some.injEq, forall_eq']
    cases rule with
    | banned names =>
      simp only [blockFinding?, BannedDependencies.blockFinding?, hb, Option.bind_eq_bind,
        Option.bind_some, wanted]
      split
      · rename_i same
        exact .inl ⟨rfl, List.filter_eq_self.2 (List.length_filter_eq_length_iff.1 same)⟩
      · rename_i other
        refine .inr ⟨_, block, rfl, rfl, fun same => other (by rw [same]), rfl⟩
    | consistent =>
      simp only [blockFinding?, wanted]
      by_cases compared : kind ∈ ConsistentDependencies.blocks
      · rcases hr : root.block? kind with _ | rootBlock
        · left
          simp [ConsistentDependencies.blockFinding?, hb, hr, sharedBy, expected_nil]
        · have shared : sharedBy root kind = rootBlock := by
            rw [sharedBy, if_pos compared, hr]
            rfl
          simp only [ConsistentDependencies.blockFinding?, hb, hr, compared, if_true, shared,
            Option.bind_eq_bind, Option.bind_some]
          have actual := plain.block hb
          have new : PlainBlock (ConsistentDependencies.expected block rootBlock) := by
            rw [← shared]
            exact plainBlock_wanted consistent (plainBlock_sharedBy plainRoot kind) actual
          have same := Json.compact_inj (new.mono (Nat.sub_le _ 1)).legible new.free
            (actual.mono (Nat.sub_le _ 1)).legible actual.free
          split
          · rename_i kept
            exact .inl ⟨rfl, Json.object.inj (same.1 kept)⟩
          · rename_i changed
            refine .inr ⟨_, block, rfl, rfl, fun kept => changed (same.2 (by rw [kept])), ?_⟩
            simp only [ConsistentDependencies.finding, blockFixer, wanted, shared]
      · left
        simp [compared, sharedBy, expected_nil]

/-- There is a finding on a block exactly when it is not as wanted. -/
theorem isSome_blockFinding?_iff (rule : DependencyRule) (path : Path) {m root : Manifest}
    (plain : m.Plain) (plainRoot : root.Plain) (kind : DependencyKind) :
    (rule.blockFinding? path m root kind).isSome = true ↔
      ∃ block, m.block? kind = some block ∧ rule.wanted (sharedBy root) kind block ≠ block := by
  rcases rule.blockFinding?_cases path plain plainRoot kind with
    ⟨none, kept⟩ | ⟨f, block, some, there, changed, -⟩
  · rw [none]
    refine ⟨fun flag => absurd flag Bool.false_ne_true, ?_⟩
    rintro ⟨block, there, changed⟩
    exact absurd (kept block there) changed
  · rw [some]
    exact ⟨fun _ => ⟨block, there, changed⟩, fun _ => rfl⟩

/-- A finding on a block depends on this block only. -/
theorem blockFinding?_congr {m m' root root' : Manifest} {path : Path}
    (h : m'.block? kind = m.block? kind) (hr : root'.block? kind = root.block? kind) :
    rule.blockFinding? path m' root' kind = rule.blockFinding? path m root kind := by
  cases rule <;>
    simp only [blockFinding?, ConsistentDependencies.blockFinding?,
      BannedDependencies.blockFinding?, h, hr]

/-- There are no findings exactly when the manifest is as the rule wants it. -/
theorem findings_eq_nil_iff {path : Path} {m root : Manifest} (plain : m.Plain)
    (plainRoot : root.Plain) :
    rule.findings path m root DependencyKind.all = [] ↔ rule.revise (sharedBy root) m = m := by
  have none_iff (kind : DependencyKind) : rule.blockFinding? path m root kind = none ↔
      ∀ block, m.block? kind = some block → rule.wanted (sharedBy root) kind block = block := by
    rw [← Option.not_isSome_iff_eq_none, rule.isSome_blockFinding?_iff path plain plainRoot]
    simp only [not_exists, not_and, not_not]
  rw [findings, List.map_eq_nil_iff, List.filterMap_eq_nil_iff, revise,
    Manifest.mapBlocks_eq_self_iff plain.nodup]
  simp only [none_iff, DependencyKind.mem_all, true_implies]

/-! ## What the checks come to -/

/-- What a rule comes to for the package in a directory: its findings, when the manifests that it
looks at can be read. -/
def verdict {σ : Type} [FileSystem σ] (rule : DependencyRule) (fs : σ) (root dir : Path) :
    Except RuleError (List Reported) :=
  match rule with
  | consistent => do
    let r ← (Package.load fs root).mapError .config
    let m ← (Package.load fs dir).mapError .config
    return consistent.findings dir.manifest m r DependencyKind.all
  | banned names => do
    let m ← (Package.load fs dir).mapError .config
    return (banned names).findings dir.manifest m m DependencyKind.all

section

variable {σ : Type} [FileSystem σ] {fs : σ} {o : Context}

open Check

theorem comesTo_reportEach (find : DependencyKind → Option Finding)
    {report : List DependencyKind → Check Unit} (nil : report [] = pure ())
    (cons : ∀ kind kinds, report (kind :: kinds) = do
      match find kind with
      | some f => Check.report .error f
      | none => pure ()
      report kinds)
    (kinds : List DependencyKind) :
    ComesTo fs o (report kinds) (.ok ()) ((kinds.filterMap find).map (Reported.mk .error)) := by
  induction kinds with
  | nil =>
    rw [nil]
    exact .pure ()
  | cons kind kinds ih =>
    rw [cons, List.filterMap_cons]
    rcases find kind with _ | f
    · show ComesTo fs o ((pure () : Check Unit) >>= fun _ => report kinds) _ _
      exact (ComesTo.pure ()).bind ih
    · show ComesTo fs o (Check.report .error f >>= fun _ => report kinds) _ _
      exact (ComesTo.report .error f).bind ih

theorem comesTo_reportBlocks_consistent (path : Path) (m root : Manifest) :
    ComesTo fs o (ConsistentDependencies.reportBlocks path m root ConsistentDependencies.blocks)
      (.ok ()) (consistent.findings path m root DependencyKind.all) :=
  comesTo_reportEach (ConsistentDependencies.blockFinding? path m root) rfl
    (fun _ _ => rfl) ConsistentDependencies.blocks

theorem comesTo_reportBlocks_banned (path : Path) (m root : Manifest) (names : PatternSet) :
    ComesTo fs o (BannedDependencies.reportBlocks path m names DependencyKind.all)
      (.ok ()) ((banned names).findings path m root DependencyKind.all) :=
  comesTo_reportEach (BannedDependencies.blockFinding? path m names) rfl
    (fun _ _ => rfl) DependencyKind.all

theorem judges_check (rule : DependencyRule) {root : Path} (inside : o.workspaceDir = .ok root) :
    Judges fs o rule.check (rule.verdict fs root o.dir) := by
  cases rule with
  | consistent =>
    refine Judges.bind (.rootManifest inside) fun r _ => ?_
    refine Judges.bind .manifest fun m _ => ?_
    exact .of_comesTo (ComesTo.dir.bind (comesTo_reportBlocks_consistent o.dir.manifest m r))
  | banned names =>
    refine Judges.bind .manifest fun m _ => ?_
    exact .of_comesTo (ComesTo.dir.bind (comesTo_reportBlocks_banned o.dir.manifest m m names))

end

end DependencyRule

end WorkspaceLint
