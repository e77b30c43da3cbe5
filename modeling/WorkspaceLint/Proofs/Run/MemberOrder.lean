import WorkspaceLint.Proofs.Run.Alike

/-!
# The order of members

What local rules find and change for a member does not depend on which members were fixed before
it (`Run.localMembers_eq`).  Permuting the patterns of the root manifest therefore permutes the
blocks of the report, one for each package, and leaves the same files (`Run.run_reordered`).
-/

namespace WorkspaceLint

open StandardTsconfig (tsconfigFile)

namespace Tree

/-- Trees that differ in the manifest of the root alone, and there in what is declared of the
workspace, where the same patterns stand in some order. -/
structure Reordered (root : Path) (m m' : Manifest) (t t' : Tree) : Prop where
  stored : ∃ text, t' = t.withFile root.manifest text
  loaded : Package.load t root = .ok m
  loaded' : Package.load t' root = .ok m'
  globs : (Manifest.workspaceGlobs m.toJson).Perm (Manifest.workspaceGlobs m'.toJson)
  others : ∀ key, key ≠ "workspaces" → m'.toJson.get? key = m.toJson.get? key

variable {root dir : Path} {m m' : Manifest} {t t' : Tree}

theorem memberDirs_of_load (loaded : Package.load t root = .ok m) :
    Workspace.memberDirs t root =
      Workspace.declareAll t root [] (Manifest.workspaceGlobs m.toJson) := by
  unfold Workspace.memberDirs
  rw [load_eq_ok_iff.1 loaded]
  rfl

namespace Reordered

theorem contents (h : Reordered root m m' t t') {p : Path}
    (other : p.components ≠ root.manifest.components) : t'.contents? p = t.contents? p := by
  obtain ⟨text, rfl⟩ := h.stored
  rw [contents?_withFile, if_neg fun same => other (Path.same_iff.1 same).symm]

theorem there (h : Reordered root m m' t t') (p : Path) :
    FileSystem.contains t' p = FileSystem.contains t p := by
  obtain ⟨text, rfl⟩ := h.stored
  rw [contains_withFile (parentExists_of_stored (stored_of_load h.loaded))]
  by_cases here : root.manifest.same p = true
  · rw [contains_eq t, ← contents?_congr (Path.same_iff.1 here), stored_of_load h.loaded, here]
    rfl
  · rw [Bool.eq_false_iff.2 here, Bool.false_or]

theorem digest (h : Reordered root m m' t t') : m'.digest = m.digest := by
  refine Prod.ext (congrArg (Option.bind · Json.asString?) (h.others "name" (by decide)))
    (funext fun kind => ?_)
  exact congrArg (Option.bind · Json.asObject?) (h.others kind.key (by cases kind <;> decide))

theorem load (h : Reordered root m m' t t') (other : root.components ≠ dir.components) :
    Package.load t' dir = Package.load t dir := by
  have same := h.contents (p := dir.manifest) fun same =>
    other (Path.components_manifest_inj.1 same).symm
  rw [Package.load, Package.load, h.there, readJson_congr same]

theorem load_digest (h : Reordered root m m' t t') (dir : Path) :
    (Package.load t' dir).map Manifest.digest = (Package.load t dir).map Manifest.digest := by
  by_cases itself : dir.components = root.components
  · rw [load_of_components itself h.loaded, load_of_components itself h.loaded']
    exact congrArg Except.ok h.digest
  · rw [h.load (Ne.symm itself)]

theorem nameAt? (h : Reordered root m m' t t') (dir : Path) :
    Workspace.nameAt? t' dir = Workspace.nameAt? t dir := by
  unfold Workspace.nameAt?
  by_cases itself : dir.components = root.components
  · rw [load_eq_ok_iff.1 (load_of_components itself h.loaded),
      load_eq_ok_iff.1 (load_of_components itself h.loaded')]
    exact congrArg Prod.fst h.digest
  · rw [readJson_congr (h.contents fun same => itself (Path.components_manifest_inj.1 same))]

/-- The members are the same, in some order. -/
theorem memberDirs (h : Reordered root m m' t t') (sound : t.Sound)
    (positive : ∀ glob ∈ Manifest.workspaceGlobs m.toJson, Workspace.negated? glob = none) :
    (∃ trouble trouble', Workspace.memberDirs t root = .error trouble ∧
      Workspace.memberDirs t' root = .error trouble') ∨
    ∃ ds ds', Workspace.memberDirs t root = .ok ds ∧ Workspace.memberDirs t' root = .ok ds' ∧
      ds.Perm ds' := by
  have dirs : t'.allDirs = t.allDirs := by
    obtain ⟨text, rfl⟩ := h.stored
    exact sound.ordered.allDirs_withFile_of_stored (stored_of_load h.loaded) text
  obtain ⟨status, order⟩ := @Workspace.declareAll_perm t root _ _ positive h.globs
  rw [memberDirs_of_load h.loaded, memberDirs_of_load h.loaded',
    Workspace.declareAll_congr dirs fun dir => h.there dir.manifest]
  rcases declared : Workspace.declareAll t root [] (Manifest.workspaceGlobs m.toJson) with
      trouble | ds <;>
    rcases declared' : Workspace.declareAll t root [] (Manifest.workspaceGlobs m'.toJson) with
      trouble' | ds' <;>
    rw [declared, declared'] at status
  · exact .inl ⟨trouble, trouble', rfl, rfl⟩
  · cases status
  · cases status
  · exact .inr ⟨ds, ds', rfl, rfl, order ds ds' declared declared'⟩

/-- When no two members have the same name, such trees are alike for every package. -/
theorem alike (h : Reordered root m m' t t') (sound : t.Sound)
    (positive : ∀ glob ∈ Manifest.workspaceGlobs m.toJson, Workspace.negated? glob = none)
    (distinct : ∀ ds, Workspace.memberDirs t root = .ok ds → Workspace.DistinctNames t ds)
    (dir : Path) : Alike root dir t t' where
  dirs := by
    obtain ⟨text, rfl⟩ := h.stored
    rfl
  tsconfig := h.contents (Path.components_tsconfig_ne_manifest dir root)
  there := h.there _
  manifest := h.load_digest dir
  rootManifest := h.load_digest root
  text member := h.contents fun same => member (Path.components_manifest_inj.1 same).symm
  names := by
    unfold Workspace.nameTable
    obtain ⟨trouble, trouble', members, members'⟩ | ⟨ds, ds', members, members', order⟩ :=
      h.memberDirs sound positive
    · rw [members, members']
      rfl
    · rw [members, members']
      exact congrArg some (funext fun name =>
        Workspace.lookup_memberNames_perm (distinct ds members) order (fun d _ => h.nameAt? d) name)

end Reordered

end Tree

namespace Run

/-! ## Reports in blocks -/

/-- What a run reports for one package. -/
structure Block where
  findings : List FindingRecord
  failures : List FailureRecord

/-- A block that only speaks of the package in a directory. -/
structure Block.About (dir : Path) (b : Block) : Prop where
  findings : ∀ r ∈ b.findings, r.packageDir = dir
  failures : ∀ r ∈ b.failures, r.packageDir = some dir

/-- An outcome whose report is, after the failures of the configuration, one block after the other
for packages in order. -/
structure InBlocks (config : ResolvedConfig) (block : Path → Block) (dirs : List Path)
    (o : Outcome) : Prop where
  findings : o.findings = dirs.flatMap fun dir => (block dir).findings
  failures : o.failures = config.failures ++ dirs.flatMap fun dir => (block dir).failures

/-- What progress reports. -/
def Progress.block {σ : Type} (p : Progress σ) : Block := ⟨p.findings, p.failures⟩

variable {of : RuleEntry → LocalRule} {config : ResolvedConfig} {root dir : Path} {t s : Tree}

theorem packageDir_settle (fix : Bool) (name : String) (label : Path) (t : Tree) (r : Reported) :
    (settle fix name label t r).2.packageDir = label := by
  unfold settle
  split
  · rfl
  · split <;> rfl

theorem packageDir_settleAll (fix : Bool) (name : String) (label : Path) (t : Tree)
    (rs : List Reported) : ∀ f ∈ (settleAll fix name label t rs).2, f.packageDir = label := by
  induction rs generalizing t with
  | nil => exact nofun
  | cons r rs ih => exact List.forall_mem_cons.2 ⟨packageDir_settle fix name label t r, ih _⟩

theorem about_localRules (fix : Bool) (t : Tree) (es : List RuleEntry) :
    (localRules of fix root dir t es).block.About dir := by
  induction es generalizing t with
  | nil => exact ⟨nofun, nofun⟩
  | cons e es ih =>
    have failure : ∀ r ∈ (localRule of fix root dir t e).failures, r.packageDir = some dir := by
      unfold localRule
      rcases (of e).verdict t root dir with trouble | rs
      · exact List.forall_mem_singleton.2 rfl
      · exact nofun
    have rest := ih (localRule of fix root dir t e).fs
    exact ⟨List.forall_mem_append.2 ⟨packageDir_settleAll fix _ _ _ _, rest.findings⟩,
      List.forall_mem_append.2 ⟨failure, rest.failures⟩⟩

theorem about_localRoot (of : RuleEntry → LocalRule) (config : ResolvedConfig) (root : Path)
    (t : Tree) : (localRoot of config root t).block.About root := by
  unfold localRoot
  split
  · exact about_localRules config.settings.fix t (rootRules config)
  · exact ⟨nofun, nofun⟩

theorem about_localMember (of : RuleEntry → LocalRule) (config : ResolvedConfig) (root : Path)
    (t : Tree) (dir : Path) : (localMember of config root t dir).block.About dir := by
  unfold localMember
  split
  · exact ⟨nofun, List.forall_mem_singleton.2 rfl⟩
  · exact about_localRules config.settings.fix t _

/-! ## Members one by one -/

theorem packagesChecked_localRules (fix : Bool) (t : Tree) (es : List RuleEntry) :
    (localRules of fix root dir t es).packagesChecked = 0 := by
  induction es generalizing t with
  | nil => rfl
  | cons e es ih => exact (Nat.zero_add _).trans (ih (localRule of fix root dir t e).fs)

theorem packagesChecked_localMember (of : RuleEntry → LocalRule) (config : ResolvedConfig)
    (root : Path) (t : Tree) (dir : Path) :
    (localMember of config root t dir).packagesChecked = if isUsable t dir then 1 else 0 := by
  unfold localMember
  rcases loaded : Package.load t dir with e | m
  · rw [not_isUsable_of_load loaded]
    rfl
  · rw [isUsable_of_load loaded]
    exact congrArg (· + 1) (packagesChecked_localRules config.settings.fix t _)

/-- Fixing another member leaves a tree that is alike for a package. -/
theorem alike_localMember {dir' : Path} (h : Tree.Alike root dir t s) (sound : s.Sound)
    (other : dir.components ≠ dir'.components) (member : root.components ≠ dir'.components) :
    Tree.Alike root dir t (localMember of config root s dir').fs := by
  obtain ⟨confined, -⟩ := confined_localMember of config root sound dir'
  refine h.frame (.refl dir' t) confined other ?_
  rw [confined.load member, h.rootManifest]

/-- Members that are different directories, none of them the root. -/
structure Separate (root : Path) (dirs : List Path) : Prop where
  pairwise : dirs.Pairwise fun dir dir' => dir.components ≠ dir'.components
  apart : ∀ dir ∈ dirs, root.components ≠ dir.components

/-- The members after the first are fixed on a tree that is alike for them as well. -/
theorem alike_rest {dirs : List Path} (separate : Separate root (dir :: dirs)) (sound : s.Sound)
    (alike : ∀ d ∈ dir :: dirs, Tree.Alike root d t s) :
    ∀ d ∈ dirs, Tree.Alike root d t (localMember of config root s dir).fs := by
  obtain ⟨first, -⟩ := List.pairwise_cons.1 separate.pairwise
  intro d member
  exact alike_localMember (alike d (List.mem_cons_of_mem dir member)) sound
    (first d member).symm (separate.apart dir List.mem_cons_self)

theorem Separate.tail {dirs : List Path} (h : Separate root (dir :: dirs)) : Separate root dirs :=
  ⟨(List.pairwise_cons.1 h.pairwise).2, (List.forall_mem_cons.1 h.apart).2⟩

/-- Members are reported on as if each of them came first. -/
theorem localMembers_eq (of : RuleEntry → LocalRule) (fix : config.settings.fix = true)
    (listed : (Workspace.memberDirs t root).isOk = true) (sound : t.Sound) (sound' : s.Sound)
    {dirs : List Path} (separate : Separate root dirs)
    (alike : ∀ d ∈ dirs, Tree.Alike root d t s) :
    (localMembers of config root s dirs).findings =
        dirs.flatMap (fun d => (localMember of config root t d).findings) ∧
      (localMembers of config root s dirs).failures =
        dirs.flatMap (fun d => (localMember of config root t d).failures) ∧
      (localMembers of config root s dirs).packagesChecked = dirs.countP (isUsable t) := by
  -- `s` is the tree as the members before `dirs` left it; that it is alike for those in `dirs` is
  -- all that the induction keeps of it.
  induction dirs generalizing s with
  | nil => exact ⟨rfl, rfl, rfl⟩
  | cons dir dirs ih =>
    have first := inStep_localMember of fix (alike dir List.mem_cons_self) sound sound'
    obtain ⟨findings, failures, packagesChecked⟩ := ih
      (confined_localMember of config root sound' dir).2 separate.tail
      (alike_rest separate sound' alike)
    refine ⟨congrArg₂ (· ++ ·) first.findings findings,
      congrArg₂ (· ++ ·) (first.failures listed) failures, ?_⟩
    rw [List.countP_cons, Nat.add_comm, ← packagesChecked_localMember of config root t dir]
    exact congrArg₂ (· + ·) first.packagesChecked packagesChecked

theorem contents_localMembers_of_not_owned (sound : s.Sound) {dirs : List Path} {p : Path}
    (free : ∀ d ∈ dirs, ¬ Tree.OwnedBy d p) :
    (localMembers of config root s dirs).fs.contents? p = s.contents? p := by
  induction dirs generalizing s with
  | nil => rfl
  | cons dir dirs ih =>
    obtain ⟨first, later⟩ := List.forall_mem_cons.1 free
    obtain ⟨confined, sound'⟩ := confined_localMember of config root sound dir
    exact (ih sound' later).trans (confined.contents p first)

/-- The files of a member end up as if it came first. -/
theorem contents_localMembers_of_owned (fix : config.settings.fix = true) (sound : t.Sound)
    (sound' : s.Sound) {dirs : List Path} (separate : Separate root dirs)
    (alike : ∀ d ∈ dirs, Tree.Alike root d t s) (member : dir ∈ dirs) {p : Path}
    (owned : Tree.OwnedBy dir p) :
    (localMembers of config root s dirs).fs.contents? p =
      (localMember of config root t dir).fs.contents? p := by
  induction dirs generalizing s with
  | nil => cases member
  | cons first dirs ih =>
    have sound₁ := (confined_localMember of config root sound' first).2
    rcases List.mem_cons.1 member with rfl | later
    · -- What the member does to its files is done to `t` as well, and no later member owns them.
      have after := (inStep_localMember of fix (alike dir List.mem_cons_self) sound
        sound').alike
      have free : ∀ d ∈ dirs, ¬ Tree.OwnedBy d p := by
        intro d later
        have other := (List.pairwise_cons.1 separate.pairwise).1 d later
        rcases owned with here | here <;> rw [Tree.ownedBy_congr here]
        · exact Tree.not_ownedBy_manifest other
        · exact Tree.not_ownedBy_tsconfig other
      refine (contents_localMembers_of_not_owned sound₁ free).trans ?_
      rcases owned with here | here <;> rw [Tree.contents?_congr here, Tree.contents?_congr here]
      · exact after.text (separate.apart dir List.mem_cons_self)
      · exact after.tsconfig
    · exact ih sound₁ separate.tail (alike_rest separate sound' alike) later

theorem separate_of_memberDirs {m : Manifest} (loaded : Package.load t root = .ok m)
    (positive : ∀ glob ∈ Manifest.workspaceGlobs m.toJson, Workspace.negated? glob = none)
    (apart : RootApart t root) {ds : List Path}
    (members : Workspace.memberDirs t root = .ok ds) : Separate root ds := by
  have declared := Tree.memberDirs_of_load loaded ▸ members
  have known : ∀ d ∈ ds, d ∈ t.allDirs := by
    intro d member
    obtain ⟨-, glob, -, matched, one, there⟩ :=
      ((Workspace.mem_declareAll_iff positive (List.forall_mem_nil _) declared).1
        member).resolve_left List.not_mem_nil
    exact Workspace.mem_allDirs_of_globDirs one d there
  refine ⟨?_, apart.components_ne members []⟩
  exact (Workspace.nodup_declareAll positive .nil declared).imp_of_mem fun hd hd' ne same =>
    ne (Workspace.eq_of_mem_allDirs (known _ hd) (known _ hd') same)

theorem Separate.selected {ds : List Path} (h : Separate root ds) (paths : List Path) :
    Separate root (selected root paths ds) := by
  unfold Run.selected
  split
  · exact h
  · exact ⟨h.pairwise.filter _, fun d member => h.apart d (List.mem_filter.1 member).1⟩

theorem Separate.nodup {dirs : List Path} (h : Separate root dirs) : (root :: dirs).Nodup :=
  List.nodup_cons.2 ⟨fun member => h.apart root member rfl, h.pairwise.imp fun ne same =>
    ne (congrArg Path.components same)⟩

theorem selected_perm {ds ds' : List Path} (order : ds.Perm ds') (root : Path)
    (paths : List Path) : (selected root paths ds).Perm (selected root paths ds') := by
  unfold selected
  split
  · exact order
  · exact order.filter _

/-! ## Runs on trees that are alike -/

/-- What local rules report for a package, members as if each of them came first. -/
def localBlock (of : RuleEntry → LocalRule) (config : ResolvedConfig) (root : Path) (t : Tree)
    (dir : Path) : Block :=
  if dir = root then (localRoot of config root t).block
  else (localMember of config root (localRoot of config root t).fs dir).block

theorem about_localBlock (of : RuleEntry → LocalRule) (config : ResolvedConfig) (root : Path)
    (t : Tree) (dir : Path) : (localBlock of config root t dir).About dir := by
  unfold localBlock
  split
  · rename_i itself
    exact itself ▸ about_localRoot of config root t
  · exact about_localMember of config root _ dir

section

variable {t' : Tree} {ds ds' : List Path} (fix : config.settings.fix = true)
  (same : ∀ e ∈ config.rules, e.rule.check = (of e).check) (sound : t.Sound) (sound' : t'.Sound)
  (alike : ∀ dir, Tree.Alike root dir t t')

section

include fix sound sound' alike

/-- The trees that the root leaves are alike for members. -/
theorem alike_localRoot (member : root.components ≠ dir.components) :
    Tree.Alike root dir (localRoot of config root t).fs (localRoot of config root t').fs :=
  (alike dir).frame (confined_localRoot of config root sound).1
    (confined_localRoot of config root sound').1 member.symm
    (inStep_localRoot of fix (alike root) sound sound').alike.rootManifest

theorem contents_localRoot {p : Path} (other : p.components ≠ root.manifest.components)
    (kept : t'.contents? p = t.contents? p) :
    (localRoot of config root t').fs.contents? p = (localRoot of config root t).fs.contents? p := by
  by_cases here : p.components = (root.entry tsconfigFile).components
  · rw [Tree.contents?_congr here, Tree.contents?_congr here]
    exact (inStep_localRoot of fix (alike root) sound sound').alike.tsconfig
  · have free : ¬ Tree.OwnedBy root p := fun owned => owned.elim other here
    rw [(confined_localRoot of config root sound').1.contents p free,
      (confined_localRoot of config root sound).1.contents p free, kept]

end

section

variable (apart : RootApart t' root) (members : Workspace.memberDirs t' root = .ok ds)
  (separate : Separate root (selected root config.settings.paths ds))

include fix same sound sound' alike apart members separate

theorem inBlocks_run (listed : (Workspace.memberDirs t root).isOk = true) {o : Outcome}
    (ends : (run config t' root).1 = .ok o) :
    InBlocks config (localBlock of config root t)
        (root :: selected root config.settings.paths ds) o ∧
      o.packagesChecked = (localRoot of config root t).packagesChecked +
        (selected root config.settings.paths ds).countP
          (isUsable (localRoot of config root t).fs) := by
  obtain ⟨confined, left⟩ := confined_localRoot of config root sound
  obtain ⟨-, right⟩ := confined_localRoot of config root sound'
  have first := inStep_localRoot of fix (alike root) sound sound'
  obtain ⟨findings, failures, packagesChecked⟩ := localMembers_eq of fix
    (by rw [confined.members.dirs, listed]) left right separate fun d member =>
      alike_localRoot fix sound sound' alike (separate.apart d member)
  rw [run_eq_of_memberDirs sound' apart same members] at ends
  obtain rfl := Except.ok.inj ends
  have own : localBlock of config root t root = (localRoot of config root t).block := if_pos rfl
  have others : ∀ d ∈ selected root config.settings.paths ds, localBlock of config root t d =
      (localMember of config root (localRoot of config root t).fs d).block := fun d member =>
    if_neg fun itself => separate.apart d member (congrArg Path.components itself.symm)
  refine ⟨⟨?_, ?_⟩, ?_⟩
  · rw [List.flatMap_cons, own, List.flatMap_congr fun d member => by rw [others d member]]
    exact (List.nil_append _).trans (congrArg₂ (· ++ ·) first.findings findings)
  · rw [List.flatMap_cons, own, List.flatMap_congr fun d member => by rw [others d member]]
    exact congrArg (config.failures ++ ·) (congrArg₂ (· ++ ·) (first.failures listed) failures)
  · exact (Nat.zero_add _).trans (congrArg₂ (· + ·) first.packagesChecked packagesChecked)

/-- A file ends up as the member leaves it that owns it, or else as the root does. -/
theorem contents_run (p : Path) :
    (∀ d ∈ selected root config.settings.paths ds, Tree.OwnedBy d p →
      (run config t' root).2.contents? p =
        (localMember of config root (localRoot of config root t).fs d).fs.contents? p) ∧
    ((∀ d ∈ selected root config.settings.paths ds, ¬ Tree.OwnedBy d p) →
      (run config t' root).2.contents? p = (localRoot of config root t').fs.contents? p) := by
  have left := (confined_localRoot of config root sound).2
  have right := (confined_localRoot of config root sound').2
  rw [run_eq_of_memberDirs sound' apart same members]
  refine ⟨fun d member owned => ?_, contents_localMembers_of_not_owned right⟩
  exact contents_localMembers_of_owned fix left right separate (fun d member =>
    alike_localRoot fix sound sound' alike (separate.apart d member)) member owned

end

include fix same sound sound' alike

theorem contents_run_perm (apart : RootApart t root) (apart' : RootApart t' root)
    (members : Workspace.memberDirs t root = .ok ds)
    (members' : Workspace.memberDirs t' root = .ok ds')
    (separate : Separate root (selected root config.settings.paths ds))
    (separate' : Separate root (selected root config.settings.paths ds'))
    (order : (selected root config.settings.paths ds).Perm
      (selected root config.settings.paths ds'))
    {p : Path} (other : p.components ≠ root.manifest.components)
    (kept : t'.contents? p = t.contents? p) :
    (run config t' root).2.contents? p = (run config t root).2.contents? p := by
  obtain ⟨owned, free⟩ := contents_run fix same sound sound
    (fun dir => .refl root dir t) apart members separate p
  obtain ⟨owned', free'⟩ := contents_run fix same sound sound' alike apart' members' separate' p
  by_cases owner : ∃ d ∈ selected root config.settings.paths ds, Tree.OwnedBy d p
  · obtain ⟨d, member, owns⟩ := owner
    rw [owned' d (order.mem_iff.1 member) owns, owned d member owns]
  · have unowned : ∀ d ∈ selected root config.settings.paths ds, ¬ Tree.OwnedBy d p :=
      fun d member owns => owner ⟨d, member, owns⟩
    rw [free' fun d member => unowned d (order.mem_iff.2 member), free unowned]
    exact contents_localRoot fix sound sound' alike other kept

end

theorem run_snd_of_memberDirs_error {m : Manifest} {trouble : Trouble}
    (same : ∀ e ∈ config.rules, e.rule.check = (of e).check) (sound : t.Sound)
    (apart : RootApart t root) (loaded : Package.load t root = .ok m)
    (members : Workspace.memberDirs t root = .error trouble) :
    (run config t root).2 = (localRoot of config root t).fs := by
  have there := (Package.load_eq_ok_iff.1 loaded).1
  rw [run_eq_local sound apart same, Package.open?_eq_ok_iff.2 ⟨there, rfl⟩]
  simp only [members]

/-- Running local rules in fix mode on workspaces that declare their members in another order leaves
the same files and reports the same block for the root and for each member. -/
theorem run_reordered {m m' : Manifest} {t' : Tree} (fix : config.settings.fix = true)
    (locals : ∀ e ∈ config.rules, ∃ rule : LocalRule, e.rule.check = rule.check)
    (reordered : Tree.Reordered root m m' t t') (sound : t.Sound) (sound' : t'.Sound)
    (positive : ∀ glob ∈ Manifest.workspaceGlobs m.toJson, Workspace.negated? glob = none)
    (apart : RootApart t root)
    (distinct : ∀ ds, Workspace.memberDirs t root = .ok ds → Workspace.DistinctNames t ds) :
    (∀ p : Path, p.components ≠ root.manifest.components →
      (run config t' root).2.contents? p = (run config t root).2.contents? p) ∧
    (run config t' root).1.isOk = (run config t root).1.isOk ∧
    ∀ o o', (run config t root).1 = .ok o → (run config t' root).1 = .ok o' →
      ∃ (ds ds' : List Path) (block : Path → Block),
        Workspace.memberDirs t root = .ok ds ∧ Workspace.memberDirs t' root = .ok ds' ∧
        ds.Perm ds' ∧ (root :: ds).Nodup ∧ (∀ dir, (block dir).About dir) ∧
        InBlocks config block (root :: selected root config.settings.paths ds) o ∧
        InBlocks config block (root :: selected root config.settings.paths ds') o' ∧
        o'.packagesChecked = o.packagesChecked := by
  obtain ⟨of, same⟩ := exists_assigned locals
  have alike := reordered.alike sound positive distinct
  obtain ⟨trouble, trouble', members, members'⟩ | ⟨ds, ds', members, members', order⟩ :=
    reordered.memberDirs sound positive
  -- Without the members both runs end after the root.
  · have apart' : RootApart t' root := fun ds found => by
      rw [members'] at found
      cases found
    have ends : (run config t root).1.isOk = false := by
      rw [isOk_run sound apart same, members]
      rfl
    have ends' : (run config t' root).1.isOk = false := by
      rw [isOk_run sound' apart' same, members']
      rfl
    refine ⟨fun p other => ?_, ends'.trans ends.symm, fun o o' done => ?_⟩
    · rw [run_snd_of_memberDirs_error same sound apart reordered.loaded members,
        run_snd_of_memberDirs_error same sound' apart' reordered.loaded' members']
      exact contents_localRoot fix sound sound' alike other (reordered.contents other)
    · rw [done] at ends
      cases ends
  -- Both runs are compared with what members do right after the root of `t`.
  · have apart' : RootApart t' root := by
      intro found are
      obtain rfl := Except.ok.inj (members'.symm.trans are)
      exact order.any_eq.symm.trans (apart ds members)
    have listed : (Workspace.memberDirs t root).isOk = true := by
      rw [members]
      rfl
    have positive' : ∀ glob ∈ Manifest.workspaceGlobs m'.toJson, Workspace.negated? glob = none :=
      fun glob member => positive glob (reordered.globs.mem_iff.2 member)
    have separate := separate_of_memberDirs reordered.loaded positive apart members
    have separate' := separate_of_memberDirs reordered.loaded' positive' apart' members'
    have chosen := selected_perm order root config.settings.paths
    refine ⟨fun p other => ?_, ?_, fun o o' done done' => ?_⟩
    · exact contents_run_perm fix same sound sound' alike apart apart' members members'
        (separate.selected _) (separate'.selected _) chosen other (reordered.contents other)
    · rw [isOk_run sound' apart' same, isOk_run sound apart same, members, members']
      rfl
    · obtain ⟨blocks, checked⟩ := inBlocks_run fix same sound sound
        (fun dir => .refl root dir t) apart members (separate.selected _) listed done
      obtain ⟨blocks', checked'⟩ := inBlocks_run fix same sound sound' alike apart' members'
        (separate'.selected _) listed done'
      refine ⟨ds, ds', localBlock of config root t, members, members', order, separate.nodup,
        about_localBlock of config root t, blocks, blocks', ?_⟩
      rw [checked, checked', chosen.countP_eq]

/-- A banned name and the versions of the root in every package, and a template for members. -/
def dependenciesAndTsconfig : ResolvedConfig where
  rules := [
    ⟨"banned", ⟨BannedDependencies.kind.info, (LocalRule.dependencies
      (.banned ((PatternSet.ofList ["x"]).toOption.getD .empty))).check⟩, ⟨.empty, .empty, true⟩⟩,
    ⟨"consistent", ⟨ConsistentDependencies.kind.info,
      (LocalRule.dependencies .consistent).check⟩, .allMembers⟩,
    ⟨"tsconfig", ⟨StandardTsconfig.kind.info,
      (LocalRule.tsconfig [("strict", .bool true)] .empty).check⟩, .allMembers⟩]
  settings := ⟨true, []⟩
  failures := []

/-- The manifest of a root that lists its members. -/
def listing (globs : List String) : Manifest :=
  ⟨[("dependencies", .object [("y", .string "2")]),
    ("workspaces", .array (globs.map Json.string))]⟩

theorem plain_listing (globs : List String) : (listing globs).Plain := by
  have versions : (Json.object [("y", .string "2")]).Plain (Json.Reader.nestingLimit - 1) :=
    Json.plain_object_iff.2 ⟨by decide, by decide,
      List.forall_mem_singleton.2 (Json.plain_string _ "2")⟩
  have patterns : (Json.array (globs.map Json.string)).Plain (Json.Reader.nestingLimit - 1) :=
    Json.plain_array (by decide) (List.forall_mem_map.2 fun glob _ => Json.plain_string _ glob)
  have keys : ["dependencies", "workspaces"].Nodup := by decide
  exact Json.plain_object_iff.2 ⟨by decide, keys,
    List.forall_mem_cons.2 ⟨versions, List.forall_mem_singleton.2 patterns⟩⟩

/-- Two members, the first of which depends on the second one. -/
def listedMembers (globs : List String) : Tree where
  files := [
    jsonFile "/w/a/package.json" (.object [("dependencies",
      .object [("b", .string "*"), ("x", .string "1")])]),
    jsonFile "/w/b/package.json" (.object [("dependencies", .object [("y", .string "1")]),
      ("name", .string "b")]),
    jsonFile "/w/package.json" (listing globs).toJson]
  dirs := []

theorem run_reordered_listedMembers :
    Workspace.memberDirs (listedMembers ["a", "b"]) ⟨"/w"⟩ = .ok [⟨"/w/a"⟩, ⟨"/w/b"⟩] ∧
    Workspace.memberDirs (listedMembers ["b", "a"]) ⟨"/w"⟩ = .ok [⟨"/w/b"⟩, ⟨"/w/a"⟩] ∧
    (run dependenciesAndTsconfig (listedMembers ["a", "b"]) ⟨"/w"⟩).1.isOk = true ∧
    (∀ p : Path, p.components ≠ (Path.manifest ⟨"/w"⟩).components →
      (run dependenciesAndTsconfig (listedMembers ["b", "a"]) ⟨"/w"⟩).2.contents? p =
        (run dependenciesAndTsconfig (listedMembers ["a", "b"]) ⟨"/w"⟩).2.contents? p) ∧
    (run dependenciesAndTsconfig (listedMembers ["b", "a"]) ⟨"/w"⟩).1.isOk =
      (run dependenciesAndTsconfig (listedMembers ["a", "b"]) ⟨"/w"⟩).1.isOk ∧
    ∀ o o', (run dependenciesAndTsconfig (listedMembers ["a", "b"]) ⟨"/w"⟩).1 = .ok o →
      (run dependenciesAndTsconfig (listedMembers ["b", "a"]) ⟨"/w"⟩).1 = .ok o' →
      ∃ (ds ds' : List Path) (block : Path → Block),
        Workspace.memberDirs (listedMembers ["a", "b"]) ⟨"/w"⟩ = .ok ds ∧
        Workspace.memberDirs (listedMembers ["b", "a"]) ⟨"/w"⟩ = .ok ds' ∧
        ds.Perm ds' ∧ (⟨"/w"⟩ :: ds).Nodup ∧ (∀ dir, (block dir).About dir) ∧
        InBlocks dependenciesAndTsconfig block (⟨"/w"⟩ :: selected ⟨"/w"⟩ [] ds) o ∧
        InBlocks dependenciesAndTsconfig block (⟨"/w"⟩ :: selected ⟨"/w"⟩ [] ds') o' ∧
        o'.packagesChecked = o.packagesChecked := by
  have locals : ∀ e ∈ dependenciesAndTsconfig.rules, ∃ rule : LocalRule,
      e.rule.check = rule.check :=
    List.forall_mem_cons.2 ⟨⟨.dependencies (.banned _), rfl⟩, List.forall_mem_cons.2
      ⟨⟨.dependencies .consistent, rfl⟩, List.forall_mem_singleton.2 ⟨.tsconfig _ _, rfl⟩⟩⟩
  have reordered : Tree.Reordered ⟨"/w"⟩ (listing ["a", "b"]) (listing ["b", "a"])
      (listedMembers ["a", "b"]) (listedMembers ["b", "a"]) := {
    stored := ⟨(listing ["b", "a"]).toJson.canonical, by decide +kernel⟩
    loaded := Tree.load_eq_ok_iff.2 (Tree.readJson_eq_ok_iff.2
      ⟨_, by decide +kernel, (plain_listing ["a", "b"]).parse_canonical⟩)
    loaded' := Tree.load_eq_ok_iff.2 (Tree.readJson_eq_ok_iff.2
      ⟨_, by decide +kernel, (plain_listing ["b", "a"]).parse_canonical⟩)
    globs := .swap "b" "a" []
    others := fun key other => by
      show Members.get? key (listing ["b", "a"]).members =
        Members.get? key (listing ["a", "b"]).members
      simp only [listing, Members.get?, Ne.symm other, if_false] }
  have sound : (listedMembers ["a", "b"]).Sound :=
    (Tree.floatFree_of_files (by decide +kernel)).sound (by decide +kernel)
  have sound' : (listedMembers ["b", "a"]).Sound :=
    (Tree.floatFree_of_files (by decide +kernel)).sound (by decide +kernel)
  have members : Workspace.memberDirs (listedMembers ["a", "b"]) ⟨"/w"⟩ =
      .ok [⟨"/w/a"⟩, ⟨"/w/b"⟩] := eq_ok_of_toOption_eq (by decide +kernel)
  have members' : Workspace.memberDirs (listedMembers ["b", "a"]) ⟨"/w"⟩ =
      .ok [⟨"/w/b"⟩, ⟨"/w/a"⟩] := eq_ok_of_toOption_eq (by decide +kernel)
  have apart : RootApart (listedMembers ["a", "b"]) ⟨"/w"⟩ :=
    rootApart_of_all (by rw [members]; decide +kernel)
  have ends : (run dependenciesAndTsconfig (listedMembers ["a", "b"]) ⟨"/w"⟩).1.isOk = true := by
    obtain ⟨of, same⟩ := exists_assigned locals
    rw [isOk_run sound apart same, members]
    rfl
  have distinct : ∀ ds, Workspace.memberDirs (listedMembers ["a", "b"]) ⟨"/w"⟩ = .ok ds →
      Workspace.DistinctNames (listedMembers ["a", "b"]) ds := by
    intro ds found
    obtain rfl := Except.ok.inj (members.symm.trans found)
    unfold Workspace.DistinctNames
    decide +kernel
  exact ⟨members, members', ends,
    run_reordered rfl locals reordered sound sound' (by decide +kernel) apart distinct⟩

end Run

end WorkspaceLint
