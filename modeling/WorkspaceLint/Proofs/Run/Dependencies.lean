import WorkspaceLint.Proofs.Run.Local

/-!
# Runs of rules about dependencies

Fixing a package leaves its manifest revised for all the rules that are for it, whatever their order
(`revised_localRules`).  The members are compared with the root as its own rules left it, and what a
member wants does not depend on other members.  So runs with the rules in any order leave the same
files, and there every rule finds its package as it wants it (`dependencies_converge`).
-/

namespace WorkspaceLint

namespace Tree

variable {t t₁ t₂ : Tree} {dir : Path}

/-- No path is both a stored file and a created directory. -/
def FilesApart (t : Tree) : Prop := ∀ p, (t.contents? p).isSome = true → t.created p = false

theorem FilesApart.withFile (apart : t.FilesApart) {p : Path}
    (stored : (t.contents? p).isSome = true) (contents : String) :
    (t.withFile p contents).FilesApart := by
  intro q there
  rw [contents?_withFile] at there
  show t.created q = false
  split at there
  · rename_i same
    rw [created_congr (Path.same_iff.1 same).symm]
    exact apart p stored
  · exact apart q there

/-- A tree after the manifest in a directory was revised, if there is one that can be read. -/
def Revised (t : Tree) (dir : Path) (revision : Manifest → Manifest) (t' : Tree) : Prop :=
  match Package.load t dir with
  | .error _ => t' = t
  | .ok m => t.Rewritten dir m (revision m) t'

namespace Revised

variable {revision : Manifest → Manifest}

theorem unique (h : t.Revised dir revision t₁) (h' : t.Revised dir revision t₂) : t₁ = t₂ := by
  unfold Revised at h h'
  rcases loaded : Package.load t dir with e | m <;> rw [loaded] at h h'
  · rw [h, h']
  · exact h.unique h'

theorem filesApart (h : t.Revised dir revision t₁) (apart : t.FilesApart) : t₁.FilesApart := by
  unfold Revised at h
  split at h
  · rwa [h]
  · rename_i m loaded
    cases h with
    | kept same => exact apart
    | written changed => exact apart.withFile (stored_of_load loaded) _

end Revised

end Tree

namespace DependencyRule

variable {t : Tree} {root dir : Path} {m : Manifest} {rule : DependencyRule}

/-- What packages have in common with the root of a tree, nothing if its manifest cannot be read. -/
def sharedIn (t : Tree) (root : Path) : DependencyKind → Members :=
  match Package.load t root with
  | .ok r => sharedBy r
  | .error _ => nothingShared

theorem sharedIn_of_load {r : Manifest} (rootLoaded : Package.load t root = .ok r) :
    sharedIn t root = sharedBy r := by
  rw [sharedIn, rootLoaded]

theorem plainBlock_sharedIn (sound : t.Sound) (kind : DependencyKind) :
    Manifest.PlainBlock (sharedIn t root kind) := by
  unfold sharedIn
  rcases loaded : Package.load t root with e | r
  · exact plainBlock_nil
  · exact plainBlock_sharedBy (sound.plain loaded) kind

theorem outline_reviseAll (shared : DependencyKind → Members) (rules : List DependencyRule)
    (m : Manifest) :
    Workspace.outline (reviseAll shared rules m).toJson = Workspace.outline m.toJson := by
  induction rules generalizing m with
  | nil => rfl
  | cons rule rules ih => exact (ih _).trans (Workspace.outline_mapBlocks _ m)

/-- What a rule finds on a manifest that can be read are the blocks that are not as wanted.  When it
finds nothing for want of a root manifest, every block is as wanted. -/
theorem found_cases (rule : DependencyRule) (loaded : Package.load t dir = .ok m) (plain : m.Plain)
    (plainRoot : ∀ r, Package.load t root = .ok r → r.Plain) :
    (∃ r : Manifest, r.Plain ∧ rule.wanted (sharedBy r) = rule.wanted (sharedIn t root) ∧
      (LocalRule.dependencies rule).found t root dir =
        rule.findings dir.manifest m r DependencyKind.all) ∨
    (LocalRule.dependencies rule).found t root dir = [] ∧
      ∀ kind block, rule.wanted (sharedIn t root) kind block = block := by
  unfold LocalRule.found LocalRule.verdict
  cases rule with
  | banned names =>
    refine .inl ⟨m, plain, rfl, ?_⟩
    simp only [verdict, loaded]
    rfl
  | consistent =>
    rcases rootLoaded : Package.load t root with e | r
    · refine .inr ⟨?_, fun kind block => ?_⟩
      · simp only [verdict, rootLoaded]
        rfl
      · rw [sharedIn, rootLoaded]
        exact expected_nil block
    · refine .inl ⟨r, plainRoot r rootLoaded, by rw [sharedIn_of_load rootLoaded], ?_⟩
      simp only [verdict, loaded, rootLoaded]
      rfl

theorem found_eq_nil (sound : t.Sound) (loaded : Package.load t dir = .ok m)
    (wanted : rule.revise (sharedIn t root) m = m) :
    (LocalRule.dependencies rule).found t root dir = [] := by
  rcases rule.found_cases loaded (sound.plain loaded) fun _ => sound.plain with
    ⟨r, plainRoot, same, found⟩ | ⟨none, -⟩
  · rw [found, findings_eq_nil_iff (sound.plain loaded) plainRoot, revise, same]
    exact wanted
  · exact none

/-- Fixing what a rule finds revises the manifest. -/
theorem rewritten_settleAll (rule : DependencyRule) (sound : t.Sound)
    (apart : t.created dir.manifest = false) (loaded : Package.load t dir = .ok m) (root : Path)
    (name : String) (label : Path) :
    t.Rewritten dir m (rule.revise (sharedIn t root) m)
      (Run.settleAll true name label t ((LocalRule.dependencies rule).found t root dir)).1 := by
  rcases rule.found_cases loaded (sound.plain loaded) fun _ => sound.plain with
    ⟨r, plainRoot, same, found⟩ | ⟨none, kept⟩
  · obtain ⟨t', rewritten, applied⟩ :=
      rule.applied_findings plainRoot (sound.plain loaded) (Tree.load_eq_ok_iff.1 loaded) apart
    rw [found, applied.settleAll_fst name label, revise, ← same]
    exact rewritten
  · rw [none]
    exact .kept (revise_eq_self_of_wanted kept)

end DependencyRule

namespace Run

open DependencyRule (sharedIn reviseAll nothingShared)

section

variable {of : RuleEntry → LocalRule} {dep : RuleEntry → DependencyRule} {root dir : Path}
  {t t₁ : Tree} {es es' : List RuleEntry}

/-- A tree and all that come from it by changes in one package agree on what they share with the
root, as far as the manifest of the package can tell. -/
def Sharing (root dir : Path) (shared : DependencyKind → Members) (t : Tree) : Prop :=
  ∀ (t₁ : Tree) (m : Manifest), t.Confined dir t₁ → t₁.Sound → Package.load t₁ dir = .ok m →
    ∀ rule : DependencyRule, rule.revise (sharedIn t₁ root) m = rule.revise shared m

theorem sharing_member (apart : root.components ≠ dir.components) (t : Tree) :
    Sharing root dir (sharedIn t root) t := by
  intro t₁ m confined _ _ rule
  rw [sharedIn, confined.load apart, ← sharedIn]

theorem sharing_root (root : Path) (t : Tree) : Sharing root root nothingShared t := by
  intro t₁ m _ sound loaded rule
  rw [sharedIn, loaded]
  exact DependencyRule.revise_sharedBy_self (sound.plain loaded)

theorem rewritten_localRules {shared : DependencyKind → Members}
    (sharing : Sharing root dir shared t)
    (sound : t.Sound) (apart : t.FilesApart) {m : Manifest} (loaded : Package.load t dir = .ok m)
    (plain : ∀ kind, Manifest.PlainBlock (shared kind))
    (is : ∀ e ∈ es, of e = .dependencies (dep e)) :
    t.Rewritten dir m (reviseAll shared (es.map dep) m) (localRules of true root dir t es).fs := by
  induction es generalizing t m with
  | nil => exact .kept rfl
  | cons e es ih =>
    obtain ⟨first, later⟩ := List.forall_mem_cons.1 is
    have rewritten := (dep e).rewritten_settleAll sound
      (apart _ (Tree.stored_of_load loaded)) loaded
      root e.name dir
    rw [sharing t m (.refl dir t) sound loaded, ← first] at rewritten
    obtain ⟨confined, sound', loaded'⟩ := rewritten.confined sound loaded
      (DependencyRule.plain_revise plain (sound.plain loaded)) (Workspace.outline_mapBlocks _ m)
    have revised : t.Revised dir ((dep e).revise shared) (localRule of true root dir t e).fs := by
      rw [Tree.Revised, loaded]
      exact rewritten
    have apart' := revised.filesApart apart
    have rest := ih (fun t₁ m₁ further => sharing t₁ m₁ (confined.trans further)) sound' apart'
      loaded' later
    exact rewritten.trans rest fun same =>
      DependencyRule.revise_eq_self_of_reviseAll same List.mem_cons_self

theorem localRules_of_load_error {e : ConfigError} (missing : Package.load t dir = .error e) :
    (localRules of true root dir t es).fs = t := by
  induction es with
  | nil => rfl
  | cons e es ih =>
    have kept : (localRule of true root dir t e).fs = t := by
      rw [localRule, (of e).found_of_load_error missing]
      rfl
    show (localRules of true root dir (localRule of true root dir t e).fs es).fs = t
    rw [kept, ih]

/-- Rules about dependencies leave the manifest of a package revised for each of them. -/
theorem revised_localRules {shared : DependencyKind → Members}
    (sharing : Sharing root dir shared t) (sound : t.Sound) (apart : t.FilesApart)
    (plain : ∀ kind, Manifest.PlainBlock (shared kind))
    (is : ∀ e ∈ es, of e = .dependencies (dep e)) :
    t.Revised dir (reviseAll shared (es.map dep)) (localRules of true root dir t es).fs := by
  unfold Tree.Revised
  split
  · rename_i missing
    exact localRules_of_load_error missing
  · rename_i loaded
    exact rewritten_localRules sharing sound apart loaded plain is

end

section

variable {of : RuleEntry → LocalRule} {dep : RuleEntry → DependencyRule} {root dir : Path}
  {t t₁ : Tree} {config config' : ResolvedConfig}

/-- The root, after its rules, is revised for all of them. -/
theorem revised_localRoot (root : Path) (fix : config.settings.fix = true) (sound : t.Sound)
    (apart : t.FilesApart) (is : ∀ e ∈ config.rules, of e = .dependencies (dep e)) :
    t.Revised root (reviseAll nothingShared ((rootRules config).map dep))
      (localRoot of config root t).fs := by
  have rootIs : ∀ e ∈ rootRules config, of e = .dependencies (dep e) :=
    fun e member => is e (List.mem_filter.1 member).1
  have revised := revised_localRules (sharing_root root t) sound apart
    (fun _ => DependencyRule.plainBlock_nil) rootIs
  unfold localRoot
  rw [fix]
  split
  · exact revised
  · rename_i unused
    rw [rootRules_eq_nil unused] at revised ⊢
    exact revised

/-- A member, after its rules, is revised for all of them. -/
theorem revised_localMember (fix : config.settings.fix = true) (sound : t.Sound)
    (apart : t.FilesApart) (is : ∀ e ∈ config.rules, of e = .dependencies (dep e))
    (other : root.components ≠ dir.components) :
    t.Revised dir (fun m => reviseAll (sharedIn t root) ((rulesFor config m.name?).map dep) m)
      (localMember of config root t dir).fs := by
  unfold localMember Tree.Revised
  rcases loaded : Package.load t dir with e | m
  · rfl
  · simp only [fix]
    exact rewritten_localRules (sharing_member other t) sound apart loaded
      (DependencyRule.plainBlock_sharedIn sound) fun e member => is e (List.mem_filter.1 member).1

theorem filesApart_localMember (fix : config.settings.fix = true) (sound : t.Sound)
    (apart : t.FilesApart) (is : ∀ e ∈ config.rules, of e = .dependencies (dep e))
    (other : root.components ≠ dir.components) :
    (localMember of config root t dir).fs.FilesApart :=
  (revised_localMember fix sound apart is other).filesApart apart

/-! ## Any order -/

section

variable (order : config.rules.Perm config'.rules) (fix : config.settings.fix = true)
  (fix' : config'.settings.fix = true) (is : ∀ e ∈ config.rules, of e = .dependencies (dep e))
include order fix fix' is

theorem fs_localRoot_perm (sound : t.Sound) (apart : t.FilesApart) :
    (localRoot of config' root t).fs = (localRoot of config root t).fs := by
  have is' : ∀ e ∈ config'.rules, of e = .dependencies (dep e) := by
    simpa only [order.mem_iff] using is
  have revised := revised_localRoot root fix sound apart is
  have revised' := revised_localRoot root fix' sound apart is'
  have same : reviseAll nothingShared ((rootRules config).map dep) =
      reviseAll nothingShared ((rootRules config').map dep) :=
    funext fun m => DependencyRule.reviseAll_perm ((order.filter _).map dep)
  rw [← same] at revised'
  exact revised'.unique revised

theorem fs_localMember_perm (sound : t.Sound) (apart : t.FilesApart)
    (other : root.components ≠ dir.components) :
    (localMember of config' root t dir).fs = (localMember of config root t dir).fs := by
  have is' : ∀ e ∈ config'.rules, of e = .dependencies (dep e) := by
    simpa only [order.mem_iff] using is
  have revised := revised_localMember fix sound apart is other
  have revised' := revised_localMember fix' sound apart is' other
  have same (m : Manifest) :
      reviseAll (sharedIn t root) ((rulesFor config m.name?).map dep) m =
        reviseAll (sharedIn t root) ((rulesFor config' m.name?).map dep) m :=
    DependencyRule.reviseAll_perm ((order.filter _).map dep)
  simp only [← same] at revised'
  exact revised'.unique revised

theorem fs_localMembers_perm (sound : t.Sound) (apart : t.FilesApart) {dirs : List Path}
    (others : ∀ dir ∈ dirs, root.components ≠ dir.components) :
    (localMembers of config' root t dirs).fs = (localMembers of config root t dirs).fs := by
  induction dirs generalizing t with
  | nil => rfl
  | cons dir dirs ih =>
    obtain ⟨first, later⟩ := List.forall_mem_cons.1 others
    show (localMembers of config' root (localMember of config' root t dir).fs dirs).fs =
      (localMembers of config root (localMember of config root t dir).fs dirs).fs
    rw [fs_localMember_perm order fix fix' is sound apart first]
    exact ih (confined_localMember of config root sound dir).2
      (filesApart_localMember fix sound apart is first)
      later

/-- Runs of the same rules in two orders leave the same files. -/
theorem run_snd_perm (paths : config'.settings.paths = config.settings.paths) (sound : t.Sound)
    (apart : t.FilesApart) (outside : RootApart t root)
    (same : ∀ e ∈ config.rules, e.rule.check = (of e).check) :
    (run config' t root).2 = (run config t root).2 := by
  have same' : ∀ e ∈ config'.rules, e.rule.check = (of e).check := by
    simpa only [order.mem_iff] using same
  rw [run_eq_local sound outside same, run_eq_local sound outside same']
  rcases Package.open? t root with e | package
  · rfl
  simp only [fs_localRoot_perm order fix fix' is sound apart, paths]
  rcases members : Workspace.memberDirs t root with trouble | dirs
  · rfl
  · exact fs_localMembers_perm order fix fix' is (confined_localRoot of config root sound).2
      ((revised_localRoot root fix sound apart is).filesApart apart)
      (outside.components_ne members _)

end

/-! ## Nothing left to find -/

/-- The manifest in a directory, if it can be read, is as the rules for its package want it. -/
def AsWanted (dep : RuleEntry → DependencyRule) (rules : Option String → List RuleEntry)
    (root dir : Path) (t : Tree) : Prop :=
  ∀ m, Package.load t dir = .ok m →
    ∀ e ∈ rules m.name?, (dep e).revise (sharedIn t root) m = m

variable {rules : Option String → List RuleEntry}

/-- A manifest that was revised for the rules is as they want it. -/
theorem asWanted_of_revised {shared : DependencyKind → Members} (sound : t.Sound)
    (sharing : Sharing root dir shared t) (plain : ∀ kind, Manifest.PlainBlock (shared kind))
    (revised : t.Revised dir (fun m => reviseAll shared ((rules m.name?).map dep) m) t₁) :
    AsWanted dep rules root dir t₁ := by
  intro m' loaded' e member
  unfold Tree.Revised at revised
  split at revised
  · rename_i missing
    rw [revised, missing] at loaded'
    cases loaded'
  · rename_i m loaded
    obtain ⟨confined, sound', now⟩ := revised.confined sound loaded
      (DependencyRule.plain_reviseAll plain (sound.plain loaded))
      (DependencyRule.outline_reviseAll shared _ m)
    rw [sharing t₁ m' confined sound' loaded']
    obtain rfl := Except.ok.inj (now.symm.trans loaded')
    rw [DependencyRule.name?_reviseAll] at member
    exact DependencyRule.revise_reviseAll (List.mem_map_of_mem member)

/-- Changes in other packages leave a manifest as it is wanted. -/
theorem AsWanted.frame {dir' : Path} (h : AsWanted dep rules root dir t)
    (confined : t.Confined dir' t₁) (other : dir.components ≠ dir'.components)
    (rootOther : root.components ≠ dir'.components) : AsWanted dep rules root dir t₁ := by
  intro m loaded
  rw [sharedIn, confined.load rootOther, ← sharedIn]
  rw [confined.load other] at loaded
  exact h m loaded

theorem AsWanted.of_components {dir' : Path} (h : AsWanted dep rules root dir t)
    (same : dir.components = dir'.components) : AsWanted dep rules root dir' t :=
  fun m loaded => h m (Tree.load_of_components same loaded)

/-- The root stays as it is wanted when members are fixed. -/
theorem AsWanted.root_after_members {dirs : List Path}
    (h : AsWanted dep rules root root t) (sound : t.Sound)
    (others : ∀ dir ∈ dirs, root.components ≠ dir.components) :
    AsWanted dep rules root root (localMembers of config root t dirs).fs := by
  induction dirs generalizing t with
  | nil => exact h
  | cons dir dirs ih =>
    obtain ⟨first, later⟩ := List.forall_mem_cons.1 others
    obtain ⟨confined, sound'⟩ := confined_localMember of config root sound dir
    exact ih (h.frame confined first first) sound' later

section

variable (fix : config.settings.fix = true)
  (is : ∀ e ∈ config.rules, of e = .dependencies (dep e))
include fix is

theorem asWanted_localMember (sound : t.Sound) (apart : t.FilesApart)
    (other : root.components ≠ dir.components) :
    AsWanted dep (rulesFor config) root dir (localMember of config root t dir).fs :=
  asWanted_of_revised sound (sharing_member other t) (DependencyRule.plainBlock_sharedIn sound)
    (revised_localMember fix sound apart is other)

/-- What is as wanted stays so when members are fixed. -/
theorem AsWanted.after_members {dirs : List Path}
    (h : AsWanted dep (rulesFor config) root dir t) (sound : t.Sound) (apart : t.FilesApart)
    (others : ∀ dir ∈ dirs, root.components ≠ dir.components) :
    AsWanted dep (rulesFor config) root dir (localMembers of config root t dirs).fs := by
  induction dirs generalizing t with
  | nil => exact h
  | cons dir' dirs ih =>
    obtain ⟨first, later⟩ := List.forall_mem_cons.1 others
    obtain ⟨confined, sound'⟩ := confined_localMember of config root sound dir'
    refine ih ?_ sound' (filesApart_localMember fix sound apart is first) later
    by_cases here : dir'.components = dir.components
    · exact (asWanted_localMember fix is sound apart first).of_components here
    · exact h.frame confined (Ne.symm here) first

/-- All members that were fixed are as wanted in the end. -/
theorem asWanted_localMembers {dirs : List Path} (sound : t.Sound) (apart : t.FilesApart)
    (others : ∀ dir ∈ dirs, root.components ≠ dir.components) :
    ∀ dir ∈ dirs, AsWanted dep (rulesFor config) root dir
      (localMembers of config root t dirs).fs := by
  induction dirs generalizing t with
  | nil => exact nofun
  | cons dir dirs ih =>
    obtain ⟨first, later⟩ := List.forall_mem_cons.1 others
    have sound' := (confined_localMember of config root sound dir).2
    have apart' := filesApart_localMember fix sound apart is first
    refine List.forall_mem_cons.2 ⟨?_, ih sound' apart' later⟩
    exact (asWanted_localMember fix is sound apart first).after_members fix is sound' apart' later

end

/-! ### Another run -/

/-- Rules that find nothing report nothing and change nothing. -/
theorem localRules_clean {fix : Bool} {es : List RuleEntry}
    (none : ∀ e ∈ es, (of e).found t root dir = []) :
    (localRules of fix root dir t es).findings = [] ∧ (localRules of fix root dir t es).fs = t := by
  induction es with
  | nil => exact ⟨rfl, rfl⟩
  | cons e es ih =>
    obtain ⟨first, later⟩ := List.forall_mem_cons.1 none
    have kept : (localRule of fix root dir t e).fs = t ∧
        (localRule of fix root dir t e).findings = [] := by
      rw [localRule, first]
      exact ⟨rfl, rfl⟩
    show (localRule of fix root dir t e).findings ++
        (localRules of fix root dir (localRule of fix root dir t e).fs es).findings = [] ∧
      (localRules of fix root dir (localRule of fix root dir t e).fs es).fs = t
    rw [kept.1, kept.2]
    exact ih later

/-- On a manifest that is as wanted the rules for its package find nothing. -/
theorem AsWanted.found_eq_nil (h : AsWanted dep rules root dir t) (sound : t.Sound) {m : Manifest}
    (loaded : Package.load t dir = .ok m) {e : RuleEntry} (member : e ∈ rules m.name?)
    (is : of e = .dependencies (dep e)) : (of e).found t root dir = [] := by
  rw [is]
  exact DependencyRule.found_eq_nil sound loaded (h m loaded e member)

section

variable (order : config.rules.Perm config'.rules)
  (is : ∀ e ∈ config.rules, of e = .dependencies (dep e))
include order is

theorem localRoot_clean (sound : t.Sound)
    (wanted : AsWanted dep (fun _ => rootRules config) root root t) :
    (localRoot of config' root t).findings = [] ∧ (localRoot of config' root t).fs = t := by
  unfold localRoot
  split
  · refine localRules_clean fun e member => ?_
    have member' : e ∈ rootRules config := (order.filter _).mem_iff.2 member
    rcases loaded : Package.load t root with e' | m
    · exact (of e).found_of_load_error loaded
    · exact wanted.found_eq_nil sound loaded member' (is e (List.mem_filter.1 member').1)
  · exact ⟨rfl, rfl⟩

theorem localMember_clean (sound : t.Sound) (wanted : AsWanted dep (rulesFor config) root dir t) :
    (localMember of config' root t dir).findings = [] ∧
      (localMember of config' root t dir).fs = t := by
  unfold localMember
  split
  · exact ⟨rfl, rfl⟩
  · rename_i m loaded
    refine localRules_clean fun e member => ?_
    have member' : e ∈ rulesFor config m.name? := (order.filter _).mem_iff.2 member
    exact wanted.found_eq_nil sound loaded member' (is e (List.mem_filter.1 member').1)

theorem localMembers_clean (sound : t.Sound) {dirs : List Path}
    (wanted : ∀ dir ∈ dirs, AsWanted dep (rulesFor config) root dir t) :
    (localMembers of config' root t dirs).findings = [] ∧
      (localMembers of config' root t dirs).fs = t := by
  induction dirs with
  | nil => exact ⟨rfl, rfl⟩
  | cons dir dirs ih =>
    obtain ⟨first, later⟩ := List.forall_mem_cons.1 wanted
    obtain ⟨none, kept⟩ := localMember_clean order is sound first
    show (localMember of config' root t dir).findings ++
        (localMembers of config' root (localMember of config' root t dir).fs dirs).findings = [] ∧
      (localMembers of config' root (localMember of config' root t dir).fs dirs).fs = t
    rw [none, kept]
    exact ih later

end

/-- After a run in fix mode, another run with the same rules in any order finds nothing. -/
theorem findings_after_run (order : config.rules.Perm config'.rules)
    (fix : config.settings.fix = true) (paths : config'.settings.paths = config.settings.paths)
    (sound : t.Sound) (apart : t.FilesApart) (outside : RootApart t root)
    (same : ∀ e ∈ config.rules, e.rule.check = (of e).check)
    (is : ∀ e ∈ config.rules, of e = .dependencies (dep e)) :
    (run config' (run config t root).2 root).1.isOk = (run config t root).1.isOk ∧
      ∀ o, (run config' (run config t root).2 root).1 = .ok o → o.findings = [] := by
  obtain ⟨members, sound'⟩ := sameMembers_run sound outside same
  have outside' := outside.of_sameMembers members
  have same' : ∀ e ∈ config'.rules, e.rule.check = (of e).check := by
    simpa only [order.mem_iff] using same
  have ends := isOk_run sound' outside' same'
  rw [members.dirs] at ends
  refine ⟨ends.trans (isOk_run sound outside same).symm, fun o ok => ?_⟩
  rcases found : Workspace.memberDirs t root with trouble | dirs
  · rw [ok, found] at ends
    cases ends
  -- The run was one of the root and of the members, and what is as wanted stayed so.
  have found' := found
  rw [← members.dirs] at found'
  rw [run_eq_of_memberDirs sound' outside' same' found'] at ok
  rw [run_eq_of_memberDirs sound outside same found] at ok sound'
  simp only [paths] at ok sound'
  have others := outside.components_ne found config.settings.paths
  have sound₀ := (confined_localRoot of config root sound).2
  have revised := revised_localRoot root fix sound apart is
  have rootWanted : AsWanted dep (fun _ => rootRules config) root root
      (localRoot of config root t).fs :=
    asWanted_of_revised sound (sharing_root root t) (fun _ => DependencyRule.plainBlock_nil) revised
  obtain ⟨rootNone, rootKept⟩ :=
    localRoot_clean order is sound' (rootWanted.root_after_members sound₀ others)
  obtain ⟨none, -⟩ := localMembers_clean order is sound'
    (asWanted_localMembers fix is sound₀ (revised.filesApart apart) others)
  rw [← Except.ok.inj ok]
  simp only [finish, start, Progress.followedBy, rootNone, rootKept, none, List.append_nil]

/-- Runs that fix dependencies leave the same files whatever the order of their rules, and a run of
the same rules after them finds nothing. -/
theorem dependencies_converge (fix : config.settings.fix = true)
    (fix' : config'.settings.fix = true)
    (dependencies : ∀ e ∈ config.rules, ∃ rule : DependencyRule, e.rule.check = rule.check)
    (order : config.rules.Perm config'.rules)
    (paths : config'.settings.paths = config.settings.paths) (sound : t.Sound)
    (apart : t.FilesApart) (outside : RootApart t root) :
    (run config' t root).2 = (run config t root).2 ∧
      ∀ again : ResolvedConfig, config.rules.Perm again.rules →
        again.settings.paths = config.settings.paths →
        (run again (run config t root).2 root).1.isOk = (run config t root).1.isOk ∧
        ∀ o, (run again (run config t root).2 root).1 = .ok o → o.findings = [] := by
  obtain ⟨dep, same⟩ := exists_assigned dependencies
  let of (e : RuleEntry) : LocalRule := .dependencies (dep e)
  have is : ∀ e ∈ config.rules, of e = .dependencies (dep e) := fun _ _ => rfl
  have same' : ∀ e ∈ config.rules, e.rule.check = (of e).check := same
  refine ⟨run_snd_perm order fix fix' is paths sound apart outside same',
    fun again order' paths' => ?_⟩
  exact findings_after_run order' fix paths' sound apart outside same' is

end

/-- A banned name in every package, and the versions of the root. -/
def bannedAndConsistent : ResolvedConfig where
  rules := [
    ⟨"banned", ⟨BannedDependencies.kind.info, (DependencyRule.banned
      ((PatternSet.ofList ["x"]).toOption.getD .empty)).check⟩, ⟨.empty, .empty, true⟩⟩,
    ⟨"consistent", ⟨ConsistentDependencies.kind.info, DependencyRule.consistent.check⟩,
      .allMembers⟩]
  settings := ⟨true, []⟩
  failures := []

/-- A member with a banned dependency and with another version than the root. -/
def comparedMember : Tree where
  files := [
    jsonFile "/w/a/package.json" (.object [("dependencies",
      .object [("x", .string "1"), ("y", .string "1")])]),
    jsonFile "/w/package.json" (.object [("dependencies", .object [("y", .string "2")]),
      ("workspaces", .array [.string "a"])])]
  dirs := []

theorem dependencies_converge_comparedMember :
    comparedMember.Sound ∧ comparedMember.FilesApart ∧ RootApart comparedMember ⟨"/w"⟩ ∧
    (run bannedAndConsistent comparedMember ⟨"/w"⟩).2 ≠ comparedMember ∧
    (run { bannedAndConsistent with rules := bannedAndConsistent.rules.reverse } comparedMember
      ⟨"/w"⟩).2 = (run bannedAndConsistent comparedMember ⟨"/w"⟩).2 ∧
    ∀ again : ResolvedConfig, bannedAndConsistent.rules.Perm again.rules →
      again.settings.paths = [] →
      (run again (run bannedAndConsistent comparedMember ⟨"/w"⟩).2 ⟨"/w"⟩).1.isOk =
        (run bannedAndConsistent comparedMember ⟨"/w"⟩).1.isOk ∧
      ∀ o, (run again (run bannedAndConsistent comparedMember ⟨"/w"⟩).2 ⟨"/w"⟩).1 = .ok o →
        o.findings = [] := by
  have dependencies : ∀ e ∈ bannedAndConsistent.rules, ∃ rule : DependencyRule,
      e.rule.check = rule.check :=
    List.forall_mem_cons.2 ⟨⟨.banned _, rfl⟩, List.forall_mem_singleton.2 ⟨.consistent, rfl⟩⟩
  have sound : comparedMember.Sound :=
    (Tree.floatFree_of_files (by decide +kernel)).sound (by decide +kernel)
  have apart : comparedMember.FilesApart := fun _ _ => rfl
  have outside : RootApart comparedMember ⟨"/w"⟩ := rootApart_of_all (by decide +kernel)
  exact ⟨sound, apart, outside, by decide +kernel,
    dependencies_converge rfl rfl dependencies (List.reverse_perm _).symm rfl sound apart outside⟩

end Run

end WorkspaceLint
