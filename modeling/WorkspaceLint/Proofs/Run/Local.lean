import WorkspaceLint.Proofs.Rule.Files
import WorkspaceLint.Proofs.Run.CheckMode
import WorkspaceLint.Proofs.Run.Confined

/-!
# Runs of local rules

The rules about dependencies and the one about `tsconfig.json` with a template are *local*: what they
change stays inside their package.  Contexts stay coherent from one local rule to the next, so what a
run of local rules does can be said without contexts, by functions of the files alone
(`run_eq_local`).
-/

namespace WorkspaceLint

open StandardTsconfig (tsconfigFile)

/-- A rule whose fixers stay inside the package. -/
inductive LocalRule where
  | dependencies (rule : DependencyRule)
  | tsconfig (template : Members) (excluded : PatternSet)
  deriving Inhabited

namespace LocalRule

/-- The check of a local rule. -/
def check : LocalRule → Check Unit
  | dependencies rule => rule.check
  | tsconfig template excluded => StandardTsconfig.check ⟨.template template, excluded⟩

/-- What a local rule comes to for the package in a directory. -/
def verdict (rule : LocalRule) (t : Tree) (root dir : Path) : Except RuleError (List Reported) :=
  match rule with
  | dependencies rule => rule.verdict t root dir
  | tsconfig template excluded =>
    fileVerdict t (dir.entry tsconfigFile) (StandardTsconfig.finding (dir.entry tsconfigFile))
      ((StandardTsconfig.referencesIn t root dir excluded).map
        (StandardTsconfig.withReferences template))

/-- The findings of a local rule, none when it fails. -/
def found (rule : LocalRule) (t : Tree) (root dir : Path) : List Reported :=
  (rule.verdict t root dir).toOption.getD []

variable {t : Tree} {root dir : Path}

theorem judges_check (rule : LocalRule) {o : Context} (inside : o.workspaceDir = .ok root) :
    Check.Judges t o rule.check (rule.verdict t root o.dir) := by
  cases rule with
  | dependencies rule => exact rule.judges_check inside
  | tsconfig template excluded =>
    exact StandardTsconfig.judges_check
      (StandardTsconfig.comesTo_template inside template excluded)

/-- A local rule only succeeds when the manifest can be read. -/
theorem load_of_verdict {rule : LocalRule} {rs : List Reported}
    (judged : rule.verdict t root dir = .ok rs) : ∃ m, Package.load t dir = .ok m := by
  cases rule with
  | dependencies rule =>
    cases rule with
    | consistent =>
      simp only [verdict, DependencyRule.verdict, bind_eq_ok_iff, mapError_eq_ok_iff] at judged
      obtain ⟨-, -, m, loaded, -⟩ := judged
      exact ⟨m, loaded⟩
    | banned names =>
      simp only [verdict, DependencyRule.verdict, bind_eq_ok_iff, mapError_eq_ok_iff] at judged
      obtain ⟨m, loaded, -⟩ := judged
      exact ⟨m, loaded⟩
  | tsconfig template excluded =>
    simp only [verdict, fileVerdict, bind_eq_ok_iff, map_eq_ok_iff] at judged
    obtain ⟨-, ⟨refs, found, -⟩, -⟩ := judged
    obtain ⟨-, m, -, loaded, -⟩ := StandardTsconfig.referencesIn_eq_ok_iff.1 found
    exact ⟨m, loaded⟩

theorem found_of_load_error {e : ConfigError} (missing : Package.load t dir = .error e)
    (rule : LocalRule) : rule.found t root dir = [] := by
  unfold found
  rcases judged : rule.verdict t root dir with e' | rs
  · rfl
  · obtain ⟨m, loaded⟩ := load_of_verdict judged
    rw [missing] at loaded
    cases loaded

/-- Every fixer of a local rule makes one change inside the package. -/
theorem own_of_verdict (sound : t.Sound) {rule : LocalRule} {rs : List Reported}
    (judged : rule.verdict t root dir = .ok rs) : OwnFindings dir rs := by
  cases rule with
  | dependencies rule =>
    obtain ⟨m, r, loaded, plainRoot, found⟩ : ∃ m r, Package.load t dir = .ok m ∧ r.Plain ∧
        rs = rule.findings dir.manifest m r DependencyKind.all := by
      cases rule with
      | consistent =>
        simp only [verdict, DependencyRule.verdict, bind_eq_ok_iff, mapError_eq_ok_iff] at judged
        obtain ⟨r, rootLoaded, m, loaded, made⟩ := judged
        exact ⟨m, r, loaded, sound.plain rootLoaded, (Except.ok.inj made).symm⟩
      | banned names =>
        simp only [verdict, DependencyRule.verdict, bind_eq_ok_iff, mapError_eq_ok_iff] at judged
        obtain ⟨m, loaded, made⟩ := judged
        exact ⟨m, m, loaded, sound.plain loaded, (Except.ok.inj made).symm⟩
    have plain := sound.plain loaded
    intro reported member fixer some
    rw [found] at member
    obtain ⟨f, among, rfl⟩ := List.mem_map.1 member
    obtain ⟨kind, -, finds⟩ := List.mem_filterMap.1 among
    rcases rule.blockFinding?_cases dir.manifest plain plainRoot kind with
      ⟨none, -⟩ | ⟨f', block, finds', there, -, owed⟩
    · rw [none] at finds
      cases finds
    · obtain rfl := Option.some.inj (finds.symm.trans finds')
      obtain rfl := Option.some.inj (some.symm.trans owed)
      exact ⟨_, rfl, .block kind (DependencyRule.plainBlock_wanted rule
        (DependencyRule.plainBlock_sharedBy plainRoot kind) (plain.block there))⟩
  | tsconfig template excluded =>
    simp only [verdict, fileVerdict, bind_eq_ok_iff] at judged
    obtain ⟨text, -, actual, -, made⟩ := judged
    rw [← Except.ok.inj made]
    split
    · exact nofun
    · refine List.forall_mem_singleton.2 fun fixer some => ?_
      rw [← Option.some.inj some]
      exact ⟨_, rfl, .tsconfig text⟩

theorem own_found (sound : t.Sound) (rule : LocalRule) (root dir : Path) :
    OwnFindings dir (rule.found t root dir) := by
  unfold found
  rcases judged : rule.verdict t root dir with e | rs
  · exact nofun
  · exact own_of_verdict sound judged

/-- What becomes of the fixers of a local rule is confined to the package. -/
theorem confined_settleAll (sound : t.Sound) (rule : LocalRule) (fix : Bool) (name : String)
    (root dir label : Path) :
    Tree.Confined dir t (Run.settleAll fix name label t (rule.found t root dir)).1 ∧
      (Run.settleAll fix name label t (rule.found t root dir)).1.Sound := by
  cases fix with
  | false =>
    rw [Run.settleAll_check]
    exact ⟨.refl dir t, sound⟩
  | true =>
    have own := rule.own_found sound root dir
    unfold found at own ⊢
    rcases judged : rule.verdict t root dir with e | rs
    · exact ⟨.refl dir t, sound⟩
    · obtain ⟨m, loaded⟩ := load_of_verdict judged
      rw [judged] at own
      obtain ⟨confined, sound', -⟩ := Run.confined_settleAll own sound loaded name label
      exact ⟨confined, sound'⟩

end LocalRule

namespace Run

/-! ## Progress -/

/-- Progress that goes on from where other progress ended. -/
def Progress.followedBy {σ : Type} (p p' : Progress σ) : Progress σ where
  fs := p'.fs
  findings := p.findings ++ p'.findings
  failures := p.failures ++ p'.failures
  packagesChecked := p.packagesChecked + p'.packagesChecked

/-- Progress with one more package checked. -/
def Progress.counted {σ : Type} (p : Progress σ) : Progress σ :=
  { p with packagesChecked := p.packagesChecked + 1 }

/-- No progress. -/
def Progress.none {σ : Type} (fs : σ) : Progress σ := ⟨fs, [], [], 0⟩

@[simp] theorem fs_followedBy {σ : Type} (p p' : Progress σ) : (p.followedBy p').fs = p'.fs := rfl

theorem followedBy_assoc {σ : Type} (p p' p'' : Progress σ) :
    (p.followedBy p').followedBy p'' = p.followedBy (p'.followedBy p'') := by
  simp only [Progress.followedBy, List.append_assoc, Nat.add_assoc]

theorem counted_followedBy {σ : Type} (p p' : Progress σ) :
    p.counted.followedBy p' = p.followedBy p'.counted := by
  simp only [Progress.followedBy, Progress.counted, Nat.add_right_comm, Nat.add_assoc]

theorem followedBy_none {σ : Type} (p : Progress σ) : p.followedBy (.none p.fs) = p := by
  simp only [Progress.followedBy, Progress.none, List.append_nil, Nat.add_zero]

/-- Rules that are each known to have some check can be assigned one by one. -/
theorem exists_assigned {R : Type} [Inhabited R] {check : R → Check Unit} {rules : List RuleEntry}
    (known : ∀ e ∈ rules, ∃ r, e.rule.check = check r) :
    ∃ of : RuleEntry → R, ∀ e ∈ rules, e.rule.check = check (of e) := by
  have each (e : RuleEntry) : ∃ r, e ∈ rules → e.rule.check = check r := by
    by_cases member : e ∈ rules
    · obtain ⟨r, same⟩ := known e member
      exact ⟨r, fun _ => same⟩
    · exact ⟨default, fun there => absurd there member⟩
  exact Classical.skolem.1 each

/-! ## What local rules do to files -/

section

variable (of : RuleEntry → LocalRule) (fix : Bool) (root dir : Path)

/-- What a local rule does for one package. -/
def localRule (t : Tree) (e : RuleEntry) : Progress Tree where
  fs := (settleAll fix e.name dir t ((of e).found t root dir)).1
  findings := (settleAll fix e.name dir t ((of e).found t root dir)).2
  failures := failureOf e.name dir (((of e).verdict t root dir).map fun _ => ())
  packagesChecked := 0

/-- What local rules do for one package. -/
def localRules (t : Tree) : List RuleEntry → Progress Tree
  | [] => .none t
  | e :: es =>
    let p := localRule of fix root dir t e
    p.followedBy (localRules p.fs es)

end

section

variable (of : RuleEntry → LocalRule) (config : ResolvedConfig) (root : Path)

/-- What local rules do for the root. -/
def localRoot (t : Tree) : Progress Tree :=
  if config.appliesToRoot then
    (localRules of config.settings.fix root root t (rootRules config)).counted
  else .none t

/-- What local rules do for a member. -/
def localMember (t : Tree) (dir : Path) : Progress Tree :=
  match Package.load t dir with
  | .error e => ⟨t, [], [⟨workspaceFailure, some dir, .config, e.message⟩], 0⟩
  | .ok m => (localRules of config.settings.fix root dir t (rulesFor config m.name?)).counted

/-- What local rules do for members. -/
def localMembers (t : Tree) : List Path → Progress Tree
  | [] => .none t
  | dir :: dirs =>
    let p := localMember of config root t dir
    p.followedBy (localMembers p.fs dirs)

end

variable {of : RuleEntry → LocalRule} {root dir : Path} {t : Tree} {config : ResolvedConfig}

theorem confined_localRules (of : RuleEntry → LocalRule) (fix : Bool) (root : Path)
    (sound : t.Sound) (es : List RuleEntry) :
    Tree.Confined dir t (localRules of fix root dir t es).fs ∧
      (localRules of fix root dir t es).fs.Sound := by
  induction es generalizing t with
  | nil => exact ⟨.refl dir t, sound⟩
  | cons e es ih =>
    obtain ⟨confined, sound'⟩ := (of e).confined_settleAll sound fix e.name root dir dir
    obtain ⟨rest, sound''⟩ := ih sound'
    exact ⟨confined.trans rest, sound''⟩

theorem confined_localRoot (of : RuleEntry → LocalRule) (config : ResolvedConfig) (root : Path)
    (sound : t.Sound) :
    Tree.Confined root t (localRoot of config root t).fs ∧
      (localRoot of config root t).fs.Sound := by
  unfold localRoot
  split
  · exact confined_localRules of _ root sound _
  · exact ⟨.refl root t, sound⟩

theorem confined_localMember (of : RuleEntry → LocalRule) (config : ResolvedConfig) (root : Path)
    (sound : t.Sound) (dir : Path) :
    Tree.Confined dir t (localMember of config root t dir).fs ∧
      (localMember of config root t dir).fs.Sound := by
  unfold localMember
  split
  · exact ⟨.refl dir t, sound⟩
  · exact confined_localRules of _ root sound _

theorem sameMembers_localMembers (of : RuleEntry → LocalRule) (config : ResolvedConfig)
    (root : Path) (sound : t.Sound) (dirs : List Path) :
    Workspace.SameMembers t (localMembers of config root t dirs).fs ∧
      (localMembers of config root t dirs).fs.Sound := by
  induction dirs generalizing t with
  | nil => exact ⟨.refl t, sound⟩
  | cons dir dirs ih =>
    obtain ⟨confined, sound'⟩ := confined_localMember of config root sound dir
    obtain ⟨rest, sound''⟩ := ih sound'
    exact ⟨confined.members.trans rest, sound''⟩

/-! ## Runs -/

/-- On a coherent context a local rule does what it does to the files, and what the context keeps
stays coherent. -/
theorem runRule_eq_local (fix : Bool) {p : Progress Tree} {c : Context} (coherent : c.Coherent p.fs)
    (clear : c.findings = []) (sound : p.fs.Sound) (inside : c.workspaceDir = .ok root)
    (apart : c.isRoot = false → root.components ≠ c.dir.components) {e : RuleEntry}
    (same : e.rule.check = (of e).check) :
    (runRule fix p c e).1 = p.followedBy (localRule of fix root c.dir p.fs e) ∧
      (runRule fix p c e).2.Coherent (runRule fix p c e).1.fs ∧
      (runRule fix p c e).2.opened = c.opened ∧ (runRule fix p c e).2.findings = [] := by
  let v : Visit Tree := ⟨p.fs, c, e⟩
  have opened : c.opened.workspaceDir = .ok root := by rw [Context.workspaceDir_opened, inside]
  have judges := (of e).judges_check (t := p.fs) opened
  rw [Context.dir_opened] at judges
  obtain ⟨result, found⟩ := judges.run coherent rfl clear
  rw [← same] at result found
  have found' : v.found = (of e).found p.fs root c.dir := found
  obtain ⟨confined, -⟩ := (of e).confined_settleAll sound fix e.name root c.dir c.dir
  have settled : v.settled fix =
      settleAll fix e.name c.dir p.fs ((of e).found p.fs root c.dir) := by
    rw [Visit.settled, found']
    rfl
  rw [runRule_eq]
  refine ⟨?_, ?_, v.opened_next fix, v.findings_next fix⟩
  · unfold Visit.onto Visit.failures
    rw [settled, show v.checked.1 = _ from result]
    rfl
  · show (v.next fix).Coherent (v.settled fix).1
    cases fix with
    | false =>
      rw [Visit.settled_check]
      exact Visit.coherent_next_check coherent
    | true =>
      refine Visit.coherent_next (v := v) coherent (fun member root' inside' => ?_) ?_ ?_
      · rw [show c.workspaceDir = .ok root' from inside'] at inside
        rw [Except.ok.inj inside]
        exact apart member
      · rw [settled]
        exact confined
      · intro r member fixer some
        rw [found'] at member
        obtain ⟨op, single, -⟩ := (of e).own_found sound root c.dir r member fixer some
        exact ⟨op, single⟩

theorem runRules_eq_local (fix : Bool) {p : Progress Tree} {c : Context}
    (coherent : c.Coherent p.fs) (clear : c.findings = []) (sound : p.fs.Sound)
    (inside : c.workspaceDir = .ok root)
    (apart : c.isRoot = false → root.components ≠ c.dir.components) (es : List RuleEntry)
    (same : ∀ e ∈ es, e.rule.check = (of e).check) :
    (runRules fix p c es).1 = p.followedBy (localRules of fix root c.dir p.fs es) ∧
      (runRules fix p c es).2.Coherent (runRules fix p c es).1.fs ∧
      (runRules fix p c es).2.workspaceDir = .ok root := by
  induction es generalizing p c with
  | nil => exact ⟨(followedBy_none p).symm, coherent, inside⟩
  | cons e es ih =>
    obtain ⟨first, later⟩ := List.forall_mem_cons.1 same
    obtain ⟨step, kept, opened, clear'⟩ :=
      runRule_eq_local fix coherent clear sound inside apart first
    have sound' := ((of e).confined_settleAll sound fix e.name root c.dir c.dir).2
    have dir : (runRule fix p c e).2.dir = c.dir := by
      rw [← Context.dir_opened, opened, Context.dir_opened]
    have inside' : (runRule fix p c e).2.workspaceDir = .ok root := by
      rw [← Context.workspaceDir_opened, opened, Context.workspaceDir_opened, inside]
    have apart' : (runRule fix p c e).2.isRoot = false →
        root.components ≠ (runRule fix p c e).2.dir.components := by
      rw [← Context.isRoot_opened, opened, Context.isRoot_opened, dir]
      exact apart
    obtain ⟨rest, kept', inside''⟩ := ih (p := (runRule fix p c e).1) kept clear'
      (by rw [step]; exact sound') inside' apart' later
    refine ⟨?_, kept', inside''⟩
    rw [runRules, rest, dir, step, followedBy_assoc]
    rfl

theorem workspaceAfter_of_workspaceDir {fs : Tree} {c : Context} (coherent : c.Coherent fs)
    (inside : c.workspaceDir = .ok root) (w : Workspace) :
    (workspaceAfter w c).Coherent fs ∧ (workspaceAfter w c).package.dir = root := by
  cases c with
  | root w' => exact ⟨coherent, Except.ok.inj inside⟩
  | member p w' => exact ⟨coherent.2, Except.ok.inj inside⟩
  | standalone p => cases inside

theorem runRoot_eq_local {p : Progress Tree} (sound : p.fs.Sound) (root : Path)
    (same : ∀ e ∈ config.rules, e.rule.check = (of e).check) :
    (runRoot config p (.fresh root)).1 = p.followedBy (localRoot of config root p.fs) ∧
      (runRoot config p (.fresh root)).2.Coherent (runRoot config p (.fresh root)).1.fs ∧
      (runRoot config p (.fresh root)).2.package.dir = root := by
  have coherent : (Workspace.fresh root).Coherent p.fs := Workspace.coherent_bare p.fs (.fresh root)
  unfold runRoot localRoot
  split
  · obtain ⟨progress, kept, inside⟩ := runRules_eq_local config.settings.fix (p := p.counted)
      (c := .root (.fresh root)) coherent rfl sound rfl nofun (rootRules config)
      fun e member => same e (List.mem_filter.1 member).1
    refine ⟨?_, workspaceAfter_of_workspaceDir kept inside _⟩
    rw [← counted_followedBy]
    exact progress
  · exact ⟨(followedBy_none p).symm, coherent, rfl⟩

theorem runMember_eq_local {p : Progress Tree} {w : Workspace} (coherent : w.Coherent p.fs)
    (at' : w.package.dir = root) (sound : p.fs.Sound) (apart : root.components ≠ dir.components)
    (same : ∀ e ∈ config.rules, e.rule.check = (of e).check) :
    (runMember config p w dir).1 = p.followedBy (localMember of config root p.fs dir) ∧
      (runMember config p w dir).2.Coherent (runMember config p w dir).1.fs ∧
      (runMember config p w dir).2.package.dir = root := by
  rw [runMember_eq, localMember]
  rcases loaded : Package.load p.fs dir with e | m
  · refine ⟨?_, coherent, at'⟩
    simp only [skip, Progress.followedBy, List.append_nil, Nat.add_zero]
  · have opened : (openedMember w dir m).Coherent p.fs := by
      refine ⟨fun m' kept => ?_, coherent⟩
      rw [← Option.some.inj kept]
      exact loaded
    obtain ⟨progress, kept, inside⟩ := runRules_eq_local config.settings.fix (p := p.counted)
      opened rfl sound (congrArg Except.ok at') (fun _ => apart) (rulesFor config m.name?)
      fun e member => same e (List.mem_filter.1 member).1
    refine ⟨?_, workspaceAfter_of_workspaceDir kept inside _⟩
    rw [← counted_followedBy]
    exact progress

theorem runMembers_eq_local {p : Progress Tree} {w : Workspace} (coherent : w.Coherent p.fs)
    (at' : w.package.dir = root) (sound : p.fs.Sound) {dirs : List Path}
    (apart : ∀ dir ∈ dirs, root.components ≠ dir.components)
    (same : ∀ e ∈ config.rules, e.rule.check = (of e).check) :
    (runMembers config p w dirs).1 = p.followedBy (localMembers of config root p.fs dirs) := by
  induction dirs generalizing p w with
  | nil => exact (followedBy_none p).symm
  | cons dir dirs ih =>
    obtain ⟨first, later⟩ := List.forall_mem_cons.1 apart
    obtain ⟨step, kept, there⟩ := runMember_eq_local coherent at' sound first same
    have sound' := (confined_localMember of config root sound dir).2
    rw [runMembers, ih kept there (by rw [step]; exact sound') later, step, followedBy_assoc]
    rfl

/-- The root is not a member of its own workspace. -/
def RootApart (t : Tree) (root : Path) : Prop :=
  ∀ dirs, Workspace.memberDirs t root = .ok dirs → root.isIn dirs = false

theorem rootApart_of_all
    (apart : (Workspace.memberDirs t root).toOption.all (fun dirs => !root.isIn dirs) = true) :
    RootApart t root := by
  intro dirs members
  rw [members] at apart
  exact Bool.not_eq_true' _ ▸ apart

theorem RootApart.components_ne (apart : RootApart t root) {dirs : List Path}
    (members : Workspace.memberDirs t root = .ok dirs) (paths : List Path) :
    ∀ dir ∈ selected root paths dirs, root.components ≠ dir.components := by
  intro dir chosen same
  have member : dir ∈ dirs := by
    unfold selected at chosen
    split at chosen
    · exact chosen
    · exact (List.mem_filter.1 chosen).1
  have absent := List.any_eq_false.1 (apart dirs members) dir member
  exact absent (Path.same_iff.2 same.symm)

/-- A run of local rules is said by what these do to the files. -/
theorem run_eq_local (sound : t.Sound) (apart : RootApart t root)
    (same : ∀ e ∈ config.rules, e.rule.check = (of e).check) :
    run config t root = match Package.open? t root with
      | .error e => (.error (.openWorkspace root e), t)
      | .ok _ =>
        let p := localRoot of config root t
        match Workspace.memberDirs t root with
        | .error trouble => (.error (.enumerate root (.runtime trouble)), p.fs)
        | .ok dirs =>
          let p' := localMembers of config root p.fs (selected root config.settings.paths dirs)
          (.ok (finish config ((start config t).followedBy (p.followedBy p'))), p'.fs) := by
  rw [run_eq]
  rcases Package.open? t root with e | package
  · rfl
  obtain ⟨progress, kept, at'⟩ := runRoot_eq_local (p := start config t) sound root same
  obtain ⟨confined, sound'⟩ := confined_localRoot of config root sound
  rcases hr : runRoot config (start config t) (.fresh root) with ⟨p, w⟩
  rw [hr] at progress kept at'
  simp only at progress kept at' ⊢
  subst progress
  have members := kept.readDirs_fst
  rw [at', fs_followedBy, show (start config t).fs = t from rfl, confined.members.dirs] at members
  have kept' := kept.readDirs_snd
  have at'' := Workspace.package_readDirs_snd (localRoot of config root t).fs w
  simp only [fs_followedBy, start] at members kept' at'' ⊢
  rcases hd : w.readDirs (localRoot of config root t).fs with ⟨trouble | dirs, w'⟩ <;>
    rw [hd] at members kept' at''
  · rw [← members]
  · rw [← members]
    simp only
    have rest := runMembers_eq_local (p := (start config t).followedBy
      (localRoot of config root t)) kept' ((congrArg Package.dir at'').trans at') sound'
      (apart.components_ne members.symm config.settings.paths) same
    rw [fs_followedBy, start] at rest
    rw [rest, followedBy_assoc]
    rfl

/-- Where members can be enumerated, the root can be opened. -/
theorem open?_of_memberDirs {dirs : List Path} (members : Workspace.memberDirs t root = .ok dirs) :
    Package.open? t root = .ok (.fresh root) := by
  obtain ⟨v, reads, -⟩ := bind_eq_ok_iff.1 members
  have stored := Tree.stored_of_readJson (mapError_eq_ok_iff.1 reads)
  refine Package.open?_eq_ok_iff.2 ⟨?_, rfl⟩
  rw [Tree.contains_eq, stored, Bool.true_or]

theorem run_eq_of_memberDirs (sound : t.Sound) (apart : RootApart t root)
    (same : ∀ e ∈ config.rules, e.rule.check = (of e).check) {dirs : List Path}
    (members : Workspace.memberDirs t root = .ok dirs) :
    run config t root = (.ok (finish config ((start config t).followedBy
        ((localRoot of config root t).followedBy (localMembers of config root
          (localRoot of config root t).fs (selected root config.settings.paths dirs))))),
      (localMembers of config root (localRoot of config root t).fs
        (selected root config.settings.paths dirs)).fs) := by
  rw [run_eq_local sound apart same, open?_of_memberDirs members]
  simp only [members]

/-- A run ends with an outcome exactly when the members can be enumerated. -/
theorem isOk_run (sound : t.Sound) (apart : RootApart t root)
    (same : ∀ e ∈ config.rules, e.rule.check = (of e).check) :
    (run config t root).1.isOk = (Workspace.memberDirs t root).isOk := by
  rcases members : Workspace.memberDirs t root with trouble | dirs
  · rw [run_eq_local sound apart same]
    rcases Package.open? t root with e | package
    · rfl
    · simp only [members]
      rfl
  · rw [run_eq_of_memberDirs sound apart same members]
    rfl

/-- A run leaves the members as they are. -/
theorem sameMembers_run (sound : t.Sound) (apart : RootApart t root)
    (same : ∀ e ∈ config.rules, e.rule.check = (of e).check) :
    Workspace.SameMembers t (run config t root).2 ∧ (run config t root).2.Sound := by
  rw [run_eq_local sound apart same]
  rcases Package.open? t root with e | package
  · exact ⟨.refl t, sound⟩
  obtain ⟨confined, sound'⟩ := confined_localRoot of config root sound
  simp only
  rcases Workspace.memberDirs t root with trouble | dirs
  · exact ⟨confined.members, sound'⟩
  · obtain ⟨rest, sound''⟩ := sameMembers_localMembers of config root sound'
      (selected root config.settings.paths dirs)
    exact ⟨confined.members.trans rest, sound''⟩

theorem RootApart.of_sameMembers {t' : Tree} (apart : RootApart t root)
    (members : Workspace.SameMembers t t') : RootApart t' root := by
  intro dirs
  rw [members.dirs]
  exact apart dirs

end Run

end WorkspaceLint
