import WorkspaceLint.Proofs.Rule.Mirror
import WorkspaceLint.Proofs.Run.Containment

/-!
# Runs over a tree and over its disk

A run over a tree and one over its disk are kept *level*: what they found, what failed and what they
left in the files is the same so far.  One rule keeps them level (`Level.runRule`), and so do the
rules for a package, those for the root and for the members, and with them the whole run
(`run_onDisk`).  The contexts in both runs are equal at every rule, so a check in one asks what it
asks in the other.
-/

namespace WorkspaceLint

open WorkspaceLint.Path (AreNames)

/-- A failure without its wording. -/
def FailureRecord.gist (f : FailureRecord) : FailureRecord := { f with message := "" }

/-- An outcome without the wording of what went wrong. -/
def Outcome.gist (o : Outcome) : Outcome :=
  { o with
    findings := o.findings.map FindingRecord.gist
    failures := o.failures.map FailureRecord.gist }

namespace Run

/-- A run over a tree and one over its disk have come equally far. -/
structure Level (p : Progress Tree) (q : Progress Disk) : Prop where
  fs : p.fs.OnDisk q.fs
  findings : q.findings.map FindingRecord.gist = p.findings.map FindingRecord.gist
  failures : q.failures.map FailureRecord.gist = p.failures.map FailureRecord.gist
  packagesChecked : q.packagesChecked = p.packagesChecked

/-- No fixer that a visit is to try is blocked. -/
def Visit.Unblocked (v : Visit Tree) : Prop := ∀ r ∈ v.found, r.Unblocked v.fs

instance (v : Visit Tree) : Decidable v.Unblocked :=
  inferInstanceAs (Decidable (∀ r ∈ v.found, r.Unblocked v.fs))

/-! ## One rule -/

theorem any_fixed_of_gist {fs fs' : List FindingRecord}
    (same : fs'.map FindingRecord.gist = fs.map FindingRecord.gist) :
    fs'.any (·.fixed) = fs.any (·.fixed) := by
  have gist (records : List FindingRecord) :
      records.any (·.fixed) = (records.map FindingRecord.gist).any (·.fixed) := by
    rw [List.any_map]
    rfl
  rw [gist fs', same, ← gist fs]

theorem gist_failureOf (name : String) (dir : Path) {r r' : Except RuleError Unit}
    (same : r'.mapError RuleError.kind = r.mapError RuleError.kind) :
    (failureOf name dir r').map FailureRecord.gist =
      (failureOf name dir r).map FailureRecord.gist := by
  rcases Check.mapError_eq_mapError_iff.1 same with ⟨e, e', rfl, rfl, kind⟩ | ⟨a, rfl, rfl⟩
  · simp only [failureOf, List.map_cons, List.map_nil, FailureRecord.gist, kind]
  · rfl

variable {fix : Bool} {p : Progress Tree} {q : Progress Disk} {c : Context}

/-- A rule finds the same in a tree and on its disk, does the same to both and leaves the same
context. -/
theorem Level.runRule (level : Level p q) (clear : c.findings = []) (prepared : c.Prepared p.fs)
    {entry : RuleEntry} (mirrored : entry.rule.Mirrored)
    (unblocked : fix = true → Visit.Unblocked ⟨p.fs, c, entry⟩) :
    Level (runRule fix p c entry).1 (runRule fix q c entry).1 ∧
      (runRule fix q c entry).2 = (runRule fix p c entry).2 := by
  obtain ⟨result, context, ⟨added, found, repairable⟩, -⟩ :=
    mirrored p.fs q.fs level.fs c.opened c rfl prepared
  rw [clear, List.nil_append] at found
  obtain rfl : Visit.found ⟨p.fs, c, entry⟩ = added := found
  have found' : Visit.found ⟨q.fs, c, entry⟩ = Visit.found ⟨p.fs, c, entry⟩ :=
    congrArg Context.findings context
  have settled : (Visit.settled fix ⟨p.fs, c, entry⟩).1.OnDisk
      (Visit.settled fix ⟨q.fs, c, entry⟩).1 ∧
      (Visit.settled fix ⟨q.fs, c, entry⟩).2.map FindingRecord.gist =
        (Visit.settled fix ⟨p.fs, c, entry⟩).2.map FindingRecord.gist := by
    unfold Visit.settled
    rw [found']
    cases fix with
    | false =>
      rw [settleAll_check, settleAll_check]
      exact ⟨level.fs, rfl⟩
    | true => exact repairable (unblocked rfl) entry.name c.dir
  rw [runRule_eq, runRule_eq]
  refine ⟨⟨settled.1, ?_, ?_, level.packagesChecked⟩, ?_⟩
  · simp only [Visit.onto, List.map_append, level.findings, settled.2]
  · simp only [Visit.onto, List.map_append, level.failures]
    exact congrArg (p.failures.map FailureRecord.gist ++ ·) (gist_failureOf _ _ result)
  · have checked : (Visit.checked ⟨q.fs, c, entry⟩).2 = (Visit.checked ⟨p.fs, c, entry⟩).2 :=
      context
    unfold Visit.next
    rw [any_fixed_of_gist settled.2, checked]

theorem plain_next {d : Disk} {v : Visit Tree} (h : v.fs.OnDisk d)
    (prepared : v.context.Prepared v.fs) : (v.next fix).Plain := by
  have left : v.checked.2.withoutFindings.Prepared v.fs :=
    (Check.prepared_run_snd h v.entry.rule.check prepared).mapPackage rfl
  unfold Visit.next
  split
  · exact (left.mapPackage (f := Package.forget) rfl).plain
  · exact left.plain

theorem listed_next {σ : Type} [FileSystem σ] {v : Visit σ} (listed : v.context.Listed) :
    (v.next fix).Listed := by
  have left : v.checked.2.withoutFindings.Listed :=
    Context.Listed.mapPackage (Check.listed_run_snd v.entry.rule.check listed)
      Package.withoutFindings
  unfold Visit.next
  split
  · exact left.mapPackage Package.forget
  · exact left

/-! ## The rules for a package -/

theorem listed_of_mem_ruleVisits {σ : Type} [FileSystem σ] {fs : σ} {entries : List RuleEntry}
    (listed : c.Listed) {v : Visit σ} (h : v ∈ ruleVisits fix fs c entries) :
    v.context.Listed := by
  induction entries generalizing fs c with
  | nil => cases h
  | cons entry entries ih =>
    rcases List.mem_cons.1 h with rfl | later
    · exact listed
    · exact ih (listed_next listed) later

theorem listed_runRules {σ : Type} [FileSystem σ] {p : Progress σ} (entries : List RuleEntry)
    (listed : c.Listed) : (runRules fix p c entries).2.Listed := by
  induction entries generalizing p c with
  | nil => exact listed
  | cons entry entries ih =>
    rw [runRules, runRule_eq]
    exact ih (listed_next listed)

/-- Rules one after the other, as long as none of their fixers is blocked and the patterns for
members fit whenever they may be looked at. -/
theorem Level.runRules {entries : List RuleEntry} (level : Level p q) (clear : c.findings = [])
    (plain : c.Plain) (mirrored : ∀ entry ∈ entries, entry.rule.Mirrored)
    (unblocked : fix = true → ∀ v ∈ ruleVisits fix p.fs c entries, v.Unblocked)
    (fitting : ∀ v ∈ ruleVisits fix p.fs c entries, v.context.Fitting v.fs) :
    Level (runRules fix p c entries).1 (runRules fix q c entries).1 ∧
      (runRules fix q c entries).2 = (runRules fix p c entries).2 ∧
      (runRules fix p c entries).2.Plain := by
  induction entries generalizing p q c with
  | nil => exact ⟨level, rfl, plain⟩
  | cons entry entries ih =>
    obtain ⟨first, later⟩ := List.forall_mem_cons.1 mirrored
    have prepared := plain.prepared (fitting _ List.mem_cons_self)
    obtain ⟨level', context⟩ := level.runRule clear prepared first fun fixing =>
      unblocked fixing _ List.mem_cons_self
    rw [Run.runRules, Run.runRules, context]
    rw [runRule_eq] at level' context ⊢
    exact ih level' (Visit.findings_next fix _) (plain_next level.fs prepared) later
      (fun fixing v member => unblocked fixing v (List.mem_cons_of_mem _ member))
      fun v member => fitting v (List.mem_cons_of_mem _ member)

/-! ## Members -/

variable {config : ResolvedConfig} {w : Workspace}

theorem plain_workspaceAfter (plain : w.Plain) (after : c.Plain) : (workspaceAfter w c).Plain := by
  unfold workspaceAfter
  rcases inside : c.workspace? with _ | w'
  · exact plain
  · exact after.workspace w' inside

theorem listed_workspaceAfter (listed : w.dirs.isSome = true) (after : c.Listed) :
    (workspaceAfter w c).dirs.isSome = true := by
  unfold workspaceAfter
  rcases inside : c.workspace? with _ | w'
  · exact listed
  · exact after w' inside

theorem Level.runMember {dir : Path} (level : Level p q) (plain : w.Plain)
    (listed : w.dirs.isSome = true) (plainDir : dir.Plain)
    (mirrored : ∀ entry ∈ config.rules, entry.rule.Mirrored)
    (unblocked : config.settings.fix = true → ∀ v ∈ memberVisits config p.fs w dir, v.Unblocked) :
    Level (runMember config p w dir).1 (runMember config q w dir).1 ∧
      (runMember config q w dir).2 = (runMember config p w dir).2 ∧
      (runMember config p w dir).2.Plain ∧ (runMember config p w dir).2.dirs.isSome = true := by
  rw [runMember_eq, runMember_eq]
  unfold memberVisits at unblocked
  rcases cases_of_toOption_eq (level.fs.load plainDir) with ⟨e, e', disk, tree⟩ | ⟨m, disk, tree⟩
  · simp only [disk, tree]
    refine ⟨⟨level.fs, level.findings, ?_, level.packagesChecked⟩, trivial, plain, listed⟩
    simp only [skip, List.map_append, level.failures]
    rfl
  · rw [tree] at unblocked
    simp only [disk, tree]
    have counted : Level { p with packagesChecked := p.packagesChecked + 1 }
        { q with packagesChecked := q.packagesChecked + 1 } :=
      ⟨level.fs, level.findings, level.failures, congrArg (· + 1) level.packagesChecked⟩
    have opened : (openedMember w dir m).Plain :=
      ⟨plainDir, fun w' inside => Option.some.inj inside ▸ plain⟩
    have known : (openedMember w dir m).Listed := fun w' inside => Option.some.inj inside ▸ listed
    obtain ⟨level', context, after⟩ := counted.runRules rfl opened
      (fun entry member => mirrored entry (List.mem_filter.1 member).1) unblocked
      fun v member => (listed_of_mem_ruleVisits known member).fitting v.fs
    exact ⟨level', congrArg (workspaceAfter w) context, plain_workspaceAfter plain after,
      listed_workspaceAfter listed (listed_runRules _ known)⟩

theorem Level.runMembers {dirs : List Path} (level : Level p q) (plain : w.Plain)
    (listed : w.dirs.isSome = true) (plainDirs : ∀ dir ∈ dirs, dir.Plain)
    (mirrored : ∀ entry ∈ config.rules, entry.rule.Mirrored)
    (unblocked : config.settings.fix = true →
      ∀ v ∈ (membersVisits config p w dirs).flatten, v.Unblocked) :
    Level (runMembers config p w dirs).1 (runMembers config q w dirs).1 := by
  induction dirs generalizing p q w with
  | nil => exact level
  | cons dir dirs ih =>
    obtain ⟨first, later⟩ := List.forall_mem_cons.1 plainDirs
    obtain ⟨level', same, plain', listed'⟩ :=
      level.runMember plain listed first mirrored fun fixing v member =>
        unblocked fixing v (List.mem_append_left _ member)
    rw [Run.runMembers, Run.runMembers, same]
    exact ih level' plain' listed' later fun fixing v member =>
      unblocked fixing v (List.mem_append_right _ member)

/-! ## The whole run -/

/-- The patterns that the root declares fit it whenever its members may be enumerated. -/
def Fitting (config : ResolvedConfig) (t : Tree) (root : Path) : Prop :=
  (∀ v ∈ rootVisits config t (.fresh root), Workspace.Fitting v.fs root) ∧
    Workspace.Fitting (runRoot config (start config t) (.fresh root)).1.fs root

theorem package_dir_of_workspaceDir {root : Path} (inside : c.workspaceDir = .ok root)
    (found : c.workspace? = some w) : w.package.dir = root := by
  rw [Context.workspaceDir, found] at inside
  exact Except.ok.inj inside

theorem opened_runRules {σ : Type} [FileSystem σ] {p : Progress σ} (entries : List RuleEntry) :
    (runRules fix p c entries).2.opened = c.opened := by
  induction entries generalizing p c with
  | nil => rfl
  | cons entry entries ih =>
    rw [runRules, runRule_eq]
    exact ih.trans (Visit.opened_next fix ⟨p.fs, c, entry⟩)

theorem package_dir_runRoot (config : ResolvedConfig) (p : Progress Tree) (root : Path) :
    (runRoot config p (.fresh root)).2.package.dir = root := by
  unfold runRoot
  split
  · simp only [workspaceAfter]
    rcases found : (runRules config.settings.fix { p with packagesChecked := p.packagesChecked + 1 }
      (.root (.fresh root)) (config.rules.filter (·.scope.appliesToRoot))).2.workspace? with _ | w
    · rfl
    · refine package_dir_of_workspaceDir ?_ found
      rw [← Context.workspaceDir_opened, opened_runRules]
      rfl
  · rfl

theorem Level.runRoot {root : Path} (level : Level p q) (plain : root.Plain)
    (mirrored : ∀ entry ∈ config.rules, entry.rule.Mirrored)
    (unblocked : config.settings.fix = true →
      ∀ v ∈ rootVisits config p.fs (.fresh root), v.Unblocked)
    (fitting : ∀ v ∈ rootVisits config p.fs (.fresh root), Workspace.Fitting v.fs root) :
    Level (runRoot config p (.fresh root)).1 (runRoot config q (.fresh root)).1 ∧
      (runRoot config q (.fresh root)).2 = (runRoot config p (.fresh root)).2 ∧
      (runRoot config p (.fresh root)).2.Plain := by
  have fresh : (Workspace.fresh root).Plain := ⟨plain, nofun⟩
  unfold Run.runRoot
  split
  · have counted : Level { p with packagesChecked := p.packagesChecked + 1 }
        { q with packagesChecked := q.packagesChecked + 1 } :=
      ⟨level.fs, level.findings, level.failures, congrArg (· + 1) level.packagesChecked⟩
    have opened : (Context.root (.fresh root)).Plain :=
      ⟨plain, fun w inside => Option.some.inj inside ▸ fresh⟩
    obtain ⟨level', context, after⟩ := counted.runRules rfl opened
      (fun entry member => mirrored entry (List.mem_filter.1 member).1) unblocked
      fun v member w found _ => by
        have inside : v.context.workspaceDir = .ok root := by
          rw [← Context.workspaceDir_opened, opened_of_mem_ruleVisits member]
          rfl
        rw [package_dir_of_workspaceDir inside found]
        exact fitting v member
    exact ⟨level', congrArg (workspaceAfter (.fresh root)) context,
      plain_workspaceAfter fresh after⟩
  · exact ⟨level, rfl, fresh⟩

theorem mem_of_mem_selected {root dir : Path} {paths dirs : List Path}
    (h : dir ∈ selected root paths dirs) : dir ∈ dirs := by
  unfold selected at h
  split at h
  · exact h
  · exact (List.mem_filter.1 h).1

theorem Level.gist_finish (level : Level p q) (config : ResolvedConfig) :
    (finish config q).gist = (finish config p).gist := by
  simp only [finish, Outcome.gist, level.findings, level.failures, level.packagesChecked]

theorem level_start (config : ResolvedConfig) {t : Tree} {d : Disk} (h : t.OnDisk d) :
    Level (start config t) (start config d) := ⟨h, rfl, rfl, rfl⟩

/-- A run of built-in rules over a tree and one over its disk both end with an error, or both end
with an outcome, and then the outcomes differ at most in the wording of what went wrong.  Both leave
the same files.  The paths in the options have to be tidy, the patterns for members have to fit the
root whenever they may be looked at, and no fixer may be blocked, because a tree creates a directory
below a stored file and a disk does not. -/
theorem run_onDisk {config : ResolvedConfig} {t : Tree} {d : Disk} {root : Path} (h : t.OnDisk d)
    (plain : root.Plain)
    (bound : ∀ entry ∈ config.rules, ∃ kind ∈ RuleKind.all, ∃ options,
      kind.bind options = .ok entry.rule ∧ TidyOptions options)
    (fitting : Fitting config t root)
    (unblocked : config.settings.fix = true → ∀ v ∈ (visits config t root).flatten, v.Unblocked) :
    (run config d root).1.toOption.map Outcome.gist =
        (run config t root).1.toOption.map Outcome.gist ∧
      (run config t root).2.OnDisk (run config d root).2 := by
  have mirrored (entry : RuleEntry) (member : entry ∈ config.rules) : entry.rule.Mirrored := by
    obtain ⟨kind, registered, options, made, tidy⟩ := bound entry member
    exact RuleKind.mirrored_of_bind registered made tidy
  rw [run_eq, run_eq, h.open? plain]
  rcases opened : Package.open? t root with e | package
  · exact ⟨rfl, h⟩
  rw [visits, opened] at unblocked
  simp only [List.flatten_cons] at unblocked ⊢
  obtain ⟨level, same, known⟩ := (level_start config h).runRoot plain mirrored
    (fun fixing v member => unblocked fixing v (List.mem_append_left _ member)) fitting.1
  rw [same]
  have fits : (runRoot config (start config t) (.fresh root)).2.dirs = none →
      Workspace.Fitting (runRoot config (start config t) (.fresh root)).1.fs
        (runRoot config (start config t) (.fresh root)).2.package.dir := by
    intro _
    rw [package_dir_runRoot]
    exact fitting.2
  generalize runRoot config (start config t) (.fresh root) = r at level known unblocked fits
  generalize runRoot config (start config d) (.fresh root) = r' at level
  obtain ⟨result, after, prepared, listed⟩ := level.fs.readDirs known.root ⟨known.members, fits⟩
  rcases tree : r.2.readDirs r.1.fs with ⟨y, w⟩
  rcases disk : r.2.readDirs r'.1.fs with ⟨x, w'⟩
  have kept : w.package = r.2.package := by
    rw [← Workspace.package_readDirs_snd r.1.fs r.2, tree]
  rw [disk, tree] at result after
  rw [tree] at prepared listed unblocked
  obtain rfl : w = w' := after.symm
  rcases cases_of_toOption_eq result with ⟨e, e', rfl, rfl⟩ | ⟨dirs, rfl, rfl⟩
  · exact ⟨rfl, level.fs⟩
  obtain ⟨plainDirs, inside⟩ := listed dirs rfl
  have chosen : ∀ dir ∈ selected root config.settings.paths dirs, dir.Plain :=
    fun dir member => plainDirs dir (mem_of_mem_selected member)
  have last := level.runMembers ⟨by rw [kept]; exact known.root, prepared.known⟩
    (by rw [inside]; rfl) chosen mirrored
    fun fixing v member => unblocked fixing v (List.mem_append_right _ member)
  exact ⟨congrArg some (last.gist_finish config), last.fs⟩

/-! ## One member in a tree and on its disk -/

/-- The files of a workspace whose member has a file `README`. -/
def memberFiles : List (List String × String) := [
  (["r", "a", "README"], "old"),
  (["r", "a", "package.json"], (Json.object [("name", .string "a")]).canonical),
  (["r", "package.json"], (Json.object [("workspaces", .array [.string "*"])]).canonical)]

theorem laid_memberFiles : Laid memberFiles where
  names := by decide +kernel
  nonempty := by decide
  apart := by decide

theorem bound_filling_of_tidy {file : String} (tidy : (Path.mk file).Tidy) :
    ∀ entry ∈ (filling file).rules, ∃ kind ∈ RuleKind.all, ∃ options,
      kind.bind options = .ok entry.rule ∧ TidyOptions options := by
  intro entry rule
  refine ⟨FileContents.kind, by simp [RuleKind.all], _, bind_filling file entry rule, ?_⟩
  intro key member text found
  rcases List.mem_pair.1 member with rfl | rfl
  · obtain rfl := Json.string.inj (Option.some.inj found)
    exact tidy
  · cases found

theorem regular_star : DirGlob.Regular "*" :=
  ⟨[[.run]], .cons ⟨by decide, by decide, .run nofun .nil⟩ .nil, fun g member head => by
    rw [List.mem_singleton.1 member] at head
    cases head⟩

theorem fitting_filling (file : String) :
    Fitting (filling file) (Tree.ofFiles memberFiles) ⟨"/r"⟩ := by
  refine ⟨nofun, ?_⟩
  intro v read declared member _
  have globs : (FileSystem.readJson (Tree.ofFiles memberFiles) (Path.mk "/r").manifest).toOption.map
      Manifest.workspaceGlobs = some ["*"] := by decide +kernel
  rw [show FileSystem.readJson (Tree.ofFiles memberFiles) (Path.mk "/r").manifest = .ok v from read]
    at globs
  rw [Option.some.inj globs] at member
  obtain rfl := List.mem_singleton.1 member
  have names : AreNames ["r"] := by decide +kernel
  exact DirGlob.fits_of_regular names (by decide) regular_star

set_option maxRecDepth 20000 in
theorem run_onDisk_of_filling :
    (run (filling "docs/README") (Tree.ofFiles memberFiles) ⟨"/r"⟩).2.contents?
      ⟨"/r/a/docs/README"⟩ = some "text" ∧
    (run (filling "docs/README") (Disk.ofFiles memberFiles) ⟨"/r"⟩).1.toOption.map Outcome.gist =
        (run (filling "docs/README") (Tree.ofFiles memberFiles) ⟨"/r"⟩).1.toOption.map
          Outcome.gist ∧
      (run (filling "docs/README") (Tree.ofFiles memberFiles) ⟨"/r"⟩).2.OnDisk
        (run (filling "docs/README") (Disk.ofFiles memberFiles) ⟨"/r"⟩).2 :=
  ⟨by decide +kernel, run_onDisk laid_memberFiles.onDisk ⟨["r"], by decide +kernel, rfl⟩
    (bound_filling_of_tidy ⟨false, ["docs", "README"], by decide +kernel, by decide, rfl⟩)
    (fitting_filling _) fun _ => by decide +kernel⟩

set_option maxRecDepth 20000 in
/-- The member is found on the disk as it is in the tree. -/
theorem run_filling_memberFiles (file : String) :
    run (filling file) (Disk.ofFiles memberFiles) ⟨"/r"⟩ =
      let r := runMembers (filling file) (start (filling file) (Disk.ofFiles memberFiles))
        ⟨.fresh ⟨"/r"⟩, some [⟨"/r/a"⟩], none⟩ [⟨"/r/a"⟩]
      (.ok (finish (filling file) r.1), r.1.fs) := by
  have here : (Path.mk "/r").Plain := ⟨["r"], by decide +kernel, rfl⟩
  have tree : (Workspace.memberDirs (Tree.ofFiles memberFiles) ⟨"/r"⟩).toOption =
      some [⟨"/r/a"⟩] := by decide +kernel
  have same := (laid_memberFiles.onDisk.memberDirs here (fitting_filling file).2).1
  have disk : Workspace.memberDirs (Disk.ofFiles memberFiles) ⟨"/r"⟩ = .ok [⟨"/r/a"⟩] :=
    eq_ok_of_toOption_eq (same.trans tree)
  have opened : Package.open? (Disk.ofFiles memberFiles) ⟨"/r"⟩ = .ok (.fresh ⟨"/r"⟩) :=
    Package.open?_eq_ok_iff.2 ⟨by decide +kernel, rfl⟩
  have enumerated : (Workspace.fresh ⟨"/r"⟩).readDirs (Disk.ofFiles memberFiles) =
      (.ok [⟨"/r/a"⟩], ⟨.fresh ⟨"/r"⟩, some [⟨"/r/a"⟩], none⟩) := by
    have unread : (Workspace.fresh ⟨"/r"⟩).dirs = none := rfl
    have dir : (Workspace.fresh ⟨"/r"⟩).package.dir = ⟨"/r"⟩ := rfl
    simp only [Workspace.readDirs, unread, dir, disk]
    rfl
  have root : runRoot (filling file) (start (filling file) (Disk.ofFiles memberFiles))
      (.fresh ⟨"/r"⟩) = (start (filling file) (Disk.ofFiles memberFiles), .fresh ⟨"/r"⟩) := rfl
  rw [run_eq, opened]
  simp only [root]
  rw [show (start (filling file) (Disk.ofFiles memberFiles)).fs = Disk.ofFiles memberFiles from rfl,
    enumerated]
  rfl

set_option maxRecDepth 20000 in
/-- A file below a stored file is written in the tree and cannot be written on the disk. -/
theorem not_run_onDisk_of_filling :
    (Tree.ofFiles memberFiles).OnDisk (Disk.ofFiles memberFiles) ∧ (Path.mk "/r").Plain ∧
    (∀ entry ∈ (filling "README/b/c").rules, ∃ kind ∈ RuleKind.all, ∃ options,
      kind.bind options = .ok entry.rule ∧ TidyOptions options) ∧
    Fitting (filling "README/b/c") (Tree.ofFiles memberFiles) ⟨"/r"⟩ ∧
    (run (filling "README/b/c") (Tree.ofFiles memberFiles) ⟨"/r"⟩).1.toOption.map
      (fun o => o.findings.map (·.fixed)) = some [true] ∧
    (run (filling "README/b/c") (Disk.ofFiles memberFiles) ⟨"/r"⟩).1.toOption.map
      (fun o => o.findings.map (·.fixed)) = some [false] ∧
    (run (filling "README/b/c") (Tree.ofFiles memberFiles) ⟨"/r"⟩).2.contents?
      ⟨"/r/a/README/b/c"⟩ = some "text" ∧
    (run (filling "README/b/c") (Disk.ofFiles memberFiles) ⟨"/r"⟩).2 =
      Disk.ofFiles memberFiles :=
  ⟨laid_memberFiles.onDisk, ⟨["r"], by decide +kernel, rfl⟩,
    bound_filling_of_tidy ⟨false, ["README", "b", "c"], by decide +kernel, by decide, rfl⟩,
    fitting_filling _, by decide +kernel, by rw [run_filling_memberFiles]; decide +kernel,
    by decide +kernel, by rw [run_filling_memberFiles]; decide +kernel⟩

end Run

end WorkspaceLint
