import WorkspaceLint.Proofs.Run.Visits

/-!
# Runs in check mode

In check mode no file changes, so all that contexts keep stays coherent with the one file system of
the run, and no rule can tell which rules were asked before it.  The outcome is then put together
from what every rule comes to on a context that was just opened: `findingsOn` and `failuresOn` for
one package, `memberFindings` and `memberFailures` for a member.
-/

namespace WorkspaceLint

namespace Run

variable {σ : Type} [FileSystem σ]

/-! ## What rules come to on one context -/

/-- The findings of rules that are all asked on the same context. -/
def findingsOn (fs : σ) (c : Context) (entries : List RuleEntry) : List FindingRecord :=
  entries.flatMap fun entry =>
    (entry.rule.check.run fs c).2.findings.map (recordOf entry.name c.dir)

/-- The failures of rules that are all asked on the same context. -/
def failuresOn (fs : σ) (c : Context) (entries : List RuleEntry) : List FailureRecord :=
  entries.flatMap fun entry => failureOf entry.name c.dir (entry.rule.check.run fs c).1

/-- The context of a workspace root of which nothing was read yet. -/
def freshRoot (root : Path) : Context := .root (.fresh root)

/-- The context of a member of which nothing was read yet. -/
def freshMember (root dir : Path) : Context := .member (.fresh dir) (.fresh root)

/-- The findings of the rules that are for a member. -/
def memberFindings (config : ResolvedConfig) (fs : σ) (root dir : Path) : List FindingRecord :=
  match Package.load fs dir with
  | .error _ => []
  | .ok m => findingsOn fs (freshMember root dir) (rulesFor config m.name?)

/-- The failures of the rules that are for a member, or that of its manifest. -/
def memberFailures (config : ResolvedConfig) (fs : σ) (root dir : Path) : List FailureRecord :=
  match Package.load fs dir with
  | .error e => [⟨workspaceFailure, some dir, .config, e.message⟩]
  | .ok m => failuresOn fs (freshMember root dir) (rulesFor config m.name?)

/-- Whether the manifest of a member is there and a JSON object. -/
def isUsable (fs : σ) (dir : Path) : Bool :=
  FileSystem.contains fs dir.manifest &&
    match FileSystem.readJson fs dir.manifest with
    | .ok (.object _) => true
    | _ => false

/-! ## One rule -/

namespace Visit

theorem next_check (v : Visit σ) : v.next false = v.checked.2.withoutFindings := by
  have unfixed : (v.settled false).2.any (·.fixed) = false := by
    rw [settled_check, List.any_map]
    exact List.any_eq_false.2 fun r _ => Bool.false_ne_true
  simp only [next, unfixed, Bool.false_eq_true, if_false]

/-- In check mode a rule leaves the context coherent. -/
theorem coherent_next_check {v : Visit σ} (h : v.context.Coherent v.fs) :
    (v.next false).Coherent v.fs := by
  rw [next_check]
  exact (Check.coherent_run_snd v.entry.rule.check h).withoutFindings

end Visit

theorem bare_next {fix : Bool} {v : Visit σ} (clear : v.context.findings = []) :
    (v.next fix).bare = v.context.bare := by
  rw [Context.bare_eq_opened (v.findings_next fix), v.opened_next, Context.bare_eq_opened clear]

/-- A visit in check mode adds what the rule comes to on the context with nothing kept. -/
theorem onto_check {p : Progress σ} {v : Visit σ} (fs : p.fs = v.fs)
    (coherent : v.context.Coherent v.fs) (clear : v.context.findings = []) :
    v.onto false p = { p with
      findings := p.findings ++ findingsOn p.fs v.context.bare [v.entry]
      failures := p.failures ++ failuresOn p.fs v.context.bare [v.entry] } := by
  obtain ⟨result, found⟩ := Check.run_eq_run_opened v.entry.rule.check coherent clear
  rw [← Context.bare_eq_opened clear] at result found
  have dir : v.context.bare.dir = v.dir := v.context.dir_bare
  unfold Visit.onto
  rw [Visit.settled_check, Visit.failures, Visit.found, Visit.checked, result, found]
  simp only [findingsOn, failuresOn, List.flatMap_cons, List.flatMap_nil, List.append_nil, dir, fs]

/-! ## The rules for one package -/

/-- In check mode rules add what each of them comes to on the context with nothing kept. -/
theorem runRules_check (p : Progress σ) (c : Context) (coherent : c.Coherent p.fs)
    (clear : c.findings = []) (entries : List RuleEntry) :
    (runRules false p c entries).1 = { p with
        findings := p.findings ++ findingsOn p.fs c.bare entries
        failures := p.failures ++ failuresOn p.fs c.bare entries } ∧
      (runRules false p c entries).2.Coherent p.fs ∧
      (runRules false p c entries).2.bare = c.bare := by
  induction entries generalizing p c with
  | nil =>
    refine ⟨?_, coherent, rfl⟩
    simp only [runRules, findingsOn, failuresOn, List.flatMap_nil, List.append_nil]
  | cons entry entries ih =>
    let v : Visit σ := ⟨p.fs, c, entry⟩
    have same : (v.next false).bare = c.bare := bare_next (v := v) clear
    have step := onto_check (p := p) (v := v) rfl coherent clear
    have fs : (v.onto false p).fs = p.fs := by rw [step]
    obtain ⟨progress, left, bare⟩ := ih (v.onto false p) (v.next false)
      (by rw [fs]; exact Visit.coherent_next_check (v := v) coherent) (v.findings_next false)
    rw [fs] at left
    rw [runRules, runRule_eq]
    refine ⟨?_, left, bare.trans same⟩
    refine progress.trans ?_
    rw [same, step]
    simp only [findingsOn, failuresOn, List.flatMap_cons, List.flatMap_nil, List.append_nil,
      List.append_assoc]
    rfl

/-! ## The whole run -/

theorem isUsable_of_load {fs : σ} {dir : Path} {m : Manifest} (h : Package.load fs dir = .ok m) :
    isUsable fs dir = true := by
  obtain ⟨there, read⟩ := Package.load_eq_ok_iff.1 h
  simp only [isUsable, there, read, Bool.and_true]

theorem not_isUsable_of_load {fs : σ} {dir : Path} {e : ConfigError}
    (h : Package.load fs dir = .error e) : isUsable fs dir = false := by
  rcases hu : isUsable fs dir with _ | _
  · rfl
  · obtain ⟨there, read⟩ := Bool.and_eq_true_iff.1 hu
    split at read
    · rename_i ms readJson
      rw [(Package.load_eq_ok_iff (m := ⟨ms⟩)).2 ⟨there, readJson⟩] at h
      cases h
    · cases read

theorem workspaceAfter_of_bare {fs : σ} {w w₀ : Workspace} {c : Context}
    (coherent : c.Coherent fs) (bare : c.bare.workspace? = some w₀) :
    (workspaceAfter w c).Coherent fs ∧ (workspaceAfter w c).bare = w₀ := by
  cases c with
  | root w' => exact ⟨coherent, Option.some.inj bare⟩
  | member p w' => exact ⟨coherent.2, Option.some.inj bare⟩
  | standalone p => cases bare

section

variable {config : ResolvedConfig} {root : Path}

theorem runRoot_check (check : config.settings.fix = false) (p : Progress σ) (root : Path) :
    (runRoot config p (.fresh root)).1 = { p with
        findings := p.findings ++ findingsOn p.fs (freshRoot root) (rootRules config)
        failures := p.failures ++ failuresOn p.fs (freshRoot root) (rootRules config)
        packagesChecked := p.packagesChecked + if config.appliesToRoot then 1 else 0 } ∧
      (runRoot config p (.fresh root)).2.Coherent p.fs ∧
      (runRoot config p (.fresh root)).2.bare = .fresh root := by
  have coherent : (Workspace.fresh root).Coherent p.fs := Workspace.coherent_bare p.fs (.fresh root)
  unfold runRoot
  split
  · rename_i applies
    obtain ⟨progress, left, bare⟩ := runRules_check
      { p with packagesChecked := p.packagesChecked + 1 } (freshRoot root) coherent rfl
      (rootRules config)
    rw [check]
    refine ⟨progress, workspaceAfter_of_bare left ?_⟩
    exact congrArg Context.workspace? bare
  · rename_i unused
    refine ⟨?_, coherent, rfl⟩
    have none : rootRules config = [] := rootRules_eq_nil unused
    simp only [none, findingsOn, failuresOn, List.flatMap_nil, List.append_nil, Nat.add_zero]

theorem runMember_check (check : config.settings.fix = false) (p : Progress σ) (w : Workspace)
    (coherent : w.Coherent p.fs) (bare : w.bare = .fresh root) (dir : Path) :
    (runMember config p w dir).1 = { p with
        findings := p.findings ++ memberFindings config p.fs root dir
        failures := p.failures ++ memberFailures config p.fs root dir
        packagesChecked := p.packagesChecked + if isUsable p.fs dir then 1 else 0 } ∧
      (runMember config p w dir).2.Coherent p.fs ∧
      (runMember config p w dir).2.bare = .fresh root := by
  rw [runMember_eq]
  unfold memberFindings memberFailures
  rcases hl : Package.load p.fs dir with e | m
  · refine ⟨?_, coherent, bare⟩
    simp only [skip, not_isUsable_of_load hl, Bool.false_eq_true, if_false, List.append_nil,
      Nat.add_zero]
  · have opened : (openedMember w dir m).bare = freshMember root dir := by
      show Context.member (.fresh dir) w.bare = _
      rw [bare]
      rfl
    have keeps : (openedMember w dir m).Coherent p.fs := by
      refine ⟨?_, coherent⟩
      intro m' hm'
      rw [← Option.some.inj hm']
      exact hl
    obtain ⟨progress, left, same⟩ := runRules_check
      { p with packagesChecked := p.packagesChecked + 1 } (openedMember w dir m) keeps rfl
      (rulesFor config m.name?)
    rw [opened] at progress same
    simp only [check, isUsable_of_load hl, if_true]
    exact ⟨progress, workspaceAfter_of_bare left (congrArg Context.workspace? same)⟩

theorem runMembers_check (check : config.settings.fix = false) (p : Progress σ) (w : Workspace)
    (coherent : w.Coherent p.fs) (bare : w.bare = .fresh root) (dirs : List Path) :
    (runMembers config p w dirs).1 = { p with
        findings := p.findings ++ dirs.flatMap (memberFindings config p.fs root)
        failures := p.failures ++ dirs.flatMap (memberFailures config p.fs root)
        packagesChecked := p.packagesChecked + dirs.countP (isUsable p.fs) } := by
  induction dirs generalizing p w with
  | nil => simp only [runMembers, List.flatMap_nil, List.append_nil, List.countP_nil, Nat.add_zero]
  | cons dir dirs ih =>
    obtain ⟨progress, left, same⟩ := runMember_check check p w coherent bare dir
    have fs : (runMember config p w dir).1.fs = p.fs := by rw [progress]
    rw [← fs] at left
    rw [runMembers, ih _ _ left same, fs, progress]
    simp only [List.flatMap_cons, List.append_assoc, List.countP_cons, Nat.add_assoc]
    rw [Nat.add_comm (dirs.countP (isUsable p.fs))]

/-- In check mode what is kept cannot be observed: the outcome is that of asking every rule on a
context that was just opened, for the root and then for the selected members in their order. -/
theorem outcome_of_check_run {fs : σ} {o : Outcome} (check : config.settings.fix = false)
    (ok : (run config fs root).1 = .ok o) :
    ∃ dirs, Workspace.memberDirs fs root = .ok dirs ∧
      let members := selected root config.settings.paths dirs
      o.findings = findingsOn fs (freshRoot root) (rootRules config) ++
        members.flatMap (memberFindings config fs root) ∧
      o.failures = config.failures ++ failuresOn fs (freshRoot root) (rootRules config) ++
        members.flatMap (memberFailures config fs root) ∧
      o.packagesChecked = (if config.appliesToRoot then 1 else 0) +
        members.countP (isUsable fs) ∧
      (run config fs root).2 = fs := by
  obtain ⟨progress, coherent, bare⟩ := runRoot_check check (start config fs) root
  rw [run_eq] at ok ⊢
  rcases ho : Package.open? fs root with e | package
  · rw [ho] at ok
    cases ok
  · rcases hr : runRoot config (start config fs) (.fresh root) with ⟨p, w⟩
    simp only [hr] at progress coherent bare
    have first : p.fs = fs := congrArg Progress.fs progress
    have dir : w.package.dir = root := congrArg (fun w => w.package.dir) bare
    have members := coherent.readDirs_fst
    have kept := coherent.readDirs_snd
    have same := Workspace.bare_eq_of_package_eq (Workspace.package_readDirs_snd fs w)
    rcases hd : w.readDirs fs with ⟨trouble | dirs, w'⟩
    · simp only [ho, hr, first, hd] at ok
      cases ok
    · simp only [ho, hr, first, hd] at ok ⊢
      simp only [start, hd, dir] at members kept same
      have rest := runMembers_check check p w' (by rw [first]; exact kept) (same.trans bare)
        (selected root config.settings.paths dirs)
      refine ⟨dirs, members.symm, ?_⟩
      rw [← Except.ok.inj ok, rest, progress]
      simp only [finish, start, List.nil_append, Nat.zero_add, and_self]

end

/-- Names are warned of everywhere, and a rule for members fails. -/
def nameCheck : ResolvedConfig where
  rules := [⟨"naming", naming, ⟨.empty, .empty, true⟩⟩,
    ⟨"lost", reporting [] (.error (.config (.noGenerator "nothing"))), .allMembers⟩]
  settings := ⟨false, []⟩
  failures := []

/-- A workspace with two members, the first of which has no usable manifest. -/
def twoMembers : Tree where
  files := [
    jsonFile "/w/a/package.json" (.object [("name", .string "a")]),
    jsonFile "/w/b/package.json" (.array []),
    jsonFile "/w/package.json" (.object [("name", .string "w"),
      ("workspaces", .array [.string "b", .string "a"])])]
  dirs := []

/-- What checking names comes to on two members. -/
def namesOfTwo : Outcome where
  mode := .check
  findings := [⟨"naming", .warning, ⟨"/w"⟩, ⟨"package.json"⟩, "w", none, false, false, none⟩,
    ⟨"naming", .warning, ⟨"/w/a"⟩, ⟨"package.json"⟩, "a", none, false, false, none⟩]
  failures := [⟨workspaceFailure, some ⟨"/w/b"⟩, .config,
      "invalid manifest /w/b/package.json: expected a JSON object, found an array"⟩,
    ⟨"lost", some ⟨"/w/a"⟩, .config, "configuration error: unable to make generator: nothing"⟩]
  packagesChecked := 2

set_option maxRecDepth 20000 in
theorem outcome_of_nameCheck :
    nameCheck.settings.fix = false ∧ (run nameCheck twoMembers ⟨"/w"⟩).1 = .ok namesOfTwo ∧
    ∃ dirs, Workspace.memberDirs twoMembers ⟨"/w"⟩ = .ok dirs ∧
      let members := selected ⟨"/w"⟩ [] dirs
      namesOfTwo.findings = findingsOn twoMembers (freshRoot ⟨"/w"⟩) (rootRules nameCheck) ++
        members.flatMap (memberFindings nameCheck twoMembers ⟨"/w"⟩) ∧
      namesOfTwo.failures = failuresOn twoMembers (freshRoot ⟨"/w"⟩) (rootRules nameCheck) ++
        members.flatMap (memberFailures nameCheck twoMembers ⟨"/w"⟩) ∧
      namesOfTwo.packagesChecked = 1 + members.countP (isUsable twoMembers) ∧
      (run nameCheck twoMembers ⟨"/w"⟩).2 = twoMembers := by
  have ok : (run nameCheck twoMembers ⟨"/w"⟩).1 = .ok namesOfTwo :=
    eq_ok_of_toOption_eq (by decide +kernel)
  exact ⟨rfl, ok, outcome_of_check_run rfl ok⟩

end Run

end WorkspaceLint
