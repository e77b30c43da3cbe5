import WorkspaceLint.Proofs.Workspace.Caches
import WorkspaceLint.Run
import WorkspaceLint.FileSystem.Tree

/-!
# Visits

A run asks one rule after the other about one package after the other.  A *visit* is one of these
checks about to start: the file system, the context and the rule as they are then.  `visits` lists
those of a run, package by package, and `Advance` says what a run does between two states of its
progress, one constructor for each thing that it can do.  A run advances over its visits whether it
ends with an outcome or with an error (`advance_run`).
-/

namespace WorkspaceLint

namespace Run

variable {σ : Type}

/-- A rule about to be asked about the package of a context. -/
structure Visit (σ : Type) where
  fs : σ
  context : Context
  entry : RuleEntry

variable [FileSystem σ]

/-! ## One visit -/

/-- In check mode findings are reported and no fixer is tried. -/
theorem settleAll_check (name : String) (dir : Path) (fs : σ) (rs : List Reported) :
    settleAll false name dir fs rs = (fs, rs.map (recordOf name dir)) := by
  induction rs with
  | nil => rfl
  | cons r rs ih =>
    have untried : settle false name dir fs r = (fs, recordOf name dir r) := rfl
    rw [settleAll, untried, ih]
    rfl

namespace Visit

/-- What the check comes to, and the context after it. -/
def checked (v : Visit σ) : Except RuleError Unit × Context :=
  v.entry.rule.check.run v.fs v.context

/-- The findings that the check leaves on the context. -/
def found (v : Visit σ) : List Reported := v.checked.2.findings

/-- The directory of the visited package. -/
def dir (v : Visit σ) : Path := v.context.dir

/-- The findings as they are reported, and the file system after the fixers were tried. -/
def settled (fix : Bool) (v : Visit σ) : σ × List FindingRecord :=
  settleAll fix v.entry.name v.dir v.fs v.found

/-- The context on which the next rule is asked. -/
def next (fix : Bool) (v : Visit σ) : Context :=
  let c := v.checked.2.withoutFindings
  if (v.settled fix).2.any (·.fixed) then c.forget else c

/-- The failure of the check, if it failed. -/
def failures (v : Visit σ) : List FailureRecord := failureOf v.entry.name v.dir v.checked.1

/-- The progress of a run after a visit. -/
def onto (fix : Bool) (p : Progress σ) (v : Visit σ) : Progress σ :=
  { p with
    fs := (v.settled fix).1
    findings := p.findings ++ (v.settled fix).2
    failures := p.failures ++ v.failures }

theorem opened_next (fix : Bool) (v : Visit σ) : (v.next fix).opened = v.context.opened := by
  have kept := Check.opened_run_snd v.entry.rule.check v.fs v.context
  unfold next
  simp only
  split
  · rw [Context.opened_forget, Context.opened_withoutFindings]
    exact kept
  · rw [Context.opened_withoutFindings]
    exact kept

/-- The next rule finds no findings of this one. -/
theorem findings_next (fix : Bool) (v : Visit σ) : (v.next fix).findings = [] := by
  unfold next
  simp only
  split <;> cases v.checked.2 <;> rfl

theorem settled_check (v : Visit σ) :
    v.settled false = (v.fs, v.found.map (recordOf v.entry.name v.dir)) :=
  settleAll_check v.entry.name v.dir v.fs v.found

end Visit

theorem runRule_eq (fix : Bool) (p : Progress σ) (c : Context) (entry : RuleEntry) :
    runRule fix p c entry =
      (Visit.onto fix p ⟨p.fs, c, entry⟩, Visit.next fix ⟨p.fs, c, entry⟩) := by
  have dir := Check.dir_run_snd entry.rule.check p.fs c
  unfold runRule
  simp only [Context.dir_withoutFindings, dir]
  rfl

/-! ## The visits of a run -/

/-- The visits of rules to the package of a context. -/
def ruleVisits (fix : Bool) (fs : σ) (c : Context) : List RuleEntry → List (Visit σ)
  | [] => []
  | entry :: entries =>
    let v : Visit σ := ⟨fs, c, entry⟩
    v :: ruleVisits fix (v.settled fix).1 (v.next fix) entries

theorem opened_of_mem_ruleVisits {fix : Bool} {fs : σ} {c : Context} {entries : List RuleEntry}
    {v : Visit σ} (h : v ∈ ruleVisits fix fs c entries) : v.context.opened = c.opened := by
  induction entries generalizing fs c with
  | nil => cases h
  | cons entry entries ih =>
    rcases List.mem_cons.1 h with rfl | later
    · rfl
    · exact (ih later).trans (Visit.opened_next fix ⟨fs, c, entry⟩)

theorem entry_mem_of_mem_ruleVisits {fix : Bool} {fs : σ} {c : Context} {entries : List RuleEntry}
    {v : Visit σ} (h : v ∈ ruleVisits fix fs c entries) : v.entry ∈ entries := by
  induction entries generalizing fs c with
  | nil => cases h
  | cons entry entries ih =>
    rcases List.mem_cons.1 h with rfl | later
    · exact List.mem_cons_self
    · exact List.mem_cons_of_mem _ (ih later)

/-- The rules that are for the workspace root. -/
def rootRules (config : ResolvedConfig) : List RuleEntry :=
  config.rules.filter (·.scope.appliesToRoot)

theorem rootRules_eq_nil {config : ResolvedConfig} (h : ¬ config.appliesToRoot = true) :
    rootRules config = [] := by
  rw [rootRules, List.filter_eq_nil_iff]
  intro entry member applies
  exact h (List.any_eq_true.2 ⟨entry, member, applies⟩)

/-- The visits to the workspace root. -/
def rootVisits (config : ResolvedConfig) (fs : σ) (w : Workspace) : List (Visit σ) :=
  ruleVisits config.settings.fix fs (.root w) (rootRules config)

/-- A member that was just opened. -/
def openedMember (w : Workspace) (dir : Path) (m : Manifest) : Context := .member ⟨dir, some m, []⟩ w

/-- The visits to a member. -/
def memberVisits (config : ResolvedConfig) (fs : σ) (w : Workspace) (dir : Path) :
    List (Visit σ) :=
  match Package.load fs dir with
  | .error _ => []
  | .ok m => ruleVisits config.settings.fix fs (openedMember w dir m) (rulesFor config m.name?)

/-- The visits to members, for each of them. -/
def membersVisits (config : ResolvedConfig) (p : Progress σ) (w : Workspace) :
    List Path → List (List (Visit σ))
  | [] => []
  | dir :: dirs =>
    let r := runMember config p w dir
    memberVisits config p.fs w dir :: membersVisits config r.1 r.2 dirs

/-- The visits of a run: those to the root, and those to each member that is checked. -/
def visits (config : ResolvedConfig) (fs : σ) (root : Path) : List (List (Visit σ)) :=
  match Package.open? fs root with
  | .error _ => []
  | .ok _ =>
    let r := runRoot config (start config fs) (.fresh root)
    rootVisits config fs (.fresh root) ::
      match r.2.readDirs r.1.fs with
      | (.error _, _) => []
      | (.ok dirs, w) => membersVisits config r.1 w (selected root config.settings.paths dirs)

/-- Running the rules for a member starts with its manifest. -/
theorem runMember_eq (config : ResolvedConfig) (p : Progress σ) (w : Workspace) (dir : Path) :
    runMember config p w dir = match Package.load p.fs dir with
      | .error e => (skip p dir e, w)
      | .ok m =>
        let r := runRules config.settings.fix { p with packagesChecked := p.packagesChecked + 1 }
          (openedMember w dir m) (rulesFor config m.name?)
        (r.1, workspaceAfter w r.2) := by
  unfold runMember Package.open?
  split
  · rename_i e missing
    split at missing
    · cases missing
    · rename_i absent
      rw [← Except.error.inj missing, Package.load, if_neg absent]
  · rename_i package there
    split at there
    · rw [← Except.ok.inj there]
      unfold Package.readManifest Package.fresh
      rcases Package.load p.fs dir with e | m <;> rfl
    · cases there

/-- A run is that of its root, unless there is none, and then that of its members, unless they
cannot be enumerated. -/
theorem run_eq (config : ResolvedConfig) (fs : σ) (root : Path) :
    run config fs root = match Package.open? fs root with
      | .error e => (.error (.openWorkspace root e), fs)
      | .ok _ =>
        let r := runRoot config (start config fs) (.fresh root)
        match r.2.readDirs r.1.fs with
        | (.error trouble, _) => (.error (.enumerate root (.runtime trouble)), r.1.fs)
        | (.ok dirs, w) =>
          let r := runMembers config r.1 w (selected root config.settings.paths dirs)
          (.ok (finish config r.1), r.1.fs) := by
  unfold run
  rcases ho : Package.open? fs root with e | package
  · rfl
  · obtain ⟨-, rfl⟩ := Package.open?_eq_ok_iff.1 ho
    rfl

/-- A run ends with an error before its first visit, or right after those to the root. -/
theorem cases_of_run_error {config : ResolvedConfig} {fs : σ} {root : Path} {e : RunError}
    (error : (run config fs root).1 = .error e) :
    (∃ cause, e = .openWorkspace root cause ∧ (run config fs root).2 = fs ∧
      visits config fs root = []) ∨
    (∃ trouble, e = .enumerate root (.runtime trouble) ∧
      visits config fs root = [rootVisits config fs (.fresh root)]) := by
  rw [run_eq] at error ⊢
  rw [visits]
  rcases ho : Package.open? fs root with cause | package
  · rw [ho] at error
    exact .inl ⟨cause, (Except.error.inj error).symm, rfl, rfl⟩
  · simp only [ho] at error
    rcases hd : (runRoot config (start config fs) (.fresh root)).2.readDirs
      (runRoot config (start config fs) (.fresh root)).1.fs with ⟨trouble | dirs, w⟩
    · rw [hd] at error
      exact .inr ⟨trouble, (Except.error.inj error).symm, by simp only [hd]⟩
    · rw [hd] at error
      cases error

/-! ## What a run does -/

/-- The progress `p` of a run comes to `p'` over visits. -/
inductive Advance (fix : Bool) : (p : Progress σ) → List (Visit σ) → (p' : Progress σ) → Prop where
  | done (p : Progress σ) : Advance fix p [] p
  /-- A rule is asked on a context without findings. -/
  | visit {p p' : Progress σ} {c : Context} {entry : RuleEntry} {vs : List (Visit σ)}
      (clear : c.findings = []) (rest : Advance fix (Visit.onto fix p ⟨p.fs, c, entry⟩) vs p') :
      Advance fix p (⟨p.fs, c, entry⟩ :: vs) p'
  /-- A member without a usable manifest is skipped. -/
  | skip {p p' : Progress σ} {dir : Path} {e : ConfigError} {vs : List (Visit σ)}
      (unusable : Package.load p.fs dir = .error e) (rest : Advance fix (skip p dir e) vs p') :
      Advance fix p vs p'
  /-- A package is counted. -/
  | count {p p' : Progress σ} {vs : List (Visit σ)}
      (rest : Advance fix { p with packagesChecked := p.packagesChecked + 1 } vs p') :
      Advance fix p vs p'

theorem Advance.append {fix : Bool} {p p' p'' : Progress σ} {vs vs' : List (Visit σ)}
    (h : Advance fix p vs p') (h' : Advance fix p' vs' p'') : Advance fix p (vs ++ vs') p'' := by
  induction h with
  | done p => exact h'
  | visit clear rest ih => exact .visit clear (ih h')
  | skip unusable rest ih => exact .skip unusable (ih h')
  | count rest ih => exact .count (ih h')

theorem advance_runRules (fix : Bool) (p : Progress σ) (c : Context) (clear : c.findings = [])
    (entries : List RuleEntry) :
    Advance fix p (ruleVisits fix p.fs c entries) (runRules fix p c entries).1 := by
  induction entries generalizing p c with
  | nil => exact .done p
  | cons entry entries ih =>
    rw [ruleVisits, runRules, runRule_eq]
    exact .visit clear (ih _ _ (Visit.findings_next fix _))

theorem advance_runRoot (config : ResolvedConfig) (p : Progress σ) (w : Workspace)
    (clear : w.package.findings = []) :
    Advance config.settings.fix p (rootVisits config p.fs w) (runRoot config p w).1 := by
  unfold runRoot
  split
  · exact .count (advance_runRules config.settings.fix _ (.root w) clear (rootRules config))
  · rename_i unused
    rw [rootVisits, rootRules_eq_nil unused]
    exact .done p

theorem advance_runMember (config : ResolvedConfig) (p : Progress σ) (w : Workspace) (dir : Path) :
    Advance config.settings.fix p (memberVisits config p.fs w dir)
      (runMember config p w dir).1 := by
  rw [runMember_eq, memberVisits]
  rcases hl : Package.load p.fs dir with e | m
  · exact .skip hl (.done _)
  · exact .count (advance_runRules config.settings.fix _ (openedMember w dir m) rfl
      (rulesFor config m.name?))

theorem advance_runMembers (config : ResolvedConfig) (p : Progress σ) (w : Workspace)
    (dirs : List Path) :
    Advance config.settings.fix p (membersVisits config p w dirs).flatten
      (runMembers config p w dirs).1 := by
  induction dirs generalizing p w with
  | nil => exact .done p
  | cons dir dirs ih => exact (advance_runMember config p w dir).append (ih _ _)

/-- A run advances over its visits, also when it ends with an error. -/
theorem advance_run (config : ResolvedConfig) (fs : σ) (root : Path) :
    ∃ p, Advance config.settings.fix (start config fs) (visits config fs root).flatten p ∧
      (run config fs root).2 = p.fs ∧
      ∀ o, (run config fs root).1 = .ok o → o = finish config p := by
  have first := advance_runRoot config (start config fs) (.fresh root) rfl
  rw [run_eq, visits]
  rcases Package.open? fs root with e | package
  · exact ⟨start config fs, .done _, rfl, nofun⟩
  · simp only
    rcases hr : runRoot config (start config fs) (.fresh root) with ⟨p, w⟩
    rw [hr] at first
    simp only
    rcases w.readDirs p.fs with ⟨trouble | dirs, w'⟩
    · exact ⟨p, first.append (.done p), rfl, nofun⟩
    · refine ⟨_, first.append (advance_runMembers config p w' _), rfl, ?_⟩
      intro o ho
      exact (Except.ok.inj ho).symm

/-! ## Concrete runs -/

/-- A rule that reports findings and comes to a result. -/
def reporting (rs : List Reported) (result : Except RuleError Unit) : Rule where
  info := ⟨"reporting", "Reporting", "Reports what it was given", false⟩
  check := do
    for r in rs do Check.report r.severity r.finding
    Check.ofExcept result

/-- A rule that warns of the name in the manifest. -/
def naming : Rule where
  info := ⟨"naming", "Naming", "Warns of the name of a package", false⟩
  check := do
    let m ← Check.manifest
    Check.report .warning ⟨⟨"package.json"⟩, m.name?.getD "", none, none⟩

/-- A JSON document in a file. -/
def jsonFile (path : String) (value : Json) : Path × String := (⟨path⟩, value.canonical)

end Run

end WorkspaceLint
