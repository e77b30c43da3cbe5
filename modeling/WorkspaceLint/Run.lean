import WorkspaceLint.Config.Basic

/-!
# Runs

A run checks the root of a workspace and then its members, and for each of them the rules that are
for it, in order.  In fix mode the fixers of error findings are tried right after the check that
reported them.  Only a workspace that cannot be opened or enumerated ends a run with an error; what
keeps a rule from its work is a failure in the outcome.
-/

namespace WorkspaceLint

/-- Why a run ended without an outcome. -/
inductive RunError where
  | openWorkspace (root : Path) (cause : ConfigError)
  | enumerate (root : Path) (cause : RuleError)
  deriving Repr, Inhabited

/-- The wording of the end of a run, with everything that caused it. -/
def RunError.message : RunError → String
  | openWorkspace root cause => "open workspace " ++ root.text ++ ": " ++ cause.message
  | enumerate root cause =>
    ": ".intercalate
      (("enumerate workspace packages under " ++ root.text) :: cause.message :: cause.causes)

/-- What a run comes to. -/
structure Outcome where
  mode : RunMode
  findings : List FindingRecord
  failures : List FailureRecord
  packagesChecked : Nat
  deriving DecidableEq, Repr, Inhabited

/-- The report on an outcome. -/
def Outcome.report (o : Outcome) (tool : ToolInfo) : Report :=
  let blank := Report.empty tool o.mode
  Report.recompute { blank with
    summary := { blank.summary with packagesChecked := o.packagesChecked }
    findings := o.findings
    failures := o.failures }

namespace Run

/-- A run under way: the file system as it is now, and what was found so far. -/
structure Progress (σ : Type) where
  fs : σ
  findings : List FindingRecord
  failures : List FailureRecord
  packagesChecked : Nat

/-- The name under which failures of no rule are reported. -/
def workspaceFailure : String := "workspace"

section

variable {σ : Type} [FileSystem σ]

/-! ### One rule -/

/-- A finding as it is reported before any fixer is tried. -/
def recordOf (name : String) (dir : Path) (r : Reported) : FindingRecord where
  rule := name
  severity := r.severity
  packageDir := dir
  file := r.finding.file
  message := r.finding.message
  longMessage := r.finding.longMessage
  fixable := r.finding.fixer.isSome
  fixed := false
  fixError := none

/-- The fixer to be tried for a finding: that of an error, in fix mode. -/
def fixerToTry (fix : Bool) (r : Reported) : Option Fixer :=
  if fix && r.severity = .error then r.finding.fixer else none

/-- Report a finding, and try its fixer if that is called for. -/
def settle (fix : Bool) (name : String) (dir : Path) (fs : σ) (r : Reported) :
    σ × FindingRecord :=
  match fixerToTry fix r with
  | none => (fs, recordOf name dir r)
  | some fixer =>
    match fixer.apply fs with
    | (fs, none) => (fs, { recordOf name dir r with fixed := true })
    | (fs, some trouble) => (fs, { recordOf name dir r with fixError := some trouble.message })

/-- Report findings in order. -/
def settleAll (fix : Bool) (name : String) (dir : Path) (fs : σ) :
    List Reported → σ × List FindingRecord
  | [] => (fs, [])
  | r :: rs =>
    let first := settle fix name dir fs r
    let rest := settleAll fix name dir first.1 rs
    (rest.1, first.2 :: rest.2)

/-- The failure of a check, if it failed. -/
def failureOf (name : String) (dir : Path) : Except RuleError Unit → List FailureRecord
  | .ok () => []
  | .error e => [⟨name, some dir, e.kind, e.message⟩]

/-- Run a rule for the package of a context.  When a fixer did its work, the manifest is read
again. -/
def runRule (fix : Bool) (p : Progress σ) (c : Context) (entry : RuleEntry) :
    Progress σ × Context :=
  let checked := entry.rule.check.run p.fs c
  let c := checked.2
  let settled := settleAll fix entry.name c.dir p.fs c.findings
  let c := c.withoutFindings
  ({ p with
      fs := settled.1
      findings := p.findings ++ settled.2
      failures := p.failures ++ failureOf entry.name c.dir checked.1 },
    if settled.2.any (·.fixed) then c.forget else c)

/-- Run rules for the package of a context. -/
def runRules (fix : Bool) (p : Progress σ) (c : Context) : List RuleEntry → Progress σ × Context
  | [] => (p, c)
  | entry :: entries =>
    let r := runRule fix p c entry
    runRules fix r.1 r.2 entries

/-! ### Members -/

/-- The failure of a member that cannot be looked at. -/
def skip (p : Progress σ) (dir : Path) (e : ConfigError) : Progress σ :=
  { p with failures := p.failures ++ [⟨workspaceFailure, some dir, .config, e.message⟩] }

/-- The rules that are for a member of a name. -/
def rulesFor (config : ResolvedConfig) (name : Option String) : List RuleEntry :=
  config.rules.filter (·.scope.appliesToMember name)

/-- The workspace of a context whose package is inside of it. -/
def workspaceAfter (w : Workspace) (c : Context) : Workspace := c.workspace?.getD w

/-- Run the rules that are for a member. -/
def runMember (config : ResolvedConfig) (p : Progress σ) (w : Workspace) (dir : Path) :
    Progress σ × Workspace :=
  match Package.open? p.fs dir with
  | .error e => (skip p dir e, w)
  | .ok package =>
    match package.readManifest p.fs with
    | (.error e, _) => (skip p dir e, w)
    | (.ok manifest, package) =>
      let p := { p with packagesChecked := p.packagesChecked + 1 }
      let r := runRules config.settings.fix p (.member package w) (rulesFor config manifest.name?)
      (r.1, workspaceAfter w r.2)

/-- Run the rules that are for members. -/
def runMembers (config : ResolvedConfig) (p : Progress σ) (w : Workspace) :
    List Path → Progress σ × Workspace
  | [] => (p, w)
  | dir :: dirs =>
    let r := runMember config p w dir
    runMembers config r.1 r.2 dirs

/-- The directories that paths mean. -/
def wanted (root : Path) (paths : List Path) : List Path :=
  paths.map fun p => (root.join p).normalize

/-- The members to check. -/
def selected (root : Path) (paths dirs : List Path) : List Path :=
  if paths.isEmpty then dirs else dirs.filter (·.isIn (wanted root paths))

/-! ### The whole run -/

/-- Run the rules that are for the workspace root. -/
def runRoot (config : ResolvedConfig) (p : Progress σ) (w : Workspace) : Progress σ × Workspace :=
  if config.appliesToRoot then
    let p := { p with packagesChecked := p.packagesChecked + 1 }
    let r := runRules config.settings.fix p (.root w)
      (config.rules.filter (·.scope.appliesToRoot))
    (r.1, workspaceAfter w r.2)
  else (p, w)

/-- The start of a run. -/
def start (config : ResolvedConfig) (fs : σ) : Progress σ := ⟨fs, [], config.failures, 0⟩

/-- The outcome of a run at its end. -/
def finish (config : ResolvedConfig) (p : Progress σ) : Outcome where
  mode := if config.settings.fix then .fix else .check
  findings := p.findings
  failures := p.failures
  packagesChecked := p.packagesChecked

/-- Check the workspace at a root, and fix it in fix mode: the outcome, and the file system as the
run leaves it. -/
def run (config : ResolvedConfig) (fs : σ) (root : Path) : Except RunError Outcome × σ :=
  match Package.open? fs root with
  | .error e => (.error (.openWorkspace root e), fs)
  | .ok package =>
    let r := runRoot config (start config fs) ⟨package, none, none⟩
    match r.2.readDirs r.1.fs with
    | (.error trouble, _) => (.error (.enumerate root (.runtime trouble)), r.1.fs)
    | (.ok dirs, w) =>
      let r := runMembers config r.1 w (selected root config.settings.paths dirs)
      (.ok (finish config r.1), r.1.fs)

end

end Run

end WorkspaceLint
