import WorkspaceLint.Path
import WorkspaceLint.Time.Instant

/-!
# Reports

What one run found: findings, failures of rules, and a summary with a verdict that are computed from
them.
-/

namespace WorkspaceLint

/-- How serious a finding is. -/
inductive Severity where
  | error
  | warning
  deriving DecidableEq, Repr, Inhabited

/-- The name of a severity. -/
def Severity.label : Severity → String
  | error => "error"
  | warning => "warning"

/-- Whether a severity comes before another one: errors come before warnings. -/
def Severity.before (a b : Severity) : Bool := a = .error && b = .warning

/-- Whether fixers were tried during the run. -/
inductive RunMode where
  | check
  | fix
  deriving DecidableEq, Repr, Inhabited

/-- The name of a mode. -/
def RunMode.label : RunMode → String
  | check => "check"
  | fix => "fix"

/-- What a run comes to. -/
inductive VerdictStatus where
  | pass
  | warn
  | fail
  deriving DecidableEq, Repr, Inhabited

/-- The name of a verdict. -/
def VerdictStatus.label : VerdictStatus → String
  | pass => "pass"
  | warn => "warn"
  | fail => "fail"

/-- Whether a rule could not run as it was configured, or not read what it needed. -/
inductive FailureKind where
  | config
  | runtime
  deriving DecidableEq, Repr, Inhabited

/-- The name of a kind of failure. -/
def FailureKind.label : FailureKind → String
  | config => "config"
  | runtime => "runtime"

/-- The program that made a report. -/
structure ToolInfo where
  name : String
  version : Option String
  deriving DecidableEq, Repr, Inhabited

/-- When a run took place. -/
structure RunInfo where
  startedAt : Option Instant
  endedAt : Option Instant
  durationMs : Option Nat
  deriving DecidableEq, Repr, Inhabited

/-- Nothing about when a run took place. -/
def RunInfo.empty : RunInfo := ⟨none, none, none⟩

/-- A verdict and the reasons for it. -/
structure Verdict where
  status : VerdictStatus
  reasons : List String
  deriving DecidableEq, Repr, Inhabited

/-- The counts of a run. -/
structure Summary where
  packagesChecked : Nat
  errors : Nat
  warnings : Nat
  fixed : Nat
  fixFailures : Nat
  failures : Nat
  deriving DecidableEq, Repr, Inhabited

/-- The errors that still stand after the run. -/
def Summary.unfixedErrors (s : Summary) : Nat := s.errors - s.fixed

/-- A finding as it is reported. -/
structure FindingRecord where
  rule : String
  severity : Severity
  packageDir : Path
  file : Path
  message : String
  longMessage : Option String
  fixable : Bool
  fixed : Bool
  /-- Why the fixer failed, if it was tried and failed. -/
  fixError : Option String
  deriving DecidableEq, Repr, Inhabited

/-- A rule that could not run for a package, or at all. -/
structure FailureRecord where
  rule : String
  packageDir : Option Path
  kind : FailureKind
  message : String
  deriving DecidableEq, Repr, Inhabited

/-- The report of a run. -/
structure Report where
  schema : String
  tool : ToolInfo
  run : RunInfo
  mode : RunMode
  verdict : Verdict
  summary : Summary
  findings : List FindingRecord
  failures : List FailureRecord
  deriving DecidableEq, Repr, Inhabited

namespace Report

/-- The identifier of the form of reports. -/
def schemaId : String := "monolint.report.v1"

/-- The report of a run that found nothing. -/
def empty (tool : ToolInfo) (mode : RunMode) : Report where
  schema := schemaId
  tool := tool
  run := .empty
  mode := mode
  verdict := ⟨.pass, []⟩
  summary := ⟨0, 0, 0, 0, 0, 0⟩
  findings := []
  failures := []

/-- The counts of the given findings and failures. -/
def summarize (packagesChecked : Nat) (findings : List FindingRecord)
    (failures : List FailureRecord) : Summary where
  packagesChecked := packagesChecked
  errors := findings.countP (·.severity = .error)
  warnings := findings.countP (·.severity = .warning)
  fixed := findings.countP (·.fixed)
  fixFailures := findings.countP (·.fixError.isSome)
  failures := failures.length

/-- The reasons for which a run fails. -/
def failReasons (s : Summary) : List String :=
  (if 0 < s.unfixedErrors then [Decimal.text s.unfixedErrors ++ " unfixed error finding(s)"]
    else []) ++
  (if 0 < s.failures then [Decimal.text s.failures ++ " rule failure(s)"] else [])

/-- The verdict on a run with the given counts. -/
def judge (s : Summary) : Verdict :=
  let reasons := failReasons s
  let status : VerdictStatus :=
    if !reasons.isEmpty then .fail else if 0 < s.warnings then .warn else .pass
  ⟨status, reasons⟩

/-- The report with its summary and verdict computed from its findings and failures.  The number of
packages stays as it is. -/
def recompute (r : Report) : Report :=
  let summary := summarize r.summary.packagesChecked r.findings r.failures
  { r with summary := summary, verdict := judge summary }

/-- The exit code of a run: 1 after a failure, 2 when errors still stand, else 0. -/
def exitCode (r : Report) : Nat :=
  if 0 < r.summary.failures then 1
  else if 0 < r.summary.unfixedErrors then 2
  else 0

end Report

end WorkspaceLint
