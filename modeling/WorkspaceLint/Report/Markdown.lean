import WorkspaceLint.Report.Basic

/-!
# Reports in Markdown

A heading with the counts, a section for each finding with its diff in a fenced block, and a list of
failures.
-/

namespace WorkspaceLint

namespace Report

/-- The opening line of a block that holds a diff. -/
def fenceOpen : String := "```diff\n"

/-- The closing line of a block. -/
def fenceClose : String := "```\n"

/-- A text with a line break at its end. -/
def endLine (s : String) : String :=
  if s.toList.getLast? = some '\n' then s else s ++ "\n"

/-- The list of counts. -/
def markdownHead (r : Report) : String :=
  let s := r.summary
  "# monolint report\n\n" ++
    "- Verdict: `" ++ r.verdict.status.label ++ "`\n" ++
    "- Mode: `" ++ r.mode.label ++ "`\n" ++
    "- Packages checked: " ++ Decimal.text s.packagesChecked ++ "\n" ++
    "- Errors: " ++ Decimal.text s.errors ++ " (fixed " ++ Decimal.text s.fixed ++
    ", fix failures " ++ Decimal.text s.fixFailures ++ ")\n" ++
    "- Warnings: " ++ Decimal.text s.warnings ++ "\n" ++
    "- Rule failures: " ++ Decimal.text s.failures ++ "\n" ++
    String.join (r.verdict.reasons.map fun reason => "- Reason: " ++ reason ++ "\n") ++ "\n"

/-- What became of the fixer of a finding. -/
def fixStatus (f : FindingRecord) : String :=
  if f.fixed then "applied"
  else
    match f.fixError with
    | some e => "failed (" ++ e ++ ")"
    | none => if f.fixable then "available" else "none"

/-- The section of a finding, numbered from one. -/
def markdownFinding (number : Nat) (f : FindingRecord) : String :=
  "### " ++ Decimal.text number ++ ". " ++ f.message ++ "\n\n" ++
    "- Rule: `" ++ f.rule ++ "`\n" ++
    "- Severity: `" ++ f.severity.label ++ "`\n" ++
    "- File: `" ++ f.file.text ++ "`\n" ++
    "- Fix: " ++ fixStatus f ++ "\n" ++
    (match f.longMessage with
      | some long => "\n" ++ fenceOpen ++ endLine long ++ fenceClose
      | none => "") ++ "\n"

/-- The sections of findings from the given number on. -/
def markdownFindings (number : Nat) : List FindingRecord → String
  | [] => ""
  | f :: fs => markdownFinding number f ++ markdownFindings (number + 1) fs

/-- The line of a failure. -/
def markdownFailure (f : FailureRecord) : String :=
  let place := match f.packageDir with
    | some dir => " in `" ++ dir.text ++ "`"
    | none => ""
  "- `" ++ f.rule ++ "`" ++ place ++ " (" ++ f.kind.label ++ "): " ++ f.message ++ "\n"

/-- The report in Markdown. -/
def markdown (r : Report) : String :=
  markdownHead r ++ "## Findings\n\n" ++
    (if r.findings.isEmpty then "_No findings._\n" else "") ++ markdownFindings 1 r.findings ++
    (if r.failures.isEmpty then ""
      else "## Rule failures\n\n" ++ String.join (r.failures.map markdownFailure))

end Report

end WorkspaceLint
