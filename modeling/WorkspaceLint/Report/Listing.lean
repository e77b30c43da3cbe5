import WorkspaceLint.Report.Basic

/-!
# Reports for a terminal

A listing of the findings under their files, of the failures, and of the counts.
-/

namespace WorkspaceLint

namespace Report

/-- Findings of one file, under the spelling of the first. -/
structure FileGroup where
  file : Path
  findings : List FindingRecord
  deriving DecidableEq, Repr, Inhabited

/-- Add a finding to the group of its file, or at the end as a group of its own. -/
def addToGroups (f : FindingRecord) : List FileGroup → List FileGroup
  | [] => [⟨f.file, [f]⟩]
  | g :: gs =>
    if g.file.same f.file then { g with findings := g.findings ++ [f] } :: gs
    else g :: addToGroups f gs

/-- Findings by their files, in the order of the first finding of each. -/
def groupByFile (findings : List FindingRecord) : List FileGroup :=
  findings.foldl (fun groups f => addToGroups f groups) []

/-- A text filled up with blanks to a width. -/
def padRight (width : Nat) (s : String) : String :=
  s ++ String.ofList (List.replicate (width - s.length) ' ')

/-- A line without its line break. -/
def withoutBreak (line : List Char) : List Char :=
  match line.reverse with
  | '\n' :: '\r' :: rest => rest.reverse
  | '\n' :: rest => rest.reverse
  | _ => line

/-- The lines of a text after the characters `line`, last first. -/
def textLinesFrom (line : List Char) : List Char → List (List Char)
  | [] => if line.isEmpty then [] else [line.reverse]
  | c :: cs =>
    if c = '\n' then withoutBreak ('\n' :: line).reverse :: textLinesFrom [] cs
    else textLinesFrom (c :: line) cs

/-- The lines of a text, without their line breaks. -/
def textLines (s : String) : List String := (textLinesFrom [] s.toList).map String.ofList

/-- What became of the fixer of a finding. -/
def fixSuffix (f : FindingRecord) : String :=
  if f.fixed then " (fixed)"
  else
    match f.fixError with
    | some e => " (fix failed: " ++ e ++ ")"
    | none => if f.fixable && f.severity = .error then " (fixable)" else ""

/-- The line of a finding. -/
def findingLine (f : FindingRecord) : String :=
  "  " ++ padRight 7 f.severity.label ++ " [" ++ f.rule ++ "] " ++ f.message ++ fixSuffix f ++ "\n"

/-- The indented lines of a long message. -/
def detailLines (f : FindingRecord) : String :=
  match f.longMessage with
  | some long => String.join ((textLines long).map fun line => "      " ++ line ++ "\n")
  | none => ""

/-- The block of a file. -/
def groupText (verbose : Bool) (g : FileGroup) : String :=
  g.file.text ++ "\n" ++
    String.join (g.findings.map fun f =>
      findingLine f ++ if verbose then detailLines f else "") ++ "\n"

/-- The line of a failure. -/
def failureLine (f : FailureRecord) : String :=
  let place := match f.packageDir with
    | some dir => " (" ++ dir.text ++ ")"
    | none => ""
  "  " ++ padRight 7 f.kind.label ++ " [" ++ f.rule ++ "]" ++ place ++ " " ++ f.message ++ "\n"

/-- The block of failures. -/
def failuresText (failures : List FailureRecord) : String :=
  if failures.isEmpty then ""
  else "rule failures\n" ++ String.join (failures.map failureLine) ++ "\n"

/-- The line of counts. -/
def summaryLine (r : Report) : String :=
  let s := r.summary
  Decimal.text s.packagesChecked ++ " package(s) checked: " ++ Decimal.text s.errors ++
    " error(s), " ++ Decimal.text s.warnings ++ " warning(s), " ++ Decimal.text s.fixed ++
    " fixed, " ++ Decimal.text s.failures ++ " rule failure(s) -> " ++ r.verdict.status.label ++
    "\n"

/-- The hint that a run with fixes would do something. -/
def fixHint : String := "run with --fix to apply the available fixes\n"

/-- Whether the hint is given: something could be fixed and was not. -/
def hintsFix (r : Report) : Bool :=
  r.mode = .check && r.findings.any fun f => f.fixable && !f.fixed

/-- The report as a listing; long messages are only shown when `verbose`. -/
def listing (r : Report) (verbose : Bool) : String :=
  String.join ((groupByFile r.findings).map (groupText verbose)) ++ failuresText r.failures ++
    summaryLine r ++ if r.hintsFix then fixHint else ""

end Report

end WorkspaceLint
