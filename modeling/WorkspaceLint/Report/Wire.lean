import WorkspaceLint.Report.Basic
import WorkspaceLint.Json.Decoder

/-!
# The wire form of reports

Reports as JSON documents.  Members that say nothing are left out when a report is written, and may
be missing when one is read.
-/

namespace WorkspaceLint

open Json (Decoder)

/-- A member of an object, left out when there is no value. -/
def Json.member? (key : String) (value : Option Json) : Members :=
  match value with
  | some v => [(key, v)]
  | none => []

/-! ### Writing -/

/-- The wire form of a tool. -/
def ToolInfo.toJson (t : ToolInfo) : Json :=
  .object (("name", .string t.name) :: Json.member? "version" (t.version.map .string))

/-- The wire form of the times of a run. -/
def RunInfo.toJson (r : RunInfo) : Json :=
  .object (Json.member? "started_at" (r.startedAt.map fun t => .string t.text) ++
    Json.member? "ended_at" (r.endedAt.map fun t => .string t.text) ++
    Json.member? "duration_ms" (r.durationMs.map Json.ofNat))

/-- The wire form of a verdict. -/
def Verdict.toJson (v : Verdict) : Json :=
  .object (("status", .string v.status.label) ::
    Json.member? "reasons"
      (if v.reasons.isEmpty then none else some (.array (v.reasons.map .string))))

/-- The wire form of a summary. -/
def Summary.toJson (s : Summary) : Json :=
  .object [("packages_checked", .ofNat s.packagesChecked), ("errors", .ofNat s.errors),
    ("warnings", .ofNat s.warnings), ("fixed", .ofNat s.fixed),
    ("fix_failures", .ofNat s.fixFailures), ("failures", .ofNat s.failures)]

/-- The wire form of a finding. -/
def FindingRecord.toJson (f : FindingRecord) : Json :=
  .object ([("rule", .string f.rule), ("severity", .string f.severity.label),
    ("package_dir", .string f.packageDir.text), ("file", .string f.file.text),
    ("message", .string f.message)] ++
    Json.member? "long_message" (f.longMessage.map .string) ++
    [("fixable", .bool f.fixable), ("fixed", .bool f.fixed)] ++
    Json.member? "fix_error" (f.fixError.map .string))

/-- The wire form of a failure. -/
def FailureRecord.toJson (f : FailureRecord) : Json :=
  .object (("rule", .string f.rule) ::
    (Json.member? "package_dir" (f.packageDir.map fun p => .string p.text) ++
    [("kind", .string f.kind.label), ("message", .string f.message)]))

/-- The wire form of a report. -/
def Report.toJson (r : Report) : Json :=
  .object ([("schema", .string r.schema), ("tool", r.tool.toJson), ("run", r.run.toJson),
    ("mode", .string r.mode.label), ("verdict", r.verdict.toJson),
    ("summary", r.summary.toJson), ("findings", .array (r.findings.map FindingRecord.toJson))] ++
    Json.member? "failures"
      (if r.failures.isEmpty then none
        else some (.array (r.failures.map FailureRecord.toJson))))

/-- A report as canonical JSON text. -/
def Report.jsonText (r : Report) : String := r.toJson.canonical

/-! ### Reading -/

/-- A string. -/
def Json.Decoder.text : Decoder String := .string "a string"

/-- A path. -/
def Path.decoder : Decoder Path := (Decoder.string "path string").map Path.mk

/-- A point in time. -/
def Instant.decoder : Decoder Instant :=
  (Decoder.string "an RFC 3339 formatted date and time string").refine fun s =>
    (Instant.parse s).mapError fun f => .told f.message

/-- A severity. -/
def Severity.decoder : Decoder Severity :=
  .choice [("error", .error), ("warning", .warning)]

/-- A mode. -/
def RunMode.decoder : Decoder RunMode := .choice [("check", .check), ("fix", .fix)]

/-- A verdict. -/
def VerdictStatus.decoder : Decoder VerdictStatus :=
  .choice [("pass", .pass), ("warn", .warn), ("fail", .fail)]

/-- A kind of failure. -/
def FailureKind.decoder : Decoder FailureKind :=
  .choice [("config", .config), ("runtime", .runtime)]

/-- Tools as records. -/
def ToolInfo.record : Decoder.Record ToolInfo where
  name := "ToolInfo"
  fields := [
    Decoder.field "name" true .text fun v t => { t with name := v },
    Decoder.field "version" false (.optional .text) fun v t => { t with version := v }]
  closed := false
  blank := ⟨"", none⟩

/-- The times of a run as records. -/
def RunInfo.record : Decoder.Record RunInfo where
  name := "RunInfo"
  fields := [
    Decoder.field "started_at" false (.optional Instant.decoder) fun v r =>
      { r with startedAt := v },
    Decoder.field "ended_at" false (.optional Instant.decoder) fun v r => { r with endedAt := v },
    Decoder.field "duration_ms" false (.optional .natural) fun v r => { r with durationMs := v }]
  closed := false
  blank := .empty

/-- Verdicts as records. -/
def Verdict.record : Decoder.Record Verdict where
  name := "Verdict"
  fields := [
    Decoder.field "status" true VerdictStatus.decoder fun v t => { t with status := v },
    Decoder.field "reasons" false (.list .text) fun v t => { t with reasons := v }]
  closed := false
  blank := ⟨.pass, []⟩

/-- Summaries as records. -/
def Summary.record : Decoder.Record Summary where
  name := "ReportSummary"
  fields := [
    Decoder.field "packages_checked" true .natural fun v s => { s with packagesChecked := v },
    Decoder.field "errors" true .natural fun v s => { s with errors := v },
    Decoder.field "warnings" true .natural fun v s => { s with warnings := v },
    Decoder.field "fixed" true .natural fun v s => { s with fixed := v },
    Decoder.field "fix_failures" false .natural fun v s => { s with fixFailures := v },
    Decoder.field "failures" false .natural fun v s => { s with failures := v }]
  closed := false
  blank := ⟨0, 0, 0, 0, 0, 0⟩

/-- Findings as records. -/
def FindingRecord.record : Decoder.Record FindingRecord where
  name := "FindingRecord"
  fields := [
    Decoder.field "rule" true .text fun v f => { f with rule := v },
    Decoder.field "severity" true Severity.decoder fun v f => { f with severity := v },
    Decoder.field "package_dir" true Path.decoder fun v f => { f with packageDir := v },
    Decoder.field "file" true Path.decoder fun v f => { f with file := v },
    Decoder.field "message" true .text fun v f => { f with message := v },
    Decoder.field "long_message" false (.optional .text) fun v f => { f with longMessage := v },
    Decoder.field "fixable" false .bool fun v f => { f with fixable := v },
    Decoder.field "fixed" false .bool fun v f => { f with fixed := v },
    Decoder.field "fix_error" false (.optional .text) fun v f => { f with fixError := v }]
  closed := false
  blank := ⟨"", .error, ⟨""⟩, ⟨""⟩, "", none, false, false, none⟩

/-- Failures as records. -/
def FailureRecord.record : Decoder.Record FailureRecord where
  name := "RuleFailureRecord"
  fields := [
    Decoder.field "rule" true .text fun v f => { f with rule := v },
    Decoder.field "package_dir" false (.optional Path.decoder) fun v f =>
      { f with packageDir := v },
    Decoder.field "kind" true FailureKind.decoder fun v f => { f with kind := v },
    Decoder.field "message" true .text fun v f => { f with message := v }]
  closed := false
  blank := ⟨"", none, .config, ""⟩

/-- Reports as records. -/
def Report.record : Decoder.Record Report where
  name := "LintReport"
  fields := [
    Decoder.field "schema" true .text fun v r => { r with schema := v },
    Decoder.field "tool" true ToolInfo.record.decoder fun v r => { r with tool := v },
    Decoder.field "run" true RunInfo.record.decoder fun v r => { r with run := v },
    Decoder.field "mode" true RunMode.decoder fun v r => { r with mode := v },
    Decoder.field "verdict" true Verdict.record.decoder fun v r => { r with verdict := v },
    Decoder.field "summary" true Summary.record.decoder fun v r => { r with summary := v },
    Decoder.field "findings" false (.list FindingRecord.record.decoder) fun v r =>
      { r with findings := v },
    Decoder.field "failures" false (.list FailureRecord.record.decoder) fun v r =>
      { r with failures := v }]
  closed := false
  blank := .empty ⟨"", none⟩ .check

/-- The report that a document holds. -/
def Report.ofJson (v : Json) : Except Json.Mismatch Report := Report.record.decoder.ofJson v

/-- The report that a text holds. -/
def Report.ofText (text : String) : Except Json.TypedError Report :=
  Report.record.decoder.ofText text

end WorkspaceLint
