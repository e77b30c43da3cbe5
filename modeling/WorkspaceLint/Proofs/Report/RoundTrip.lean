import WorkspaceLint.Proofs.Json.Decoding
import WorkspaceLint.Report.Wire

/-!
# Reports that are read back

The canonical text of a report without run times is read back as the same report
(`Report.ofText_jsonText`).  What is left out when it is written, absent options and empty lists, is
what the blank record has where nothing is read.
-/

namespace WorkspaceLint

open Json (Decoder)
open Json.Decoder (Reads Fills reads_natural)

/-! ## Members that are left out -/

section

variable {α ρ : Type} {d : Decoder α} {depth : Nat} {key : String}
  {fs : List (Decoder.Field ρ)} {a b : ρ} {ms : Members}

/-- A string that may be missing: it is written when it is there, and the field keeps its blank
value when it is not. -/
theorem Json.Decoder.Fills.optional {x : Option α} {text : α → String} {set : Option α → ρ → ρ}
    (reads : ∀ y, Reads (d.read depth) (.string (text y)) y) (blank : set none a = a)
    (later : Fills depth fs (set x a) ms b) :
    Fills depth (Decoder.field key false d.optional set :: fs) a
      (Json.member? key (x.map fun y => .string (text y)) ++ ms) b := by
  cases x with
  | none =>
    rw [blank] at later
    exact .skip rfl later
  | some y => exact .field false (reads y).optional later

/-- The items of a list are read when every item is. -/
theorem Json.Decoder.reads_map {form : α → Json} (deep : 1 < depth)
    (reads : ∀ x, Reads (d.read (depth - 1)) (form x) x) (xs : List α) :
    Reads (d.list.read depth) (.array (xs.map form)) xs := by
  refine .list deep ?_
  rw [List.forall₂_map_left_iff, List.forall₂_same]
  exact fun x _ => reads x

/-- A list that may be missing: it is written unless it is empty. -/
theorem Json.Decoder.Fills.list {xs : List α} {form : α → Json} {set : List α → ρ → ρ}
    (deep : 1 < depth) (reads : ∀ x, Reads (d.read (depth - 1)) (form x) x) (blank : set [] a = a)
    (later : Fills depth fs (set xs a) ms b) :
    Fills depth (Decoder.field key false d.list set :: fs) a
      (Json.member? key (if xs.isEmpty then none else some (.array (xs.map form))) ++ ms) b := by
  cases xs with
  | nil =>
    rw [blank] at later
    exact .skip rfl later
  | cons x xs => exact .field false (Json.Decoder.reads_map deep reads (x :: xs)) later

end

/-! ## The parts of a report -/

section

variable {depth : Nat}

theorem reads_text (s : String) : Reads (Decoder.text.read depth) (.string s) s :=
  Json.Decoder.reads_string "a string" depth s

theorem Path.reads (p : Path) : Reads (Path.decoder.read depth) (.string p.text) p :=
  (Json.Decoder.reads_string "path string" depth p.text).map Path.mk

theorem Severity.reads (s : Severity) :
    Reads (Severity.decoder.read depth) (.string s.label) s :=
  Json.Decoder.reads_choice depth (by cases s <;> rfl)

theorem RunMode.reads (m : RunMode) : Reads (RunMode.decoder.read depth) (.string m.label) m :=
  Json.Decoder.reads_choice depth (by cases m <;> rfl)

theorem VerdictStatus.reads (v : VerdictStatus) :
    Reads (VerdictStatus.decoder.read depth) (.string v.label) v :=
  Json.Decoder.reads_choice depth (by cases v <;> rfl)

theorem FailureKind.reads (k : FailureKind) :
    Reads (FailureKind.decoder.read depth) (.string k.label) k :=
  Json.Decoder.reads_choice depth (by cases k <;> rfl)

theorem ToolInfo.reads (deep : 1 < depth) (t : ToolInfo) :
    Reads (ToolInfo.record.decoder.read depth) t.toJson t := by
  have filled : Fills (depth - 1) ToolInfo.record.fields ToolInfo.record.blank
      (("name", .string t.name) :: (Json.member? "version" (t.version.map .string) ++ [])) t :=
    .field true (reads_text t.name) <| .optional reads_text rfl .nil
  rw [List.append_nil] at filled
  exact Json.Decoder.reads_record (by decide) deep filled

theorem RunInfo.reads_empty (deep : 1 < depth) :
    Reads (RunInfo.record.decoder.read depth) RunInfo.empty.toJson .empty :=
  Json.Decoder.reads_record (by decide) deep (.skip rfl <| .skip rfl <| .skip rfl .nil)

theorem Verdict.reads (deep : 2 < depth) (v : Verdict) :
    Reads (Verdict.record.decoder.read depth) v.toJson v := by
  have filled : Fills (depth - 1) Verdict.record.fields Verdict.record.blank
      (("status", .string v.status.label) :: (Json.member? "reasons"
        (if v.reasons.isEmpty then none else some (.array (v.reasons.map .string))) ++ [])) v :=
    .field true v.status.reads <| .list (by omega) reads_text rfl .nil
  rw [List.append_nil] at filled
  exact Json.Decoder.reads_record (by decide) (by omega) filled

/-- All counts of a summary have 64 bits. -/
structure Summary.Fits (s : Summary) : Prop where
  packagesChecked : s.packagesChecked ≤ Json.Reader.maxSignificand
  errors : s.errors ≤ Json.Reader.maxSignificand
  warnings : s.warnings ≤ Json.Reader.maxSignificand
  fixed : s.fixed ≤ Json.Reader.maxSignificand
  fixFailures : s.fixFailures ≤ Json.Reader.maxSignificand
  failures : s.failures ≤ Json.Reader.maxSignificand

theorem Summary.reads (deep : 1 < depth) {s : Summary} (fits : s.Fits) :
    Reads (Summary.record.decoder.read depth) s.toJson s :=
  Json.Decoder.reads_record (by decide) deep <|
    .field true (reads_natural _ fits.packagesChecked) <|
    .field true (reads_natural _ fits.errors) <| .field true (reads_natural _ fits.warnings) <|
    .field true (reads_natural _ fits.fixed) <| .field false (reads_natural _ fits.fixFailures) <|
    .field false (reads_natural _ fits.failures) .nil

theorem FindingRecord.reads (deep : 1 < depth) (f : FindingRecord) :
    Reads (FindingRecord.record.decoder.read depth) f.toJson f := by
  have form : f.toJson = .object (("rule", .string f.rule) ::
      ("severity", .string f.severity.label) :: ("package_dir", .string f.packageDir.text) ::
      ("file", .string f.file.text) :: ("message", .string f.message) ::
      (Json.member? "long_message" (f.longMessage.map .string) ++
      ("fixable", .bool f.fixable) :: ("fixed", .bool f.fixed) ::
      (Json.member? "fix_error" (f.fixError.map .string) ++ []))) := by
    simp [FindingRecord.toJson]
  rw [form]
  exact Json.Decoder.reads_record (by decide) deep <|
    .field true (reads_text f.rule) <| .field true f.severity.reads <|
    .field true f.packageDir.reads <| .field true f.file.reads <|
    .field true (reads_text f.message) <| .optional reads_text rfl <|
    .field false (Json.Decoder.reads_bool _ f.fixable) <|
    .field false (Json.Decoder.reads_bool _ f.fixed) <| .optional reads_text rfl .nil

theorem FailureRecord.reads (deep : 1 < depth) (f : FailureRecord) :
    Reads (FailureRecord.record.decoder.read depth) f.toJson f :=
  Json.Decoder.reads_record (by decide) deep <|
    .field true (reads_text f.rule) <| .optional Path.reads rfl <|
    .field true f.kind.reads <| .field true (reads_text f.message) .nil

theorem Report.reads (deep : 3 < depth) {r : Report} (untimed : r.run = .empty)
    (fits : r.summary.Fits) : Reads (Report.record.decoder.read depth) r.toJson r := by
  have form : r.toJson = .object (("schema", .string r.schema) :: ("tool", r.tool.toJson) ::
      ("run", r.run.toJson) :: ("mode", .string r.mode.label) ::
      ("verdict", r.verdict.toJson) :: ("summary", r.summary.toJson) ::
      ("findings", .array (r.findings.map FindingRecord.toJson)) ::
      (Json.member? "failures" (if r.failures.isEmpty then none
        else some (.array (r.failures.map FailureRecord.toJson))) ++ [])) := by
    simp [Report.toJson]
  have inner : 1 < depth - 1 := by omega
  have last : 1 < depth - 1 - 1 := by omega
  have run : Reads (RunInfo.record.decoder.read (depth - 1)) r.run.toJson r.run := by
    rw [untimed]
    exact RunInfo.reads_empty inner
  rw [form]
  exact Json.Decoder.reads_record (by decide) (by omega) <|
    .field true (reads_text r.schema) <| .field true (r.tool.reads inner) <|
    .field true run <| .field true r.mode.reads <|
    .field true (r.verdict.reads (by omega)) <| .field true (Summary.reads inner fits) <|
    .field false (Json.Decoder.reads_map inner (FindingRecord.reads last) r.findings) <|
    .list inner (FailureRecord.reads last) rfl .nil

end

/-! ## Whole reports -/

/-- A report without run times is read back from its canonical text. -/
theorem Report.ofText_jsonText {r : Report} (untimed : r.run = .empty) (fits : r.summary.Fits) :
    Report.ofText r.jsonText = .ok r :=
  (Report.reads (by decide) untimed fits).ofText_canonical

/-- A report with absent and present options and characters that are escaped. -/
def escapedReport : Report where
  schema := Report.schemaId
  tool := ⟨"lint \"er\"", none⟩
  run := .empty
  mode := .fix
  verdict := ⟨.fail, ["1 rule failure(s)"]⟩
  summary := ⟨18446744073709551615, 1, 0, 0, 1, 1⟩
  findings := [⟨"tidy", .error, ⟨"/w/a/"⟩, ⟨"C:\\x"⟩, "two\nlines", some "-a\r\n+\t\x01", true,
    false, some "no"⟩]
  failures := [⟨"tidy", none, .config, ""⟩]

theorem Report.ofText_escapedReport : escapedReport.run = .empty ∧ escapedReport.summary.Fits ∧
    Report.ofText escapedReport.jsonText = .ok escapedReport := by
  have fits : escapedReport.summary.Fits :=
    ⟨by decide, by decide, by decide, by decide, by decide, by decide⟩
  exact ⟨rfl, fits, Report.ofText_jsonText rfl fits⟩

end WorkspaceLint
