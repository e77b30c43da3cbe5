import WorkspaceLint.Diff.Unified
import WorkspaceLint.Report.Wire
import WorkspaceLint.Rule.Basic
import WorkspaceLint.Rule.Generator

/-!
# File contents

A file inside each package has to hold the text of a template, or what a generator makes for the
package.
-/

namespace WorkspaceLint

namespace FileContents

/-- Where the expected contents come from. -/
inductive Source where
  | generator (g : Generator)
  | template (text : String)
  /-- A file below the workspace root. -/
  | templateFile (path : Path)

/-- The options of the rule: a file below the package, and where its contents come from. -/
structure Options where
  file : Path
  source : Source

/-- The expected contents of the file; nothing when there should be no file. -/
def Source.expected : Source → Check (Option String)
  | generator g => g.generate
  | template text => return some text
  | templateFile relative => do
    let path ← Check.workspacePath relative
    return some (← Check.readFor .template path)

/-- What makes a file hold the expected contents. -/
def fixer (path : Path) : Option String → Fixer
  | none => ⟨[.removeFile path]⟩
  | some contents =>
    ⟨(path.parent?.map FixOp.createDirs).toList ++ [.writeFile path contents]⟩

/-- The finding on a file that does not hold what is expected. -/
def finding (path : Path) (expected actual : Option String) : Finding where
  file := path
  message := "Expect file contents to match"
  longMessage := some (Diff.text expected actual)
  fixer := some (fixer path expected)

/-- The check of one package. -/
def check (o : Options) : Check Unit := do
  let dir ← Check.dir
  let path := dir.join o.file
  let expected ← o.source.expected
  let actual ← Check.readIfThere path
  if actual = expected then return
  Check.report .error (finding path expected actual)

/-- What is said about the rule. -/
def info : RuleInfo where
  name := "file-contents"
  title := "File contents"
  description := "A file inside each package must match a template string, a " ++
    "template file from the workspace root, or a generator."
  fixable := true

/-- The rule with options given in code. -/
def rule (o : Options) : Rule := ⟨info, check o⟩

/-- The options as they are written. -/
structure Written where
  file : Path
  template : Option String
  templateFile : Option Path
  deriving Repr, Inhabited

/-- Written options as a record. -/
def Written.record : Json.Decoder.Record Written where
  name := "RawOptions"
  fields := [
    Json.Decoder.field "file" true Path.decoder fun v o => { o with file := v },
    Json.Decoder.field "template" false (.optional .text) fun v o => { o with template := v },
    Json.Decoder.field "template_file" false (.optional Path.decoder) fun v o =>
      { o with templateFile := v }]
  closed := true
  blank := ⟨⟨""⟩, none, none⟩

/-- The options that are written with exactly one source. -/
def Written.options? (w : Written) : Option Options :=
  match w.template, w.templateFile with
  | some text, none => some ⟨w.file, .template text⟩
  | none, some path => some ⟨w.file, .templateFile path⟩
  | _, _ => none

/-- Read options. -/
def readFrom (v : Json) : Except ConfigError Options := do
  let w ← readOptions info.name Written.record.decoder v
  match w.options? with
  | some o => return o
  | none => throw (.invalidOptions info.name [.noSingleSource])

/-- The schema of the options. -/
def schema : Json := .object [
  ("type", .string "object"),
  ("properties", .object [
    ("file", Schema.ofType .string),
    ("template", Schema.ofType .string),
    ("template_file", Schema.ofType .string)]),
  ("required", .array [.string "file"]),
  ("additionalProperties", .bool false),
  ("oneOf", .array [Schema.having "template", Schema.having "template_file"])]

/-- The kind of rule. -/
def kind : RuleKind where
  info := info
  schema := schema
  checkFor v := (readFrom v).map check

end FileContents

end WorkspaceLint
