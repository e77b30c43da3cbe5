import WorkspaceLint.Diff.Unified
import WorkspaceLint.Report.Wire
import WorkspaceLint.Rule.Basic
import WorkspaceLint.Rule.Generator

/-!
# Standard tsconfig

The `tsconfig.json` of each package has to be a shared template with project references to the
members of the workspace that the package depends on.  References come in the order in which the
names first occur in the dependencies and then in the development dependencies; names that are no
member's or are excluded are left out.
-/

namespace WorkspaceLint

namespace StandardTsconfig

/-- The file that the rule is about. -/
def tsconfigFile : String := "tsconfig.json"

/-- Where the expected contents come from. -/
inductive Source where
  | generator (g : Generator)
  | template (members : Members)
  /-- A JSON file below the workspace root. -/
  | templateFile (path : Path)

/-- The options of the rule: where the contents come from, and the names that are never
referenced. -/
structure Options where
  source : Source
  excluded : PatternSet

/-- The template that a document holds. -/
def templateObject (source : String) : Json → Except ConfigError Members
  | .object members => .ok members
  | _ => .error (.invalidTemplate source .notObject)

/-- The template that is written in options: an object, or the text of one. -/
def readTemplate : Json → Except ConfigError Members
  | .string text => do
    let v ← (Json.parse text).mapError fun e => .invalidTemplate "template" (.syntaxError e)
    templateObject "template" v
  | v => templateObject "template" v

/-- Slashes in place of backslashes. -/
def slashed (s : String) : String :=
  String.ofList (s.toList.map fun c => if c = '\\' then '/' else c)

/-- The relative path from one directory to another. -/
def referencePath (source target : Path) : Except Trouble String :=
  match target.relativeTo source with
  | some p => .ok (slashed p.text)
  | none => .error (.unreachable target source)

/-- The directories of the names that are a member's and not excluded. -/
def referencedDirs (memberNames : List (String × Path)) (excluded : PatternSet)
    (names : List String) : List Path :=
  names.filterMap fun name =>
    match memberNames.lookup name with
    | some dir => if excluded.accepts name then none else some dir
    | none => none

/-- The references from a directory to others. -/
def references (source : Path) : List Path → Except Trouble (List Json)
  | [] => .ok []
  | target :: targets => do
    let path ← referencePath source target
    let rest ← references source targets
    return .object [("path", .string path)] :: rest

/-- A template with references set, as text. -/
def withReferences (template : Members) (references : List Json) : String :=
  (Json.object (Members.insert "references" (.array references) template)).canonical

/-- The blocks whose names are referenced. -/
def blocks : List DependencyKind := [.dependencies, .devDependencies]

/-- Render a template for the package. -/
def render (template : Members) (excluded : PatternSet) : Check String := do
  let memberNames ← Check.memberNames
  let manifest ← Check.manifest
  let dir ← Check.dir
  let targets := referencedDirs memberNames excluded (manifest.dependencyNames blocks)
  let found ← Check.ofExcept ((references dir targets).mapError .runtime)
  return withReferences template found

/-- The expected contents of the file; nothing for a package that is left out. -/
def Options.expected (o : Options) : Check (Option String) :=
  match o.source with
  | .generator g => g.generate
  | .template members => do return some (← render members o.excluded)
  | .templateFile relative => do
    let path ← Check.workspacePath relative
    let v ← Check.readJsonFor .tsconfigTemplate path
    let members ← Check.ofExcept ((templateObject path.text v).mapError .config)
    return some (← render members o.excluded)

/-- The finding on a package that is left out. -/
def exclusion (path : Path) : Finding where
  file := path
  message := "Excluding from standard-tsconfig"
  longMessage := none
  fixer := none

/-- The finding on a file that does not hold what is expected. -/
def finding (path : Path) (expected : String) (actual : Option String) : Finding where
  file := path
  message := "Expect file contents to match"
  longMessage := some (Diff.text (some expected) actual)
  fixer := some ⟨[.writeFile path expected]⟩

/-- The check of one package. -/
def check (o : Options) : Check Unit := do
  let dir ← Check.dir
  let path := dir.entry tsconfigFile
  match ← o.expected with
  | none => Check.report .warning (exclusion path)
  | some expected =>
    let actual ← Check.readIfThere path
    if actual = some expected then return
    Check.report .error (finding path expected actual)

/-- What is said about the rule. -/
def info : RuleInfo where
  name := "standard-tsconfig"
  title := "Standard tsconfig"
  description := "Each package's tsconfig.json must equal the shared template with " ++
    "project references to the workspace packages it depends on."
  fixable := true

/-- The rule with options given in code. -/
def rule (o : Options) : Rule := ⟨info, check o⟩

/-- The options as they are written. -/
structure Written where
  template : Option Json
  templateFile : Option Path
  excluded : PatternSet
  deriving Repr, Inhabited

/-- Written options as a record. -/
def Written.record : Json.Decoder.Record Written where
  name := "RawOptions"
  fields := [
    Json.Decoder.field "template" false (.optional .any) fun v o => { o with template := v },
    Json.Decoder.field "template_file" false (.optional Path.decoder) fun v o =>
      { o with templateFile := v },
    Json.Decoder.field "excluded_references" false PatternSet.decoder fun v o =>
      { o with excluded := v }]
  closed := true
  blank := ⟨none, none, .empty⟩

/-- Read options. -/
def readFrom (v : Json) : Except ConfigError Options := do
  let w ← readOptions info.name Written.record.decoder v
  match w.template, w.templateFile with
  | some template, none => return ⟨.template (← readTemplate template), w.excluded⟩
  | none, some path => return ⟨.templateFile path, w.excluded⟩
  | _, _ => throw (.invalidOptions info.name [.noSingleSource])

/-- The schema of the options. -/
def schema : Json := .object [
  ("type", .string "object"),
  ("properties", .object [
    ("template", .object [("type", .array [.string "object", .string "string"])]),
    ("template_file", Schema.ofType .string),
    ("excluded_references", Schema.stringList)]),
  ("additionalProperties", .bool false),
  ("oneOf", .array [Schema.having "template", Schema.having "template_file"])]

/-- The kind of rule. -/
def kind : RuleKind where
  info := info
  schema := schema
  checkFor v := (readFrom v).map check

end StandardTsconfig

end WorkspaceLint
