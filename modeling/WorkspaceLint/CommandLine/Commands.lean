import WorkspaceLint.CommandLine.Arguments
import WorkspaceLint.FileSystem.Disk
import WorkspaceLint.Report.Listing
import WorkspaceLint.Report.Markdown
import WorkspaceLint.Rule.Guide
import WorkspaceLint.Run

/-!
# Commands

What each command does: its output, its exit code, and the disk as it leaves it.
-/

namespace WorkspaceLint

namespace CommandLine

/-- What a command comes to. -/
structure Response where
  code : Nat
  out : String
  /-- What is told about a command that failed. -/
  complaint : String
  disk : Disk
  deriving Repr, Inhabited

/-- The exit code of a command that failed. -/
def failureCode : Nat := 1

/-- The exit code for a command line that is not understood. -/
def usageCode : Nat := 2

/-- The program in its reports. -/
def tool : ToolInfo := ⟨"monolint", some "0.1.0"⟩

/-- The name and version of the program. -/
def versionLine : String := "monolint 0.1.0\n"

/-- How the program is used. -/
def helpText : String :=
  "Rule-driven consistency linter and fixer for package.json monorepos.\n\n" ++
  "Usage: monolint <COMMAND>\n\n" ++
  "Commands:\n" ++
  "  check       Check every workspace package against the configured rules\n" ++
  "  list-rules  List the built-in rules\n" ++
  "  explain     Explain what a rule checks, its options and how its fix behaves\n" ++
  "  help        Print this message\n\n" ++
  "Options:\n" ++
  "  -h, --help     Print help\n" ++
  "  -V, --version  Print version\n"

/-! ### Checking -/

/-- Why a check came to no report. -/
inductive CheckError where
  | noRoot (root : Path)
  | unreadableConfig (path : Path) (trouble : Trouble)
  | badConfig (path : Path) (error : ConfigFileError)
  | run (error : RunError)
  deriving Repr, Inhabited

/-- The wording of an error. -/
def CheckError.message : CheckError → String
  | noRoot root => "resolve workspace root " ++ root.text
  | unreadableConfig path trouble => "read config file " ++ path.text ++ ": " ++ trouble.message
  | badConfig path error => "parse config file " ++ path.text ++ ": " ++ error.message
  | run error => error.message

/-- The configuration file of a workspace, or the one that says nothing if there is none. -/
def loadConfig (disk : Disk) (root : Path) : Except CheckError ConfigFile :=
  let path := root.entry ConfigFile.fileName
  if disk.contains path then
    match disk.read path with
    | .ok text => (ConfigFile.parse text).mapError (.badConfig path)
    | .error trouble => .error (.unreadableConfig path trouble)
  else .ok .blank

/-- A report in the form that was asked for. -/
def render (format : ReportFormat) (verbose : Bool) (r : Report) : String :=
  match format with
  | .text => r.listing verbose
  | .json => r.jsonText
  | .markdown => r.markdown

/-- Check the workspace at a root: the report, whether it is verbose, and the disk after the run. -/
def checkWorkspace (disk : Disk) (root : Path) (flags : CheckFlags) :
    Except CheckError (Report × Bool) × Disk :=
  match loadConfig disk root with
  | .error e => (.error e, disk)
  | .ok file =>
    let request := file.merge disk.canonical? root flags
    match Run.run request.resolve disk root with
    | (.error e, disk) => (.error (.run e), disk)
    | (.ok outcome, disk) => (.ok (outcome.report tool, request.verbose), disk)

/-- Check the workspace that a path means in a working directory. -/
def check (disk : Disk) (here root : Path) (flags : CheckFlags) :
    Except CheckError (Report × Bool) × Disk :=
  match if root.text = "" then none else disk.canonical? (here.join root) with
  | none => (.error (.noRoot root), disk)
  | some root => checkWorkspace disk root flags

/-! ### Telling about rules -/

/-- A text filled up with spaces. -/
def padTo (width : Nat) (s : String) : String :=
  s ++ String.ofList (List.replicate (width - s.length) ' ')

/-- A line of the table of rules. -/
def tableLine (name fixable title : String) : String :=
  "  " ++ padTo 26 name ++ " " ++ padTo 8 fixable ++ " " ++ title ++ "\n"

/-- Whether something is so. -/
def yesNo (b : Bool) : String := if b then "yes" else "no"

/-- The table of rules. -/
def ruleTable : String :=
  "Available rules:\n\n" ++ tableLine "NAME" "FIXABLE" "TITLE" ++
    tableLine "----" "-------" "-----" ++
    String.join (RuleKind.all.map fun kind =>
      tableLine kind.info.name (yesNo kind.info.fixable) kind.info.title) ++
    "\nUse 'monolint explain <rule>' for details.\n"

/-- The rules as a document. -/
def ruleList : String :=
  (Json.array (RuleKind.all.map fun kind => kind.info.toJson)).canonical

/-- A line of eighty times the same character. -/
def rule80 (c : Char) : String := String.ofList (List.replicate 80 c) ++ "\n"

/-- The head of a part of an explanation. -/
def partHead (title : String) : String := title ++ "\n" ++ rule80 '-'

/-- What a guide adds to an explanation. -/
def guideText (g : RuleGuide) : String :=
  "\n" ++ g.details ++ "\n\n" ++ partHead "FIX" ++ g.fixBehavior ++ "\n\n" ++
    partHead ("EXAMPLE CONFIG (" ++ ConfigFile.fileName ++ ")") ++ g.snippet ++ "\n"

/-- The explanation of a kind of rule. -/
def explanation (kind : RuleKind) : String :=
  rule80 '=' ++ "RULE: " ++ kind.info.title ++ "\n" ++ rule80 '=' ++ "\n" ++
    "Name:     " ++ kind.info.name ++ "\n" ++
    "Fixable:  " ++ yesNo kind.info.fixable ++ "\n\n" ++
    partHead "DESCRIPTION" ++ kind.info.description ++ "\n" ++
    ((RuleGuide.lookup? kind.info.name).map guideText).getD "" ++ "\n" ++
    partHead "OPTIONS SCHEMA" ++ kind.schema.canonical ++ "\n"

/-- What is told about a rule that there is not. -/
def unknownRule (query : String) : String :=
  "Unknown rule: '" ++ query ++ "'\n\nAvailable rules: " ++
    ", ".intercalate (RuleKind.all.map (·.info.name))

/-! ### Running commands -/

/-- Run a command in a working directory. -/
def runCommand (disk : Disk) (here : Path) : Command → Response
  | .check root flags format =>
    match check disk here root flags with
    | (.ok (report, verbose), disk) => ⟨report.exitCode, render format verbose report, "", disk⟩
    | (.error e, disk) => ⟨failureCode, "", e.message, disk⟩
  | .listRules json => ⟨0, if json then ruleList else ruleTable, "", disk⟩
  | .explain query =>
    match RuleKind.ofName? (RuleGuide.normalizeName query) with
    | some kind => ⟨0, explanation kind, "", disk⟩
    | none => ⟨failureCode, "", unknownRule query, disk⟩
  | .help => ⟨0, helpText, "", disk⟩
  | .version => ⟨0, versionLine, "", disk⟩

/-- Run a command line in a working directory. -/
def run (disk : Disk) (here : Path) (args : List String) : Response :=
  match Command.parse args with
  | .ok command => runCommand disk here command
  | .error e => ⟨usageCode, "", "error: " ++ e.message, disk⟩

end CommandLine

end WorkspaceLint
