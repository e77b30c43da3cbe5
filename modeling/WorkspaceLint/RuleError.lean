import WorkspaceLint.Manifest
import WorkspaceLint.PatternSet
import WorkspaceLint.Report.Basic
import WorkspaceLint.Schema
import WorkspaceLint.Trouble

/-!
# Failures of rules

A rule fails when it cannot run as it is configured, or when it cannot read what it needs.  Neither
is a finding.
-/

namespace WorkspaceLint

/-- What is wrong with the options of a rule. -/
inductive OptionFault where
  /-- The schema that options are checked with cannot be used. -/
  | schema (fault : Schema.Fault)
  /-- The schema does not allow something. -/
  | violation (v : Schema.Violation)
  /-- The options do not have the form that the rule reads. -/
  | mismatch (m : Json.Mismatch)
  /-- There is not exactly one source for the expected contents. -/
  | noSingleSource
  deriving Repr, Inhabited

/-- The wording of a fault in options. -/
def OptionFault.message : OptionFault → String
  | schema fault => "options schema does not compile: " ++ fault.message
  | violation v => v.message
  | mismatch m => m.message
  | noSingleSource => "expected exactly one of template, template_file"

/-- Why a manifest cannot be used. -/
inductive ManifestFault where
  | unreadable (trouble : Trouble)
  | notObject (error : Manifest.NotObject)
  deriving Repr, Inhabited

/-- The wording of a fault in a manifest. -/
def ManifestFault.message : ManifestFault → String
  | unreadable trouble => trouble.message
  | notObject error => error.message

/-- Why a template cannot be used. -/
inductive TemplateFault where
  | syntaxError (error : Json.SyntaxError)
  | notObject
  deriving Repr, Inhabited

/-- The wording of a fault in a template. -/
def TemplateFault.message : TemplateFault → String
  | syntaxError error => error.message
  | notObject => "tsconfig template must be a JSON object"

/-- Why a rule cannot run as it is configured. -/
inductive ConfigError where
  | unknownRule (name : String)
  | invalidOptions (rule : String) (faults : List OptionFault)
  | missingManifest (dir : Path)
  | invalidManifest (path : Path) (fault : ManifestFault)
  | noWorkspace (dir : Path)
  | notAWorkspace (dir : Path)
  | invalidPattern (error : PatternError)
  | noGenerator (text : String)
  | invalidTemplate (source : String) (fault : TemplateFault)
  deriving Repr, Inhabited

/-- The wording of an error in the configuration. -/
def ConfigError.message : ConfigError → String
  | unknownRule name => "unknown rule '" ++ name ++ "'"
  | invalidOptions rule faults =>
    "invalid options for rule '" ++ rule ++ "': " ++
      "; ".intercalate (faults.map OptionFault.message)
  | missingManifest dir => "no " ++ manifestFile ++ " in " ++ dir.text
  | invalidManifest path fault => "invalid manifest " ++ path.text ++ ": " ++ fault.message
  | noWorkspace dir => "no workspace context above " ++ dir.text
  | notAWorkspace dir => dir.text ++ " is not a workspace root"
  | invalidPattern error => error.message
  | noGenerator text => "unable to make generator: " ++ text
  | invalidTemplate source fault => "invalid template " ++ source ++ ": " ++ fault.message

/-- Why a rule did not come to an end. -/
inductive RuleError where
  | config (error : ConfigError)
  | runtime (trouble : Trouble)
  deriving Repr, Inhabited

namespace RuleError

/-- The wording of a failure. -/
def message : RuleError → String
  | config error => "configuration error: " ++ error.message
  | runtime trouble => "runtime error: " ++ trouble.message

/-- What caused a failure, outermost first. -/
def causes : RuleError → List String
  | config error => [error.message]
  | runtime trouble => trouble.chain

/-- The kind of a failure in reports. -/
def kind : RuleError → FailureKind
  | config _ => .config
  | runtime _ => .runtime

end RuleError

end WorkspaceLint
