import WorkspaceLint.Report.Wire
import WorkspaceLint.Rule.Registry

/-!
# Configurations

A configuration lists rules with their options and the packages they are for.  Resolving it binds
every rule; one that cannot be bound becomes a failure of the run and is left out.
-/

namespace WorkspaceLint

/-- A rule as it is configured. -/
structure RuleConfig where
  rule : String
  options : Option Json
  included : List String
  excluded : List String
  includeRoot : Bool
  deriving Repr, Inhabited

/-- The rule that nothing is said about. -/
def RuleConfig.blank : RuleConfig := ⟨"", none, [], [], false⟩

/-- The configured rules, in order. -/
structure LintConfig where
  rules : List RuleConfig
  deriving Repr, Inhabited

/-- Settings of a whole run. -/
structure RunSettings where
  /-- Whether error findings are fixed. -/
  fix : Bool
  /-- The directories of the members to check; all of them if there are none. -/
  paths : List Path
  deriving DecidableEq, Repr, Inhabited

/-- A rule that is ready to run, under its configured name, and the packages it is for. -/
structure RuleEntry where
  name : String
  rule : Rule
  scope : PackageScope

/-- A configuration that is ready to run. -/
structure ResolvedConfig where
  rules : List RuleEntry
  settings : RunSettings
  /-- The rules that could not be bound. -/
  failures : List FailureRecord

namespace ResolvedConfig

/-- Whether some rule is for the workspace root. -/
def appliesToRoot (c : ResolvedConfig) : Bool := c.rules.any (·.scope.appliesToRoot)

/-- The configuration with one more rule at its end. -/
def withRule (c : ResolvedConfig) (entry : RuleEntry) : ResolvedConfig :=
  { c with rules := c.rules ++ [entry] }

end ResolvedConfig

/-- The scope of included and excluded patterns. -/
def PackageScope.ofPatterns (included excluded : List String) (includeRoot : Bool) :
    Except PatternError PackageScope := do
  let included ← PatternSet.ofList included
  let excluded ← PatternSet.ofList excluded
  return ⟨included, excluded, includeRoot⟩

namespace RuleConfig

/-- The rule of a configuration, ready to run. -/
def resolve (c : RuleConfig) : Except ConfigError RuleEntry := do
  let rule ← RuleKind.bindNamed c.rule c.options
  let scope ← (PackageScope.ofPatterns c.included c.excluded c.includeRoot).mapError
    .invalidPattern
  return ⟨c.rule, rule, scope⟩

/-- The failure of a rule that could not be bound. -/
def failure (c : RuleConfig) (e : ConfigError) : FailureRecord :=
  ⟨c.rule, none, .config, e.message⟩

end RuleConfig

namespace LintConfig

/-- Bind rules in order. -/
def resolveRules (settings : RunSettings) : List RuleConfig → ResolvedConfig
  | [] => ⟨[], settings, []⟩
  | c :: cs =>
    let rest := resolveRules settings cs
    match c.resolve with
    | .ok entry => { rest with rules := entry :: rest.rules }
    | .error e => { rest with failures := c.failure e :: rest.failures }

/-- Bind every configured rule. -/
def resolve (c : LintConfig) (settings : RunSettings) : ResolvedConfig :=
  resolveRules settings c.rules

end LintConfig

/-! ### Reading from documents -/

open Json in
/-- Configured rules as records. -/
def RuleConfig.record : Decoder.Record RuleConfig where
  name := "RuleConfig"
  fields := [
    Decoder.field "rule" false .text fun v c => { c with rule := v },
    Decoder.field "options" false (.optional .any) fun v c => { c with options := v },
    Decoder.field "include_packages" false (.list .text) fun v c => { c with included := v },
    Decoder.field "exclude_packages" false (.list .text) fun v c => { c with excluded := v },
    Decoder.field "include_workspace_root" false .bool fun v c => { c with includeRoot := v }]
  closed := false
  blank := .blank

open Json in
/-- Configurations as records. -/
def LintConfig.record : Decoder.Record LintConfig where
  name := "LintConfig"
  fields := [
    Decoder.field "rules" false (.list RuleConfig.record.decoder) fun v c => { c with rules := v }]
  closed := false
  blank := ⟨[]⟩

/-- The configuration that a document holds. -/
def LintConfig.ofJson (v : Json) : Except Json.Mismatch LintConfig :=
  LintConfig.record.decoder.ofJson v

end WorkspaceLint
