import WorkspaceLint.Rule.BannedDependencies
import WorkspaceLint.Rule.ConsistentDependencies
import WorkspaceLint.Rule.FileContents
import WorkspaceLint.Rule.StandardTsconfig

/-!
# The registry

The kinds of rules that a configuration can name, in the order of their names.
-/

namespace WorkspaceLint

namespace RuleKind

/-- The kinds of rules, by name. -/
def all : List RuleKind :=
  [BannedDependencies.kind, ConsistentDependencies.kind, FileContents.kind, StandardTsconfig.kind]

/-- The kind of rule of a name. -/
def ofName? (name : String) : Option RuleKind := all.find? (·.info.name = name)

/-- The rule of a name and options. -/
def bindNamed (name : String) (options : Option Json) : Except ConfigError Rule :=
  match ofName? name with
  | some kind => kind.bind options
  | none => .error (.unknownRule name)

end RuleKind

end WorkspaceLint
