import WorkspaceLint.Check
import WorkspaceLint.Json.Decoder

/-!
# Rules

A kind of rule says which options it takes and makes a check of them.  Options go through two
gates: the schema of the kind has to allow them, and then they are read into the form that the check
works with.
-/

namespace WorkspaceLint

/-- What is said about a kind of rule. -/
structure RuleInfo where
  name : String
  title : String
  description : String
  fixable : Bool
  deriving DecidableEq, Repr, Inhabited

/-- A rule with its options settled. -/
structure Rule where
  info : RuleInfo
  check : Check Unit

/-- A kind of rule. -/
structure RuleKind where
  info : RuleInfo
  /-- The schema of its options. -/
  schema : Json
  /-- The check for options that the schema allows. -/
  checkFor : Json → Except ConfigError (Check Unit)

/-- Check options against a schema. -/
def validateOptions (rule : String) (schema options : Json) : Except ConfigError Unit :=
  match Schema.ofJson schema with
  | .error fault => .error (.invalidOptions rule [.schema fault])
  | .ok s =>
    match s.violations options with
    | [] => .ok ()
    | vs => .error (.invalidOptions rule (vs.map .violation))

/-- Read options into the form that a rule works with. -/
def readOptions {α : Type} (rule : String) (d : Json.Decoder α) (options : Json) :
    Except ConfigError α :=
  (d.ofJson options).mapError fun m => .invalidOptions rule [.mismatch m]

namespace RuleKind

/-- The rule for options; no options are `null`. -/
def bind (kind : RuleKind) (options : Option Json) : Except ConfigError Rule := do
  let options := options.getD .null
  validateOptions kind.info.name kind.schema options
  let check ← kind.checkFor options
  return ⟨kind.info, check⟩

end RuleKind

namespace RuleInfo

/-- What is said about a kind of rule, as the members of a document. -/
def members (info : RuleInfo) : Members :=
  [("name", .string info.name), ("title", .string info.title),
    ("description", .string info.description), ("fixable", .bool info.fixable)]

/-- What is said about a kind of rule, as a document. -/
def toJson (info : RuleInfo) : Json := .object info.members

end RuleInfo

/-- The description of a kind of rule: what is said about it and its schema. -/
def RuleKind.description (kind : RuleKind) : Json :=
  .object (kind.info.members ++ [("options_schema", kind.schema)])

/-! ### Parts of schemas -/

namespace Schema

/-- The schema of one type. -/
def ofType (t : JsonType) : Json := .object [("type", .string t.label)]

/-- The schema of lists of strings. -/
def stringList : Json := .object [("type", .string "array"), ("items", ofType .string)]

/-- The schema of objects that have a member. -/
def having (key : String) : Json := .object [("required", .array [.string key])]

end Schema

end WorkspaceLint
