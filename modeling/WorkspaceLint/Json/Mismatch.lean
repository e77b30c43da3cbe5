import WorkspaceLint.Json.Printer
import WorkspaceLint.Text.Quoted

/-!
# Documents of the wrong shape

How a document can fail to be what a reader expects.
-/

namespace WorkspaceLint

namespace Json

/-- What was found where something else was expected. -/
inductive Found where
  | null
  | bool (b : Bool)
  | integer (n : Int)
  | float (x : Binary64)
  | string (s : String)
  | sequence
  | map
  deriving DecidableEq, Repr, Inhabited

/-- What a number is found to be. -/
def Found.ofNumber : JsonNumber → Found
  | .integer n => .integer n
  | .float x => .float x

/-- What a document is found to be. -/
def found : Json → Found
  | .null => .null
  | .bool b => .bool b
  | .number n => .ofNumber n
  | .string s => .string s
  | .array _ => .sequence
  | .object _ => .map

/-- The wording of what was found. -/
def Found.message : Found → String
  | .null => "null"
  | .bool b => "boolean `" ++ String.ofList (boolChars b) ++ "`"
  | .integer n => "integer `" ++ String.ofList (Decimal.integerChars n) ++ "`"
  | .float x => "floating point `" ++ String.ofList x.chars ++ "`"
  | .string s => "string " ++ Text.quoted s
  | .sequence => "sequence"
  | .map => "map"

/-- Why a document is not what a reader expects. -/
inductive Mismatch where
  | wrongType (found : Found) (expected : String)
  | wrongValue (found : Found) (expected : String)
  | wrongLength (length : Nat) (expected : String)
  | missingField (name : String)
  | duplicateField (name : String)
  | unknownField (name : String) (known : List String)
  | unknownVariant (name : String) (known : List String)
  | told (text : String)
  deriving DecidableEq, Repr, Inhabited

/-- A list of names to choose from. -/
def choices : List String → String
  | [] => ""
  | [a] => "`" ++ a ++ "`"
  | [a, b] => "`" ++ a ++ "` or `" ++ b ++ "`"
  | names => "one of " ++ ", ".intercalate (names.map fun n => "`" ++ n ++ "`")

/-- The wording of a mismatch. -/
def Mismatch.message : Mismatch → String
  | wrongType f expected => "invalid type: " ++ f.message ++ ", expected " ++ expected
  | wrongValue f expected => "invalid value: " ++ f.message ++ ", expected " ++ expected
  | wrongLength n expected => "invalid length " ++ Decimal.text n ++ ", expected " ++ expected
  | missingField name => "missing field `" ++ name ++ "`"
  | duplicateField name => "duplicate field `" ++ name ++ "`"
  | unknownField name [] => "unknown field `" ++ name ++ "`, there are no fields"
  | unknownField name known => "unknown field `" ++ name ++ "`, expected " ++ choices known
  | unknownVariant name known => "unknown variant `" ++ name ++ "`, expected " ++ choices known
  | told text => text

end Json

end WorkspaceLint
