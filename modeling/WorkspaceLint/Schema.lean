import WorkspaceLint.Json.Printer

/-!
# Schemas for options

The part of JSON Schema that rule options are described with: types, required and known members,
item schemas, and choices of exactly one schema.  A schema is read from its document once, and
`Schema.violations` lists everything about a document that it does not allow.
-/

namespace WorkspaceLint

/-- A type of documents. -/
inductive JsonType where
  | array
  | boolean
  | integer
  | null
  | number
  | object
  | string
  deriving DecidableEq, Repr, Inhabited

namespace JsonType

/-- The name of a type. -/
def label : JsonType → String
  | array => "array"
  | boolean => "boolean"
  | integer => "integer"
  | .null => "null"
  | number => "number"
  | object => "object"
  | string => "string"

/-- All types in the order of their names. -/
def all : List JsonType := [array, boolean, integer, .null, number, object, string]

/-- The type of a name. -/
def ofLabel? (s : String) : Option JsonType := all.find? (·.label = s)

/-- Whether a number is an integer, written with a fraction or without. -/
def isInteger : JsonNumber → Bool
  | .integer _ => true
  | .float x =>
    match x.exponent with
    | .ofNat _ => true
    | .negSucc k => x.significand % Nat.pow 2 (k + 1) = 0

/-- Whether a document is of a type. -/
def accepts (t : JsonType) : Json → Bool
  | .null => t = .null
  | .bool _ => t = .boolean
  | .number n => t = .number || (t = .integer && isInteger n)
  | .string _ => t = .string
  | .array _ => t = .array
  | .object _ => t = .object

end JsonType

/-- A schema: nothing at all, or what its keywords allow. -/
inductive Schema where
  | never
  /-- The types (any if there are none), the required members, the schemas of members, whether other
  members are refused, the schema of other members (if there is one), the schema of items (if there
  is one), and the schemas of which exactly one must allow a document (if there are any). -/
  | keywords (types : List JsonType) (required : List String)
      (properties : List (String × Schema)) (closed : Bool) (others : List Schema)
      (items : List Schema) (oneOf : List Schema)
  deriving Repr, Inhabited

namespace Schema

/-- The schema that allows everything. -/
def always : Schema := .keywords [] [] [] false [] [] []

/-! ### Violations -/

/-- A step from a document into it. -/
inductive Step where
  | member (key : String)
  | item (index : Nat)
  deriving DecidableEq, Repr, Inhabited

/-- Why a document is not allowed. -/
inductive Cause where
  | wrongType (types : List JsonType) (value : Json)
  | missing (key : String)
  | unexpected (keys : List String)
  | forbidden (value : Json)
  | noChoice (value : Json)
  | manyChoices (value : Json)
  deriving Repr, Inhabited

/-- Something that is not allowed, and the way to it. -/
structure Violation where
  path : List Step
  cause : Cause
  deriving Repr, Inhabited

/-- The violation seen from outside of the place it is in. -/
def Violation.inside (s : Step) (v : Violation) : Violation := { v with path := s :: v.path }

/-- A key in a pointer: slashes and tildes are spelled out. -/
def pointerKey (key : String) : List Char :=
  key.toList.flatMap fun c =>
    if c = '~' then ['~', '0'] else if c = '/' then ['~', '1'] else [c]

/-- A step in a pointer. -/
def Step.pointer : Step → List Char
  | member key => '/' :: pointerKey key
  | item index => '/' :: Decimal.digits index

/-- The wording of a cause. -/
def Cause.message : Cause → String
  | wrongType [t] v => v.compact ++ " is not of type \"" ++ t.label ++ "\""
  | wrongType ts v =>
    v.compact ++ " is not of types " ++
      ", ".intercalate (ts.map fun t => "\"" ++ t.label ++ "\"")
  | missing key => (Json.string key).compact ++ " is a required property"
  | unexpected keys =>
    "Additional properties are not allowed (" ++
      ", ".intercalate (keys.map fun k => "'" ++ k ++ "'") ++
      (if keys.length = 1 then " was" else " were") ++ " unexpected)"
  | forbidden v => "False schema does not allow " ++ v.compact
  | noChoice v =>
    v.compact ++ " is not valid under any of the schemas listed in the 'oneOf' keyword"
  | manyChoices v =>
    v.compact ++ " is valid under more than one of the schemas listed in the 'oneOf' keyword"

/-- The wording of a violation, with a pointer to where it is unless it is the whole document. -/
def Violation.message (v : Violation) : String :=
  let pointer := String.ofList (v.path.flatMap Step.pointer)
  if v.path.isEmpty then v.cause.message else pointer ++ ": " ++ v.cause.message

/-- The violations of the list of types. -/
def typeViolations (types : List JsonType) (v : Json) : List Violation :=
  if types.isEmpty || types.any (·.accepts v) then [] else [⟨[], .wrongType types v⟩]

/-- The required members that an object does not have. -/
def requiredViolations (required : List String) : Json → List Violation
  | .object ms =>
    (required.filter fun key => !Members.contains key ms).map fun key => ⟨[], .missing key⟩
  | _ => []

/-- The members of an object that are not known. -/
def unexpectedViolations (known : List String) : Json → List Violation
  | .object ms =>
    let keys := (Members.keys ms).filter fun key => !known.contains key
    if keys.isEmpty then [] else [⟨[], .unexpected keys⟩]
  | _ => []

mutual

/-- Everything about a document that a schema does not allow, keyword by keyword.  A schema that
refuses unknown members looks at the members in their own order; with exactly one required member
it reports that one last. -/
def violations : Schema → Json → List Violation
  | .never, v => [⟨[], .forbidden v⟩]
  | .keywords types required properties closed others items oneOf, v =>
    let known := properties.map Prod.fst
    let members :=
      match v with
      | .object ms =>
        if closed then ms.flatMap fun m => memberViolations properties m.1 m.2
        else if others.isEmpty then propertyViolations properties ms
        else ms.flatMap fun m =>
          if known.contains m.1 then memberViolations properties m.1 m.2
          else (allViolations others m.2).map (Violation.inside (.member m.1))
      | _ => []
    let unexpected := if closed then unexpectedViolations known v else []
    let missing := requiredViolations required v
    let object :=
      if closed && required.length = 1 then members ++ unexpected ++ missing
      else missing ++ members ++ unexpected
    let elements :=
      match v with
      | .array vs =>
        vs.zipIdx.flatMap fun e =>
          (allViolations items e.1).map (Violation.inside (.item e.2))
      | _ => []
    let choices :=
      if oneOf.isEmpty then []
      else
        match allowedBy oneOf v with
        | 0 => [⟨[], .noChoice v⟩]
        | 1 => []
        | _ => [⟨[], .manyChoices v⟩]
    typeViolations types v ++ object ++ elements ++ choices

/-- The violations of one member, by the schema of its key. -/
def memberViolations : List (String × Schema) → (key : String) → Json → List Violation
  | [], _, _ => []
  | (k, s) :: rest, key, v =>
    if k = key then (violations s v).map (Violation.inside (.member key))
    else memberViolations rest key v

/-- The violations of the members of an object, in the order of the schemas. -/
def propertyViolations : List (String × Schema) → Members → List Violation
  | [], _ => []
  | (k, s) :: rest, ms =>
    (match Members.get? k ms with
      | some v => (violations s v).map (Violation.inside (.member k))
      | none => []) ++ propertyViolations rest ms

/-- The violations of several schemas. -/
def allViolations : List Schema → Json → List Violation
  | [], _ => []
  | s :: rest, v => violations s v ++ allViolations rest v

/-- How many schemas allow a document. -/
def allowedBy : List Schema → Json → Nat
  | [], _ => 0
  | s :: rest, v => (if (violations s v).isEmpty then 1 else 0) + allowedBy rest v

end

/-! ### Reading a schema -/

/-- Why a document is not a schema. -/
inductive Fault where
  | wrongType (types : List JsonType) (value : Json)
  | noAlternative (value : Json)
  | empty (value : Json)
  | repeated (value : Json)
  deriving Repr, Inhabited

/-- The wording of a fault. -/
def Fault.message : Fault → String
  | wrongType ts v => (Cause.wrongType ts v).message
  | noAlternative v =>
    v.compact ++ " is not valid under any of the schemas listed in the 'anyOf' keyword"
  | empty v => v.compact ++ " has less than 1 item"
  | repeated v => v.compact ++ " has non-unique elements"

/-- The types that a document names. -/
def typesOf (v : Json) : Except Fault (List JsonType) :=
  let fault : Except Fault (List JsonType) := .error (.noAlternative v)
  match v with
  | .string s =>
    match JsonType.ofLabel? s with
    | some t => .ok [t]
    | none => fault
  | .array vs =>
    match vs.mapM fun v => v.asString?.bind JsonType.ofLabel? with
    | some ts =>
      if ts.isEmpty || ts.eraseDups.length ≠ ts.length then fault
      else .ok (JsonType.all.filter ts.contains)
    | none => fault
  | _ => fault

/-- A name. -/
def nameOf : Json → Except Fault String
  | .string s => .ok s
  | v => .error (.wrongType [.string] v)

/-- The names that a document lists, each once. -/
def namesOf : Json → Except Fault (List String)
  | .array vs => do
    let names ← vs.mapM nameOf
    if names.eraseDups.length ≠ names.length then .error (.repeated (.array vs)) else return names
  | v => .error (.wrongType [.array] v)

/-- The value of a keyword, read by `f`; `absent` when it is missing. -/
def keyword {α : Type} (key : String) (ms : Members) (absent : α)
    (f : Json → Except Fault α) : Except Fault α :=
  match Members.get? key ms with
  | some v => f v
  | none => .ok absent

/-- Read a schema; `fuel` bounds how deep it nests. -/
def ofJsonFrom : (fuel : Nat) → Json → Except Fault Schema
  | 0, _ => .ok always
  | _ + 1, .bool true => .ok always
  | _ + 1, .bool false => .ok .never
  | fuel + 1, .object ms => do
    let properties ← keyword "properties" ms [] fun v =>
      match v with
      | .object ps => ps.mapM fun p => do
        let s ← ofJsonFrom fuel p.2
        return (p.1, s)
      | v => .error (.wrongType [.object] v)
    let closed := Members.get? "additionalProperties" ms |>.any fun v =>
      match v with
      | .bool false => true
      | _ => false
    let others ← keyword "additionalProperties" ms [] fun v => do
      let s ← ofJsonFrom fuel v
      return if closed then [] else [s]
    let items ← keyword "items" ms [] fun v => do
      let s ← ofJsonFrom fuel v
      return [s]
    let oneOf ← keyword "oneOf" ms [] fun v =>
      match v with
      | .array [] => .error (.empty v)
      | .array vs => vs.mapM (ofJsonFrom fuel)
      | v => .error (.wrongType [.array] v)
    let types ← keyword "type" ms [] typesOf
    let required ← keyword "required" ms [] namesOf
    return .keywords types required properties closed others items oneOf
  | _ + 1, v => .error (.wrongType [.boolean, .object] v)

/-- The schema that a document describes. -/
def ofJson (v : Json) : Except Fault Schema := ofJsonFrom 128 v

end Schema

end WorkspaceLint
