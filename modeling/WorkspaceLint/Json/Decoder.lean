import WorkspaceLint.Json.Mismatch
import WorkspaceLint.Json.Reader

/-!
# Typed reading

A decoder reads a typed value in two ways: from a document, and directly from text, where a
mismatch has a line and a column and whatever comes first in the text is reported first.

A record is read from an object, in the order of its members and ignoring those it does not know,
or from an array of its fields in order.  A field that is not required keeps the value that the
blank record has for it.
-/

namespace WorkspaceLint

namespace Json

/-- Why reading a typed value from text failed: a fault of the text or a mismatch, the place if it
is settled already, and the text that was left. -/
structure Failure where
  cause : Fault ⊕ Mismatch
  place : Option Place
  rest : List Char
  deriving DecidableEq, Repr

/-- The wording of a cause. -/
def causeMessage : Fault ⊕ Mismatch → String
  | .inl f => f.message
  | .inr m => m.message

/-- A fault of the text as a failure. -/
def Stop.failure (s : Stop) : Failure := ⟨.inl s.fault, some s.place, s.place.rest⟩

/-- A mismatch whose place is not settled, in front of `rest`. -/
def Mismatch.before {α : Type} (m : Mismatch) (rest : List Char) : Except Failure α :=
  .error ⟨.inr m, none, rest⟩

/-- Settle the place of a failure in front of the text that is left. -/
def Failure.settle (f : Failure) : Failure :=
  { f with place := some (f.place.getD ⟨f.rest, 0⟩) }

/-- Why and where a text is not what a reader expects. -/
structure TypedError where
  cause : Fault ⊕ Mismatch
  line : Nat
  column : Nat
  deriving DecidableEq, Repr

/-- The wording of an error with its line and column. -/
def TypedError.message (e : TypedError) : String :=
  located (causeMessage e.cause) (e.line, e.column)

/-- A failure in `text` with its line and column. -/
def Failure.inText (text : List Char) (f : Failure) : TypedError :=
  let p := position text (f.place.getD ⟨f.rest, 0⟩)
  ⟨f.cause, p.1, p.2⟩

/-- A step of the untyped reader as a typed one. -/
def Step.typed {α : Type} (s : Step α) : Except Failure (α × List Char) := s.mapError Stop.failure

/-- A reader of typed values. -/
structure Decoder (α : Type) where
  /-- Read a document. -/
  ofJson : Json → Except Mismatch α
  /-- Read text; the number is how many levels are still allowed, plus one. -/
  read : (depth : Nat) → List Char → Except Failure (α × List Char)

namespace Decoder

/-! ### Looking at what is there -/

/-- Report what stands at the start of a text instead of what was expected. -/
def unexpected {α : Type} (expected : String) (cs : List Char) : Except Failure (α × List Char) :=
  match Reader.skipBlanks cs with
  | [] => Step.typed (Fault.endInValue.before [])
  | c :: rest =>
    let found (s : Step Found) : Except Failure (α × List Char) :=
      match s with
      | .error e => .error e.failure
      | .ok (f, rest) => .error (Failure.settle ⟨.inr (.wrongType f expected), none, rest⟩)
    if c = 'n' then found (Reader.word .null ['u', 'l', 'l'] rest)
    else if c = 't' then found (Reader.word (.bool true) ['r', 'u', 'e'] rest)
    else if c = 'f' then found (Reader.word (.bool false) ['a', 'l', 's', 'e'] rest)
    else if c = '-' ∨ Decimal.isDigit c then
      found ((Reader.signedNumber (c :: rest)).map fun (n, rest) => (.ofNumber n, rest))
    else if c = '"' then found ((Reader.string rest).map fun (s, rest) => (.string s, rest))
    else if c = '[' then found (.ok (.sequence, c :: rest))
    else if c = '{' then found (.ok (.map, c :: rest))
    else Step.typed (Fault.expectedValue.at (c :: rest))

/-- Pass over a string after its opening quote, without looking at its characters. -/
def passString : List Char → Except Stop (List Char)
  | [] => Fault.endInString.before []
  | c :: cs =>
    if c = '"' then .ok cs
    else if c = '\\' then
      match cs with
      | [] => Fault.endInString.before []
      | e :: es =>
        if e = 'u' then
          match es with
          | h1 :: h2 :: h3 :: h4 :: rest =>
            if (Reader.hex4? h1 h2 h3 h4).isSome then passString rest else Reader.badHex es
          | _ => Reader.badHex es
        else if (Reader.shortEscape? e).isSome then passString es
        else Fault.invalidEscape.at (e :: es)
    else if c.toNat < 32 then Fault.controlCharacter.before (c :: cs)
    else passString cs

/-- Pass over the exponent of a number after its letter. -/
def passExponent (cs : List Char) : Except Stop (List Char) :=
  let cs := match cs with
    | '+' :: cs => cs
    | '-' :: cs => cs
    | cs => cs
  match Reader.splitDigits cs with
  | ([], rest) => Fault.invalidNumber.at rest
  | (_, rest) => .ok rest

/-- Pass over the exponent of a number, if there is one. -/
def passScale (cs : List Char) : Except Stop (List Char) :=
  match cs with
  | c :: rest => if c = 'e' ∨ c = 'E' then passExponent rest else .ok cs
  | [] => .ok []

/-- Pass over a number after its sign. -/
def passNumber (cs : List Char) : Except Stop (List Char) :=
  match Reader.splitDigits cs with
  | ([], rest) => Fault.invalidNumber.at rest
  | (d :: ds, rest) =>
    if d = '0' ∧ ds ≠ [] then Fault.invalidNumber.at (ds ++ rest)
    else
      match rest with
      | '.' :: rest =>
        match Reader.splitDigits rest with
        | ([], rest) => Fault.invalidNumber.at rest
        | (_, rest) => passScale rest
      | rest => passScale rest

/-- An open list or object. -/
inductive Bracket where
  | list
  | object
  deriving DecidableEq, Repr, Inhabited

/-- The fault of a text that ends inside a bracket. -/
def Bracket.atEnd : Bracket → Fault
  | list => .endInList
  | object => .endInObject

/-- The fault of a text that goes on without a comma. -/
def Bracket.expectedComma : Bracket → Fault
  | list => .expectedListCommaOrEnd
  | object => .expectedObjectCommaOrEnd

/-- The closing character of a bracket. -/
def Bracket.close : Bracket → Char
  | list => ']'
  | object => '}'

/-- Pass over a key and the colon after it. -/
def passKey (cs : List Char) : Except Stop (List Char) :=
  match Reader.skipBlanks cs with
  | [] => Fault.endInObject.before []
  | c :: rest =>
    if c = '"' then
      match passString rest with
      | .error e => .error e
      | .ok rest =>
        match Reader.skipBlanks rest with
        | [] => Fault.endInObject.before []
        | d :: rest => if d = ':' then .ok rest else Fault.expectedColon.at (d :: rest)
    else Fault.keyNotString.at (c :: rest)

/-- What follows the opening of a bracket (`comma` is false) or an entry of one. -/
inductive Next where
  /-- An entry of the innermost bracket of those given. -/
  | entry (opened : List Bracket) (rest : List Char)
  /-- The end of the outermost bracket. -/
  | done (rest : List Char)

/-- Pass over closing brackets up to the next entry. -/
def nextEntry (comma : Bool) : List Bracket → List Char → Except Stop Next
  | [], cs => .ok (.done cs)
  | b :: outer, cs =>
    match Reader.skipBlanks cs with
    | [] => b.atEnd.before []
    | c :: rest =>
      if c = ',' ∧ comma then .ok (.entry (b :: outer) rest)
      else if c = b.close then nextEntry true outer rest
      else if comma then b.expectedComma.at (c :: rest)
      else .ok (.entry (b :: outer) (c :: rest))

/-- Pass over a value inside the given brackets, innermost first, and over all that follows up to
the end of the outermost one. -/
def passFrom : (fuel : Nat) → List Bracket → List Char → Except Stop (List Char)
  | 0, _, _ => Fault.endInValue.before []
  | fuel + 1, opened, cs =>
    let go (comma : Bool) (opened : List Bracket) (rest : List Char) : Except Stop (List Char) :=
      match nextEntry comma opened rest with
      | .error e => .error e
      | .ok (.done rest) => .ok rest
      | .ok (.entry opened rest) =>
        if opened.head? = some .object then
          match passKey rest with
          | .error e => .error e
          | .ok rest => passFrom fuel opened rest
        else passFrom fuel opened rest
    let after (s : Except Stop (List Char)) : Except Stop (List Char) :=
      match s with
      | .error e => .error e
      | .ok rest => go true opened rest
    match Reader.skipBlanks cs with
    | [] => Fault.endInValue.before []
    | c :: rest =>
      if c = 'n' then after ((Reader.word () ['u', 'l', 'l'] rest).map (·.2))
      else if c = 't' then after ((Reader.word () ['r', 'u', 'e'] rest).map (·.2))
      else if c = 'f' then after ((Reader.word () ['a', 'l', 's', 'e'] rest).map (·.2))
      else if c = '-' then after (passNumber rest)
      else if Decimal.isDigit c then after (passNumber (c :: rest))
      else if c = '"' then after (passString rest)
      else if c = '[' then go false (.list :: opened) rest
      else if c = '{' then go false (.object :: opened) rest
      else Fault.expectedValue.at (c :: rest)

/-- Pass over a value that nobody asks for. -/
def pass (cs : List Char) : Except Failure (Unit × List Char) :=
  match passFrom (cs.length + 1) [] cs with
  | .error e => .error e.failure
  | .ok rest => .ok ((), rest)

/-! ### Scalars -/

/-- A string. -/
def string (expected : String) : Decoder String where
  ofJson
    | .string s => .ok s
    | v => .error (.wrongType v.found expected)
  read _ cs :=
    match Reader.skipBlanks cs with
    | '"' :: rest => Step.typed (Reader.string rest)
    | cs => unexpected expected cs

/-- A truth value. -/
def bool : Decoder Bool where
  ofJson
    | .bool b => .ok b
    | v => .error (.wrongType v.found "a boolean")
  read _ cs :=
    match Reader.skipBlanks cs with
    | 't' :: rest => Step.typed (Reader.word true ['r', 'u', 'e'] rest)
    | 'f' :: rest => Step.typed (Reader.word false ['a', 'l', 's', 'e'] rest)
    | cs => unexpected "a boolean" cs

/-- The natural number below `2 ^ 64` that a number is. -/
def naturalOf : JsonNumber → Except Mismatch Nat
  | .integer n => if n < 0 then .error (.wrongValue (.integer n) "u64") else .ok n.toNat
  | .float x => .error (.wrongType (.float x) "u64")

/-- A natural number below `2 ^ 64`. -/
def natural : Decoder Nat where
  ofJson
    | .number n => naturalOf n
    | v => .error (.wrongType v.found "u64")
  read _ cs :=
    match Reader.skipBlanks cs with
    | [] => Step.typed (Fault.endInValue.before [])
    | c :: rest =>
      if c = '-' ∨ Decimal.isDigit c then
        match Reader.signedNumber (c :: rest) with
        | .error e => .error e.failure
        | .ok (n, rest) =>
          match naturalOf n with
          | .ok n => .ok (n, rest)
          | .error m => .error (Failure.settle ⟨.inr m, none, rest⟩)
      else unexpected "u64" (c :: rest)

/-- Any document. -/
def any : Decoder Json where
  ofJson v := .ok v
  read depth cs := Step.typed (Reader.value (Reader.steps cs) depth cs)

/-- A value that may be `null`. -/
def optional {α : Type} (d : Decoder α) : Decoder (Option α) where
  ofJson
    | .null => .ok none
    | v => (d.ofJson v).map some
  read depth cs :=
    match Reader.skipBlanks cs with
    | 'n' :: rest => Step.typed (Reader.word none ['u', 'l', 'l'] rest)
    | cs => (d.read depth cs).map fun (a, rest) => (some a, rest)

/-- A value that is made of another one, or refused. -/
def refine {α β : Type} (d : Decoder α) (f : α → Except Mismatch β) : Decoder β where
  ofJson v := (d.ofJson v).bind f
  read depth cs := do
    let (a, rest) ← d.read depth cs
    match f a with
    | .ok b => .ok (b, rest)
    | .error m => .error (Failure.settle ⟨.inr m, none, rest⟩)

/-- A value that is made of another one. -/
def map {α β : Type} (d : Decoder α) (f : α → β) : Decoder β := d.refine fun a => .ok (f a)

/-! ### Choices -/

/-- The choice that a name stands for. -/
def choose {α : Type} (table : List (String × α)) (name : String) : Except Mismatch α :=
  match table.lookup name with
  | some a => .ok a
  | none => .error (.unknownVariant name (table.map Prod.fst))

/-- The nothing that may stand beside a choice. -/
def nothing : Decoder Unit where
  ofJson
    | .null => .ok ()
    | v => .error (.wrongType v.found "unit")
  read _ cs :=
    match Reader.skipBlanks cs with
    | 'n' :: rest => Step.typed (Reader.word () ['u', 'l', 'l'] rest)
    | cs => unexpected "unit" cs

/-- Read the name of a choice. -/
def choiceName {α : Type} (table : List (String × α)) (depth : Nat) (cs : List Char) : Except Failure (α × List Char) :=
  ((string "variant identifier").refine (choose table)).read depth cs

/-- Read the colon after a key. -/
def colon (cs : List Char) : Except Failure (List Char) :=
  match Reader.skipBlanks cs with
  | [] => .error (Stop.failure ⟨.endInObject, [], 0⟩)
  | c :: rest =>
    if c = ':' then .ok rest else .error (Stop.failure ⟨.expectedColon, c :: rest, 1⟩)

/-- One of several names, alone or as the only key of an object whose value is `null`. -/
def choice {α : Type} (table : List (String × α)) : Decoder α where
  ofJson
    | .string s => choose table s
    | .object [(k, v)] => do
      let a ← choose table k
      let () ← nothing.ofJson v
      return a
    | .object _ => .error (.wrongValue .map "map with a single key")
    | v => .error (.wrongType v.found "string or map")
  read depth cs :=
    match Reader.skipBlanks cs with
    | [] => Step.typed (Fault.endInValue.before [])
    | c :: rest =>
      if c = '"' then choiceName table depth (c :: rest)
      else if c = '{' then
        if depth ≤ 1 then Step.typed (Fault.tooDeep.at (c :: rest))
        else do
          let (a, rest) ← choiceName table (depth - 1) rest
          let rest ← colon rest
          let ((), rest) ← nothing.read (depth - 1) rest
          match Reader.skipBlanks rest with
          | [] => Step.typed (Fault.endInObject.before [])
          | d :: rest =>
            if d = '}' then .ok (a, rest) else Step.typed (Fault.expectedValue.before (d :: rest))
      else Step.typed (Fault.expectedValue.at (c :: rest))

/-! ### Lists -/

/-- Read all items of an array. -/
def itemsOfJson {α : Type} (f : Json → Except Mismatch α) : List Json → Except Mismatch (List α)
  | [] => .ok []
  | v :: vs => do
    let a ← f v
    let as ← itemsOfJson f vs
    return a :: as

/-- Find the next item of an array: the text in front of it, or in front of the closing bracket. -/
def nextItem (first : Bool) (cs : List Char) : Except Failure (Bool × List Char) :=
  match Reader.skipBlanks cs with
  | [] => .error (Stop.failure ⟨.endInList, [], 0⟩)
  | c :: rest =>
    if c = ']' then .ok (false, c :: rest)
    else if first then .ok (true, c :: rest)
    else if c = ',' then
      match Reader.skipBlanks rest with
      | [] => .error (Stop.failure ⟨.endInValue, [], 0⟩)
      | d :: rest =>
        if d = ']' then .error (Stop.failure ⟨.trailingComma, d :: rest, 1⟩)
        else .ok (true, d :: rest)
    else .error (Stop.failure ⟨.expectedListCommaOrEnd, c :: rest, 1⟩)

/-- Find the next key of an object: the text after its opening quote, or in front of the closing
brace. -/
def nextKey (first : Bool) (cs : List Char) : Except Failure (Bool × List Char) :=
  match Reader.skipBlanks cs with
  | [] => .error (Stop.failure ⟨.endInObject, [], 0⟩)
  | c :: rest =>
    if c = '}' then .ok (false, c :: rest)
    else if first then
      if c = '"' then .ok (true, rest)
      else .error (Stop.failure ⟨.keyNotString, c :: rest, 1⟩)
    else if c = ',' then
      match Reader.skipBlanks rest with
      | [] => .error (Stop.failure ⟨.endInValue, [], 0⟩)
      | d :: rest =>
        if d = '"' then .ok (true, rest)
        else if d = '}' then .error (Stop.failure ⟨.trailingComma, d :: rest, 1⟩)
        else .error (Stop.failure ⟨.keyNotString, d :: rest, 1⟩)
    else .error (Stop.failure ⟨.expectedObjectCommaOrEnd, c :: rest, 1⟩)

/-- The end of an array or object: the text after it, or the fault and where it leaves the text. -/
def closing (b : Bracket) (cs : List Char) : Except Failure (List Char) × List Char :=
  match Reader.skipBlanks cs with
  | [] => (.error (Stop.failure ⟨b.atEnd, [], 0⟩), [])
  | c :: rest =>
    if c = b.close then (.ok rest, rest)
    else if c = ',' then
      match b with
      | .object => (.error (Stop.failure ⟨.trailingComma, c :: rest, 1⟩), c :: rest)
      | .list =>
        let rest := Reader.skipBlanks rest
        let f := if rest.head? = some ']' then Fault.trailingComma else .trailingCharacters
        (.error (Stop.failure ⟨f, rest, 1⟩), rest)
    else (.error (Stop.failure ⟨.trailingCharacters, c :: rest, 1⟩), c :: rest)

/-- Read the end of an array or object after its contents.  A mismatch in the contents stands
wherever the end was looked for. -/
def close {α : Type} (b : Bracket) : Except Failure (α × List Char) → Except Failure (α × List Char)
  | .ok (a, rest) =>
    match (closing b rest).1 with
    | .ok rest => .ok (a, rest)
    | .error f => .error f
  | .error f =>
    match f.place with
    | some _ => .error f
    | none => .error (Failure.settle { f with rest := (closing b f.rest).2 })

/-- Read the items of an array up to its closing bracket. -/
def readItems {α : Type} (item : List Char → Except Failure (α × List Char)) :
    (fuel : Nat) → (first : Bool) → List Char → Except Failure (List α × List Char)
  | 0, _, cs => .ok ([], cs)
  | fuel + 1, first, cs => do
    match ← nextItem first cs with
    | (false, rest) => .ok ([], rest)
    | (true, rest) =>
      let (a, rest) ← item rest
      let (as, rest) ← readItems item fuel false rest
      return (a :: as, rest)

/-- A list of values. -/
def list {α : Type} (d : Decoder α) : Decoder (List α) where
  ofJson
    | .array items => itemsOfJson d.ofJson items
    | v => .error (.wrongType v.found "a sequence")
  read depth cs :=
    match Reader.skipBlanks cs with
    | '[' :: rest =>
      if depth ≤ 1 then Step.typed (Fault.tooDeep.at ('[' :: rest))
      else close .list (readItems (d.read (depth - 1)) (rest.length + 1) true rest)
    | cs => unexpected "a sequence" cs

/-! ### Records -/

/-- A field of records of type `ρ`. -/
structure Field (ρ : Type) where
  key : String
  /-- Whether a record has to have it. -/
  required : Bool
  ofJson : Json → Except Mismatch (ρ → ρ)
  read : (depth : Nat) → List Char → Except Failure ((ρ → ρ) × List Char)

/-- The field `key`, read by `d` and put into a record by `set`. -/
def field {α ρ : Type} (key : String) (required : Bool) (d : Decoder α) (set : α → ρ → ρ) :
    Field ρ where
  key := key
  required := required
  ofJson v := (d.ofJson v).map set
  read depth cs := (d.read depth cs).map fun (a, rest) => (set a, rest)

/-- A kind of records: its name, its fields in order, whether it refuses other fields, and the
record that reading starts from. -/
structure Record (ρ : Type) where
  name : String
  fields : List (Field ρ)
  closed : Bool
  blank : ρ

namespace Record

variable {ρ : Type}

/-- The field of a key. -/
def find? (r : Record ρ) (key : String) : Option (Field ρ) := r.fields.find? (·.key = key)

/-- The first field that is required and was not read. -/
def missing? (r : Record ρ) (seen : List String) : Option String :=
  (r.fields.find? fun f => f.required && !seen.contains f.key).map (·.key)

/-- A record that was read, unless a field is missing. -/
def complete (r : Record ρ) (a : ρ) (seen : List String) : Except Mismatch ρ :=
  match r.missing? seen with
  | some key => .error (.missingField key)
  | none => .ok a

/-- What a record expects of an array. -/
def expectedLength (r : Record ρ) : String :=
  "struct " ++ r.name ++ " with " ++ Decimal.text r.fields.length ++
    if r.fields.length = 1 then " element" else " elements"

/-- The mismatch of a field that a record does not know. -/
def unknown (r : Record ρ) (key : String) : Mismatch :=
  .unknownField key (r.fields.map (·.key))

/-- Read the members of an object into a record. -/
def ofMembers (r : Record ρ) (a : ρ) (seen : List String) : Members → Except Mismatch ρ
  | [] => r.complete a seen
  | (key, v) :: ms =>
    match r.find? key with
    | none => if r.closed then .error (r.unknown key) else ofMembers r a seen ms
    | some f =>
      if seen.contains key then .error (.duplicateField key)
      else do
        let set ← f.ofJson v
        ofMembers r (set a) (key :: seen) ms

/-- Read the items of an array into a record; `index` is how many were read. -/
def ofItems (r : Record ρ) (index : Nat) (a : ρ) :
    List (Field ρ) → List Json → Except Mismatch ρ
  | [], [] => .ok a
  | [], rest => .error (.wrongLength (index + rest.length) "fewer elements in array")
  | f :: fs, [] =>
    if f.required then .error (.wrongLength index r.expectedLength)
    else ofItems r (index + 1) a fs []
  | f :: fs, v :: vs => do
    let set ← f.ofJson v
    ofItems r (index + 1) (set a) fs vs

/-- Read the members of an object up to its closing brace. -/
def readMembers (r : Record ρ) (depth : Nat) :
    (fuel : Nat) → (first : Bool) → ρ → (seen : List String) → List Char → Except Failure (ρ × List Char)
  | 0, _, a, _, cs => .ok (a, cs)
  | fuel + 1, first, a, seen, cs => do
    match ← nextKey first cs with
    | (false, rest) =>
      match r.complete a seen with
      | .ok a => .ok (a, rest)
      | .error m => m.before rest
    | (true, rest) =>
      let (key, rest) ← Step.typed (Reader.string rest)
      match r.find? key with
      | none =>
        if r.closed then (r.unknown key).before rest
        else do
          let rest ← colon rest
          let ((), rest) ← pass rest
          readMembers r depth fuel false a seen rest
      | some f =>
        if seen.contains key then (Mismatch.duplicateField key).before rest
        else do
          let rest ← colon rest
          let (set, rest) ← f.read depth rest
          readMembers r depth fuel false (set a) (key :: seen) rest

/-- Read the items of an array up to the last field or the closing bracket. -/
def readItems (r : Record ρ) (depth index : Nat) (a : ρ) :
    List (Field ρ) → List Char → Except Failure (ρ × List Char)
  | [], cs => .ok (a, cs)
  | f :: fs, cs => do
    match ← nextItem (index == 0) cs with
    | (false, rest) =>
      if f.required then (Mismatch.wrongLength index r.expectedLength).before rest
      else readItems r depth (index + 1) a fs rest
    | (true, rest) =>
      let (set, rest) ← f.read depth rest
      readItems r depth (index + 1) (set a) fs rest

/-- The decoder of a kind of records. -/
def decoder (r : Record ρ) : Decoder ρ where
  ofJson
    | .object ms => r.ofMembers r.blank [] ms
    | .array items => r.ofItems 0 r.blank r.fields items
    | v => .error (.wrongType v.found ("struct " ++ r.name))
  read depth cs :=
    match Reader.skipBlanks cs with
    | [] => Step.typed (Fault.endInValue.before [])
    | c :: rest =>
      if c = '{' then
        if depth ≤ 1 then Step.typed (Fault.tooDeep.at (c :: rest))
        else close .object (r.readMembers (depth - 1) (rest.length + 1) true r.blank [] rest)
      else if c = '[' then
        if depth ≤ 1 then Step.typed (Fault.tooDeep.at (c :: rest))
        else close .list (r.readItems (depth - 1) 0 r.blank r.fields rest)
      else unexpected ("struct " ++ r.name) (c :: rest)

end Record

/-! ### Whole texts -/

/-- Read a whole text. -/
def ofText {α : Type} (d : Decoder α) (text : String) : Except TypedError α :=
  let cs := text.toList
  let result : Except Failure α := do
    let (a, rest) ← d.read Reader.nestingLimit cs
    let () ← (Reader.finish rest).mapError Stop.failure
    return a
  result.mapError (Failure.inText cs)

end Decoder

end Json

end WorkspaceLint
