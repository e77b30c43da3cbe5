import WorkspaceLint.Toml.Quoted
import WorkspaceLint.Toml.Scalar
import WorkspaceLint.Toml.Tables

/-!
# Reading TOML

A document is read line by line into its pairs and headers, and these build up its tables.  Arrays
and inline tables may run over several lines and have comments in them.
-/

namespace WorkspaceLint

namespace Toml

/-! ### Comments and line ends -/

/-- The text after a comment, in front of the line break that ends it. -/
def passComment : List Char → Option (List Char)
  | [] => some []
  | c :: cs =>
    if c = '\n' ∨ (c = '\r' ∧ cs.head? = some '\n') then some (c :: cs)
    else if isPlain c then passComment cs
    else none

/-- The text after the blanks and the comment at the end of a line, and after its line break. -/
def endLine? (cs : List Char) : Option (List Char) := do
  let rest ← (match skipBlanks cs with
    | '#' :: cs => passComment cs
    | cs => some cs : Option (List Char))
  match rest with
  | [] => some []
  | rest => lineBreak? rest

/-- The text after blanks, comments and line breaks. -/
def passLines : (fuel : Nat) → List Char → Option (List Char)
  | 0, cs => some cs
  | fuel + 1, cs =>
    match skipBlanks cs with
    | '#' :: cs => do passLines fuel (← passComment cs)
    | cs =>
      match lineBreak? cs with
      | some cs => passLines fuel cs
      | none => some cs

/-- The text in front of the next part of an array or inline table. -/
def nextPart (cs : List Char) : Option (List Char) := passLines (cs.length + 1) cs

/-! ### Keys -/

/-- Whether a character may stand in a key without quotes. -/
def isBare (c : Char) : Bool := c.isAlphanum || c = '_' || c = '-'

/-- Read one part of a key. -/
def keyPart? (cs : List Char) : Option (String × List Char) :=
  match cs.span isBare with
  | ([], cs) => short? cs
  | (bare, cs) => some (String.ofList bare, cs)

/-- The greatest number of dots in a key. -/
def maxDots : Nat := 80

/-- Read a key: the parts before its last one, and the last one. -/
def key? : (dots : Nat) → List Char → Option (List String × String × List Char)
  | 0, _ => none
  | dots + 1, cs => do
    let (part, cs) ← keyPart? cs
    match skipBlanks cs with
    | '.' :: cs =>
      let (path, key, cs) ← key? dots (skipBlanks cs)
      return (part :: path, key, cs)
    | cs => return ([], part, cs)

/-! ### Values -/

/-- Whether a scalar without quotes goes on with a character. -/
def inScalar (c : Char) : Bool :=
  !(isBlank c || ['\n', '\r', ',', '[', ']', '{', '}', '#', '=', '"', '\''].contains c)

/-- The text of a scalar without quotes: one word, or a date and a time with a space between
them. -/
def scalarText (cs : List Char) : List Char × List Char :=
  match cs.span inScalar with
  | (word, ' ' :: rest) =>
    if (date? word).any fun d => d.2.isEmpty then
      match rest.span inScalar with
      | ([], _) => (word, ' ' :: rest)
      | (time, after) => (word ++ ' ' :: time, after)
    else (word, ' ' :: rest)
  | r => r

/-- The greatest depth of arrays and inline tables. -/
def maxDepth : Nat := 80

mutual

/-- Read a value inside arrays and inline tables of which `depth` more are allowed. -/
def value? (fuel depth : Nat) (cs : List Char) : Option (Toml × List Char) :=
  match fuel, cs with
  | 0, _ => none
  | _ + 1, [] => none
  | fuel + 1, c :: cs =>
    if c = '"' ∨ c = '\'' then (string? (c :: cs)).map fun (s, rest) => (.string s, rest)
    else if c = '[' then
      if depth = 0 then none
      else (items? fuel (depth - 1) cs).map fun (vs, rest) => (.array vs, rest)
    else if c = '{' then
      if depth = 0 then none
      else do
        let (pairs, rest) ← pairs? fuel (depth - 1) cs
        let entries ← Entries.addAll [] pairs
        return (.table (Node.entriesToToml entries), rest)
    else do
      let (text, rest) := scalarText (c :: cs)
      return (← scalar? text, rest)

/-- Read the items of an array up to its closing bracket. -/
def items? (fuel depth : Nat) (cs : List Char) : Option (List Toml × List Char) :=
  match fuel with
  | 0 => none
  | fuel + 1 => do
    match ← nextPart cs with
    | ']' :: rest => some ([], rest)
    | cs =>
      let (v, rest) ← value? fuel depth cs
      match ← nextPart rest with
      | ']' :: rest => some ([v], rest)
      | ',' :: rest =>
        let (vs, rest) ← items? fuel depth rest
        some (v :: vs, rest)
      | _ => none

/-- Read the pairs of an inline table up to its closing brace. -/
def pairs? (fuel depth : Nat) (cs : List Char) : Option (List Pair × List Char) :=
  match fuel with
  | 0 => none
  | fuel + 1 => do
    match ← nextPart cs with
    | '}' :: rest => some ([], rest)
    | cs =>
      let (p, rest) ← pair? fuel depth cs
      match ← nextPart rest with
      | '}' :: rest => some ([p], rest)
      | ',' :: rest =>
        let (ps, rest) ← pairs? fuel depth rest
        some (p :: ps, rest)
      | _ => none

/-- Read a key and its value. -/
def pair? (fuel depth : Nat) (cs : List Char) : Option (Pair × List Char) :=
  match fuel with
  | 0 => none
  | fuel + 1 => do
    let (path, key, rest) ← key? (maxDots + 1) cs
    match rest with
    | '=' :: rest =>
      let (v, rest) ← value? fuel depth (skipBlanks rest)
      some (⟨path, key, v⟩, rest)
    | _ => none

end

/-! ### Documents -/

/-- A line of a document. -/
inductive Line where
  | blank
  | header (h : Header)
  | pair (p : Pair)
  deriving Repr, Inhabited

/-- Read a header after its opening bracket. -/
def header? (cs : List Char) : Option (Header × List Char) :=
  match cs with
  | '[' :: cs => do
    let (path, key, rest) ← key? (maxDots + 1) (skipBlanks cs)
    match rest with
    | ']' :: ']' :: rest => some (⟨true, path, key⟩, rest)
    | _ => none
  | cs => do
    let (path, key, rest) ← key? (maxDots + 1) (skipBlanks cs)
    match rest with
    | ']' :: rest => some (⟨false, path, key⟩, rest)
    | _ => none

/-- Read what stands on a line, without its end. -/
def lineContent? (cs : List Char) : Option (Line × List Char) :=
  match skipBlanks cs with
  | [] => some (.blank, [])
  | c :: cs =>
    if c = '#' ∨ c = '\n' ∨ c = '\r' then some (.blank, c :: cs)
    else if c = '[' then (header? cs).map fun (h, rest) => (.header h, rest)
    else (pair? (2 * cs.length + 4) maxDepth (c :: cs)).map fun (p, rest) => (.pair p, rest)

/-- Read the lines of a document. -/
def lines? : (fuel : Nat) → List Char → Option (List Line)
  | 0, _ => some []
  | _ + 1, [] => some []
  | fuel + 1, cs => do
    let (line, rest) ← lineContent? cs
    let rest ← endLine? rest
    let lines ← lines? fuel rest
    return line :: lines

/-- The pairs in front of the first header, and the sections after it. -/
def sections : List Line → List Pair × List Section
  | [] => ([], [])
  | .blank :: lines => sections lines
  | .pair p :: lines =>
    let (ps, ss) := sections lines
    (p :: ps, ss)
  | .header h :: lines =>
    let (ps, ss) := sections lines
    ([], ⟨h, ps⟩ :: ss)

/-- The mark that may stand at the start of a text. -/
def byteOrderMark : Char := '\ufeff'

/-- Read a document: the entries of its table. -/
def parse? (text : String) : Option (List (String × Toml)) := do
  let cs := match text.toList with
    | c :: cs => if c = byteOrderMark then cs else c :: cs
    | [] => []
  let lines ← lines? (cs.length + 1) cs
  let (pairs, sections) := sections lines
  let root ← Entries.addAll [] pairs
  let root ← root.addSections sections
  return Node.entriesToToml root

end Toml

end WorkspaceLint
