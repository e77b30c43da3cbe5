/-!
# Globs for package names

A pattern is read into tokens, and a name matches when the tokens use up all its bytes.  `?` and a
character class take one byte, `*` any bytes but slashes, and `**` whole directories; braces list
alternatives, and a backslash takes the next character literally.

Matching lists what may be left of a name after each token, so that the meaning of a sequence of
tokens is the composition of the meanings of its parts.
-/

namespace WorkspaceLint

/-- Why a pattern for names cannot be read. -/
inductive NameGlob.Fault where
  | unclosedClass
  | invalidRange (low high : Char)
  | unopenedGroup
  | danglingEscape
  | unclosedGroup
  deriving DecidableEq, Repr, Inhabited

/-- The wording of a fault. -/
def NameGlob.Fault.message : NameGlob.Fault → String
  | unclosedClass => "unclosed character class; missing ']'"
  | invalidRange a b =>
    "invalid range; '" ++ String.singleton a ++ "' > '" ++ String.singleton b ++ "'"
  | unopenedGroup =>
    "unopened alternate group; missing '\x7b' (maybe escape '\x7d' with '[\x7d]'?)"
  | danglingEscape => "dangling '\\'"
  | unclosedGroup =>
    "unclosed alternate group; missing '\x7d' (maybe escape '\x7b' with '[\x7b]'?)"

/-- A part of a pattern for names. -/
inductive NameGlob.Token where
  /-- The character itself. -/
  | literal (c : Char)
  /-- One byte other than a slash. -/
  | one
  /-- Any bytes other than slashes. -/
  | run
  /-- One byte inside the ranges, or outside of them when negated. -/
  | oneOf (negated : Bool) (ranges : List (Char × Char))
  /-- Any directories in front of a name. -/
  | leadingDirs
  /-- A slash and anything after it. -/
  | anyBelow
  /-- Any directories between two names. -/
  | innerDirs
  /-- One of several sequences. -/
  | alternatives (branches : List (List NameGlob.Token))
  deriving Repr, Inhabited

/-- A pattern for names. -/
abbrev NameGlob := List NameGlob.Token

namespace NameGlob

/-! ### Reading a pattern -/

/-- Widen the last range of a class up to `c`.  The ranges are kept last first. -/
def widen (c : Char) : List (Char × Char) → Except Fault (List (Char × Char))
  | [] => .ok [(c, c)]
  | (low, _) :: rest => if c < low then .error (.invalidRange low c) else .ok ((low, c) :: rest)

/-- Read a class after its opening, up to and including its closing bracket.  `ranges` are those
read so far, last first, and `dash` says that the last character was a dash between two others.  The
first character of a class stands for itself, be it a bracket or a dash. -/
def classBody (first dash : Bool) (ranges : List (Char × Char)) :
    List Char → Except Fault (List (Char × Char) × List Char)
  | [] => .error .unclosedClass
  | c :: cs =>
    if c = ']' ∧ !first then
      .ok ((if dash then ('-', '-') :: ranges else ranges).reverse, cs)
    else if c = '-' ∧ !first ∧ !dash then classBody false true ranges cs
    else if dash then
      match widen c ranges with
      | .error e => .error e
      | .ok ranges => classBody false false ranges cs
    else classBody false false ((c, c) :: ranges) cs

/-- Read a class after its opening bracket. -/
def charClass : List Char → Except Fault (Token × List Char)
  | [] => .error .unclosedClass
  | c :: cs =>
    if c = '!' ∨ c = '^' then
      match classBody true false [] cs with
      | .error e => .error e
      | .ok (ranges, rest) => .ok (.oneOf true ranges, rest)
    else
      match classBody true false [] (c :: cs) with
      | .error e => .error e
      | .ok (ranges, rest) => .ok (.oneOf false ranges, rest)

/-- What is open while a pattern is read: the tokens of the current branch, last first, and for each
enclosing group the branches before it and the tokens in front of the group. -/
structure Open where
  current : List Token
  groups : List (List (List Token) × List Token)

/-- Add a token to the current branch. -/
def Open.push (o : Open) (t : Token) : Open := { o with current := t :: o.current }

/-- Start a group. -/
def Open.enter (o : Open) : Open := ⟨[], ([], o.current) :: o.groups⟩

/-- Start the next branch of the innermost group; outside of groups a comma is a character. -/
def Open.comma (o : Open) : Open :=
  match o.groups with
  | [] => o.push (.literal ',')
  | (branches, outer) :: groups => ⟨[], (o.current.reverse :: branches, outer) :: groups⟩

/-- Close the innermost group. -/
def Open.leave (o : Open) : Except Fault Open :=
  match o.groups with
  | [] => .error .unopenedGroup
  | (branches, outer) :: groups =>
    .ok ⟨.alternatives (o.current.reverse :: branches).reverse :: outer, groups⟩

/-- What two stars in a row are, given the character in front of them and the text after them: the
branch they leave and the text that is left to read. -/
def Open.doubleStar (o : Open) (before : Option Char) (after : List Char) : Open × List Char :=
  let plain := ((o.push .run).push .run, after)
  match o.current with
  | [] =>
    match after with
    | [] => (o.push .leadingDirs, [])
    | '/' :: rest => (o.push .leadingDirs, rest)
    | _ => plain
  | last :: others =>
    let opens := before = some '/' ||
      (!o.groups.isEmpty && (before = some ',' || before = some '{'))
    let replaced (t : Token) : Open :=
      match last with
      | .leadingDirs => o
      | .anyBelow => o
      | _ => { o with current := t :: others }
    if !opens then plain
    else
      match after with
      | [] => (replaced .anyBelow, [])
      | '/' :: rest => (replaced .innerDirs, rest)
      | c :: _ =>
        if !o.groups.isEmpty && (c = ',' || c = '}') then (replaced .anyBelow, after)
        else plain

/-- Read the rest of a pattern, `before` being the character in front of it. -/
def readFrom : (fuel : Nat) → Open → (before : Option Char) → List Char → Except Fault NameGlob
  | 0, _, _, _ => .ok []
  | _ + 1, o, _, [] =>
    match o.groups with
    | [] => .ok o.current.reverse
    | _ :: _ => .error .unclosedGroup
  | fuel + 1, o, before, c :: cs =>
    if c = '?' then readFrom fuel (o.push .one) (some c) cs
    else if c = '*' then
      match cs with
      | '*' :: after =>
        let (o, rest) := o.doubleStar before after
        readFrom fuel o (if rest.length < after.length then some '/' else some '*') rest
      | _ => readFrom fuel (o.push .run) (some c) cs
    else if c = '[' then
      match charClass cs with
      | .error e => .error e
      | .ok (t, rest) => readFrom fuel (o.push t) (some ']') rest
    else if c = '{' then readFrom fuel o.enter (some c) cs
    else if c = '}' then
      match o.leave with
      | .error e => .error e
      | .ok o => readFrom fuel o (some c) cs
    else if c = ',' then readFrom fuel o.comma (some c) cs
    else if c = '\\' then
      match cs with
      | [] => .error .danglingEscape
      | d :: ds => readFrom fuel (o.push (.literal d)) (some d) ds
    else readFrom fuel (o.push (.literal c)) (some c) cs

/-- Read a pattern. -/
def parse (pattern : String) : Except Fault NameGlob :=
  let cs := pattern.toList
  readFrom (cs.length + 1) ⟨[], []⟩ none cs

/-! ### Matching -/

/-- The bytes of a character. -/
def bytesOf (c : Char) : List UInt8 := (String.singleton c).toUTF8.toList

/-- The bytes of a name. -/
def bytes (name : String) : List UInt8 := name.toUTF8.toList

/-- The byte that separates directories. -/
def slash : UInt8 := 47

/-- Whether a byte is in a range of characters, read byte by byte: the last byte of the lower end up
to the first byte of the upper end, and the other bytes of both ends singly. -/
def inRange (b : UInt8) (r : Char × Char) : Bool :=
  if r.1 = r.2 then (bytesOf r.1).contains b
  else
    let low := bytesOf r.1
    let high := bytesOf r.2
    low.dropLast.contains b || high.tail.contains b ||
      (low.getLastD 0 ≤ b && b ≤ high.headD 0)

/-- What is left of the input after the bytes `expected`. -/
def dropBytes : (expected input : List UInt8) → Option (List UInt8)
  | [], input => some input
  | _ :: _, [] => none
  | e :: es, b :: bs => if e = b then dropBytes es bs else none

/-- What may be left after any bytes other than slashes. -/
def afterRun : List UInt8 → List (List UInt8)
  | [] => [[]]
  | b :: bs => (b :: bs) :: if b = slash then [] else afterRun bs

/-- What may be left after any bytes. -/
def afterAny : List UInt8 → List (List UInt8)
  | [] => [[]]
  | b :: bs => (b :: bs) :: afterAny bs

/-- What may be left after any bytes that end with a slash. -/
def afterSlash : List UInt8 → List (List UInt8)
  | [] => []
  | b :: bs => if b = slash then bs :: afterSlash bs else afterSlash bs

mutual

/-- Whether a token stands for nothing: a group of such branches only. -/
def Token.isEmpty : Token → Bool
  | .alternatives branches => branchesEmpty branches
  | _ => false

/-- Whether every token of every branch stands for nothing. -/
def branchesEmpty : List (List Token) → Bool
  | [] => true
  | b :: bs => branchEmpty b && branchesEmpty bs

/-- Whether every token of a branch stands for nothing. -/
def branchEmpty : List Token → Bool
  | [] => true
  | t :: ts => t.isEmpty && branchEmpty ts

end

mutual

/-- What may be left of the input after a token. -/
def Token.after (input : List UInt8) : Token → List (List UInt8)
  | .literal c => (dropBytes (bytesOf c) input).toList
  | .one =>
    match input with
    | [] => []
    | b :: bs => if b = slash then [] else [bs]
  | .run => afterRun input
  | .oneOf negated ranges =>
    match input with
    | [] => []
    | b :: bs => if ranges.any (inRange b) != negated then [bs] else []
  | .leadingDirs => input :: afterSlash input
  | .anyBelow =>
    match input with
    | [] => []
    | b :: bs => if b = slash then afterAny bs else []
  | .innerDirs =>
    match input with
    | [] => []
    | b :: bs => if b = slash then bs :: afterSlash bs else []
  | .alternatives branches =>
    if branchesEmpty branches then [input] else afterOneOf input branches

/-- What may be left after one of the branches that stand for something. -/
def afterOneOf (input : List UInt8) : List (List Token) → List (List UInt8)
  | [] => []
  | b :: bs => (if branchEmpty b then [] else afterAll [input] b) ++ afterOneOf input bs

/-- What may be left of one of several inputs after all tokens of a sequence. -/
def afterAll (inputs : List (List UInt8)) : List Token → List (List UInt8)
  | [] => inputs
  | t :: ts => afterAll ((inputs.flatMap fun input => t.after input).eraseDups) ts

end

/-- Whether a token is a character. -/
def Token.isLiteral : Token → Bool
  | .literal _ => true
  | _ => false

/-- Whether a token is the character `c`. -/
def Token.isChar (c : Char) : Token → Bool
  | .literal d => c = d
  | _ => false

/-- Whether a pattern spells out a whole name, or several components at the end of one. -/
def isSpelled : NameGlob → Bool
  | .leadingDirs :: ts => ts.all Token.isLiteral && ts.any (Token.isChar '/')
  | ts => ts.all Token.isLiteral

/-- Whether a pattern looks at the ending of a base name and ends with a dot itself. -/
def endsWithDot (g : NameGlob) : Bool :=
  g.getLast?.any (Token.isChar '.') && !isSpelled g

/-- Whether the last component of a name is `..`, which leads to a directory and is no base name. -/
def hasNoBase (name : String) : Bool :=
  match name.toList.reverse with
  | ['.', '.'] => true
  | '.' :: '.' :: '/' :: _ => true
  | _ => false

/-- Whether a name matches a pattern: nothing is left after all tokens.  A pattern of `**` alone
matches every name, and one that looks for a base name that ends with a dot does not find it in
`..`. -/
def accepts (g : NameGlob) (name : String) : Bool :=
  match g with
  | [.leadingDirs] => true
  | _ => !(endsWithDot g && hasNoBase name) && (afterAll [bytes name] g).contains []

end NameGlob

end WorkspaceLint
