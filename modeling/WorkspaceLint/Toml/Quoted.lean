import WorkspaceLint.Json.Reader

/-!
# TOML strings

Strings in double quotes have escapes and strings in single quotes have none.  Three quotes start a
string that may run over several lines; a line break right after them does not count, and up to two
quotes may stand right before the three that end it.
-/

namespace WorkspaceLint

namespace Toml

/-- Whether a character may stand in a string or comment: no control character but the tab. -/
def isPlain (c : Char) : Bool := c = '\t' || (32 ≤ c.toNat && c.toNat ≠ 127)

/-- Whether a character is a space or a tab. -/
def isBlank (c : Char) : Bool := c = ' ' || c = '\t'

/-- The text after spaces and tabs. -/
def skipBlanks (cs : List Char) : List Char := cs.dropWhile isBlank

/-- The text after a line break, if it starts with one. -/
def lineBreak? : List Char → Option (List Char)
  | '\n' :: cs => some cs
  | '\r' :: '\n' :: cs => some cs
  | _ => none

/-- The number of the first `width` hexadecimal digits, after the number `n`. -/
def hexFrom? (n : Nat) : (width : Nat) → List Char → Option (Nat × List Char)
  | 0, cs => some (n, cs)
  | _ + 1, [] => none
  | width + 1, c :: cs => do
    let d ← Json.Reader.hexValue? c
    hexFrom? (16 * n + d) width cs

/-- Read a character that is spelled by its number. -/
def numbered? (width : Nat) (cs : List Char) : Option (Char × List Char) := do
  let (n, cs) ← hexFrom? 0 width cs
  if n.isValidChar then return (Char.ofNat n, cs) else none

/-- Read an escape after its backslash. -/
def escape? : List Char → Option (Char × List Char)
  | [] => none
  | c :: cs =>
    if c = 'b' then some ('\x08', cs)
    else if c = 't' then some ('\t', cs)
    else if c = 'n' then some ('\n', cs)
    else if c = 'f' then some ('\x0c', cs)
    else if c = 'r' then some ('\r', cs)
    else if c = 'e' then some ('\x1b', cs)
    else if c = '"' then some ('"', cs)
    else if c = '\\' then some ('\\', cs)
    else if c = 'x' then numbered? 2 cs
    else if c = 'u' then numbered? 4 cs
    else if c = 'U' then numbered? 8 cs
    else none

/-- The text after blanks and line breaks. -/
def skipLines (cs : List Char) : List Char :=
  cs.dropWhile fun c => isBlank c || c = '\n' || c = '\r'

/-- The text after a backslash at the end of a line, and all the blanks after it. -/
def joinedLine? (cs : List Char) : Option (List Char) :=
  (lineBreak? (skipBlanks cs)).map skipLines

/-- Put a character in front of a string that was read. -/
def prepend (c : Char) (r : Option (List Char × List Char)) : Option (List Char × List Char) :=
  r.map fun (s, rest) => (c :: s, rest)

/-- Read a string on one line after its opening quote. -/
def shortFrom? (quote : Char) : (fuel : Nat) → List Char → Option (List Char × List Char)
  | 0, _ => none
  | _ + 1, [] => none
  | fuel + 1, c :: cs =>
    if c = quote then some ([], cs)
    else if c = '\\' ∧ quote = '"' then do
      let (d, cs) ← escape? cs
      prepend d (shortFrom? quote fuel cs)
    else if isPlain c then prepend c (shortFrom? quote fuel cs)
    else none

/-- The quotes in front of the end of a long string, up to two, and the text after them. -/
def lastQuotes (quote : Char) : List Char → List Char × List Char
  | a :: b :: cs =>
    if a = quote ∧ b = quote then ([a, b], cs)
    else if a = quote then ([a], b :: cs)
    else ([], a :: b :: cs)
  | [a] => if a = quote then ([a], []) else ([], [a])
  | [] => ([], [])

/-- The text after three quotes, if it starts with them. -/
def threeQuotes? (quote : Char) : List Char → Option (List Char)
  | a :: b :: c :: cs => if a = quote ∧ b = quote ∧ c = quote then some cs else none
  | _ => none

/-- Read a string over several lines after its opening quotes. -/
def longFrom? (quote : Char) : (fuel : Nat) → List Char → Option (List Char × List Char)
  | 0, _ => none
  | _ + 1, [] => none
  | fuel + 1, c :: cs =>
    match threeQuotes? quote (c :: cs) with
    | some rest => some (lastQuotes quote rest)
    | none =>
      if c = '\\' ∧ quote = '"' then
        match joinedLine? cs with
        | some cs => longFrom? quote fuel cs
        | none => do
          let (d, cs) ← escape? cs
          prepend d (longFrom? quote fuel cs)
      else if c = '\n' ∨ isPlain c then prepend c (longFrom? quote fuel cs)
      else if c = '\r' ∧ cs.head? = some '\n' then prepend c (longFrom? quote fuel cs)
      else none

/-- Read a string on one line in front of its opening quote. -/
def short? : List Char → Option (String × List Char)
  | [] => none
  | c :: cs =>
    if c = '"' ∨ c = '\'' then
      (shortFrom? c (cs.length + 1) cs).map fun (s, rest) => (String.ofList s, rest)
    else none

/-- Read a string in front of its opening quotes. -/
def string? (cs : List Char) : Option (String × List Char) :=
  match cs.head?.bind fun c => threeQuotes? c cs with
  | some rest =>
    let rest := (lineBreak? rest).getD rest
    match cs with
    | c :: _ =>
      if c = '"' ∨ c = '\'' then
        (longFrom? c (rest.length + 1) rest).map fun (s, rest) => (String.ofList s, rest)
      else none
    | [] => none
  | none => short? cs

end Toml

end WorkspaceLint
