import WorkspaceLint.Json.Basic

/-!
# Written forms of JSON documents

A document is written compactly, without any blank, or on several lines with two spaces of
indentation for each level.  Canonical text is the second form and a final line break.
-/

namespace WorkspaceLint

namespace Json

/-! ### Scalars -/

/-- The lower-case hexadecimal digit of `n < 16`. -/
def hexDigit (n : Nat) : Char :=
  if n < 10 then Char.ofNat (48 + n) else Char.ofNat (87 + n)

/-- How a character stands inside a string: quotes, backslashes and control characters are escaped,
everything else stands for itself. -/
def escapeChar (c : Char) : List Char :=
  if c = '"' then ['\\', '"']
  else if c = '\\' then ['\\', '\\']
  else if c = '\x08' then ['\\', 'b']
  else if c = '\x0c' then ['\\', 'f']
  else if c = '\n' then ['\\', 'n']
  else if c = '\r' then ['\\', 'r']
  else if c = '\t' then ['\\', 't']
  else if c.toNat < 32 then
    ['\\', 'u', '0', '0', hexDigit (c.toNat / 16), hexDigit (c.toNat % 16)]
  else [c]

/-- The characters of a string between its quotes. -/
def escape (cs : List Char) : List Char := cs.flatMap escapeChar

/-- A string in quotes. -/
def quoted (s : String) : List Char := '"' :: (escape s.toList ++ ['"'])

/-- The written form of a number. -/
def numberChars : JsonNumber → List Char
  | .integer n => Decimal.integerChars n
  | .float x => x.chars

/-- The written form of a truth value. -/
def boolChars : Bool → List Char
  | true => ['t', 'r', 'u', 'e']
  | false => ['f', 'a', 'l', 's', 'e']

/-- The written form of `null`. -/
def nullChars : List Char := ['n', 'u', 'l', 'l']

/-! ### Compact text -/

mutual

/-- The compact form of a document. -/
def compactChars : Json → List Char
  | null => nullChars
  | bool b => boolChars b
  | number n => numberChars n
  | string s => quoted s
  | array items => '[' :: (compactItems items ++ [']'])
  | object ms => '{' :: (compactMembers ms ++ ['}'])

/-- Items separated by commas. -/
def compactItems : List Json → List Char
  | [] => []
  | v :: vs =>
    compactChars v ++ match vs with
      | [] => []
      | _ :: _ => ',' :: compactItems vs

/-- Members separated by commas. -/
def compactMembers : List (String × Json) → List Char
  | [] => []
  | (k, v) :: ms =>
    quoted k ++ ':' :: (compactChars v ++ match ms with
      | [] => []
      | _ :: _ => ',' :: compactMembers ms)

end

/-! ### Indented text -/

/-- A line break followed by the indentation of `depth` levels. -/
def newline (depth : Nat) : List Char := '\n' :: List.replicate (2 * depth) ' '

mutual

/-- The indented form of a document that stands at `depth`. -/
def prettyChars (depth : Nat) : Json → List Char
  | null => nullChars
  | bool b => boolChars b
  | number n => numberChars n
  | string s => quoted s
  | array items =>
    match items with
    | [] => ['[', ']']
    | _ :: _ => '[' :: (prettyItems (depth + 1) items ++ newline depth ++ [']'])
  | object ms =>
    match ms with
    | [] => ['{', '}']
    | _ :: _ => '{' :: (prettyMembers (depth + 1) ms ++ newline depth ++ ['}'])

/-- Items, each on a line of its own. -/
def prettyItems (depth : Nat) : List Json → List Char
  | [] => []
  | v :: vs =>
    newline depth ++ prettyChars depth v ++ match vs with
      | [] => []
      | _ :: _ => ',' :: prettyItems depth vs

/-- Members, each on a line of its own. -/
def prettyMembers (depth : Nat) : List (String × Json) → List Char
  | [] => []
  | (k, v) :: ms =>
    newline depth ++ quoted k ++ ':' :: ' ' :: (prettyChars depth v ++ match ms with
      | [] => []
      | _ :: _ => ',' :: prettyMembers depth ms)

end

/-- The compact text of a document. -/
def compact (v : Json) : String := String.ofList v.compactChars

/-- Canonical text: two spaces of indentation and one final line break. -/
def canonical (v : Json) : String := String.ofList (v.prettyChars 0 ++ ['\n'])

end Json

end WorkspaceLint
