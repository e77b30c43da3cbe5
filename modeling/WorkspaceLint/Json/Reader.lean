import WorkspaceLint.Json.Basic

/-!
# Reading JSON text

A reader takes the characters that are left and gives a part of the document with the characters
after it, or the place where it stopped and why.  The place is kept as the text that was left, so
that its line and column are computed once, in `position`.

Documents nest at most `nestingLimit` levels deep, which bounds the recursion of every reader; the
number of steps on one level is bounded by the length of the text.
-/

namespace WorkspaceLint

namespace Json

/-- Why a text is not a JSON document. -/
inductive Fault where
  | endInList
  | endInObject
  | endInString
  | endInValue
  | expectedColon
  | expectedListCommaOrEnd
  | expectedObjectCommaOrEnd
  | expectedIdent
  | expectedValue
  | invalidEscape
  | invalidNumber
  | numberOutOfRange
  | controlCharacter
  | keyNotString
  | loneSurrogate
  | trailingComma
  | trailingCharacters
  | unexpectedEndOfHexEscape
  | tooDeep
  deriving DecidableEq, Repr, Inhabited

/-- The wording of a fault. -/
def Fault.message : Fault → String
  | endInList => "EOF while parsing a list"
  | endInObject => "EOF while parsing an object"
  | endInString => "EOF while parsing a string"
  | endInValue => "EOF while parsing a value"
  | expectedColon => "expected `:`"
  | expectedListCommaOrEnd => "expected `,` or `]`"
  | expectedObjectCommaOrEnd => "expected `,` or `\x7d`"
  | expectedIdent => "expected ident"
  | expectedValue => "expected value"
  | invalidEscape => "invalid escape"
  | invalidNumber => "invalid number"
  | numberOutOfRange => "number out of range"
  | controlCharacter => "control character (\\u0000-\\u001F) found while parsing a string"
  | keyNotString => "key must be a string"
  | loneSurrogate => "lone leading surrogate in hex escape"
  | trailingComma => "trailing comma"
  | trailingCharacters => "trailing characters"
  | unexpectedEndOfHexEscape => "unexpected end of hex escape"
  | tooDeep => "recursion limit exceeded"

/-- Where a reader stopped: `past` bytes into the text that was left. -/
structure Place where
  rest : List Char
  past : Nat
  deriving DecidableEq, Repr, Inhabited

/-- A fault and the place where it was found. -/
structure Stop where
  fault : Fault
  place : Place
  deriving DecidableEq, Repr, Inhabited

/-- What a reader gives: a part of the document and the text after it. -/
abbrev Step (α : Type) := Except Stop (α × List Char)

/-- Stop in front of what is left. -/
def Fault.before {α : Type} (f : Fault) (rest : List Char) : Except Stop α :=
  .error ⟨f, rest, 0⟩

/-- Stop one byte into what is left, at the character that is in the way. -/
def Fault.at {α : Type} (f : Fault) (rest : List Char) : Except Stop α :=
  .error ⟨f, rest, 1⟩

/-! ### Lines and columns -/

/-- The number of bytes of a text. -/
def byteLength (cs : List Char) : Nat := cs.foldl (fun n c => n + c.utf8Size) 0

/-- The line and column after `bytes` bytes, going on from `(line, column)`.  Columns count bytes
and start again after a line break. -/
def advance (line column : Nat) : (bytes : Nat) → List Char → Nat × Nat
  | 0, _ => (line, column)
  | _ + 1, [] => (line, column)
  | bytes + 1, c :: cs =>
    if c = '\n' then advance (line + 1) 0 bytes cs
    else if bytes + 1 < c.utf8Size then (line, column + bytes + 1)
    else advance line (column + c.utf8Size) (bytes + 1 - c.utf8Size) cs

/-- The line and column of a place in `text`. -/
def position (text : List Char) (p : Place) : Nat × Nat :=
  advance 1 0 (byteLength text - byteLength p.rest + p.past) text

/-- A message with a line and a column. -/
def located (message : String) (place : Nat × Nat) : String :=
  message ++ " at line " ++ Decimal.text place.1 ++ " column " ++ Decimal.text place.2

/-- Why and where a text is not a JSON document. -/
structure SyntaxError where
  fault : Fault
  line : Nat
  column : Nat
  deriving DecidableEq, Repr, Inhabited

/-- The wording of a syntax error. -/
def SyntaxError.message (e : SyntaxError) : String := located e.fault.message (e.line, e.column)

/-- A stop in `text` with its line and column. -/
def Stop.inText (text : List Char) (s : Stop) : SyntaxError :=
  ⟨s.fault, (position text s.place).1, (position text s.place).2⟩

namespace Reader

/-- The blanks between the parts of a document. -/
def isBlank (c : Char) : Bool := c = ' ' || c = '\n' || c = '\t' || c = '\r'

/-- The text after the blanks at its start. -/
def skipBlanks : List Char → List Char
  | [] => []
  | c :: cs => if isBlank c then skipBlanks cs else c :: cs

/-- Read the rest of a fixed word. -/
def word {α : Type} (result : α) : List Char → List Char → Step α
  | [], cs => .ok (result, cs)
  | _ :: _, [] => Fault.endInValue.before []
  | e :: es, c :: cs => if c = e then word result es cs else Fault.expectedIdent.at (c :: cs)

/-! ### Strings -/

/-- The value of a hexadecimal digit. -/
def hexValue? (c : Char) : Option Nat :=
  if '0' ≤ c ∧ c ≤ '9' then some (c.toNat - 48)
  else if 'a' ≤ c ∧ c ≤ 'f' then some (c.toNat - 87)
  else if 'A' ≤ c ∧ c ≤ 'F' then some (c.toNat - 55)
  else none

/-- The number spelled by four hexadecimal digits. -/
def hex4? (a b c d : Char) : Option Nat := do
  let a ← hexValue? a
  let b ← hexValue? b
  let c ← hexValue? c
  let d ← hexValue? d
  return ((a * 16 + b) * 16 + c) * 16 + d

/-- The stop at four bytes that are not hexadecimal digits, or at a text that ends before. -/
def badHex {α : Type} (cs : List Char) : Except Stop α :=
  if byteLength cs < 4 then Fault.endInString.before []
  else .error ⟨.invalidEscape, cs, 4⟩

/-- The character of a one-letter escape. -/
def shortEscape? (c : Char) : Option Char :=
  if c = '"' then some '"'
  else if c = '\\' then some '\\'
  else if c = '/' then some '/'
  else if c = 'b' then some '\x08'
  else if c = 'f' then some '\x0c'
  else if c = 'n' then some '\n'
  else if c = 'r' then some '\r'
  else if c = 't' then some '\t'
  else none

/-- Whether a code unit is the second half of a pair. -/
def isLowSurrogate (n : Nat) : Bool := 0xDC00 ≤ n && n ≤ 0xDFFF

/-- Whether a code unit is the first half of a pair. -/
def isHighSurrogate (n : Nat) : Bool := 0xD800 ≤ n && n ≤ 0xDBFF

/-- The character of a surrogate pair. -/
def pairChar (high low : Nat) : Char :=
  Char.ofNat ((high - 0xD800) * 0x400 + (low - 0xDC00) + 0x10000)

/-- The stop at the text after the first half of a pair that is not an escape. -/
def unpaired {α : Type} : List Char → Except Stop α
  | [] => Fault.endInString.before []
  | '\\' :: [] => Fault.endInString.before []
  | '\\' :: cs => Fault.unexpectedEndOfHexEscape.at cs
  | cs => Fault.unexpectedEndOfHexEscape.at cs

/-- Put a character in front of what a step read. -/
def consStep (c : Char) : Step (List Char) → Step (List Char)
  | .ok (s, rest) => .ok (c :: s, rest)
  | .error e => .error e

/-- Read the characters of a string up to and including its closing quote. -/
def stringChars : List Char → Step (List Char)
  | [] => Fault.endInString.before []
  | c :: cs =>
    if c = '"' then .ok ([], cs)
    else if c = '\\' then
      match cs with
      | [] => Fault.endInString.before []
      | e :: es =>
        if e = 'u' then
          match es with
          | h1 :: h2 :: h3 :: h4 :: rest =>
            match hex4? h1 h2 h3 h4 with
            | none => badHex es
            | some n =>
              if isLowSurrogate n then Fault.loneSurrogate.before rest
              else if isHighSurrogate n then
                match rest with
                | '\\' :: 'u' :: rest' =>
                  match rest' with
                  | l1 :: l2 :: l3 :: l4 :: rest'' =>
                    match hex4? l1 l2 l3 l4 with
                    | none => badHex rest'
                    | some m =>
                      if isLowSurrogate m then consStep (pairChar n m) (stringChars rest'')
                      else Fault.loneSurrogate.before rest''
                  | _ => badHex rest'
                | _ => unpaired rest
              else consStep (Char.ofNat n) (stringChars rest)
          | _ => badHex es
        else
          match shortEscape? e with
          | some d => consStep d (stringChars es)
          | none => Fault.invalidEscape.at (e :: es)
    else if c.toNat < 32 then Fault.controlCharacter.at (c :: cs)
    else consStep c (stringChars cs)

/-- Read a string after its opening quote. -/
def string (cs : List Char) : Step String :=
  match stringChars cs with
  | .ok (s, rest) => .ok (String.ofList s, rest)
  | .error e => .error e

/-! ### Numbers -/

/-- The greatest unsigned integer of 64 bits. -/
def maxSignificand : Nat := 18446744073709551615

/-- The greatest exponent that is read digit by digit. -/
def maxExponentRead : Nat := 2147483647

/-- The digits at the start of a text, and the text after them. -/
def splitDigits : List Char → List Char × List Char
  | [] => ([], [])
  | c :: cs =>
    if Decimal.isDigit c then
      let (ds, rest) := splitDigits cs
      (c :: ds, rest)
    else ([], c :: cs)

/-- Append digits to a significand while it stays within 64 bits: the significand, how many digits
were taken, and whether all were. -/
def extend (significand : Nat) : List Char → Nat × Nat × Bool
  | [] => (significand, 0, true)
  | c :: cs =>
    let next := significand * 10 + (Decimal.digitValue? c).getD 0
    if maxSignificand < next then (significand, 0, false)
    else
      let (s, count, all) := extend next cs
      (s, count + 1, all)

/-- The number of the given parts, in front of `rest`. -/
def scaled (negative : Bool) (significand : Nat) (exponent : Int) (rest : List Char) :
    Step Binary64 :=
  match Binary64.ofScientific significand exponent with
  | some x => .ok (if negative then x.neg else x, rest)
  | none => Fault.numberOutOfRange.before rest

/-- The exponent spelled by digits, or the text in front of the digit that makes it too large. -/
def exponentValue (value : Nat) : List Char → Except (List Char) Nat
  | [] => .ok value
  | c :: cs =>
    let next := value * 10 + (Decimal.digitValue? c).getD 0
    if maxExponentRead < next then .error cs
    else exponentValue next cs

/-- Read the exponent after its letter. -/
def exponent (negative : Bool) (significand : Nat) (start : Int) (cs : List Char) :
    Step Binary64 :=
  let (down, cs) := match cs with
    | '+' :: cs => (false, cs)
    | '-' :: cs => (true, cs)
    | cs => (false, cs)
  match splitDigits cs with
  | ([], []) => Fault.endInValue.before []
  | ([], c :: cs) => Fault.invalidNumber.at (c :: cs)
  | (d :: ds, rest) =>
    match exponentValue 0 (d :: ds) with
    | .ok e => scaled negative significand (if down then start - e else start + e) rest
    | .error left =>
      if significand ≠ 0 ∧ !down then Fault.numberOutOfRange.before (left ++ rest)
      else .ok (.zero negative, rest)

/-- Read the rest of a float whose integer and fraction digits are behind. -/
def afterFraction (negative : Bool) (significand : Nat) (start : Int) (cs : List Char) :
    Step Binary64 :=
  match cs with
  | c :: rest =>
    if c = 'e' ∨ c = 'E' then exponent negative significand start rest
    else scaled negative significand start cs
  | [] => scaled negative significand start []

/-- Read the fraction after its point. -/
def fraction (negative : Bool) (significand : Nat) (start : Int) (cs : List Char) :
    Step Binary64 :=
  match splitDigits cs with
  | ([], []) => Fault.endInValue.before []
  | ([], c :: cs) => Fault.invalidNumber.at (c :: cs)
  | (ds, rest) =>
    let (s, count, _) := extend significand ds
    afterFraction negative s (start - count) rest

/-- The number of an integer literal: within 64 bits an integer, apart from minus zero. -/
def integerNumber (negative : Bool) (n : Nat) : JsonNumber :=
  if negative then
    if n = 0 ∨ 9223372036854775808 < n then .float (Binary64.ofNat n).neg
    else .integer (-(n : Int))
  else .integer n

/-- Turn a step that read a float into one that read a number. -/
def floatStep : Step Binary64 → Step JsonNumber
  | .ok (x, rest) => .ok (.float x, rest)
  | .error e => .error e

/-- Read a number after its sign. -/
def number (negative : Bool) (cs : List Char) : Step JsonNumber :=
  match splitDigits cs with
  | ([], []) => Fault.endInValue.before []
  | ([], c :: cs) => Fault.invalidNumber.at (c :: cs)
  | (d :: ds, rest) =>
    if d = '0' ∧ ds ≠ [] then Fault.invalidNumber.at (ds ++ rest)
    else
      let (s, count, all) := extend 0 (d :: ds)
      let dropped : Int := (ds.length + 1 : Int) - count
      match rest with
      | '.' :: rest => floatStep (fraction negative s dropped rest)
      | c :: rest' =>
        if c = 'e' ∨ c = 'E' then floatStep (exponent negative s dropped rest')
        else if all then .ok (integerNumber negative s, rest)
        else floatStep (scaled negative s dropped rest)
      | [] =>
        if all then .ok (integerNumber negative s, [])
        else floatStep (scaled negative s dropped [])

/-- Read a number with its sign. -/
def signedNumber (cs : List Char) : Step JsonNumber :=
  match cs with
  | '-' :: cs => number true cs
  | cs => number false cs

/-! ### Documents -/

/-- How deep a document may nest, plus one. -/
def nestingLimit : Nat := 128

mutual

/-- Read a document after blanks.  `depth` is how many levels are still allowed, plus one. -/
def value (fuel depth : Nat) (text : List Char) : Step Json :=
  match fuel with
  | 0 => Fault.endInValue.before []
  | fuel + 1 =>
    match skipBlanks text with
    | [] => Fault.endInValue.before []
    | c :: cs =>
      if c = 'n' then word null ['u', 'l', 'l'] cs
      else if c = 't' then word (bool true) ['r', 'u', 'e'] cs
      else if c = 'f' then word (bool false) ['a', 'l', 's', 'e'] cs
      else if c = '-' then
        match number true cs with
        | .ok (n, rest) => .ok (.number n, rest)
        | .error e => .error e
      else if Decimal.isDigit c then
        match number false (c :: cs) with
        | .ok (n, rest) => .ok (.number n, rest)
        | .error e => .error e
      else if c = '"' then
        match string cs with
        | .ok (s, rest) => .ok (.string s, rest)
        | .error e => .error e
      else if c = '[' then
        if depth ≤ 1 then Fault.tooDeep.at (c :: cs)
        else
          match items fuel (depth - 1) true cs with
          | .ok (vs, rest) => .ok (array vs, rest)
          | .error e => .error e
      else if c = '{' then
        if depth ≤ 1 then Fault.tooDeep.at (c :: cs)
        else
          match members fuel (depth - 1) true cs with
          | .ok (ms, rest) => .ok (object (Members.ofList ms), rest)
          | .error e => .error e
      else Fault.expectedValue.at (c :: cs)

/-- Read the items of a list up to its end; `first` says that none was read yet. -/
def items (fuel depth : Nat) (first : Bool) (text : List Char) : Step (List Json) :=
  match fuel with
  | 0 => Fault.endInList.before []
  | fuel + 1 =>
    match skipBlanks text with
    | [] => Fault.endInList.before []
    | c :: cs =>
      if c = ']' then .ok ([], cs)
      else if first then
        match value fuel depth (c :: cs) with
        | .error e => .error e
        | .ok (v, rest) =>
          match items fuel depth false rest with
          | .error e => .error e
          | .ok (vs, rest) => .ok (v :: vs, rest)
      else if c = ',' then
        match skipBlanks cs with
        | [] => Fault.endInValue.before []
        | d :: ds =>
          if d = ']' then Fault.trailingComma.at (d :: ds)
          else
            match value fuel depth (d :: ds) with
            | .error e => .error e
            | .ok (v, rest) =>
              match items fuel depth false rest with
              | .error e => .error e
              | .ok (vs, rest) => .ok (v :: vs, rest)
      else Fault.expectedListCommaOrEnd.at (c :: cs)

/-- Read the members of an object up to its end; `first` says that none was read yet. -/
def members (fuel depth : Nat) (first : Bool) (text : List Char) :
    Step (List (String × Json)) :=
  match fuel with
  | 0 => Fault.endInObject.before []
  | fuel + 1 =>
    match skipBlanks text with
    | [] => Fault.endInObject.before []
    | c :: cs =>
      if c = '}' then .ok ([], cs)
      else if first then
        if c = '"' then member fuel depth cs
        else Fault.keyNotString.at (c :: cs)
      else if c = ',' then
        match skipBlanks cs with
        | [] => Fault.endInValue.before []
        | d :: ds =>
          if d = '"' then member fuel depth ds
          else if d = '}' then Fault.trailingComma.at (d :: ds)
          else Fault.keyNotString.at (d :: ds)
      else Fault.expectedObjectCommaOrEnd.at (c :: cs)

/-- Read a member after the opening quote of its key, and the members after it. -/
def member (fuel depth : Nat) (text : List Char) : Step (List (String × Json)) :=
  match fuel with
  | 0 => Fault.endInObject.before []
  | fuel + 1 =>
    match string text with
    | .error e => .error e
    | .ok (k, rest) =>
      match skipBlanks rest with
      | [] => Fault.endInObject.before []
      | c :: cs =>
        if c = ':' then
          match value fuel depth cs with
          | .error e => .error e
          | .ok (v, rest) =>
            match members fuel depth false rest with
            | .error e => .error e
            | .ok (ms, rest) => .ok ((k, v) :: ms, rest)
        else Fault.expectedColon.at (c :: cs)

end

/-- Check that only blanks are left. -/
def finish (text : List Char) : Except Stop Unit :=
  match skipBlanks text with
  | [] => .ok ()
  | c :: cs => Fault.trailingCharacters.at (c :: cs)

/-- Steps enough to read a text. -/
def steps (text : List Char) : Nat := 4 * text.length + 4

/-- Read a whole text. -/
def document (text : List Char) : Except Stop Json :=
  match value (steps text) nestingLimit text with
  | .error e => .error e
  | .ok (v, rest) =>
    match finish rest with
    | .error e => .error e
    | .ok () => .ok v

end Reader

/-- The document that a text spells. -/
def parse (text : String) : Except SyntaxError Json :=
  (Reader.document text.toList).mapError (Stop.inText text.toList)

end Json

end WorkspaceLint
