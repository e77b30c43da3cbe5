import WorkspaceLint.Time.Instant
import WorkspaceLint.Toml.Basic

/-!
# TOML numbers, dates and times

The scalars that are written without quotes.  Underscores may stand between the digits of a number.
-/

namespace WorkspaceLint

namespace Toml

/-! ### Numbers -/

/-- The digits of a text that has nothing but digits, and single underscores between them. -/
def digits? (isDigit : Char → Bool) : List Char → Option (List Char)
  | [] => none
  | [c] => if isDigit c then some [c] else none
  | c :: '_' :: cs => if isDigit c then (digits? isDigit cs).map (c :: ·) else none
  | c :: cs => if isDigit c then (digits? isDigit cs).map (c :: ·) else none

/-- The value of a digit, where the letters of either case follow the decimal digits. -/
def digitValue (c : Char) : Nat :=
  match Decimal.digitValue? c with
  | some d => d
  | none => c.toLower.toNat - 'a'.toNat + 10

/-- Whether a character is a digit of a base of at most sixteen. -/
def isDigitOf (base : Nat) (c : Char) : Bool :=
  (Decimal.isDigit c || ('a' ≤ c.toLower && c.toLower ≤ 'f')) && digitValue c < base

/-- A numeral in a base of at most sixteen. -/
def numeral? (base : Nat) (cs : List Char) : Option Nat :=
  (digits? (isDigitOf base) cs).map fun ds => ds.foldl (fun n c => base * n + digitValue c) 0

/-- The digits of a decimal numeral without leading zeros. -/
def plainDigits? (cs : List Char) : Option (List Char) := do
  let ds ← digits? Decimal.isDigit cs
  if ds.head? = some '0' ∧ ds.length ≠ 1 then none else some ds

/-- Whether a text has a minus sign, and what follows its sign. -/
def splitSign : List Char → Bool × List Char
  | '-' :: cs => (true, cs)
  | '+' :: cs => (false, cs)
  | cs => (false, cs)

/-- A decimal integer with its sign. -/
def signedInteger? (cs : List Char) : Option Int := do
  let (negative, cs) := splitSign cs
  let n := Decimal.value (← plainDigits? cs)
  return if negative then -(n : Int) else n

/-- An integer: decimal, or of base sixteen, eight or two after a mark. -/
def integer? : List Char → Option Int
  | '0' :: 'x' :: cs => (numeral? 16 cs).map Int.ofNat
  | '0' :: 'o' :: cs => (numeral? 8 cs).map Int.ofNat
  | '0' :: 'b' :: cs => (numeral? 2 cs).map Int.ofNat
  | cs => signedInteger? cs

/-- The exponent after its letter. -/
def exponent? (cs : List Char) : Option Int := do
  let (negative, cs) := splitSign cs
  let n := Decimal.value (← digits? Decimal.isDigit cs)
  return if negative then -(n : Int) else n

/-- The text before and after the first character that `p` holds of; nothing if there is none. -/
def splitAt? (p : Char → Bool) (cs : List Char) : Option (List Char × List Char) :=
  match cs.span (!p ·) with
  | (_, []) => none
  | (before, _ :: after) => some (before, after)

/-- Whether a character marks an exponent. -/
def isExponentMark (c : Char) : Bool := c = 'e' || c = 'E'

/-- A fraction and an exponent, of which one may be missing: the digits of the fraction and the
value of the exponent. -/
def scale? (cs : List Char) : Option (List Char × Int) :=
  match cs with
  | '.' :: cs =>
    match splitAt? isExponentMark cs with
    | some (fraction, after) => do return (← digits? Decimal.isDigit fraction, ← exponent? after)
    | none => do return (← digits? Decimal.isDigit cs, 0)
  | c :: cs => if isExponentMark c then do return ([], ← exponent? cs) else none
  | [] => none

/-- The largest number of digits in front of the point that a number in range has. -/
def maxMagnitude : Int := 310

/-- The number nearest to `significand · 10 ^ exponent`. -/
def realOf (negative : Bool) (significand : Nat) (exponent : Int) : TomlReal :=
  let magnitude := (Decimal.digits significand).length + exponent
  if significand = 0 then .finite (.zero negative)
  else if maxMagnitude < magnitude then .tooLarge
  else if magnitude < -2 * maxMagnitude then .finite (.zero negative)
  else
    match Binary64.nearestScientific significand exponent with
    | some x => .finite (if negative then x.neg else x)
    | none => .tooLarge

/-- A number with a fraction or an exponent, an infinity, or not a number. -/
def real? (cs : List Char) : Option TomlReal := do
  let (negative, cs) := splitSign cs
  if cs = ['i', 'n', 'f'] ∨ cs = ['n', 'a', 'n'] then return .special
  let (whole, rest) := cs.span fun c => c ≠ '.' && !isExponentMark c
  let whole ← plainDigits? whole
  let (fraction, exponent) ← scale? rest
  return realOf negative (Decimal.value (whole ++ fraction)) (exponent - fraction.length)

/-! ### Dates and times -/

/-- Read a number of exactly `width` digits. -/
def fixed? (width : Nat) (cs : List Char) : Option (Nat × List Char) :=
  let (ds, rest) := Instant.takeDigits width cs
  if ds.length = width then some (Decimal.value ds, rest) else none

/-- Read a mark. -/
def mark? (c : Char) : List Char → Option (List Char)
  | d :: cs => if d = c then some cs else none
  | [] => none

/-- Read a date, and write it in normal form. -/
def date? (cs : List Char) : Option (List Char × List Char) := do
  let (y, cs) ← fixed? 4 cs
  let cs ← mark? '-' cs
  let (m, cs) ← fixed? 2 cs
  let cs ← mark? '-' cs
  let (d, cs) ← fixed? 2 cs
  if m = 0 ∨ 12 < m ∨ d = 0 ∨ Instant.daysInMonth y m < d then none
  else return (Decimal.padded 4 y ++ '-' :: Decimal.padded 2 m ++ '-' :: Decimal.padded 2 d, cs)

/-- Read a number of two digits that is at most `high`. -/
def upTo? (high : Nat) (cs : List Char) : Option (Nat × List Char) := do
  let (n, cs) ← fixed? 2 cs
  if high < n then none else return (n, cs)

/-- Read the fraction of a second, if there is one, and write it without zeros at its end; digits
after the ninth do not count. -/
def fraction? : List Char → Option (List Char × List Char)
  | '.' :: cs =>
    match cs.span Decimal.isDigit with
    | ([], _) => none
    | (ds, rest) =>
      match ((ds.take 9).reverse.dropWhile (· = '0')).reverse with
      | [] => some ([], rest)
      | kept => some ('.' :: kept, rest)
  | cs => some ([], cs)

/-- Read the seconds of a time, which are zero when they are left out. -/
def seconds? : List Char → Option (List Char × List Char)
  | ':' :: cs => do
    let (s, cs) ← upTo? 60 cs
    let (fraction, cs) ← fraction? cs
    return (Decimal.padded 2 s ++ fraction, cs)
  | cs => some (['0', '0'], cs)

/-- Read a time, and write it in normal form. -/
def time? (cs : List Char) : Option (List Char × List Char) := do
  let (hour, cs) ← upTo? 23 cs
  let cs ← mark? ':' cs
  let (minute, cs) ← upTo? 59 cs
  let (seconds, cs) ← seconds? cs
  return (Decimal.padded 2 hour ++ ':' :: Decimal.padded 2 minute ++ ':' :: seconds, cs)

/-- Read a whole offset, if there is one, and write it in normal form: no offset has a minus sign
without being less than zero. -/
def offset? : List Char → Option (List Char)
  | [] => some []
  | [c] => if c = 'Z' ∨ c = 'z' then some ['Z'] else none
  | c :: cs => do
    let (hours, cs) ← upTo? 23 cs
    let cs ← mark? ':' cs
    let (minutes, cs) ← upTo? 59 cs
    if !cs.isEmpty ∨ (c ≠ '+' ∧ c ≠ '-') then none
    else
      let sign := if c = '-' ∧ (hours ≠ 0 ∨ minutes ≠ 0) then '-' else '+'
      return sign :: (Decimal.padded 2 hours ++ ':' :: Decimal.padded 2 minutes)

/-- A date, a time, or a date and a time with or without an offset, in normal form. -/
def moment? (cs : List Char) : Option (List Char) :=
  match date? cs with
  | some (date, []) => some date
  | some (date, c :: cs) =>
    if c = 'T' ∨ c = 't' ∨ c = ' ' then do
      let (time, cs) ← time? cs
      let offset ← offset? cs
      return date ++ 'T' :: time ++ offset
    else none
  | none =>
    match time? cs with
    | some (time, []) => some time
    | _ => none

/-! ### Scalars -/

/-- The scalar that a text without quotes is. -/
def scalar? (cs : List Char) : Option Toml :=
  if cs = ['t', 'r', 'u', 'e'] then some (.boolean true)
  else if cs = ['f', 'a', 'l', 's', 'e'] then some (.boolean false)
  else
    match integer? cs, real? cs, moment? cs with
    | some n, _, _ => some (.integer n)
    | none, some x, _ => some (.real x)
    | none, none, some text => some (.moment (String.ofList text))
    | none, none, none => none

end Toml

end WorkspaceLint
