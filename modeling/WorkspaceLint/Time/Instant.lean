import WorkspaceLint.Number.Decimal
import WorkspaceLint.Text.Blank

/-!
# Points in time

A point in time is a day, a second of it and a fraction, in coordinated universal time.  It is read
from a date, a time and an offset, with blanks allowed between the parts, and written with as many
groups of three fraction digits as it needs.
-/

namespace WorkspaceLint

/-- A point in time: days since 1 March of the year 0, the second of the day, and nanoseconds, which
reach past one second in a leap second. -/
structure Instant where
  day : Int
  second : Nat
  nanos : Nat
  deriving DecidableEq, Repr, Inhabited

namespace Instant

/-- Why a text is not a point in time. -/
inductive Fault where
  | outOfRange
  | impossible
  | invalid
  | tooShort
  | tooLong
  deriving DecidableEq, Repr, Inhabited

/-- The wording of a fault. -/
def Fault.message : Fault → String
  | outOfRange => "input is out of range"
  | impossible => "no possible date and time matching input"
  | invalid => "input contains invalid characters"
  | tooShort => "premature end of input"
  | tooLong => "trailing input"

/-! ### The calendar -/

/-- Whether a year has 366 days. -/
def isLeap (y : Int) : Bool := y % 4 = 0 && (y % 100 ≠ 0 || y % 400 = 0)

/-- The number of days of a month. -/
def daysInMonth (y : Int) (m : Nat) : Nat :=
  if m = 2 then if isLeap y then 29 else 28
  else if m = 4 ∨ m = 6 ∨ m = 9 ∨ m = 11 then 30
  else 31

/-- The day of a date.  Years are counted from March on, so that a leap day ends its year. -/
def dayOf (y : Int) (m d : Nat) : Int :=
  let y := if m ≤ 2 then y - 1 else y
  let shifted : Nat := if m ≤ 2 then m + 9 else m - 3
  365 * y + y / 4 - y / 100 + y / 400 + ((153 * shifted + 2) / 5 : Nat) + d - 1

/-- The date of a day. -/
def dateOf (day : Int) : Int × Nat × Nat :=
  let era := day / 146097
  let inEra := (day % 146097).toNat
  let year := (inEra - inEra / 1460 + inEra / 36524 - inEra / 146096) / 365
  let inYear := inEra - (365 * year + year / 4 - year / 100)
  let shifted := (5 * inYear + 2) / 153
  let d := inYear - (153 * shifted + 2) / 5 + 1
  let m := if shifted < 10 then shifted + 3 else shifted - 9
  let y := (year : Int) + era * 400
  (if m ≤ 2 then y + 1 else y, m, d)

/-- The years that a date may have. -/
def yearInRange (y : Int) : Bool := -262143 ≤ y && y ≤ 262142

/-! ### Reading -/

/-- The digits at the start of a text, at most `max` of them, and the text after them. -/
def takeDigits : (max : Nat) → List Char → List Char × List Char
  | 0, cs => ([], cs)
  | _ + 1, [] => ([], [])
  | max + 1, c :: cs =>
    if Decimal.isDigit c then
      let (ds, rest) := takeDigits max cs
      (c :: ds, rest)
    else ([], c :: cs)

/-- Read a number of at least one and at most `max` digits. -/
def number (max : Nat) (cs : List Char) : Except Fault (Nat × List Char) :=
  match takeDigits max cs with
  | ([], []) => .error .tooShort
  | ([], _ :: _) => .error .invalid
  | (ds, rest) =>
    if 9223372036854775807 < Decimal.value ds then .error .outOfRange
    else .ok (Decimal.value ds, rest)

/-- Read a number of two digits after blanks, between two bounds. -/
def bounded (low high : Nat) (cs : List Char) : Except Fault (Nat × List Char) := do
  let (n, rest) ← number 2 (Text.trimStart cs)
  if n < low ∨ high < n then .error .outOfRange else return (n, rest)

/-- Read a year after blanks: four digits, or any number of them after a sign. -/
def year (cs : List Char) : Except Fault (Int × List Char) := do
  let cs := Text.trimStart cs
  let (y, rest) ← (match cs with
    | '-' :: ds => do
      let (n, rest) ← number ds.length ds
      return (-(n : Int), rest)
    | '+' :: ds => do
      let (n, rest) ← number ds.length ds
      return ((n : Int), rest)
    | _ => do
      let (n, rest) ← number 4 cs
      return ((n : Int), rest) : Except Fault (Int × List Char))
  if y < -2147483648 ∨ 2147483647 < y then .error .outOfRange else return (y, rest)

/-- Read a mark after blanks. -/
def mark (c : Char) (cs : List Char) : Except Fault (List Char) :=
  match Text.trimStart cs with
  | [] => .error .tooShort
  | d :: rest => if d = c then .ok rest else .error .invalid

/-- Read the fraction of a second, if there is one; digits after the ninth do not count. -/
def fraction : List Char → Except Fault (Nat × List Char)
  | '.' :: cs => do
    let (ds, rest) := takeDigits 9 cs
    let (n, _) ← number 9 cs
    return (n * Nat.pow 10 (9 - ds.length), rest.dropWhile Decimal.isDigit)
  | cs => .ok (0, cs)

/-- Read two digits. -/
def twoDigits : List Char → Except Fault (Nat × Nat × List Char)
  | a :: b :: rest =>
    match Decimal.digitValue? a, Decimal.digitValue? b with
    | some x, some y => .ok (x, y, rest)
    | _, _ => .error .invalid
  | [c] => if c.utf8Size = 1 then .error .tooShort else .error .invalid
  | [] => .error .tooShort

/-- Read an offset of hours and minutes, in seconds. -/
def offset (cs : List Char) : Except Fault (Int × List Char) :=
  match cs with
  | [] => .error .tooShort
  | c :: rest =>
    if c = 'Z' ∨ c = 'z' then .ok (0, rest)
    else if c = '+' ∨ c = '-' ∨ c = '−' then do
      let (h1, h2, rest) ← twoDigits rest
      let rest := rest.dropWhile fun d => d = ':' || Text.isBlank d
      let (m1, m2, rest) ← twoDigits rest
      if 5 < m1 then .error .outOfRange
      else
        let seconds : Int := ((h1 * 10 + h2) * 60 + (m1 * 10 + m2)) * 60
        return (if c = '+' then seconds else -seconds, rest)
    else .error .invalid

/-- Read an offset after blanks, which may be the letters `UTC`. -/
def zone (cs : List Char) : Except Fault (Int × List Char) :=
  match Text.trimStart cs with
  | a :: b :: c :: rest =>
    if a.toLower = 'u' ∧ b.toLower = 't' ∧ c.toLower = 'c' then .ok (0, rest)
    else offset (a :: b :: c :: rest)
  | cs => offset cs

/-- The letter or blank between a date and a time. -/
def separator : List Char → Except Fault (List Char)
  | [] => .error .tooShort
  | c :: cs => if c = 't' ∨ c = 'T' ∨ c = ' ' then .ok cs else .error .invalid

/-- Read a point in time. -/
def parseChars (cs : List Char) : Except Fault Instant := do
  let (y, cs) ← year cs
  let cs ← mark '-' cs
  let (m, cs) ← bounded 1 12 cs
  let cs ← mark '-' cs
  let (d, cs) ← bounded 1 31 cs
  let cs ← separator cs
  let (hour, cs) ← bounded 0 23 cs
  let cs ← mark ':' cs
  let (minute, cs) ← bounded 0 59 cs
  let cs ← mark ':' cs
  let (second, cs) ← bounded 0 60 cs
  let (nanos, cs) ← fraction cs
  let (shift, cs) ← zone cs
  if !(Text.trimStart cs).isEmpty then .error .tooLong
  else if !yearInRange y || daysInMonth y m < d then .error .outOfRange
  else if 86400 ≤ shift.natAbs then .error .outOfRange
  else
    let leap := second = 60
    let wall : Int := (hour * 60 + minute) * 60 + (if leap then 59 else second)
    let total := dayOf y m d * 86400 + wall - shift
    let day := total / 86400
    if !yearInRange (dateOf day).1 then .error .impossible
    else return ⟨day, (total % 86400).toNat, if leap then nanos + 1000000000 else nanos⟩

/-- Read a point in time. -/
def parse (text : String) : Except Fault Instant := parseChars text.toList

/-! ### Writing -/

/-- A year with four digits, and with a sign when it needs more or is negative. -/
def yearChars (y : Int) : List Char :=
  if 0 ≤ y ∧ y ≤ 9999 then Decimal.padded 4 y.toNat
  else (if y < 0 then '-' else '+') :: Decimal.padded 4 y.natAbs

/-- The fraction of a second in groups of three digits. -/
def fractionChars (nanos : Nat) : List Char :=
  if nanos = 0 then []
  else if nanos % 1000000 = 0 then '.' :: Decimal.padded 3 (nanos / 1000000)
  else if nanos % 1000 = 0 then '.' :: Decimal.padded 6 (nanos / 1000)
  else '.' :: Decimal.padded 9 nanos

/-- The written form of a point in time. -/
def chars (t : Instant) : List Char :=
  let (y, m, d) := dateOf t.day
  let leap := 1000000000 ≤ t.nanos
  let second := t.second % 60 + (if leap then 1 else 0)
  yearChars y ++ '-' :: Decimal.padded 2 m ++ '-' :: Decimal.padded 2 d ++
    'T' :: Decimal.padded 2 (t.second / 3600) ++ ':' :: Decimal.padded 2 (t.second / 60 % 60) ++
    ':' :: Decimal.padded 2 second ++
    fractionChars (if leap then t.nanos - 1000000000 else t.nanos) ++ ['Z']

/-- The written form of a point in time. -/
def text (t : Instant) : String := String.ofList t.chars

end Instant

end WorkspaceLint
