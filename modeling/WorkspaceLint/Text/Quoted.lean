import WorkspaceLint.Text.EscapedData
import WorkspaceLint.Number.Decimal

/-!
# Quoted text

Text in double quotes, with quotes, backslashes and everything that cannot be seen escaped.
-/

namespace WorkspaceLint

namespace Text

/-- The lower-case hexadecimal digits of a number in front of `acc`. -/
def hexOnto : (fuel : Nat) → (n : Nat) → List Char → List Char
  | 0, _, acc => acc
  | fuel + 1, n, acc =>
    let d := n % 16
    let acc := (if d < 10 then Char.ofNat (48 + d) else Char.ofNat (87 + d)) :: acc
    if n < 16 then acc else hexOnto fuel (n / 16) acc

/-- Whether a character is shown by its number. -/
def isEscaped (c : Char) : Bool :=
  c.toNat < 32 || c.toNat = 127 ||
    (126 < c.toNat && escapedRanges.any fun r => r.1 ≤ c.toNat && c.toNat ≤ r.2)

/-- How a character stands between quotes. -/
def quotedChar (c : Char) : List Char :=
  if c = '\x00' then ['\\', '0']
  else if c = '\t' then ['\\', 't']
  else if c = '\n' then ['\\', 'n']
  else if c = '\r' then ['\\', 'r']
  else if c = '"' then ['\\', '"']
  else if c = '\\' then ['\\', '\\']
  else if isEscaped c then ['\\', 'u', '{'] ++ hexOnto 8 c.toNat ['}']
  else [c]

/-- A text in quotes. -/
def quoted (s : String) : String :=
  String.ofList ('"' :: (s.toList.flatMap quotedChar ++ ['"']))

end Text

end WorkspaceLint
