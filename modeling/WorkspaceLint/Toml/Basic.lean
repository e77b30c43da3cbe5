import WorkspaceLint.Json.Basic
import WorkspaceLint.Text.Order

/-!
# TOML values

The values of a TOML document, and the JSON documents they stand for.  Dates and times keep their
text in a normal form.  A number may be too large to be used; that is found out when the value is
needed, and not while the document is read.
-/

namespace WorkspaceLint

/-- A number with a fraction or an exponent. -/
inductive TomlReal where
  | finite (x : Binary64)
  /-- An infinity that was written as such, or not a number. -/
  | special
  /-- A numeral beyond the range of numbers. -/
  | tooLarge
  deriving DecidableEq, Repr, Inhabited

/-- A TOML value. -/
inductive Toml where
  | string (s : String)
  | integer (n : Int)
  | real (x : TomlReal)
  | boolean (b : Bool)
  /-- A date, a time or both, in normal form. -/
  | moment (text : String)
  | array (items : List Toml)
  | table (entries : List (String × Toml))
  deriving Repr, Inhabited

namespace Toml

/-- Whether an integer has at most 128 bits. -/
def isUsable (n : Int) : Bool := -(Nat.pow 2 127 : Nat) ≤ n && n < (Nat.pow 2 128 : Nat)

/-- Whether an integer has at most 64 bits. -/
def isShort (n : Int) : Bool := -(Nat.pow 2 63 : Nat) ≤ n && n < (Nat.pow 2 64 : Nat)

/-- The key under which the text of a date or time stands in a JSON object. -/
def momentKey : String := "$__toml_private_datetime"

mutual

/-- Whether every number in a value can be used. -/
def usable : Toml → Bool
  | integer n => isUsable n
  | real .tooLarge => false
  | array items => allUsable items
  | table entries => entriesUsable entries
  | _ => true

/-- Whether every number in some values can be used. -/
def allUsable : List Toml → Bool
  | [] => true
  | v :: vs => usable v && allUsable vs

/-- Whether every number in the values of some entries can be used. -/
def entriesUsable : List (String × Toml) → Bool
  | [] => true
  | (_, v) :: rest => usable v && entriesUsable rest

end

mutual

/-- The JSON document of a value: tables have their keys in order, and numbers that JSON does not
have become `null`.  Integers have at most 64 bits. -/
def toJson? : Toml → Option Json
  | string s => some (.string s)
  | integer n => if isShort n then some (Json.ofInt n) else none
  | real (.finite x) => some (.number (.float x))
  | real .special => some .null
  | real .tooLarge => none
  | boolean b => some (.bool b)
  | moment text => some (.object [(momentKey, .string text)])
  | array items => (itemsToJson? items).map .array
  | table entries =>
    (entriesToJson? entries).map fun ms => .object (ms.mergeSort fun a b => !Text.before b.1 a.1)

/-- The JSON documents of values. -/
def itemsToJson? : List Toml → Option (List Json)
  | [] => some []
  | v :: vs => do
    let j ← toJson? v
    let js ← itemsToJson? vs
    return j :: js

/-- The JSON documents of the values of entries. -/
def entriesToJson? : List (String × Toml) → Option (List (String × Json))
  | [] => some []
  | (key, v) :: rest => do
    let j ← toJson? v
    let js ← entriesToJson? rest
    return (key, j) :: js

end

end Toml

end WorkspaceLint
