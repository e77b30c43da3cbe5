import WorkspaceLint.Number.Binary64

/-!
# JSON documents

A document keeps the members of its objects in the order in which they were first written.  The
members of an object are a list of pairs whose keys differ; `Members.insert` is the only way this
library adds one, and it keeps the position of a key that is already there.
-/

namespace WorkspaceLint

/-- A JSON number: an integer of 64 bits (signed or unsigned), or a binary64 number. -/
inductive JsonNumber where
  | integer (n : Int)
  | float (x : Binary64)
  deriving DecidableEq, Repr, Inhabited

/-- A JSON document. -/
inductive Json where
  | null
  | bool (b : Bool)
  | number (n : JsonNumber)
  | string (s : String)
  | array (items : List Json)
  | object (members : List (String × Json))
  deriving Repr, Inhabited

/-- The members of an object, in order. -/
abbrev Members := List (String × Json)

namespace Members

/-- The value of `key`. -/
def get? (key : String) : Members → Option Json
  | [] => none
  | (k, v) :: rest => if k = key then some v else get? key rest

/-- Whether `key` is present. -/
def contains (key : String) (ms : Members) : Bool := (get? key ms).isSome

/-- Set the value of `key`: in place when it is present, at the end otherwise. -/
def insert (key : String) (value : Json) : Members → Members
  | [] => [(key, value)]
  | (k, v) :: rest => if k = key then (k, value) :: rest else (k, v) :: insert key value rest

/-- The keys, in order. -/
def keys (ms : Members) : List String := ms.map Prod.fst

/-- The members read one after the other: a repeated key keeps its first position and its last
value. -/
def ofList (ms : List (String × Json)) : Members :=
  ms.foldl (fun acc m => insert m.1 m.2 acc) []

end Members

namespace Json

/-- The member `key` of an object; nothing for any other document. -/
def get? (key : String) : Json → Option Json
  | object ms => Members.get? key ms
  | _ => none

/-- The text of a string. -/
def asString? : Json → Option String
  | string s => some s
  | _ => none

/-- The items of an array. -/
def asArray? : Json → Option (List Json)
  | array items => some items
  | _ => none

/-- The members of an object. -/
def asObject? : Json → Option Members
  | object ms => some ms
  | _ => none

/-- An integer as a document. -/
def ofInt (n : Int) : Json := number (.integer n)

/-- A natural number as a document. -/
def ofNat (n : Nat) : Json := number (.integer n)

end Json

end WorkspaceLint
