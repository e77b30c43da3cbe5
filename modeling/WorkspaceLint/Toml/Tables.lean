import WorkspaceLint.Toml.Basic

/-!
# TOML tables

How a document builds up its tables.  A table comes about by its own header, or on the way to
something below it: to another header, or to a key with dots.  A table may be opened once by its own
header, keys with dots may not reach into a table that has a header, and nothing is added to a table
or array that was written as a value.
-/

namespace WorkspaceLint

namespace Toml

/-- How a table came about. -/
inductive TableKind where
  /-- By its own header, or as the whole document. -/
  | opened
  /-- On the way to the header of a table below it. -/
  | implied
  /-- By a key with dots. -/
  | dotted
  deriving DecidableEq, Repr, Inhabited

/-- What a key stands for while the document is read. -/
inductive Node where
  /-- A value that nothing is added to. -/
  | value (v : Toml)
  | table (kind : TableKind) (entries : List (String × Node))
  /-- Tables with the same header, and the last of them. -/
  | tables (before : List (List (String × Node))) (last : List (String × Node))
  deriving Repr, Inhabited

/-- The entries of a table while the document is read. -/
abbrev Entries := List (String × Node)

namespace Entries

/-- The node of a key. -/
def get? (key : String) : Entries → Option Node
  | [] => none
  | (k, n) :: rest => if k = key then some n else get? key rest

/-- Set the node of a key. -/
def set (key : String) (node : Node) : Entries → Entries
  | [] => [(key, node)]
  | (k, n) :: rest => if k = key then (k, node) :: rest else (k, n) :: set key node rest

/-- Change the entries of the table that a path leads to, given how that table came about.  Tables
that are missing on the way are made; with `dotted` the way does not lead through a table that was
opened by a header. -/
def update (dotted : Bool) (change : TableKind → Entries → Option Entries) :
    List String → TableKind → Entries → Option Entries
  | [], kind, entries => change kind entries
  | key :: path, _, entries =>
    match get? key entries with
    | none => do
      let kind := if dotted then TableKind.dotted else .implied
      let inner ← update dotted change path kind []
      return set key (.table kind inner) entries
    | some (.table kind inner) =>
      if dotted ∧ kind = .opened then none
      else do
        let inner ← update dotted change path kind inner
        return set key (.table kind inner) entries
    | some (.tables before last) => do
      let last ← update dotted change path .opened last
      return set key (.tables before last) entries
    | some (.value _) => none

/-- Add a new key to a table that came about in the right way. -/
def addKey (dotted : Bool) (key : String) (v : Toml) (kind : TableKind) (entries : Entries) :
    Option Entries :=
  if dotted ≠ (kind = .dotted : Bool) ∨ (get? key entries).isSome then none
  else some (set key (.value v) entries)

/-- Add a value under a key with the parts `path` before its last one. -/
def add (path : List String) (key : String) (v : Toml) (entries : Entries) : Option Entries :=
  update (!path.isEmpty) (addKey (!path.isEmpty) key v) path .opened entries

end Entries

mutual

/-- The value of a node. -/
def Node.toToml : Node → Toml
  | value v => v
  | table _ entries => .table (Node.entriesToToml entries)
  | tables before last =>
    .array (Node.tablesToToml before ++ [.table (Node.entriesToToml last)])

/-- The values of entries. -/
def Node.entriesToToml : List (String × Node) → List (String × Toml)
  | [] => []
  | (key, n) :: rest => (key, Node.toToml n) :: Node.entriesToToml rest

/-- The values of tables. -/
def Node.tablesToToml : List (List (String × Node)) → List Toml
  | [] => []
  | t :: ts => .table (Node.entriesToToml t) :: Node.tablesToToml ts

end

/-- A key with a value, where `path` holds the parts of the key before the last one. -/
structure Pair where
  path : List String
  key : String
  value : Toml
  deriving Repr, Inhabited

/-- Add pairs to a table in order. -/
def Entries.addAll (entries : Entries) : List Pair → Option Entries
  | [] => some entries
  | p :: ps => do
    let entries ← entries.add p.path p.key p.value
    Entries.addAll entries ps

/-- A header: a table, or one more table of an array. -/
structure Header where
  repeated : Bool
  path : List String
  key : String
  deriving DecidableEq, Repr, Inhabited

namespace Header

/-- The entries that a table has before its header is read: those it got on the way to headers below
it. -/
def entriesBefore (h : Header) (root : Entries) : Option Entries :=
  if h.repeated then some []
  else
    let found : TableKind → Entries → Option Entries := fun _ entries =>
      match Entries.get? h.key entries with
      | none => some []
      | some (.table .implied inner) => some inner
      | some _ => none
    reach root h.path found
where
  /-- Look at the table that a path leads to. -/
  reach (entries : Entries) : List String → (TableKind → Entries → Option Entries) → Option Entries
    | [], found => found .opened entries
    | key :: path, found =>
      match Entries.get? key entries with
      | none => some []
      | some (.table _ inner) => reach inner path found
      | some (.tables _ last) => reach last path found
      | some (.value _) => none

/-- Put the entries of the table of a header in their place. -/
def place (h : Header) (inner : Entries) (root : Entries) : Option Entries :=
  let change : TableKind → Entries → Option Entries := fun _ entries =>
    if h.repeated then
      match Entries.get? h.key entries with
      | none => some (Entries.set h.key (.tables [] inner) entries)
      | some (.tables before last) =>
        some (Entries.set h.key (.tables (before ++ [last]) inner) entries)
      | some _ => none
    else some (Entries.set h.key (.table .opened inner) entries)
  Entries.update false change h.path .opened root

end Header

/-- A header with the pairs below it. -/
structure Section where
  header : Header
  pairs : List Pair
  deriving Repr, Inhabited

/-- Add sections to a document in order. -/
def Entries.addSections (root : Entries) : List Section → Option Entries
  | [] => some root
  | s :: ss => do
    let before ← s.header.entriesBefore root
    let inner ← before.addAll s.pairs
    let root ← s.header.place inner root
    Entries.addSections root ss

end Toml

end WorkspaceLint
