import WorkspaceLint.Text.Order

/-!
# Paths

A path is a text in which slashes separate components.  It keeps its spelling, which messages and
reports show, while paths are compared and ordered by their components: doubled slashes, `.` inside
a path and slashes at its end do not count.  A leading `.` of a relative path is a component.
-/

namespace WorkspaceLint

/-- A path with its spelling. -/
structure Path where
  text : String
  deriving DecidableEq, Repr, Inhabited

namespace Path

/-- A component of a path. -/
inductive Component where
  | root
  | current
  | parent
  | name (s : String)
  deriving DecidableEq, Repr, Inhabited

/-- The spelling of a component. -/
def Component.text : Component → String
  | root => "/"
  | current => "."
  | parent => ".."
  | name s => s

/-- The parts of a text between its slashes. -/
def splitSlashes : List Char → List (List Char)
  | [] => [[]]
  | c :: cs =>
    if c = '/' then [] :: splitSlashes cs
    else
      match splitSlashes cs with
      | [] => [[c]]
      | seg :: segs => (c :: seg) :: segs

/-- The parts of a path between its slashes. -/
def segments (p : Path) : List String := (splitSlashes p.text.toList).map String.ofList

/-- Whether a path starts at the root. -/
def isAbsolute (p : Path) : Bool := p.text.toList.head? = some '/'

/-- Whether a part of a path names nothing: an empty one or a single dot. -/
def isVoid (segment : String) : Bool := segment = "" || segment = "."

/-- The component that a part of a path spells. -/
def ofSegment (segment : String) : Component :=
  if segment = ".." then .parent else .name segment

/-- The components of parts that follow the start of a path. -/
def named (segments : List String) : List Component :=
  (segments.filter (!isVoid ·)).map ofSegment

/-- The components of a path. -/
def components (p : Path) : List Component :=
  match p.segments with
  | [] => []
  | first :: rest =>
    if p.isAbsolute then .root :: named rest
    else if first = "." then .current :: named rest
    else named (first :: rest)

/-- Whether two paths have the same components. -/
def same (p q : Path) : Bool := p.components = q.components

/-! ### Order -/

/-- The place of a component among the kinds of components. -/
def Component.rank : Component → Nat
  | root => 0
  | current => 1
  | parent => 2
  | name _ => 3

/-- Components by kind, names by their bytes. -/
def Component.before (a b : Component) : Bool :=
  match a, b with
  | name s, name t => Text.before s t
  | _, _ => a.rank < b.rank

/-- The component-wise order. -/
def componentsBefore : List Component → List Component → Bool
  | _, [] => false
  | [], _ :: _ => true
  | a :: as, b :: bs => a.before b || (a = b && componentsBefore as bs)

/-- Whether a path comes before another one. -/
def before (p q : Path) : Bool := componentsBefore p.components q.components

/-- Put a path into an ordered list, unless one with the same components is there. -/
def insertSorted (p : Path) : List Path → List Path
  | [] => [p]
  | q :: qs =>
    if p.before q then p :: q :: qs
    else if p.same q then q :: qs
    else q :: insertSorted p qs

/-! ### Building paths -/

/-- Parts with slashes between them. -/
def joinSegments (segments : List String) : String := "/".intercalate segments

/-- A relative path below `p`; an absolute one replaces `p`. -/
def join (p q : Path) : Path :=
  if q.isAbsolute then q
  else if p.text = "" ∨ p.text.toList.getLast? = some '/' then ⟨p.text ++ q.text⟩
  else ⟨p.text ++ "/" ++ q.text⟩

/-- The entry `name` of a directory. -/
def entry (p : Path) (name : String) : Path := p.join ⟨name⟩

/-- Drop the parts at the end that name nothing. -/
def dropVoidEnd (segments : List String) : List String :=
  (segments.reverse.dropWhile isVoid).reverse

/-- The parts of a path without its last component and what follows it. -/
def dropLastName (segments : List String) : List String :=
  dropVoidEnd (dropVoidEnd segments).dropLast

/-- The path without its last component; the root and the empty path have no parent. -/
def parent? (p : Path) : Option Path :=
  match p.segments with
  | [] => none
  | first :: rest =>
    if p.isAbsolute then
      if dropVoidEnd rest = [] then none
      else
        match dropLastName rest with
        | [] => some ⟨"/"⟩
        | segs => some ⟨joinSegments (first :: segs)⟩
    else if first = "." then
      if dropVoidEnd rest = [] then some ⟨""⟩
      else some ⟨joinSegments (first :: dropLastName rest)⟩
    else if dropVoidEnd (first :: rest) = [] then none
    else some ⟨joinSegments (dropLastName (first :: rest))⟩

/-- A path and everything above it, with `fuel` bounding their number. -/
def ancestorsFrom : (fuel : Nat) → Path → List Path
  | 0, p => [p]
  | fuel + 1, p =>
    match p.parent? with
    | none => [p]
    | some q => p :: ancestorsFrom fuel q

/-- A path and everything above it, nearest first. -/
def ancestors (p : Path) : List Path := ancestorsFrom p.text.length p

/-- Whether `p` is `q` or lies below it. -/
def startsWith (p q : Path) : Bool := q.components.isPrefixOf p.components

/-! ### Normal form -/

/-- The path of the given names, from the root when `absolute`. -/
def ofNames (absolute : Bool) (names : List String) : Path :=
  ⟨(if absolute then "/" else "") ++ joinSegments names⟩

/-- The names that are left when every `..` takes away the name before it, last first. -/
def foldNames (stack : List String) : List Component → List String
  | [] => stack
  | .root :: cs => foldNames stack cs
  | .current :: cs => foldNames stack cs
  | .parent :: cs => foldNames stack.tail cs
  | .name s :: cs => foldNames (s :: stack) cs

/-- The path with `.` dropped, every `..` folded into the name before it and no slash at its end.
Nothing is above the root. -/
def normalize (p : Path) : Path :=
  ofNames p.isAbsolute (foldNames [] p.components).reverse

/-! ### Relative paths -/

/-- The components that lead from `base` to `target`; `moved` says that some were found already.
Nothing leads out of a directory above the start of a relative path. -/
def leadingFrom (moved : Bool) : (target base : List Component) → Option (List Component)
  | [], [] => some []
  | a :: as, [] => some (a :: as)
  | [], _ :: bs => (leadingFrom true [] bs).map (.parent :: ·)
  | a :: as, b :: bs =>
    if !moved && a = b then leadingFrom false as bs
    else if b = .current then (leadingFrom true as bs).map (a :: ·)
    else if b = .parent then none
    else some (.parent :: bs.map (fun _ => .parent) ++ a :: as)

/-- The path that leads from the directory `base` to `target`.  An absolute target is its own
answer when `base` is relative; a relative one has none when `base` is absolute. -/
def relativeTo (target base : Path) : Option Path :=
  if target.isAbsolute = base.isAbsolute then
    (leadingFrom false target.components base.components).map fun cs =>
      ⟨joinSegments (cs.map Component.text)⟩
  else if target.isAbsolute then some target
  else none

end Path

end WorkspaceLint
