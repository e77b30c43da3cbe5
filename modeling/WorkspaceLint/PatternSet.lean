import WorkspaceLint.Glob.Name
import WorkspaceLint.Json.Decoder

/-!
# Sets of name patterns

A list of patterns for package names, of which one is enough for a name to match.
-/

namespace WorkspaceLint

/-- A pattern that cannot be read, and why. -/
structure PatternError where
  pattern : String
  fault : NameGlob.Fault
  deriving DecidableEq, Repr, Inhabited

/-- The wording of a pattern error. -/
def PatternError.message (e : PatternError) : String :=
  "invalid glob pattern '" ++ e.pattern ++ "': error parsing glob '" ++ e.pattern ++ "': " ++
    e.fault.message

/-- Patterns as they were written, and as they are matched. -/
structure PatternSet where
  sources : List String
  globs : List NameGlob
  deriving Repr, Inhabited

namespace PatternSet

/-- The set without any pattern. -/
def empty : PatternSet := ⟨[], []⟩

/-- Read one pattern. -/
def parseOne (source : String) : Except PatternError NameGlob :=
  (NameGlob.parse source).mapError (PatternError.mk source)

/-- Read patterns one by one. -/
def parseAll : List String → Except PatternError (List NameGlob)
  | [] => .ok []
  | s :: ss => do
    let g ← parseOne s
    let gs ← parseAll ss
    return g :: gs

/-- The set of the given patterns, unless one of them cannot be read. -/
def ofList (sources : List String) : Except PatternError PatternSet :=
  (parseAll sources).map (PatternSet.mk sources)

/-- Whether there is no pattern. -/
def isEmpty (s : PatternSet) : Bool := s.sources.isEmpty

/-- The number of patterns. -/
def size (s : PatternSet) : Nat := s.sources.length

/-- Whether some pattern matches a name. -/
def accepts (s : PatternSet) (name : String) : Bool := s.globs.any (·.accepts name)

/-- A list of patterns. -/
def decoder : Json.Decoder PatternSet :=
  (Json.Decoder.list (.string "a string")).refine fun sources =>
    (ofList sources).mapError fun e => .told e.message

end PatternSet

/-- Which packages a rule is for. -/
structure PackageScope where
  included : PatternSet
  excluded : PatternSet
  includeRoot : Bool
  deriving Repr, Inhabited

namespace PackageScope

/-- All members and not the root. -/
def allMembers : PackageScope := ⟨.empty, .empty, false⟩

/-- Whether a member is in scope: its name matches an included pattern, if there are any, and no
excluded one.  A member without a name is in scope when nothing is included by name. -/
def appliesToMember (s : PackageScope) : Option String → Bool
  | some name => (s.included.isEmpty || s.included.accepts name) && !s.excluded.accepts name
  | none => s.included.isEmpty

/-- Whether the workspace root is in scope. -/
def appliesToRoot (s : PackageScope) : Bool := s.includeRoot

end PackageScope

end WorkspaceLint
