import WorkspaceLint.Json.Basic

/-!
# Package manifests

The manifest of a package is a JSON object with a name and blocks of dependencies.
-/

namespace WorkspaceLint

/-- The file that holds the manifest of a package. -/
def manifestFile : String := "package.json"

/-- A block of dependencies. -/
inductive DependencyKind where
  | dependencies
  | devDependencies
  | peerDependencies
  deriving DecidableEq, Repr, Inhabited

namespace DependencyKind

/-- All blocks. -/
def all : List DependencyKind := [dependencies, devDependencies, peerDependencies]

/-- The key of a block. -/
def key : DependencyKind → String
  | dependencies => "dependencies"
  | devDependencies => "devDependencies"
  | peerDependencies => "peerDependencies"

/-- The block of a key. -/
def ofKey? (key : String) : Option DependencyKind := all.find? fun kind => kind.key = key

end DependencyKind

/-- The manifest of a package: the members of its object. -/
structure Manifest where
  members : Members
  deriving Repr, Inhabited

namespace Manifest

/-- What a document is, with its article. -/
def describe : Json → String
  | .null => "null"
  | .bool _ => "a boolean"
  | .number _ => "a number"
  | .string _ => "a string"
  | .array _ => "an array"
  | .object _ => "an object"

/-- A document that is not a manifest, since it is not an object. -/
structure NotObject where
  /-- What the document is. -/
  found : String
  deriving DecidableEq, Repr, Inhabited

/-- The wording for a document that is not a manifest. -/
def NotObject.message (e : NotObject) : String := "expected a JSON object, found " ++ e.found

/-- The manifest that a document holds. -/
def ofJson : Json → Except NotObject Manifest
  | .object ms => .ok ⟨ms⟩
  | v => .error ⟨describe v⟩

/-- The manifest as a document. -/
def toJson (m : Manifest) : Json := .object m.members

/-- The name of the package. -/
def name? (m : Manifest) : Option String := (Members.get? "name" m.members).bind Json.asString?

/-- A block of dependencies, if it is there and an object. -/
def block? (m : Manifest) (kind : DependencyKind) : Option Members :=
  (Members.get? kind.key m.members).bind Json.asObject?

/-- The names in the given blocks, each where it first occurs. -/
def dependencyNames (m : Manifest) (kinds : List DependencyKind) : List String :=
  (kinds.flatMap fun kind => Members.keys ((m.block? kind).getD [])).eraseDups

/-- The patterns for the directories of members that a document declares, in order: an array of
them, or one in an object. -/
def workspaceGlobs (v : Json) : List String :=
  let declared := match v.get? "workspaces" with
    | some (.object ms) => Members.get? "packages" ms
    | other => other
  ((declared.bind Json.asArray?).getD []).filterMap Json.asString?

end Manifest

end WorkspaceLint
