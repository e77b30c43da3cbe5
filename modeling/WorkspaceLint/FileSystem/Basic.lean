import WorkspaceLint.Trouble
import WorkspaceLint.Json.Printer

/-!
# File systems

The operations that rules, fixers and runs need from a file system.  A file system is a value, and
an operation that changes it gives the changed value or leaves the old one as it was.
-/

namespace WorkspaceLint

/-- The operations of a file system whose states are the values of `σ`. -/
class FileSystem (σ : Type) where
  /-- Whether there is a file or directory at a path. -/
  contains : σ → Path → Bool
  /-- The contents of a file. -/
  read : σ → Path → Except Trouble String
  /-- Write a file whose directory exists. -/
  write : σ → Path → (contents : String) → Except Trouble σ
  /-- Create a directory; with `deep` also those above it, and it may exist already. -/
  makeDir : σ → Path → (deep : Bool) → Except Trouble σ
  /-- Remove a file. -/
  remove : σ → Path → Except Trouble σ
  /-- The directories below a root that match a pattern, in order. -/
  globDirs : σ → (root : Path) → (pattern : String) → Except Trouble (List Path)

namespace FileSystem

variable {σ : Type} [FileSystem σ]

/-- The JSON document in a file. -/
def readJson (fs : σ) (path : Path) : Except Trouble Json := do
  let text ← read fs path
  (Json.parse text).mapError (.notJson path)

/-- Write a JSON document in its canonical text. -/
def writeJson (fs : σ) (path : Path) (value : Json) : Except Trouble σ :=
  write fs path value.canonical

end FileSystem

end WorkspaceLint
