import WorkspaceLint.FileSystem.Basic
import WorkspaceLint.Report.Basic

/-!
# Findings and their remedies

A rule describes what is wrong in a finding, and may attach a fixer: the changes to files that put
it right.  Every change aims at a fixed state of its file, and a fixer stops at the first change
that fails.
-/

namespace WorkspaceLint

/-- A change to a file system. -/
inductive FixOp where
  | writeJson (path : Path) (value : Json)
  /-- Set one key of a JSON object in a file, as the file is when the change is made. -/
  | setJsonKey (path : Path) (key : String) (value : Json)
  | writeFile (path : Path) (contents : String)
  | createDirs (path : Path)
  | removeFile (path : Path)
  deriving Repr, Inhabited

namespace FixOp

variable {σ : Type} [FileSystem σ]

/-- Make a change. -/
def apply (fs : σ) : FixOp → Except Trouble σ
  | writeJson path value => FileSystem.writeJson fs path value
  | setJsonKey path key value => do
    match ← FileSystem.readJson fs path with
    | .object members => FileSystem.writeJson fs path (.object (Members.insert key value members))
    | _ => .error (.notObject path)
  | writeFile path contents => FileSystem.write fs path contents
  | createDirs path =>
    if FileSystem.contains fs path then .ok fs else FileSystem.makeDir fs path true
  | removeFile path =>
    if FileSystem.contains fs path then FileSystem.remove fs path else .ok fs

end FixOp

/-- Changes to be made in order. -/
structure Fixer where
  ops : List FixOp
  deriving Repr, Inhabited

namespace Fixer

variable {σ : Type} [FileSystem σ]

/-- Make changes in order up to the first that fails: the file system after them, and the trouble
with that one. -/
def applyOps (fs : σ) : List FixOp → σ × Option Trouble
  | [] => (fs, none)
  | op :: ops =>
    match op.apply fs with
    | .ok fs => applyOps fs ops
    | .error trouble => (fs, some trouble)

/-- Apply a fixer. -/
def apply (fixer : Fixer) (fs : σ) : σ × Option Trouble := applyOps fs fixer.ops

end Fixer

/-- Something a rule found wrong with a file. -/
structure Finding where
  file : Path
  message : String
  longMessage : Option String
  fixer : Option Fixer
  deriving Repr, Inhabited

/-- A finding and how serious it is. -/
structure Reported where
  severity : Severity
  finding : Finding
  deriving Repr, Inhabited

end WorkspaceLint
