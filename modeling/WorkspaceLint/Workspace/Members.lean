import WorkspaceLint.FileSystem.Basic
import WorkspaceLint.Manifest

/-!
# Members of a workspace

The manifest of a workspace root declares patterns for the directories of its members.  They are
taken in order: a pattern adds the directories it matches, and a pattern after `!` takes away those
found so far that it matches.
-/

namespace WorkspaceLint

/-- The manifest of the package in a directory. -/
def Path.manifest (dir : Path) : Path := dir.entry manifestFile

/-- Whether a list has a path with the same components. -/
def Path.isIn (p : Path) (ps : List Path) : Bool := ps.any (·.same p)

namespace Workspace

/-- The pattern after an exclamation mark. -/
def negated? (declared : String) : Option String :=
  match declared.toList with
  | '!' :: cs => some (String.ofList cs)
  | _ => none

section

variable {σ : Type} [FileSystem σ]

/-- Add the directories that have a manifest and were not found before. -/
def addFound (fs : σ) (found : List Path) : List Path → List Path
  | [] => found
  | dir :: dirs =>
    if dir.isIn found || !FileSystem.contains fs dir.manifest then addFound fs found dirs
    else addFound fs (found ++ [dir]) dirs

/-- The directories that a pattern does not match. -/
def removeMatched (g : DirGlob) (found : List Path) : List Path :=
  found.filter fun dir => !DirGlob.accepts g dir.text.toList

/-- The directories found after one more declared pattern. -/
def declare (fs : σ) (root : Path) (found : List Path) (declared : String) :
    Except Trouble (List Path) :=
  match negated? declared with
  | some pattern =>
    match DirGlob.parse (DirGlob.rooted root.text pattern) with
    | .error fault => .error (.badDeclaration declared fault)
    | .ok g => .ok (removeMatched g found)
  | none => (FileSystem.globDirs fs root declared).map (addFound fs found)

/-- The directories found after the declared patterns. -/
def declareAll (fs : σ) (root : Path) (found : List Path) :
    List String → Except Trouble (List Path)
  | [] => .ok found
  | declared :: rest => do
    let found ← declare fs root found declared
    declareAll fs root found rest

/-- The directories of the members of a workspace, in the order of its patterns. -/
def memberDirs (fs : σ) (root : Path) : Except Trouble (List Path) := do
  let manifest ← (FileSystem.readJson fs root.manifest).mapError
    (.reading .workspaceManifest root.manifest)
  declareAll fs root [] (Manifest.workspaceGlobs manifest)

/-- The name of the package in a directory, if its manifest can be read and has one. -/
def nameAt? (fs : σ) (dir : Path) : Option String :=
  match FileSystem.readJson fs dir.manifest with
  | .ok manifest => (manifest.get? "name").bind Json.asString?
  | .error _ => none

/-- Extend names with those of more directories; the first directory of a name keeps it. -/
def addNames (fs : σ) (names : List (String × Path)) : List Path → List (String × Path)
  | [] => names
  | dir :: dirs =>
    match nameAt? fs dir with
    | some name =>
      if (names.lookup name).isSome then addNames fs names dirs
      else addNames fs (names ++ [(name, dir)]) dirs
    | none => addNames fs names dirs

/-- The names of the packages in the given directories, each with the first directory that has
it. -/
def memberNames (fs : σ) (dirs : List Path) : List (String × Path) := addNames fs [] dirs

end

end Workspace

end WorkspaceLint
