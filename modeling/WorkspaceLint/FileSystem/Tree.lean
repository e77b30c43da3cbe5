import WorkspaceLint.FileSystem.Basic

/-!
# Trees in memory

A file system of stored files and created directories.  A directory exists when it was created or
when something is stored or created below it; the root always exists.  Entries are kept in the order
of their paths, under the spelling they were first given.
-/

namespace WorkspaceLint

/-- A tree of files in memory. -/
structure Tree where
  files : List (Path × String)
  dirs : List Path
  deriving DecidableEq, Repr, Inhabited

namespace Tree

/-- The tree without any entry. -/
def empty : Tree := ⟨[], []⟩

/-- The contents of the file at a path. -/
def lookup (path : Path) : List (Path × String) → Option String
  | [] => none
  | (p, contents) :: rest => if p.same path then some contents else lookup path rest

/-- Store contents at a path: under the spelling that is there, or in order under a new one. -/
def store (path : Path) (contents : String) : List (Path × String) → List (Path × String)
  | [] => [(path, contents)]
  | (p, old) :: rest =>
    if path.before p then (path, contents) :: (p, old) :: rest
    else if p.same path then (p, contents) :: rest
    else (p, old) :: store path contents rest

/-- The contents of a file, if it is there. -/
def contents? (t : Tree) (path : Path) : Option String := lookup path t.files

/-- Whether a directory was created at a path. -/
def created (t : Tree) (path : Path) : Bool := t.dirs.any (·.same path)

/-- Whether a path is a directory: the root, one that was created, or one with something stored or
created below it. -/
def dirExists (t : Tree) (path : Path) : Bool :=
  path.parent?.isNone || t.created path ||
    (t.files.any fun f => !f.1.same path && f.1.startsWith path) ||
    (t.dirs.any fun d => d.startsWith path)

/-- Whether the directory of a path exists. -/
def parentExists (t : Tree) (path : Path) : Bool :=
  match path.parent? with
  | none => true
  | some parent => t.dirExists parent

/-- All directories: those created and those above an entry, each once and in order. -/
def allDirs (t : Tree) : List Path :=
  let above := t.dirs.flatMap (·.ancestors) ++
    t.files.flatMap fun f => ((f.1.parent?).map (·.ancestors)).getD []
  above.foldl (fun acc d => d.insertSorted acc) []

/-- The tree with a file stored, whatever else is there. -/
def withFile (t : Tree) (path : Path) (contents : String) : Tree :=
  { t with files := store path contents t.files }

/-- The tree with a directory created, whatever else is there. -/
def withDir (t : Tree) (path : Path) : Tree := { t with dirs := path.insertSorted t.dirs }

/-- Write a file. -/
def write (t : Tree) (path : Path) (contents : String) : Except Trouble Tree :=
  if !t.parentExists path then .error (.refused .write path .noParent)
  else if t.created path then .error (.refused .write path .isDirectory)
  else .ok (t.withFile path contents)

/-- Create a directory.  With `deep` its parents need not exist and it may exist already. -/
def makeDir (t : Tree) (path : Path) (deep : Bool) : Except Trouble Tree :=
  if (t.contents? path).isSome then .error (.refused .create path .fileExists)
  else if !deep && !t.parentExists path then .error (.refused .create path .noParent)
  else if !deep && t.dirExists path then .error (.refused .create path .directoryExists)
  else .ok (t.withDir path)

/-- Remove a file. -/
def remove (t : Tree) (path : Path) : Except Trouble Tree :=
  match t.contents? path with
  | none => .error (.refused .remove path .noSuchFile)
  | some _ => .ok { t with files := t.files.filter fun f => !f.1.same path }

/-- Read a file. -/
def read (t : Tree) (path : Path) : Except Trouble String :=
  match t.contents? path with
  | none => .error (.refused .read path .noSuchFile)
  | some contents => .ok contents

/-- The directories whose spelling matches a pattern below a root. -/
def globDirs (t : Tree) (root : Path) (pattern : String) : Except Trouble (List Path) :=
  let full := DirGlob.rooted root.text pattern
  match DirGlob.parse full with
  | .error fault => .error (.badPattern full fault)
  | .ok g => .ok (t.allDirs.filter fun d => DirGlob.accepts g d.text.toList)

instance : FileSystem Tree where
  contains t path := (t.contents? path).isSome || t.dirExists path
  read := read
  write := write
  makeDir := makeDir
  remove := remove
  globDirs := globDirs

end Tree

end WorkspaceLint
