import WorkspaceLint.FileSystem.Basic
import WorkspaceLint.Text.Order

/-!
# Disks

A file system of directories and regular files without links, in which a path is resolved component
by component and every step has to go through an existing directory.  Patterns for directories are
expanded component by component as well.
-/

namespace WorkspaceLint

/-- The directories below the root and the regular files of a disk, each under its names from the
root down. -/
structure Disk where
  dirs : List (List String)
  files : List (List String × String)
  deriving DecidableEq, Repr, Inhabited

namespace Disk

/-- The disk with nothing but its root. -/
def empty : Disk := ⟨[], []⟩

/-- Whether there is a directory of the given names. -/
def isDir (d : Disk) (names : List String) : Bool := names.isEmpty || d.dirs.contains names

/-- The contents of the file of the given names. -/
def file? (d : Disk) (names : List String) : Option String := d.files.lookup names

/-- Where a path leads. -/
inductive Target where
  | dir (names : List String)
  | file (names : List String)
  /-- Nothing, but in an existing directory; `asDir` says that the path ends with a slash. -/
  | vacant (names : List String) (asDir : Bool)
  /-- Nothing: a directory on the way is missing, or a file stands in the way. -/
  | missing
  | blocked
  deriving DecidableEq, Repr, Inhabited

/-- Follow the parts of a path from a directory. -/
def follow (d : Disk) (here : List String) : List String → Target
  | [] => .dir here
  | seg :: rest =>
    if Path.isVoid seg then follow d here rest
    else if seg = ".." then follow d here.dropLast rest
    else
      let names := here ++ [seg]
      if d.isDir names then follow d names rest
      else if (d.file? names).isSome then if rest.isEmpty then .file names else .blocked
      else if rest.all (· = "") then .vacant names (!rest.isEmpty)
      else .missing

/-- Where a path leads; a relative path leads nowhere. -/
def resolve (d : Disk) (path : Path) : Target :=
  if path.isAbsolute then follow d [] path.segments else .missing

/-- Whether something is at a path. -/
def contains (d : Disk) (path : Path) : Bool :=
  match d.resolve path with
  | .dir _ | .file _ => true
  | _ => false

/-- Whether a directory is at a path. -/
def isDirAt (d : Disk) (path : Path) : Bool :=
  match d.resolve path with
  | .dir _ => true
  | _ => false

/-- Read a file. -/
def read (d : Disk) (path : Path) : Except Trouble String :=
  match d.resolve path with
  | .file names => .ok ((d.file? names).getD "")
  | .dir _ => .error (.diskRefused .read path .readFile .isDirectory)
  | .blocked => .error (.diskRefused .read path .openFile .notDirectory)
  | .vacant _ _ | .missing => .error (.diskRefused .read path .openFile .notFound)

/-- Set the contents of a file. -/
def setFile (d : Disk) (names : List String) (contents : String) : Disk :=
  if (d.file? names).isSome then
    { d with files := d.files.map fun f => if f.1 = names then (names, contents) else f }
  else { d with files := d.files ++ [(names, contents)] }

/-- Write a file. -/
def write (d : Disk) (path : Path) (contents : String) : Except Trouble Disk :=
  match d.resolve path with
  | .file names | .vacant names false => .ok (d.setFile names contents)
  | .dir _ | .vacant _ true => .error (.diskRefused .write path .createFile .isDirectory)
  | .blocked => .error (.diskRefused .write path .createFile .notDirectory)
  | .missing => .error (.diskRefused .write path .createFile .notFound)

/-- Create one directory. -/
def makeOneDir (d : Disk) (path : Path) : Except DiskRefusal Disk :=
  match d.resolve path with
  | .vacant names _ => .ok { d with dirs := d.dirs ++ [names] }
  | .dir _ | .file _ => .error .exists
  | .blocked => .error .notDirectory
  | .missing => .error .notFound

/-- Create a directory and those above it. -/
def makeDirs : (fuel : Nat) → Disk → Path → Except DiskRefusal Disk
  | 0, _, _ => .error .notFound
  | fuel + 1, d, path =>
    match d.makeOneDir path with
    | .ok d => .ok d
    | .error .notFound =>
      match path.parent? with
      | none => .error .notFound
      | some parent =>
        match makeDirs fuel d parent with
        | .error e => .error e
        | .ok d =>
          match d.makeOneDir path with
          | .ok d => .ok d
          | .error e => if d.isDirAt path then .ok d else .error e
    | .error e => if d.isDirAt path then .ok d else .error e

/-- Create a directory. -/
def makeDir (d : Disk) (path : Path) (deep : Bool) : Except Trouble Disk :=
  (if deep then makeDirs (path.text.length + 1) d path else d.makeOneDir path).mapError
    (.diskRefused .create path .createDirectory)

/-- Remove a file. -/
def remove (d : Disk) (path : Path) : Except Trouble Disk :=
  match d.resolve path with
  | .file names => .ok { d with files := d.files.filter fun f => f.1 ≠ names }
  | .dir _ => .error (.diskRefused .remove path .removeFile .isDirectory)
  | .blocked => .error (.diskRefused .remove path .removeFile .notDirectory)
  | .vacant _ _ | .missing => .error (.diskRefused .remove path .removeFile .notFound)

/-- The absolute path without `.` and `..` of something that exists. -/
def canonical? (d : Disk) (path : Path) : Option Path :=
  match d.resolve path with
  | .dir names | .file names => some (Path.ofNames true names)
  | _ => none

/-! ### Expanding patterns -/

/-- The names in a directory, in order. -/
def entries (d : Disk) (names : List String) : List String :=
  let below (p : List String) : Option String :=
    if p.dropLast = names then p.getLast? else none
  ((d.dirs.filterMap below) ++ (d.files.map Prod.fst).filterMap below).mergeSort fun s t =>
    !Text.before t s

/-- The text of a pattern without wildcards. -/
def plainText? : DirGlob → Option (List Char)
  | [] => some []
  | .literal c :: ts => (plainText? ts).map (c :: ·)
  | _ => none

/-- Whether a pattern component stands for any directories. -/
def isDirs (g : DirGlob) : Bool := g.contains .dirs

/-- Drop the components after the first that stand for any directories too. -/
def dropDirs : List DirGlob → List DirGlob
  | g :: gs => if isDirs g then dropDirs gs else g :: gs
  | [] => []

mutual

/-- The paths below the directory `path` that match the components of a pattern. -/
def expand (d : Disk) (fuel : Nat) (path : Path) (gs : List DirGlob) : List Path :=
  match fuel, gs with
  | 0, _ => []
  | _ + 1, [] => []
  | fuel + 1, g :: gs =>
    match plainText? g with
    | some text =>
      let s := String.ofList text
      let next := path.entry s
      let found := if s = "." ∨ s = ".." then d.isDirAt path else d.contains next
      if !found then []
      else if gs.isEmpty then [next]
      else expand d fuel next gs
    | none =>
      match d.resolve path with
      | .dir names =>
        let special (s : String) : List Path :=
          if g.head? = some (.literal '.') && DirGlob.accepts g s.toList then
            if gs.isEmpty then [path.entry s] else expand d fuel (path.entry s) gs
          else []
        special ".." ++ special "." ++
          (d.entries names).flatMap fun name => visit d fuel (path.entry name) name g gs
      | _ => []

/-- The paths at or below an entry of a directory that match a component and those after it. -/
def visit (d : Disk) (fuel : Nat) (path : Path) (name : String) (g : DirGlob)
    (gs : List DirGlob) : List Path :=
  match fuel with
  | 0 => []
  | fuel + 1 =>
    if isDirs g then
      match dropDirs gs with
      | [] => if d.isDirAt path then path :: expand d fuel path [g] else []
      | next :: rest =>
        visit d fuel path name next rest ++
          if d.isDirAt path then expand d fuel path (g :: next :: rest) else []
    else if DirGlob.accepts g name.toList then
      if gs.isEmpty then [path] else expand d fuel path gs
    else []

end

/-- The parts of a text between its slashes, without an empty last one. -/
def splitTerminated (cs : List Char) : List (List Char) :=
  let segs := Path.splitSlashes cs
  if segs.getLast? = some [] then segs.dropLast else segs

/-- Read the components of a pattern one by one. -/
def componentGlobs : List (List Char) → Except DirGlob.Fault (List DirGlob)
  | [] => .ok []
  | seg :: segs => do
    let g ← DirGlob.parse (String.ofList seg)
    let gs ← componentGlobs segs
    return g :: gs

/-- The directories that match a pattern below a root. -/
def globDirs (d : Disk) (root : Path) (pattern : String) : Except Trouble (List Path) :=
  let full := DirGlob.rooted root.text pattern
  let globs := do
    let _ ← DirGlob.parse full
    componentGlobs (splitTerminated full.toList.tail)
  match globs with
  | .error fault => .error (.badDiskPattern full fault)
  | .ok gs =>
    let steps := 4 * (gs.length + d.dirs.length + d.files.length) + 8
    let found := (expand d steps ⟨"/"⟩ gs).filter d.isDirAt
    .ok (found.mergeSort fun p q => !q.before p)

instance : FileSystem Disk where
  contains := contains
  read := read
  write := write
  makeDir := makeDir
  remove := remove
  globDirs := globDirs

end Disk

end WorkspaceLint
