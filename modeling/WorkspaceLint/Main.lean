import WorkspaceLint.CommandLine.Commands

/-!
# The program

Reads the files below the workspace root, runs the command line on them, and writes back what the
run changed.  Symbolic links are left alone.
-/

namespace WorkspaceLint

namespace Main

/-- The names on an absolute path. -/
def namesOf (path : String) : List String :=
  (Path.mk path).segments.filter (!Path.isVoid ·)

/-- The absolute path of names. -/
def pathOf (names : List String) : String := (Path.ofNames true names).text

/-- What is at a path. -/
def kindAt (path : String) : IO IO.FS.FileType := do
  let here ← IO.currentDir
  return (← (here / path).symlinkMetadata).type

/-- The names in a directory. -/
def entriesAt (path : String) : IO (List String) := do
  let here ← IO.currentDir
  let entries ← (here / path).readDir
  return entries.toList.map (·.fileName)

/-- Add what is at or below a path to a disk.  A file that is not text is taken as an empty one. -/
partial def load (d : Disk) (names : List String) : IO Disk := do
  match ← kindAt (pathOf names) with
  | .dir =>
    let mut d := if d.isDir names then d else { d with dirs := names :: d.dirs }
    for name in ← entriesAt (pathOf names) do
      d ← load d (names ++ [name])
    return d
  | .file =>
    let text ← try IO.FS.readFile (pathOf names) catch _ => pure ""
    return { d with files := (names, text) :: d.files }
  | _ => return d

/-- The directories above some names, without the root. -/
def dirsAbove (names : List String) : List (List String) :=
  (List.range (names.length - 1)).map fun n => names.take (n + 1)

/-- The disk that a command needs: what is at or below its workspace root. -/
def loadFor (here : String) (args : List String) : IO Disk := do
  match CommandLine.Command.parse args with
  | .ok (.check root _ _) =>
    try
      let real ← IO.FS.realPath ((Path.mk here).join root).text
      let names := namesOf real.toString
      let above := dirsAbove names ++ dirsAbove (namesOf here ++ ["."])
      load { Disk.empty with dirs := above.eraseDups } names
    catch _ => return .empty
  | _ => return .empty

/-- Write back what changed. -/
def store (old new : Disk) : IO Unit := do
  for names in new.dirs do
    unless old.isDir names do IO.FS.createDirAll (pathOf names)
  for (names, text) in new.files do
    unless old.file? names = some text do IO.FS.writeFile (pathOf names) text
  for (names, _) in old.files do
    unless (new.file? names).isSome do IO.FS.removeFile (pathOf names)

end Main

end WorkspaceLint

open WorkspaceLint in
def main (args : List String) : IO UInt32 := do
  let here := (← IO.currentDir).toString
  let disk ← Main.loadFor here args
  let response := CommandLine.run disk ⟨here⟩ args
  Main.store disk response.disk
  IO.print response.out
  unless response.complaint.isEmpty do IO.eprintln response.complaint
  return response.code.toUInt32
