import WorkspaceLint.Path
import WorkspaceLint.Json.Reader
import WorkspaceLint.Glob.Directory

/-!
# Trouble with files

What can go wrong while files are read, written and enumerated.  A trouble may wrap the trouble that
caused it; its wording is the chain of all of them, outermost first.
-/

namespace WorkspaceLint

/-- What was to be done with a file or directory. -/
inductive FileAction where
  | read
  | write
  | create
  | remove
  deriving DecidableEq, Repr, Inhabited

/-- The verb of an action. -/
def FileAction.verb : FileAction → String
  | read => "read"
  | write => "write"
  | create => "create"
  | remove => "remove"

/-- Why a tree in memory refuses an action. -/
inductive Refusal where
  | noSuchFile
  | noParent
  | isDirectory
  | fileExists
  | directoryExists
  deriving DecidableEq, Repr, Inhabited

/-- The wording of a refusal. -/
def Refusal.message : Refusal → String
  | noSuchFile => "no such file"
  | noParent => "parent directory does not exist"
  | isDirectory => "is a directory"
  | fileExists => "file exists"
  | directoryExists => "directory exists"

/-- Why a disk refuses an action. -/
inductive DiskRefusal where
  | notFound
  | exists
  | notDirectory
  | isDirectory
  deriving DecidableEq, Repr, Inhabited

/-- The wording of a disk's refusal. -/
def DiskRefusal.message : DiskRefusal → String
  | notFound => "No such file or directory (os error 2)"
  | .exists => "File exists (os error 17)"
  | notDirectory => "Not a directory (os error 20)"
  | isDirectory => "Is a directory (os error 21)"

/-- The file operation that a disk refused. -/
inductive DiskOperation where
  | openFile
  | readFile
  | createFile
  | createDirectory
  | removeFile
  deriving DecidableEq, Repr, Inhabited

/-- The wording of a failed operation. -/
def DiskOperation.message : DiskOperation → String
  | openFile => "failed to open file"
  | readFile => "failed to read from file"
  | createFile => "failed to create file"
  | createDirectory => "failed to create directory"
  | removeFile => "failed to remove file"

/-- What a file was read as. -/
inductive Purpose where
  | workspaceManifest
  | template
  | tsconfigTemplate
  deriving DecidableEq, Repr, Inhabited

/-- The wording of a purpose. -/
def Purpose.message : Purpose → String
  | workspaceManifest => "workspace manifest"
  | template => "template"
  | tsconfigTemplate => "tsconfig template"

/-- Something that went wrong with files. -/
inductive Trouble where
  /-- A tree in memory refused an action. -/
  | refused (action : FileAction) (path : Path) (why : Refusal)
  /-- A disk refused an action. -/
  | diskRefused (action : FileAction) (path : Path) (operation : DiskOperation) (why : DiskRefusal)
  /-- A pattern for directories of a tree in memory cannot be read. -/
  | badPattern (pattern : String) (fault : DirGlob.Fault)
  /-- A pattern for directories of a disk cannot be read. -/
  | badDiskPattern (pattern : String) (fault : DirGlob.Fault)
  /-- A file is not a JSON document. -/
  | notJson (path : Path) (error : Json.SyntaxError)
  /-- A file is not a JSON object. -/
  | notObject (path : Path)
  /-- A file could not be read for a purpose. -/
  | reading (purpose : Purpose) (path : Path) (cause : Trouble)
  /-- A pattern of a workspace declaration cannot be read. -/
  | badDeclaration (pattern : String) (fault : DirGlob.Fault)
  /-- No relative path leads from one directory to another. -/
  | unreachable (target base : Path)
  /-- A rule gave its own account. -/
  | told (text : String)
  /-- A rule gave an account of what a trouble kept it from. -/
  | during (text : String) (cause : Trouble)
  deriving DecidableEq, Repr, Inhabited

namespace Trouble

/-- The wordings of a trouble and of what caused it, outermost first. -/
def chain : Trouble → List String
  | refused action path why => [action.verb ++ " " ++ path.text ++ ": " ++ why.message]
  | diskRefused action path operation why =>
    [action.verb ++ " " ++ path.text,
      operation.message ++ " `" ++ path.text ++ "`: " ++ why.message]
  | badPattern pattern fault => ["invalid glob " ++ pattern ++ ": " ++ fault.message]
  | badDiskPattern pattern fault => ["glob " ++ pattern, fault.message]
  | notJson path error => ["parse json " ++ path.text, error.message]
  | notObject path => [path.text ++ " is not a JSON object"]
  | reading purpose path cause =>
    ("read " ++ purpose.message ++ " " ++ path.text) :: cause.chain
  | badDeclaration pattern fault => ["invalid workspace glob " ++ pattern, fault.message]
  | unreachable target base =>
    ["cannot express " ++ target.text ++ " relative to " ++ base.text]
  | told text => [text]
  | during text cause => text :: cause.chain

/-- The wording of a trouble with everything that caused it. -/
def message (t : Trouble) : String := ": ".intercalate t.chain

end Trouble

end WorkspaceLint
