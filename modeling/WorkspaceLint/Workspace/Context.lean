import WorkspaceLint.Fixer
import WorkspaceLint.RuleError
import WorkspaceLint.Text.Quoted
import WorkspaceLint.Workspace.Members

/-!
# Contexts

A context is what a rule sees of a package: the package itself, and the workspace it belongs to if
there is one.  A manifest is kept once it was read, and so are the members of a workspace and their
names; what could not be read is not kept.
-/

namespace WorkspaceLint

/-! ### Packages -/

/-- A package: its directory, its manifest if that was read, and the findings so far. -/
structure Package where
  dir : Path
  manifest : Option Manifest
  findings : List Reported
  deriving Repr, Inhabited

namespace Package

/-- A package of which nothing was read yet. -/
def fresh (dir : Path) : Package := ⟨dir, none, []⟩

/-- Read the manifest of the package in a directory. -/
def load {σ : Type} [FileSystem σ] (fs : σ) (dir : Path) : Except ConfigError Manifest :=
  if FileSystem.contains fs dir.manifest then
    match FileSystem.readJson fs dir.manifest with
    | .ok v => (Manifest.ofJson v).mapError fun e => .invalidManifest dir.manifest (.notObject e)
    | .error trouble => .error (.invalidManifest dir.manifest (.unreadable trouble))
  else .error (.missingManifest dir)

/-- The package in a directory that has a manifest. -/
def open? {σ : Type} [FileSystem σ] (fs : σ) (dir : Path) : Except ConfigError Package :=
  if FileSystem.contains fs dir.manifest then .ok (fresh dir) else .error (.missingManifest dir)

/-- The manifest: as it was read before, or else as it is now. -/
def readManifest {σ : Type} [FileSystem σ] (fs : σ) (p : Package) :
    Except ConfigError Manifest × Package :=
  match p.manifest with
  | some m => (.ok m, p)
  | none =>
    match load fs p.dir with
    | .ok m => (.ok m, { p with manifest := some m })
    | .error e => (.error e, p)

/-- The package with its manifest to be read again. -/
def forget (p : Package) : Package := { p with manifest := none }

/-- The package with one more finding. -/
def add (severity : Severity) (finding : Finding) (p : Package) : Package :=
  { p with findings := p.findings ++ [⟨severity, finding⟩] }

/-- The package without its findings. -/
def withoutFindings (p : Package) : Package := { p with findings := [] }

end Package

/-! ### Workspaces -/

/-- A workspace: the package at its root, the directories of its members and their names, as far as
they were read. -/
structure Workspace where
  package : Package
  dirs : Option (List Path)
  names : Option (List (String × Path))
  deriving Repr, Inhabited

namespace Workspace

/-- A workspace of which nothing was read yet. -/
def fresh (dir : Path) : Workspace := ⟨.fresh dir, none, none⟩

/-- The directories of the members. -/
def readDirs {σ : Type} [FileSystem σ] (fs : σ) (w : Workspace) :
    Except Trouble (List Path) × Workspace :=
  match w.dirs with
  | some dirs => (.ok dirs, w)
  | none =>
    match memberDirs fs w.package.dir with
    | .ok dirs => (.ok dirs, { w with dirs := some dirs })
    | .error trouble => (.error trouble, w)

/-- The names of the members with their directories. -/
def readNames {σ : Type} [FileSystem σ] (fs : σ) (w : Workspace) :
    Except Trouble (List (String × Path)) × Workspace :=
  match w.names with
  | some names => (.ok names, w)
  | none =>
    match w.readDirs fs with
    | (.ok dirs, w) =>
      let names := memberNames fs dirs
      (.ok names, { w with names := some names })
    | (.error trouble, w) => (.error trouble, w)

end Workspace

/-! ### Contexts -/

/-- A package and where it stands. -/
inductive Context where
  /-- The package at the root of a workspace. -/
  | root (w : Workspace)
  /-- A package inside a workspace. -/
  | member (p : Package) (w : Workspace)
  /-- A package without a workspace. -/
  | standalone (p : Package)
  deriving Repr, Inhabited

namespace Context

/-- The package of a context. -/
def package : Context → Package
  | root w => w.package
  | member p _ => p
  | standalone p => p

/-- Change the package of a context. -/
def mapPackage (f : Package → Package) : Context → Context
  | root w => root { w with package := f w.package }
  | member p w => member (f p) w
  | standalone p => standalone (f p)

/-- The directory of the package. -/
def dir (c : Context) : Path := c.package.dir

/-- Whether the package is the root of a workspace. -/
def isRoot : Context → Bool
  | root _ => true
  | _ => false

/-- The root of the workspace that the package is inside of. -/
def parent? : Context → Option Path
  | member _ w => some w.package.dir
  | _ => none

/-- The workspace that a package is the root of or inside of. -/
def workspace? : Context → Option Workspace
  | root w => some w
  | member _ w => some w
  | standalone _ => none

/-- The directory of the workspace root. -/
def workspaceDir (c : Context) : Except ConfigError Path :=
  match c.workspace? with
  | some w => .ok w.package.dir
  | none => .error (.noWorkspace c.dir)

/-- Look something up in the workspace. -/
def inWorkspace {α : Type} (c : Context) (f : Workspace → Except RuleError α × Workspace) :
    Except RuleError α × Context :=
  match c with
  | root w => let r := f w; (r.1, root r.2)
  | member p w => let r := f w; (r.1, member p r.2)
  | standalone p => (.error (.config (.noWorkspace p.dir)), standalone p)

/-- Look something up in the workspace that the package is the root of. -/
def inOwnWorkspace {α : Type} (c : Context) (f : Workspace → Except RuleError α × Workspace) :
    Except RuleError α × Context :=
  if c.isRoot then c.inWorkspace f else (.error (.config (.notAWorkspace c.dir)), c)

section

variable {σ : Type} [FileSystem σ]

/-- The context of a workspace root. -/
def openWorkspace (fs : σ) (dir : Path) : Except ConfigError Context :=
  (Package.open? fs dir).map fun p => root ⟨p, none, none⟩

/-- The context of a package without a workspace. -/
def openPackage (fs : σ) (dir : Path) : Except ConfigError Context :=
  (Package.open? fs dir).map standalone

/-- The context of a package inside the workspace that this is the root of. -/
def createChild (fs : σ) (c : Context) (dir : Path) : Except ConfigError Context :=
  match c with
  | root w => (Package.open? fs dir).map fun p => member p w
  | c => .error (.notAWorkspace c.dir)

/-- The manifest of the package. -/
def readManifest (fs : σ) (c : Context) : Except ConfigError Manifest × Context :=
  let r := c.package.readManifest fs
  (r.1, c.mapPackage fun _ => r.2)

/-- The manifest of the workspace root. -/
def readRootManifest (fs : σ) (c : Context) : Except RuleError Manifest × Context :=
  c.inWorkspace fun w =>
    let r := w.package.readManifest fs
    (r.1.mapError .config, { w with package := r.2 })

/-- The directories of the members of a workspace. -/
def membersOf (fs : σ) (w : Workspace) : Except RuleError (List Path) × Workspace :=
  let r := w.readDirs fs
  (r.1.mapError .runtime, r.2)

/-- The names of the members of a workspace. -/
def namesOf (fs : σ) (w : Workspace) : Except RuleError (List (String × Path)) × Workspace :=
  let r := w.readNames fs
  (r.1.mapError .runtime, r.2)

end

/-- The context with the manifest of its package to be read again. -/
def forget (c : Context) : Context := c.mapPackage Package.forget

/-- The findings on the package. -/
def findings (c : Context) : List Reported := c.package.findings

/-- The context with one more finding. -/
def add (severity : Severity) (finding : Finding) (c : Context) : Context :=
  c.mapPackage (Package.add severity finding)

/-- The context without its findings. -/
def withoutFindings (c : Context) : Context := c.mapPackage Package.withoutFindings

/-- The text of a truth value. -/
def flagText (b : Bool) : String := if b then "true" else "false"

/-- A summary of a context for people who look into a run. -/
def summary (c : Context) : String :=
  let parent := match c.parent? with
    | some dir => "Some(" ++ Text.quoted dir.text ++ ")"
    | none => "None"
  "Context \x7b package_dir: " ++ Text.quoted c.dir.text ++ ", workspace_root: " ++
    flagText c.isRoot ++ ", parent: " ++ parent ++ ", findings: " ++
    Decimal.text c.findings.length ++ " \x7d"

end Context

end WorkspaceLint
