import WorkspaceLint.Workspace.Context

/-!
# Checks

A check is a program that asks questions about a package and reports findings.  The questions are
all it can do: it changes no file, and what it learns comes through its context.
-/

namespace WorkspaceLint

/-- What a check can ask or report. -/
inductive Question where
  /-- The directory of the package. -/
  | dir
  /-- Whether the package is the root of a workspace. -/
  | isRoot
  /-- The directory of the workspace root. -/
  | workspaceDir
  /-- The manifest of the package. -/
  | manifest
  /-- The manifest of the workspace root. -/
  | rootManifest
  /-- The directories of the members of the workspace. -/
  | members
  /-- The names of the members with their directories. -/
  | memberNames
  /-- Whether something is at a path. -/
  | contains (path : Path)
  /-- The contents of a file. -/
  | read (path : Path)
  /-- The directories below a base that match a pattern. -/
  | globDirs (base : Path) (pattern : String)
  /-- The findings on the package so far. -/
  | findings
  /-- Report a finding. -/
  | report (severity : Severity) (finding : Finding)

/-- The answers to a question. -/
abbrev Question.Answer : Question → Type
  | dir => Path
  | isRoot => Bool
  | workspaceDir => Except ConfigError Path
  | manifest => Except ConfigError Manifest
  | rootManifest => Except RuleError Manifest
  | members => Except RuleError (List Path)
  | memberNames => Except RuleError (List (String × Path))
  | contains _ => Bool
  | read _ => Except Trouble String
  | globDirs _ _ => Except Trouble (List Path)
  | findings => List Reported
  | report _ _ => Unit

/-- The answer of a context to a question, and the context after it. -/
def Context.answer {σ : Type} [FileSystem σ] (fs : σ) (c : Context) :
    (q : Question) → q.Answer × Context
  | .dir => (c.dir, c)
  | .isRoot => (c.isRoot, c)
  | .workspaceDir => (c.workspaceDir, c)
  | .manifest => c.readManifest fs
  | .rootManifest => c.readRootManifest fs
  | .members => c.inWorkspace (Context.membersOf fs)
  | .memberNames => c.inWorkspace (Context.namesOf fs)
  | .contains path => (FileSystem.contains fs path, c)
  | .read path => (FileSystem.read fs path, c)
  | .globDirs base pattern => (FileSystem.globDirs fs base pattern, c)
  | .findings => (c.findings, c)
  | .report severity finding => ((), c.add severity finding)

/-- A program that asks questions until it is done. -/
inductive Probe (α : Type) where
  | done (a : α)
  | ask (q : Question) (next : q.Answer → Probe α)

namespace Probe

/-- Go on with another program. -/
def bind {α β : Type} : Probe α → (α → Probe β) → Probe β
  | done a, f => f a
  | ask q next, f => ask q fun a => (next a).bind f

instance : Monad Probe where
  pure := done
  bind := bind

/-- Run a program in a context. -/
def run {σ α : Type} [FileSystem σ] (fs : σ) : Probe α → Context → α × Context
  | done a, c => (a, c)
  | ask q next, c =>
    let r := c.answer fs q
    (next r.1).run fs r.2

end Probe

/-- A program that may fail. -/
abbrev Check (α : Type) := ExceptT RuleError Probe α

namespace Check

/-- Ask one question. -/
def ask (q : Question) : Check q.Answer := ExceptT.lift (.ask q .done)

/-- Go on with a result, or fail with its error. -/
def ofExcept {α : Type} (r : Except RuleError α) : Check α := ExceptT.mk (pure r)

/-- The directory of the package. -/
def dir : Check Path := ask .dir

/-- The directory of the workspace root. -/
def workspaceDir : Check Path := do
  let r ← ask .workspaceDir
  ofExcept (r.mapError .config)

/-- The manifest of the package. -/
def manifest : Check Manifest := do
  let r ← ask .manifest
  ofExcept (r.mapError .config)

/-- The manifest of the workspace root. -/
def rootManifest : Check Manifest := do ofExcept (← ask .rootManifest)

/-- The names of the members with their directories. -/
def memberNames : Check (List (String × Path)) := do ofExcept (← ask .memberNames)

/-- Whether something is at a path. -/
def contains (path : Path) : Check Bool := ask (.contains path)

/-- The contents of a file. -/
def read (path : Path) : Check String := do
  let r ← ask (.read path)
  ofExcept (r.mapError .runtime)

/-- The contents of a file, if there is one. -/
def readIfThere (path : Path) : Check (Option String) := do
  if ← contains path then return some (← read path) else return none

/-- The contents of a file that is read for a purpose. -/
def readFor (purpose : Purpose) (path : Path) : Check String := do
  let r ← ask (.read path)
  ofExcept (r.mapError fun trouble => .runtime (.reading purpose path trouble))

/-- The JSON document in a file that is read for a purpose. -/
def readJsonFor (purpose : Purpose) (path : Path) : Check Json := do
  let text ← readFor purpose path
  ofExcept ((Json.parse text).mapError fun e =>
    .runtime (.reading purpose path (.notJson path e)))

/-- Report a finding. -/
def report (severity : Severity) (finding : Finding) : Check Unit := ask (.report severity finding)

/-- Run a check in a context. -/
def run {σ α : Type} [FileSystem σ] (fs : σ) (check : Check α) (c : Context) :
    Except RuleError α × Context :=
  Probe.run fs (ExceptT.run check) c

end Check

end WorkspaceLint
