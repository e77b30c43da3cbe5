import WorkspaceLint.Diff.Unified
import WorkspaceLint.Rule.Basic

/-!
# Consistent dependencies

A dependency that a package shares with the workspace root has to have the version of the root.
Only names in the same block on both sides are compared, and peer dependencies are left alone.
-/

namespace WorkspaceLint

namespace ConsistentDependencies

/-- The blocks that are compared. -/
def blocks : List DependencyKind := [.dependencies, .devDependencies]

/-- The block of a package with every version that the root has too replaced by the root's. -/
def expected (package root : Members) : Members :=
  package.map fun d => (d.1, (Members.get? d.1 root).getD d.2)

/-- The finding on a block that differs from what is expected. -/
def finding (path : Path) (kind : DependencyKind) (expected actual : Members) : Finding where
  file := path
  message := "Inconsistent " ++ kind.key ++ " with root in " ++ manifestFile
  longMessage := some (Diff.json (.object expected) (.object actual))
  fixer := some ⟨[.setJsonKey path kind.key (.object expected)]⟩

/-- The finding on a block of two manifests, if it is in both of them and differs. -/
def blockFinding? (path : Path) (manifest root : Manifest) (kind : DependencyKind) :
    Option Finding := do
  let actual ← manifest.block? kind
  let rootBlock ← root.block? kind
  let wanted := expected actual rootBlock
  if (Json.object wanted).compact = (Json.object actual).compact then none
  else some (finding path kind wanted actual)

/-- Report the findings on the given blocks. -/
def reportBlocks (path : Path) (manifest root : Manifest) : List DependencyKind → Check Unit
  | [] => return
  | kind :: kinds => do
    match blockFinding? path manifest root kind with
    | some f => Check.report .error f
    | none => pure ()
    reportBlocks path manifest root kinds

/-- The check of one package. -/
def check : Check Unit := do
  let root ← Check.rootManifest
  let manifest ← Check.manifest
  let dir ← Check.dir
  reportBlocks dir.manifest manifest root blocks

/-- The kind of rule. -/
def kind : RuleKind where
  info := {
    name := "consistent-dependencies"
    title := "Consistent dependency versions"
    description := "Every dependency or devDependency a package shares with the " ++
      "workspace root must use the root's version."
    fixable := true }
  schema := Schema.ofType .null
  checkFor _ := .ok check

end ConsistentDependencies

end WorkspaceLint
