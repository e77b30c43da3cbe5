import WorkspaceLint.Diff.Unified
import WorkspaceLint.Rule.Basic

/-!
# Banned dependencies

No block of a package may have a dependency whose name matches a banned pattern.
-/

namespace WorkspaceLint

namespace BannedDependencies

/-- The entries of a block that are not banned. -/
def retained (block : Members) (banned : PatternSet) : Members :=
  block.filter fun d => !banned.accepts d.1

/-- The finding on a block with banned entries. -/
def finding (path : Path) (kind : DependencyKind) (kept actual : Members) : Finding where
  file := path
  message := "Banned dependencies in " ++ kind.key ++ " in " ++ manifestFile
  longMessage := some (Diff.json (.object kept) (.object actual))
  fixer := some ⟨[.setJsonKey path kind.key (.object kept)]⟩

/-- The finding on a block of a manifest, if it has banned entries. -/
def blockFinding? (path : Path) (manifest : Manifest) (banned : PatternSet)
    (kind : DependencyKind) : Option Finding := do
  let actual ← manifest.block? kind
  let kept := retained actual banned
  if kept.length = actual.length then none else some (finding path kind kept actual)

/-- Report the findings on the given blocks. -/
def reportBlocks (path : Path) (manifest : Manifest) (banned : PatternSet) :
    List DependencyKind → Check Unit
  | [] => return
  | kind :: kinds => do
    match blockFinding? path manifest banned kind with
    | some f => Check.report .error f
    | none => pure ()
    reportBlocks path manifest banned kinds

/-- The check of one package. -/
def check (banned : PatternSet) : Check Unit := do
  let manifest ← Check.manifest
  let dir ← Check.dir
  reportBlocks dir.manifest manifest banned DependencyKind.all

/-- The name of the rule. -/
def ruleName : String := "banned-dependencies"

/-- The options as a record: the banned patterns. -/
def options : Json.Decoder.Record PatternSet where
  name := "BannedDependenciesOptions"
  fields := [Json.Decoder.field "banned_dependencies" true PatternSet.decoder fun v _ => v]
  closed := true
  blank := .empty

/-- The schema of the options. -/
def schema : Json := .object [
  ("type", .string "object"),
  ("properties", .object [("banned_dependencies", Schema.stringList)]),
  ("required", .array [.string "banned_dependencies"]),
  ("additionalProperties", .bool false)]

/-- The kind of rule. -/
def kind : RuleKind where
  info := {
    name := ruleName
    title := "Banned dependencies"
    description := "Removes dependencies, devDependencies and peerDependencies whose " ++
      "name matches any of the configured glob patterns."
    fixable := true }
  schema := schema
  checkFor v := (readOptions ruleName options.decoder v).map check

end BannedDependencies

end WorkspaceLint
