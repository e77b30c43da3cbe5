import WorkspaceLint.Text.Blank
import WorkspaceLint.Text.LowerCase

/-!
# Guides to rules

What people want to know about a rule beyond its description: what it looks at in detail, what its
fix does, and a configuration to start from.
-/

namespace WorkspaceLint

/-- A guide to a rule. -/
structure RuleGuide where
  name : String
  details : String
  fixBehavior : String
  snippet : String
  deriving DecidableEq, Repr, Inhabited

namespace RuleGuide

/-- The guide to `consistent-dependencies`. -/
def consistentDependencies : RuleGuide where
  name := "consistent-dependencies"
  details := "Compares the `dependencies` and `devDependencies` blocks of each package " ++
    "with the same blocks in the workspace root package.json. Only names " ++
    "declared on both sides are compared; the root never adds dependencies " ++
    "to a package. A block missing on either side is skipped."
  fixBehavior := "Rewrites the offending block with the root's versions, keeping the " ++
    "package's key order. Other package.json fields are untouched."
  snippet := "[[rules]]\nrule = \"consistent-dependencies\""

/-- The guide to `banned-dependencies`. -/
def bannedDependencies : RuleGuide where
  name := "banned-dependencies"
  details := "Flags `dependencies`, `devDependencies` and `peerDependencies` entries " ++
    "whose name matches any configured glob. `*` does not cross `/`, so " ++
    "`@scope/*` bans every package in a scope."
  fixBehavior := "Removes the banned entries from each block, keeping the rest in order."
  snippet := "[[rules]]\nrule = \"banned-dependencies\"\n[rules.options]\n" ++
    "banned_dependencies = [\"left-pad\", \"@legacy/*\"]"

/-- The guide to `file-contents`. -/
def fileContents : RuleGuide where
  name := "file-contents"
  details := "Compares a file inside each package with a template string or with a " ++
    "template file read from the workspace root. A missing file is " ++
    "reported as an error with the full expected content."
  fixBehavior := "Writes the expected content, creating parent directories as needed."
  snippet := "[[rules]]\nrule = \"file-contents\"\nexclude_packages = [\"@scope/docs\"]\n" ++
    "[rules.options]\nfile = \".npmignore\"\ntemplate_file = \"templates/npmignore\""

/-- The guide to `standard-tsconfig`. -/
def standardTsconfig : RuleGuide where
  name := "standard-tsconfig"
  details := "Renders the package's tsconfig.json from a shared template plus a " ++
    "`references` entry for every workspace package it depends on " ++
    "through dependencies or devDependencies, then compares " ++
    "the rendered text with the file on disk. Packages named in " ++
    "`excluded_references` are never referenced."
  fixBehavior := "Writes the rendered tsconfig.json."
  snippet := "[[rules]]\nrule = \"standard-tsconfig\"\n[rules.options]\n" ++
    "template_file = \"templates/tsconfig.json\"\n" ++
    "excluded_references = [\"@scope/tooling-*\"]"

/-- All guides. -/
def all : List RuleGuide :=
  [consistentDependencies, bannedDependencies, fileContents, standardTsconfig]

/-- The name that a query means: without blanks around it, in small letters, with hyphens for
underscores. -/
def normalizeName (query : String) : String :=
  String.ofList ((Text.lower (Text.trim query.toList)).map fun c => if c = '_' then '-' else c)

/-- The guide that a query means. -/
def lookup? (query : String) : Option RuleGuide := all.find? (·.name = normalizeName query)

end RuleGuide

end WorkspaceLint
