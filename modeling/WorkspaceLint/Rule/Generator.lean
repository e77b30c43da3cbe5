import WorkspaceLint.Check

/-!
# Generators

A generator computes the expected contents of a file from what it asks about a package.  It is given
in code and cannot come from options.
-/

namespace WorkspaceLint

/-- A program for the expected contents of a file.  No contents mean that the file should not be
there, or that the package is not meant. -/
abbrev Generator := ExceptT Trouble Probe (Option String)

/-- Generate contents in a check. -/
def Generator.generate (g : Generator) : Check (Option String) := ExceptT.adapt RuleError.runtime g

/-- The path of a file below the workspace root. -/
def Check.workspacePath (relative : Path) : Check Path := do
  let root ← Check.workspaceDir
  return root.join relative

end WorkspaceLint
