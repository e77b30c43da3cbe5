import WorkspaceLint.Config.Basic
import WorkspaceLint.Toml.Reader

/-!
# Configuration files

A configuration file holds settings and the configured rules.  What a command line asks for is added
to the settings of the file.
-/

namespace WorkspaceLint

/-- The contents of a configuration file. -/
structure ConfigFile where
  fix : Bool
  verbose : Bool
  rules : List RuleConfig
  deriving Repr, Inhabited

/-- Why a text is not a configuration file. -/
inductive ConfigFileError where
  | invalidToml
  deriving DecidableEq, Repr, Inhabited

/-- The wording of an error. -/
def ConfigFileError.message : ConfigFileError → String
  | invalidToml => "invalid TOML"

namespace Toml

/-- A truth value. -/
def boolean? : Toml → Option Bool
  | boolean b => some b
  | _ => none

/-- A string. -/
def text? : Toml → Option String
  | string s => some s
  | _ => none

/-- A list of strings. -/
def texts? : Toml → Option (List String)
  | array items => items.mapM text?
  | _ => none

/-- Fields of a record: their keys, and how their values are put into it. -/
abbrev Fields (ρ : Type) := List (String × (Toml → ρ → Option ρ))

/-- Read the entries of a table into a record.  Unknown keys do not matter as long as their values
can be used. -/
def readEntries {ρ : Type} (fields : Fields ρ) (a : ρ) : List (String × Toml) → Option ρ
  | [] => some a
  | (key, v) :: rest =>
    match fields.lookup key with
    | some set => do readEntries fields (← set v a) rest
    | none => if v.usable then readEntries fields a rest else none

/-- Read items into the fields of a record in order.  There may be fewer items or more. -/
def readItems {ρ : Type} (a : ρ) : Fields ρ → List Toml → Option ρ
  | (_, set) :: fields, v :: vs => do readItems (← set v a) fields vs
  | _, _ => some a

/-- Read a record from a table, or from an array of its fields. -/
def readRecord {ρ : Type} (fields : Fields ρ) (blank : ρ) : Toml → Option ρ
  | table entries => readEntries fields blank entries
  | array items => readItems blank fields items
  | moment _ => some blank
  | _ => none

end Toml

namespace RuleConfig

/-- The fields of a configured rule. -/
def fields : Toml.Fields RuleConfig := [
  ("rule", fun v c => v.text?.map fun s => { c with rule := s }),
  ("options", fun v c => v.toJson?.map fun j => { c with options := some j }),
  ("include_packages", fun v c => v.texts?.map fun ss => { c with included := ss }),
  ("exclude_packages", fun v c => v.texts?.map fun ss => { c with excluded := ss }),
  ("include_workspace_root", fun v c => v.boolean?.map fun b => { c with includeRoot := b })]

/-- Read a list of configured rules. -/
def ofToml? : Toml → Option (List RuleConfig)
  | .array items => items.mapM (Toml.readRecord fields blank)
  | _ => none

end RuleConfig

namespace ConfigFile

/-- The file that says nothing. -/
def blank : ConfigFile := ⟨false, false, []⟩

/-- The name of the file in the workspace root. -/
def fileName : String := "monolint.toml"

/-- The settings in a file. -/
def settingsFields : Toml.Fields ConfigFile := [
  ("fix", fun v c => v.boolean?.map fun b => { c with fix := b }),
  ("verbose", fun v c => v.boolean?.map fun b => { c with verbose := b })]

/-- The parts of a file. -/
def fields : Toml.Fields ConfigFile := [
  ("settings", fun v c => Toml.readRecord settingsFields c v),
  ("rules", fun v c => (RuleConfig.ofToml? v).map fun rules => { c with rules := rules })]

/-- Read a configuration file. -/
def parse (text : String) : Except ConfigFileError ConfigFile :=
  match (Toml.parse? text).bind (Toml.readEntries fields blank) with
  | some c => .ok c
  | none => .error .invalidToml

end ConfigFile

/-- What a run is asked to do, from a configuration file and a command line. -/
structure RunRequest where
  lint : LintConfig
  settings : RunSettings
  verbose : Bool
  deriving Repr, Inhabited

/-- What a command line asks for. -/
structure CheckFlags where
  fix : Bool
  verbose : Bool
  paths : List Path
  deriving DecidableEq, Repr, Inhabited

/-- The path that is meant below a root: the one `canonical?` gives if there is something at it, or
else as it is spelled. -/
def Path.meant (canonical? : Path → Option Path) (root p : Path) : Path :=
  let full := root.join p
  (canonical? full).getD full

/-- A configuration file together with the flags of a command line, which can only switch things
on. -/
def ConfigFile.merge (file : ConfigFile) (canonical? : Path → Option Path) (root : Path)
    (flags : CheckFlags) : RunRequest where
  lint := ⟨file.rules⟩
  settings := ⟨flags.fix || file.fix, flags.paths.map (Path.meant canonical? root)⟩
  verbose := flags.verbose || file.verbose

/-- Bind the rules of a request. -/
def RunRequest.resolve (r : RunRequest) : ResolvedConfig := r.lint.resolve r.settings

end WorkspaceLint
