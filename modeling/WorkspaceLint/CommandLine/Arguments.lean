import WorkspaceLint.Config.File

/-!
# Arguments of the command line

A command line names a command and gives it options and positional arguments.  Arguments are taken
one by one: an option that takes values takes what follows it up to the next option, and its values
are looked at when the next option or the end comes.  After `--` there are only positional
arguments.
-/

namespace WorkspaceLint

namespace CommandLine

/-- How many values an option takes. -/
inductive Arity where
  /-- None, and the option may be given once. -/
  | flag
  /-- One, and the option may be given once. -/
  | value
  /-- One or more, and the option may be given again. -/
  | values
  deriving DecidableEq, Repr, Inhabited

/-- An option of a command. -/
structure OptionSpec where
  long : String
  short : Option Char
  arity : Arity
  /-- The values to choose from; any value if there are none. -/
  choices : List String
  deriving DecidableEq, Repr, Inhabited

/-- Why a command line cannot be understood. -/
inductive UsageError where
  | unknownArgument (arg : String)
  | unexpectedValue (name : String)
  | missingValue (name : String)
  | repeated (name : String)
  | badChoice (name value : String)
  | missingArgument (name : String)
  | missingCommand
  | unknownCommand (name : String)
  deriving DecidableEq, Repr, Inhabited

/-- The wording of an error. -/
def UsageError.message : UsageError → String
  | unknownArgument arg => "unexpected argument '" ++ arg ++ "' found"
  | unexpectedValue name => "unexpected value for '--" ++ name ++ "' found"
  | missingValue name => "a value is required for '--" ++ name ++ "' but none was supplied"
  | repeated name => "the argument '--" ++ name ++ "' cannot be used multiple times"
  | badChoice name value => "invalid value '" ++ value ++ "' for '--" ++ name ++ "'"
  | missingArgument name => "the argument '<" ++ name ++ ">' was not provided"
  | missingCommand => "a command is required"
  | unknownCommand name => "unrecognized command '" ++ name ++ "'"

/-- Why taking arguments stopped. -/
inductive Stop where
  | usage (e : UsageError)
  /-- Help was asked for. -/
  | help
  deriving DecidableEq, Repr, Inhabited

/-- An option that may still take values, and those it took. -/
structure Pending where
  spec : OptionSpec
  values : List String
  /-- Whether the next argument may be one more value. -/
  waiting : Bool
  deriving DecidableEq, Repr, Inhabited

/-- The arguments taken so far. -/
structure Taken where
  pending : Option Pending
  /-- The options with their values, in order. -/
  options : List (String × List String)
  positionals : List String
  /-- Whether `--` was taken. -/
  onlyPositionals : Bool
  deriving DecidableEq, Repr, Inhabited

namespace Taken

/-- Before the first argument. -/
def nothing : Taken := ⟨none, [], [], false⟩

/-- Whether an option was given. -/
def has (t : Taken) (name : String) : Bool := (t.options.lookup name).isSome

/-- The value of an option that takes one. -/
def value? (t : Taken) (name : String) : Option String :=
  (t.options.lookup name).bind List.head?

/-- All values of an option. -/
def values (t : Taken) (name : String) : List String :=
  t.options.flatMap fun o => if o.1 = name then o.2 else []

/-- Add an option with its values. -/
def addOption (t : Taken) (spec : OptionSpec) (values : List String) : Except Stop Taken :=
  if spec.arity ≠ .flag ∧ values = [] then .error (.usage (.missingValue spec.long))
  else if spec.arity ≠ .values ∧ t.has spec.long then .error (.usage (.repeated spec.long))
  else
    match if spec.choices = [] then none else values.find? (!spec.choices.contains ·) with
    | some v => .error (.usage (.badChoice spec.long v))
    | none => .ok { t with options := t.options ++ [(spec.long, values)] }

/-- Look at the option that was last given. -/
def settle (t : Taken) : Except Stop Taken :=
  match t.pending with
  | none => .ok t
  | some p => { t with pending := none }.addOption p.spec p.values

end Taken

/-- The options and positional arguments of a command. -/
structure Spec where
  options : List OptionSpec
  positionals : List String
  deriving DecidableEq, Repr, Inhabited

namespace Spec

/-- Take an option by its long name, with the value that is attached to it. -/
def takeLong (s : Spec) (t : Taken) (arg name : String) (attached : Option String) :
    Except Stop Taken := do
  match s.options.find? (·.long = name), attached with
  | none, attached =>
    if name = "help" then
      let _ ← t.settle
      match attached with
      | none => .error .help
      | some _ => .error (.usage (.unexpectedValue name))
    else .error (.usage (.unknownArgument arg))
  | some spec, some v =>
    let t ← t.settle
    if spec.arity = .flag then .error (.usage (.unexpectedValue name)) else t.addOption spec [v]
  | some spec, none =>
    let t ← t.settle
    if spec.arity = .flag then t.addOption spec []
    else return { t with pending := some ⟨spec, [], true⟩ }

/-- Take options by their short names. -/
def takeShort (s : Spec) (arg : String) (t : Taken) : List Char → Except Stop Taken
  | [] => .ok t
  | c :: cs => do
    match s.options.find? (·.short = some c) with
    | some spec =>
      let t ← t.settle
      let t ← t.addOption spec []
      takeShort s arg t cs
    | none =>
      if c = 'h' then
        let _ ← t.settle
        .error .help
      else .error (.usage (.unknownArgument arg))

/-- The name and the attached value of a long option after its hyphens. -/
def splitAttached (cs : List Char) : String × Option String :=
  match cs.span (· ≠ '=') with
  | (name, _ :: value) => (String.ofList name, some (String.ofList value))
  | (name, []) => (String.ofList name, none)

/-- Take a positional argument, or one more value of the option before it. -/
def takeValue (s : Spec) (t : Taken) (arg : String) : Except Stop Taken :=
  let positional : Except Stop Taken := do
    let t ← t.settle
    if t.positionals.length < s.positionals.length then
      return { t with positionals := t.positionals ++ [arg] }
    else .error (.usage (.unknownArgument arg))
  match t.pending with
  | none => positional
  | some p =>
    if p.waiting && !t.onlyPositionals then
      .ok { t with pending := some ⟨p.spec, p.values ++ [arg], p.spec.arity = .values⟩ }
    else positional

/-- Take one argument. -/
def take (s : Spec) (t : Taken) (arg : String) : Except Stop Taken :=
  if t.onlyPositionals then s.takeValue t arg
  else
    match arg.toList with
    | ['-', '-'] => .ok { t with onlyPositionals := true }
    | '-' :: '-' :: cs =>
      let (name, attached) := splitAttached cs
      s.takeLong t arg name attached
    | '-' :: c :: cs => s.takeShort arg t (c :: cs)
    | _ => s.takeValue t arg

/-- Take arguments in order. -/
def takeAll (s : Spec) (t : Taken) : List String → Except Stop Taken
  | [] => t.settle
  | arg :: args => do
    let t ← s.take t arg
    takeAll s t args

/-- Take all arguments of a command. -/
def parse (s : Spec) (args : List String) : Except Stop Taken := do
  let t ← s.takeAll .nothing args
  match s.positionals.drop t.positionals.length with
  | [] => return t
  | name :: _ => .error (.usage (.missingArgument name))

end Spec

/-! ### Commands -/

/-- The form of a report. -/
inductive ReportFormat where
  | text
  | json
  | markdown
  deriving DecidableEq, Repr, Inhabited

/-- A command with its arguments. -/
inductive Command where
  | check (root : Path) (flags : CheckFlags) (format : ReportFormat)
  | listRules (json : Bool)
  | explain (rule : String)
  | help
  | version
  deriving DecidableEq, Repr, Inhabited

namespace Command

/-- The options of `check`. -/
def checkSpec : Spec where
  options := [
    ⟨"root", none, .value, []⟩,
    ⟨"fix", none, .flag, []⟩,
    ⟨"verbose", some 'v', .flag, []⟩,
    ⟨"paths", none, .values, []⟩,
    ⟨"format", none, .value, ["text", "json", "markdown"]⟩]
  positionals := []

/-- The options of `list-rules`. -/
def listSpec : Spec := ⟨[⟨"format", none, .value, ["text", "json"]⟩], []⟩

/-- The arguments of `explain`. -/
def explainSpec : Spec := ⟨[], ["RULE"]⟩

/-- The command that the arguments of `check` ask for. -/
def ofCheck (t : Taken) : Command :=
  let format : ReportFormat := match t.value? "format" with
    | some "json" => .json
    | some "markdown" => .markdown
    | _ => .text
  .check ⟨(t.value? "root").getD "."⟩
    ⟨t.has "fix", t.has "verbose", (t.values "paths").map Path.mk⟩ format

/-- The names of the commands. -/
def names : List String := ["check", "list-rules", "explain", "help"]

/-- The command that arguments ask for, if they are understood. -/
def settle (f : Taken → Command) : Except Stop Taken → Except UsageError Command
  | .ok t => .ok (f t)
  | .error .help => .ok .help
  | .error (.usage e) => .error e

/-- The command of options in front of any command name. -/
def ofShort (arg : String) : List Char → Except UsageError Command
  | 'h' :: _ => .ok .help
  | 'V' :: _ => .ok .version
  | _ => .error (.unknownArgument arg)

/-- Understand a command line. -/
def parse : List String → Except UsageError Command
  | [] => .error .missingCommand
  | "check" :: args => settle ofCheck (checkSpec.parse args)
  | "list-rules" :: args =>
    settle (fun t => .listRules (t.value? "format" = some "json")) (listSpec.parse args)
  | "explain" :: args =>
    settle (fun t => .explain (t.positionals.headD "")) (explainSpec.parse args)
  | ["help"] => .ok .help
  | ["help", name] => if names.contains name then .ok .help else .error (.unknownCommand name)
  | "help" :: name :: _ => .error (.unknownCommand name)
  | "--help" :: _ => .ok .help
  | "--version" :: _ => .ok .version
  | arg :: _ =>
    match arg.toList with
    | '-' :: '-' :: _ => .error (.unknownArgument arg)
    | '-' :: c :: cs => ofShort arg (c :: cs)
    | _ => .error (.unknownCommand arg)

end Command

end CommandLine

end WorkspaceLint
