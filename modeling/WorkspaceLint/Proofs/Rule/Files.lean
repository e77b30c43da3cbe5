import WorkspaceLint.Proofs.Workspace.Checks
import WorkspaceLint.Rule.FileContents
import WorkspaceLint.Rule.StandardTsconfig

/-!
# Rules about one file

The rules about file contents and `tsconfig.json` know the text of a file and compare the file with
it.  What both come to is one verdict (`fileVerdict`) for different texts: that of a template, or of
a template with the references that follow from the manifest of the package and the names of the
members.
-/

namespace WorkspaceLint

open Check

variable {σ : Type} [FileSystem σ]

/-- The contents at a path, nothing if nothing is there. -/
def contentsAt (fs : σ) (path : Path) : Except RuleError (Option String) :=
  if FileSystem.contains fs path then ((FileSystem.read fs path).mapError .runtime).map some
  else .ok none

/-- The verdict on a file that should hold a text: a finding unless it does. -/
def fileVerdict (fs : σ) (path : Path) (finding : String → Option String → Finding)
    (expected : Except RuleError String) : Except RuleError (List Reported) := do
  let text ← expected
  let actual ← contentsAt fs path
  return if actual = some text then [] else [⟨.error, finding text actual⟩]

theorem comesTo_readIfThere {fs : σ} {o : Context} (path : Path) :
    ComesTo fs o (Check.readIfThere path) (contentsAt fs path) [] := by
  unfold contentsAt
  refine (ComesTo.contains path).bind ?_
  split
  · exact (ComesTo.read path).bindResult fun text => .pure (some text)
  · exact .pure none

/-! ## File contents -/

namespace FileContents

variable {fs : σ} {o : Context} {root : Path}

/-- The text of a template file. -/
def templateAt (fs : σ) (path : Path) : Except RuleError String :=
  (FileSystem.read fs path).mapError fun trouble => .runtime (.reading .template path trouble)

theorem comesTo_template (text : String) :
    ComesTo fs o (Source.expected (.template text)) (.ok (some text)) [] := .pure (some text)

theorem comesTo_templateFile (inside : o.workspaceDir = .ok root) (relative : Path) :
    ComesTo fs o (Source.expected (.templateFile relative))
      ((templateAt fs (root.join relative)).map some) [] := by
  refine (ComesTo.workspacePath inside relative).bind ?_
  exact (ComesTo.readFor .template (root.join relative)).bindResult fun text => .pure (some text)

/-- The check compares the file with what its source comes to. -/
theorem judges_check {options : Options} {expected : Except RuleError String}
    (source : ComesTo fs o options.source.expected (expected.map some) []) :
    Judges fs o (check options) (fileVerdict fs (o.dir.join options.file)
      (fun text => finding (o.dir.join options.file) (some text)) expected) := by
  refine ComesTo.dir.andThen ?_
  rcases expected with e | text
  · exact source.bind_error
  refine source.andThen ?_
  refine Judges.bind (comesTo_readIfThere _) fun actual _ => ?_
  show Judges fs o (if actual = some text then _ else _) (.ok _)
  split
  · exact .of_comesTo (.pure ())
  · exact .of_comesTo (.report .error _)

end FileContents

/-! ## Standard tsconfig -/

namespace StandardTsconfig

variable {fs : σ} {o : Context} {root : Path}

/-- The references of the package in a directory. -/
def referencesIn (fs : σ) (root dir : Path) (excluded : PatternSet) :
    Except RuleError (List Json) := do
  let names ← ((Workspace.memberDirs fs root).map (Workspace.memberNames fs)).mapError .runtime
  let m ← (Package.load fs dir).mapError .config
  (references dir (referencedDirs names excluded (m.dependencyNames blocks))).mapError .runtime

theorem referencesIn_eq_ok_iff {dir : Path} {excluded : PatternSet} {refs : List Json} :
    referencesIn fs root dir excluded = .ok refs ↔
      ∃ names m, (Workspace.memberDirs fs root).map (Workspace.memberNames fs) = .ok names ∧
        Package.load fs dir = .ok m ∧
        references dir (referencedDirs names excluded (m.dependencyNames blocks)) = .ok refs := by
  simp only [referencesIn, bind_eq_ok_iff, mapError_eq_ok_iff, exists_and_left]

/-- The template in a file. -/
def templateAt (fs : σ) (path : Path) : Except RuleError Members := do
  let text ← (FileSystem.read fs path).mapError fun trouble =>
    .runtime (.reading .tsconfigTemplate path trouble)
  let v ← (Json.parse text).mapError fun e =>
    .runtime (.reading .tsconfigTemplate path (.notJson path e))
  (templateObject path.text v).mapError .config

theorem comesTo_render (inside : o.workspaceDir = .ok root) (template : Members)
    (excluded : PatternSet) :
    ComesTo fs o (render template excluded)
      ((referencesIn fs root o.dir excluded).map (withReferences template)) [] := by
  have parts : (referencesIn fs root o.dir excluded).map (withReferences template) =
      (((Workspace.memberDirs fs root).map (Workspace.memberNames fs)).mapError RuleError.runtime
        >>= fun names => (Package.load fs o.dir).mapError RuleError.config >>= fun m =>
        (references o.dir (referencedDirs names excluded (m.dependencyNames blocks))).mapError
          RuleError.runtime >>= fun found => .ok (withReferences template found)) := by
    unfold referencesIn
    rcases ((Workspace.memberDirs fs root).map (Workspace.memberNames fs)).mapError
      RuleError.runtime with e | names
    · rfl
    · rcases (Package.load fs o.dir).mapError RuleError.config with e | m
      · rfl
      · rfl
  rw [parts]
  refine (ComesTo.memberNames inside).bindResult fun names => ?_
  refine ComesTo.manifest.bindResult fun m => ?_
  refine ComesTo.dir.andThen ?_
  exact (ComesTo.ofExcept _).bindResult fun found => .pure _

theorem comesTo_template (inside : o.workspaceDir = .ok root) (template : Members)
    (excluded : PatternSet) :
    ComesTo fs o (Options.expected ⟨.template template, excluded⟩)
      (((referencesIn fs root o.dir excluded).map (withReferences template)).map some) [] :=
  (comesTo_render inside template excluded).bindResult fun text => .pure (some text)

theorem comesTo_templateFile (inside : o.workspaceDir = .ok root) (relative : Path)
    (excluded : PatternSet) :
    ComesTo fs o (Options.expected ⟨.templateFile relative, excluded⟩)
      ((templateAt fs (root.join relative) >>= fun template =>
        (referencesIn fs root o.dir excluded).map (withReferences template)).map some) [] := by
  have parts : (templateAt fs (root.join relative) >>= fun template =>
        (referencesIn fs root o.dir excluded).map (withReferences template)).map some =
      ((((FileSystem.read fs (root.join relative)).mapError fun trouble =>
          RuleError.runtime (.reading .tsconfigTemplate (root.join relative) trouble)) >>= fun text =>
        (Json.parse text).mapError fun e =>
          RuleError.runtime (.reading .tsconfigTemplate (root.join relative)
            (.notJson (root.join relative) e))) >>= fun v =>
        ((templateObject (root.join relative).text v).mapError RuleError.config) >>= fun template =>
        ((referencesIn fs root o.dir excluded).map (withReferences template)).map some) := by
    simp only [templateAt, bind_assoc, map_bind]
  rw [parts]
  refine (ComesTo.workspacePath inside relative).andThen ?_
  refine (ComesTo.readJsonFor .tsconfigTemplate (root.join relative)).bindResult fun v => ?_
  refine (ComesTo.ofExcept _).bindResult fun template => ?_
  exact (comesTo_render inside template excluded).bindResult fun text => .pure (some text)

/-- The check compares the file with what is expected of the package. -/
theorem judges_check {options : Options} {expected : Except RuleError String}
    (source : ComesTo fs o options.expected (expected.map some) []) :
    Judges fs o (check options) (fileVerdict fs (o.dir.entry tsconfigFile)
      (finding (o.dir.entry tsconfigFile)) expected) := by
  refine ComesTo.dir.andThen ?_
  rcases expected with e | text
  · exact source.bind_error
  refine source.andThen ?_
  refine Judges.bind (comesTo_readIfThere _) fun actual _ => ?_
  show Judges fs o (if actual = some text then _ else _) (.ok _)
  split
  · exact .of_comesTo (.pure ())
  · exact .of_comesTo (.report .error _)

end StandardTsconfig

end WorkspaceLint
