import WorkspaceLint.Proofs.Diff.Marks
import WorkspaceLint.Proofs.Rule.Targets

/-!
# Diffs in findings

What a finding of a built-in rule shows is a diff, and the expected text of the diff is the
canonical text of a document or was written by somebody: a template for the contents of a file, or
what a generator gives (`Rule.BuiltIn.shows`).  Only the latter can have fences.
-/

namespace WorkspaceLint

/-! ## Results of checks -/

namespace Check

variable {σ α β : Type} [FileSystem σ] {fs : σ} {dir : Path}

theorem Returns.of_bind {x : Check α} {f : α → Check β} {b : β} (h : Returns fs dir (x >>= f) b) :
    ∃ a, Returns fs dir x a ∧ Returns fs dir (f a) b := by
  obtain ⟨c, here, result⟩ := h
  rw [run_bind] at result
  have same := (dir_run_snd x fs c).trans here
  rcases hx : x.run fs c with ⟨e | a, c'⟩ <;> rw [hx] at result same
  · cases result
  · exact ⟨a, ⟨c, here, by rw [hx]⟩, c', same, result⟩

theorem Returns.of_pure {a b : α} (h : Returns fs dir (pure a : Check α) b) : a = b := by
  obtain ⟨c, -, result⟩ := h
  exact Except.ok.inj result

end Check

/-! ## Built-in rules -/

/-- The rules of the program, with options that are written or given in code. -/
inductive Rule.BuiltIn : Rule → Prop where
  | dependencies (info : RuleInfo) (rule : DependencyRule) : BuiltIn ⟨info, rule.check⟩
  | fileContents (o : FileContents.Options) (asks : ∀ g, o.source = .generator g → g.Asks) :
    BuiltIn (FileContents.rule o)
  | standardTsconfig (o : StandardTsconfig.Options)
    (asks : ∀ g, o.source = .generator g → g.Asks) : BuiltIn (StandardTsconfig.rule o)

/-- Every rule that a configuration can name is built in. -/
theorem RuleKind.builtIn_of_bind {kind : RuleKind} {options : Option Json} {rule : Rule}
    (known : kind ∈ all) (bound : kind.bind options = .ok rule) : rule.BuiltIn := by
  have made := checkFor_of_bind bound
  have info : rule.info = kind.info := by
    simp only [bind, bind_eq_ok_iff] at bound
    obtain ⟨-, -, check, -, same⟩ := bound
    rw [← Except.ok.inj same]
  obtain ⟨_, check⟩ := rule
  simp only [all, List.mem_cons, List.not_mem_nil, or_false] at known
  obtain rfl | rfl | rfl | rfl := known
  · obtain ⟨names, -, rfl⟩ := map_eq_ok_iff.1 made
    exact .dependencies _ (.banned names)
  · obtain rfl := Except.ok.inj made
    exact .dependencies _ .consistent
  · obtain ⟨o, read, rfl⟩ := map_eq_ok_iff.1 made
    obtain rfl := info
    exact .fileContents o (FileContents.asks_of_readFrom read)
  · obtain ⟨o, read, rfl⟩ := map_eq_ok_iff.1 made
    obtain rfl := info
    exact .standardTsconfig o (StandardTsconfig.asks_of_readFrom read)

/-! ## Expected texts -/

section

variable {σ : Type} [FileSystem σ] {fs : σ} {dir path : Path} {rule : Rule}

/-- A text that is expected as it was written: one that a rule about file contents is given, or one
that a generator gives. -/
def Rule.Wants (rule : Rule) (fs : σ) (dir : Path) (text : String) : Prop :=
  (∃ o, rule = FileContents.rule o ∧ Check.Returns fs dir o.source.expected (some text)) ∨
  ∃ o g, rule = StandardTsconfig.rule o ∧ o.source = .generator g ∧
    Check.Returns fs dir g.generate (some text)

/-- What a finding shows is a diff to the text of a document, or to one that the rule wants as it
was written. -/
def Reported.Shows (rule : Rule) (fs : σ) (dir : Path) (r : Reported) : Prop :=
  ∀ long, r.finding.longMessage = some long → ∃ expected actual,
    long = Diff.text expected actual ∧
    ∀ text, expected = some text → (∃ v : Json, text = v.canonical) ∨ rule.Wants fs dir text

theorem Reported.OnBlock.shows {r : Reported} (h : r.OnBlock path) : r.Shows rule fs dir := by
  obtain ⟨key, expected, actual, -, long⟩ := h
  intro text shown
  obtain rfl := Option.some.inj (long.symm.trans shown)
  exact ⟨_, _, rfl, fun text same => .inl ⟨expected, (Option.some.inj same).symm⟩⟩

open Check

theorem FileContents.adds_shows {o : Options} (asks : ∀ g, o.source = .generator g → g.Asks) :
    Adds fs dir (Reported.Shows (FileContents.rule o) fs dir) (check o) := by
  refine Adds.dir_bind ((adds_expected asks).bind_of_returns fun expected given => ?_)
  refine (Adds.readIfThere (dir.join o.file)).bind fun actual => ?_
  split
  · exact .pure ()
  · refine .report fun long shown => ?_
    obtain rfl := Option.some.inj shown
    refine ⟨expected, actual, rfl, fun text same => .inr (.inl ⟨o, rfl, ?_⟩)⟩
    rwa [← same]

namespace StandardTsconfig

theorem isDocument_of_returns_render {template : Members} {excluded : PatternSet} {text : String}
    (h : Returns fs dir (render template excluded) text) : ∃ v : Json, text = v.canonical := by
  obtain ⟨names, -, h⟩ := h.of_bind
  obtain ⟨m, -, h⟩ := h.of_bind
  obtain ⟨dir, -, h⟩ := h.of_bind
  obtain ⟨found, -, h⟩ := h.of_bind
  exact ⟨_, h.of_pure.symm⟩

/-- What is not generated is the text of a document. -/
theorem wants_of_returns {o : Options} {text : String}
    (h : Returns fs dir o.expected (some text)) :
    (∃ v : Json, text = v.canonical) ∨ (StandardTsconfig.rule o).Wants fs dir text := by
  unfold Options.expected at h
  cases same : o.source with
  | generator g =>
    rw [same] at h
    exact .inr (.inr ⟨o, g, rfl, same, h⟩)
  | template members =>
    rw [same] at h
    obtain ⟨made, rendered, h⟩ := h.of_bind
    rw [← Option.some.inj h.of_pure]
    exact .inl (isDocument_of_returns_render rendered)
  | templateFile path =>
    rw [same] at h
    obtain ⟨path, -, h⟩ := h.of_bind
    obtain ⟨v, -, h⟩ := h.of_bind
    obtain ⟨members, -, h⟩ := h.of_bind
    obtain ⟨made, rendered, h⟩ := h.of_bind
    rw [← Option.some.inj h.of_pure]
    exact .inl (isDocument_of_returns_render rendered)

theorem adds_shows {o : Options} (asks : ∀ g, o.source = .generator g → g.Asks) :
    Adds fs dir (Reported.Shows (StandardTsconfig.rule o) fs dir) (check o) := by
  refine Adds.dir_bind ((adds_expected asks).bind_of_returns fun expected given => ?_)
  rcases expected with _ | text
  · exact .report nofun
  · refine (Adds.readIfThere (dir.entry tsconfigFile)).bind fun actual => ?_
    split
    · exact .pure ()
    · refine .report fun long shown => ?_
      obtain rfl := Option.some.inj shown
      refine ⟨some text, actual, rfl, fun _ same => ?_⟩
      obtain rfl := Option.some.inj same
      exact wants_of_returns given

end StandardTsconfig

/-- What the findings of a built-in rule show are diffs. -/
theorem Rule.BuiltIn.adds_shows (h : rule.BuiltIn) :
    Adds fs dir (Reported.Shows rule fs dir) rule.check := by
  cases h with
  | dependencies info rule => exact rule.adds_onBlock.mono fun r => Reported.OnBlock.shows
  | fileContents o asks => exact FileContents.adds_shows asks
  | standardTsconfig o asks => exact StandardTsconfig.adds_shows asks

/-! ## Fences in what is shown -/

/-- A line that closes a block shows a line of a text that the rule wants as it was written. -/
theorem Reported.Shows.fences {r : Reported} (h : r.Shows rule fs dir) {long : String}
    (shown : r.finding.longMessage = some long) :
    long.toList.getLast? = some '\n' ∧
    (∀ l ∈ Diff.lines long, Report.opensBlock l = false) ∧
    ∀ l ∈ Diff.lines long, Report.closesBlock l = true →
      ∃ text, rule.Wants fs dir text ∧ ∃ x ∈ Diff.lines text, l = Report.endLine (" " ++ x) := by
  obtain ⟨expected, actual, rfl, source⟩ := h long shown
  obtain ⟨ends, own⟩ := Diff.lines_text expected actual
  refine ⟨ends, fun l member => (own l member).not_opensBlock, fun l member closes => ?_⟩
  obtain ⟨x, there, same, fence⟩ := (own l member).exists_of_closesBlock closes
  rcases expected with _ | text
  · cases there
  rcases source text rfl with ⟨v, rfl⟩ | wants
  · exact absurd (Report.unfenced_canonical v x there) fence
  · exact ⟨text, wants, x, there, same⟩

end

end WorkspaceLint
