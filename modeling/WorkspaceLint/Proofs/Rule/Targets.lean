import WorkspaceLint.Proofs.Path.Normal
import WorkspaceLint.Proofs.Rule.Settled

/-!
# What fixers aim at

A fixer of a built-in rule changes one file, which has the same relative path in every package: the
manifest, the `tsconfig.json`, or the file that options name.  This is read off the findings that a
check may add (`Check.Adds`), whatever its context keeps.
-/

namespace WorkspaceLint

/-! ## Findings that a check adds -/

namespace Check

variable {σ α β : Type} [FileSystem σ]

/-- A check of the package in a directory adds only findings with a property. -/
def Adds (fs : σ) (dir : Path) (P : Reported → Prop) (x : Check α) : Prop :=
  ∀ c : Context, c.dir = dir → ∀ r ∈ (x.run fs c).2.findings, r ∈ c.findings ∨ P r

/-- A check of the package in a directory can give a result. -/
def Returns (fs : σ) (dir : Path) (x : Check α) (a : α) : Prop :=
  ∃ c : Context, c.dir = dir ∧ (x.run fs c).1 = .ok a

namespace Adds

variable {fs : σ} {dir : Path} {P : Reported → Prop} {x : Check α} {f : α → Check β}

theorem mono {Q : Reported → Prop} (h : Adds fs dir P x) (le : ∀ r, P r → Q r) :
    Adds fs dir Q x := fun c here r there => (h c here r there).imp_right (le r)

theorem pure (a : α) : Adds fs dir P (Pure.pure a : Check α) := fun _ _ _ there => .inl there

theorem ofExcept (r : Except RuleError α) : Adds fs dir P (Check.ofExcept r) :=
  fun _ _ _ there => .inl there

theorem report {severity : Severity} {finding : Finding} (h : P ⟨severity, finding⟩) :
    Adds fs dir P (Check.report severity finding) := by
  intro c _ r there
  have added : (c.add severity finding).findings = c.findings ++ [⟨severity, finding⟩] := by
    cases c <;> rfl
  have member : r ∈ (c.add severity finding).findings := there
  rw [added, List.mem_append, List.mem_singleton] at member
  refine member.imp_right fun same => ?_
  rw [same]
  exact h

/-- A question that reports nothing adds nothing. -/
theorem ask (q : Question) (quiet : ∀ c : Context, (c.answer fs q).2.bare = c.bare) :
    Adds fs dir P (Check.ask q) := by
  intro c _ r there
  have same : (c.answer fs q).2.findings = c.findings := by
    rw [← Context.findings_bare, quiet, Context.findings_bare]
  have member : r ∈ (c.answer fs q).2.findings := there
  exact .inl (same ▸ member)

/-- What follows has to be known for the results that a check can give. -/
theorem bind_of_returns (h : Adds fs dir P x)
    (h' : ∀ a, Returns fs dir x a → Adds fs dir P (f a)) : Adds fs dir P (x >>= f) := by
  intro c here r there
  rw [run_bind] at there
  have first := h c here
  have same := (dir_run_snd x fs c).trans here
  rcases hx : x.run fs c with ⟨e | a, c'⟩ <;> rw [hx] at there first same
  · exact first r there
  · have result : (x.run fs c).1 = .ok a := by rw [hx]
    rcases h' a ⟨c, here, result⟩ c' same r there with before | new
    · exact first r before
    · exact .inr new

theorem bind (h : Adds fs dir P x) (h' : ∀ a, Adds fs dir P (f a)) :
    Adds fs dir P (x >>= f) := h.bind_of_returns fun a _ => h' a

/-- What follows after the directory was asked for. -/
theorem dir_bind {f : Path → Check β} (h : Adds fs dir P (f dir)) :
    Adds fs dir P (Check.dir >>= f) := by
  intro c here r there
  rw [run_bind] at there
  have asked : Check.dir.run fs c = (.ok dir, c) := by
    rw [← here]
    rfl
  rw [asked] at there
  exact h c here r there

theorem asked (q : Question) (quiet : ∀ c : Context, (c.answer fs q).2.bare = c.bare)
    {f : q.Answer → Except RuleError β} :
    Adds fs dir P (Check.ask q >>= fun a => Check.ofExcept (f a)) :=
  (ask q quiet).bind fun _ => ofExcept _

theorem manifest : Adds fs dir P Check.manifest :=
  asked .manifest fun c => c.bare_answer_snd fs .manifest

theorem rootManifest : Adds fs dir P Check.rootManifest :=
  asked .rootManifest fun c => c.bare_answer_snd fs .rootManifest

theorem memberNames : Adds fs dir P Check.memberNames :=
  asked .memberNames fun c => c.bare_answer_snd fs .memberNames

theorem workspacePath (relative : Path) : Adds fs dir P (Check.workspacePath relative) :=
  (asked .workspaceDir fun c => c.bare_answer_snd fs .workspaceDir).bind fun _ => pure _

theorem read (path : Path) : Adds fs dir P (Check.read path) :=
  asked (.read path) fun c => c.bare_answer_snd fs (.read path)

theorem readFor (purpose : Purpose) (path : Path) : Adds fs dir P (Check.readFor purpose path) :=
  asked (.read path) fun c => c.bare_answer_snd fs (.read path)

theorem readIfThere (path : Path) : Adds fs dir P (Check.readIfThere path) := by
  refine (ask (.contains path) fun c => c.bare_answer_snd fs (.contains path)).bind fun there => ?_
  split
  · exact (read path).bind fun _ => pure _
  · exact pure _

end Adds

end Check

/-- A generator asks and reports nothing. -/
def Generator.Asks (g : Generator) : Prop :=
  ∀ {σ : Type} [FileSystem σ] (fs : σ) (dir : Path) (P : Reported → Prop),
    Check.Adds fs dir P g.generate

/-! ## Targets -/

/-- The file that a change writes or removes. -/
def FixOp.file? : FixOp → Option Path
  | writeJson path _ => some path
  | setJsonKey path _ _ => some path
  | writeFile path _ => some path
  | createDirs _ => none
  | removeFile path => some path

/-- The fixer of a finding changes no file but the one at a path. -/
def Reported.AimsAt (path : Path) (r : Reported) : Prop :=
  ∀ fixer, r.finding.fixer = some fixer →
    ∀ op ∈ fixer.ops, ∀ q, FixOp.file? op = some q → q = path

/-- A finding on a block of a manifest shows what its fixer writes. -/
def Reported.OnBlock (path : Path) (r : Reported) : Prop :=
  ∃ key expected actual, r.finding.fixer = some ⟨[.setJsonKey path key expected]⟩ ∧
    r.finding.longMessage = some (Diff.json expected actual)

/-- The fixers of a rule change, in each package, no file but the one at a relative path. -/
def Rule.AimsAt (relative : Path) (rule : Rule) : Prop :=
  ∀ {σ : Type} [FileSystem σ] (fs : σ) (dir : Path),
    Check.Adds fs dir (Reported.AimsAt (dir.join relative)) rule.check

theorem Reported.aimsAt_of_ops {path : Path} {severity : Severity} {finding : Finding}
    {ops : List FixOp} (fixer : finding.fixer = some ⟨ops⟩)
    (h : ∀ op ∈ ops, ∀ q, FixOp.file? op = some q → q = path) :
    Reported.AimsAt path ⟨severity, finding⟩ := by
  intro other same op member q aims
  obtain rfl := Option.some.inj (fixer.symm.trans same)
  exact h op member q aims

section

variable {σ : Type} [FileSystem σ] {fs : σ} {dir path : Path}

open Check

theorem adds_reportEach {P : Reported → Prop} {find : DependencyKind → Option Finding}
    (own : ∀ kind f, find kind = some f → P ⟨.error, f⟩)
    {report : List DependencyKind → Check Unit} (nil : report [] = pure ())
    (cons : ∀ kind kinds, report (kind :: kinds) = do
      match find kind with
      | some f => Check.report .error f
      | none => pure ()
      report kinds)
    (kinds : List DependencyKind) : Adds fs dir P (report kinds) := by
  induction kinds with
  | nil =>
    rw [nil]
    exact .pure ()
  | cons kind kinds ih =>
    rw [cons]
    rcases found : find kind with _ | f
    · show Adds fs dir _ ((pure () : Check Unit) >>= fun _ => report kinds)
      exact (Adds.pure ()).bind fun _ => ih
    · show Adds fs dir _ (Check.report .error f >>= fun _ => report kinds)
      exact (Adds.report (own kind f found)).bind fun _ => ih

theorem BannedDependencies.onBlock_of_blockFinding? {m : Manifest} {banned : PatternSet}
    {kind : DependencyKind} {f : Finding} (found : blockFinding? path m banned kind = some f) :
    Reported.OnBlock path ⟨.error, f⟩ := by
  simp only [blockFinding?, Option.bind_eq_bind, Option.bind_eq_some_iff] at found
  obtain ⟨actual, -, kept⟩ := found
  split at kept
  · cases kept
  · rw [← Option.some.inj kept]
    exact ⟨kind.key, _, _, rfl, rfl⟩

theorem ConsistentDependencies.onBlock_of_blockFinding? {m root : Manifest} {kind : DependencyKind}
    {f : Finding} (found : blockFinding? path m root kind = some f) :
    Reported.OnBlock path ⟨.error, f⟩ := by
  simp only [blockFinding?, Option.bind_eq_bind, Option.bind_eq_some_iff] at found
  obtain ⟨actual, -, rootBlock, -, changed⟩ := found
  split at changed
  · cases changed
  · rw [← Option.some.inj changed]
    exact ⟨kind.key, _, _, rfl, rfl⟩

theorem Reported.OnBlock.aimsAt {r : Reported} (h : r.OnBlock path) : Reported.AimsAt path r := by
  obtain ⟨key, expected, actual, fixer, -⟩ := h
  obtain ⟨severity, finding⟩ := r
  refine Reported.aimsAt_of_ops fixer ?_
  intro op member q aims
  rw [List.mem_singleton.1 member] at aims
  exact (Option.some.inj aims).symm

theorem FileContents.aimsAt_finding (path : Path) (expected actual : Option String) :
    Reported.AimsAt path ⟨.error, finding path expected actual⟩ := by
  intro fixer same op member q aims
  obtain rfl := Option.some.inj same
  rcases expected with _ | text
  · rw [List.mem_singleton.1 member] at aims
    exact (Option.some.inj aims).symm
  · rcases List.mem_append.1 member with parents | write
    · obtain ⟨parent, -, rfl⟩ := Option.map_eq_some_iff.1 (Option.mem_toList.1 parents)
      cases aims
    · rw [List.mem_singleton.1 write] at aims
      exact (Option.some.inj aims).symm

theorem StandardTsconfig.aimsAt_finding (path : Path) (text : String) (actual : Option String) :
    Reported.AimsAt path ⟨.error, finding path text actual⟩ := by
  refine Reported.aimsAt_of_ops rfl ?_
  intro op member q aims
  rw [List.mem_singleton.1 member] at aims
  exact (Option.some.inj aims).symm

end

/-! ## Built-in rules -/

open Check

theorem DependencyRule.adds_onBlock {σ : Type} [FileSystem σ] {fs : σ} {dir : Path}
    (rule : DependencyRule) : Adds fs dir (Reported.OnBlock dir.manifest) rule.check := by
  cases rule with
  | consistent =>
    refine Adds.bind .rootManifest fun root => ?_
    refine Adds.bind .manifest fun m => ?_
    exact Adds.dir_bind (adds_reportEach
      (fun _ _ found => ConsistentDependencies.onBlock_of_blockFinding? found) rfl
      (fun _ _ => rfl) ConsistentDependencies.blocks)
  | banned names =>
    refine Adds.bind .manifest fun m => ?_
    exact Adds.dir_bind (adds_reportEach
      (fun _ _ found => BannedDependencies.onBlock_of_blockFinding? found) rfl
      (fun _ _ => rfl) DependencyKind.all)

theorem DependencyRule.aimsAt_manifest (rule : DependencyRule) {info : RuleInfo} :
    Rule.AimsAt ⟨manifestFile⟩ ⟨info, rule.check⟩ := fun _ _ =>
  rule.adds_onBlock.mono fun _ => Reported.OnBlock.aimsAt

section

variable {σ : Type} [FileSystem σ] {fs : σ} {dir : Path} {P : Reported → Prop}

theorem FileContents.adds_expected {s : Source} (asks : ∀ g, s = .generator g → g.Asks) :
    Adds fs dir P s.expected := by
  cases s with
  | generator g => exact asks g rfl fs dir P
  | template text => exact .pure (some text)
  | templateFile path =>
    exact (Adds.workspacePath path).bind fun path =>
      (Adds.readFor .template path).bind fun text => .pure (some text)

theorem StandardTsconfig.adds_render (template : Members) (excluded : PatternSet) :
    Adds fs dir P (render template excluded) := by
  refine Adds.memberNames.bind fun names => ?_
  refine Adds.manifest.bind fun m => ?_
  refine Adds.dir_bind (Adds.bind (.ofExcept _) fun found => ?_)
  exact .pure _

theorem StandardTsconfig.adds_expected {o : Options}
    (asks : ∀ g, o.source = .generator g → g.Asks) : Adds fs dir P o.expected := by
  unfold Options.expected
  cases same : o.source with
  | generator g => exact asks g same fs dir P
  | template template => exact (adds_render template o.excluded).bind fun text => .pure (some text)
  | templateFile path =>
    refine (Adds.workspacePath path).bind fun path => ?_
    refine Adds.bind ?_ fun v => ?_
    · exact (Adds.readFor .tsconfigTemplate path).bind fun text => .ofExcept _
    refine Adds.bind (.ofExcept _) fun members => ?_
    exact (adds_render members o.excluded).bind fun text => .pure (some text)

end

theorem FileContents.aimsAt_file {o : Options} (asks : ∀ g, o.source = .generator g → g.Asks) :
    Rule.AimsAt o.file (rule o) := by
  intro σ _ fs dir
  refine Adds.dir_bind ((adds_expected asks).bind fun expected => ?_)
  refine (Adds.readIfThere (dir.join o.file)).bind fun actual => ?_
  split
  · exact .pure ()
  · exact .report (aimsAt_finding _ expected actual)

theorem FileContents.asks_of_readFrom {v : Json} {o : Options} (read : readFrom v = .ok o) :
    ∀ g, o.source = .generator g → g.Asks := by
  intro g generated
  rcases source_of_readFrom read with ⟨text, same⟩ | ⟨path, same⟩ <;>
    rw [same] at generated <;> cases generated

theorem StandardTsconfig.aimsAt_tsconfig {o : Options}
    (asks : ∀ g, o.source = .generator g → g.Asks) : Rule.AimsAt ⟨tsconfigFile⟩ (rule o) := by
  intro σ _ fs dir
  refine Adds.dir_bind ((adds_expected asks).bind fun expected => ?_)
  rcases expected with _ | text
  · exact .report nofun
  · refine (Adds.readIfThere (dir.entry tsconfigFile)).bind fun actual => ?_
    split
    · exact .pure ()
    · exact .report (aimsAt_finding _ text actual)

theorem StandardTsconfig.asks_of_readFrom {v : Json} {o : Options} (read : readFrom v = .ok o) :
    ∀ g, o.source = .generator g → g.Asks := by
  intro g generated
  rcases source_of_readFrom read with ⟨template, same⟩ | ⟨path, same⟩ <;>
    rw [same] at generated <;> cases generated

/-- Every built-in rule changes a file inside the package or the file that its options name. -/
theorem RuleKind.aimsAt_of_bind {kind : RuleKind} {options : Option Json} {rule : Rule}
    (known : kind ∈ all) (bound : kind.bind options = .ok rule) :
    (∃ name, Path.IsName name ∧ rule.AimsAt ⟨name⟩) ∨
      ∃ o, rule = FileContents.rule o ∧ rule.AimsAt o.file := by
  have made := checkFor_of_bind bound
  have info : rule.info = kind.info := by
    simp only [bind, bind_eq_ok_iff] at bound
    obtain ⟨-, -, check, -, same⟩ := bound
    rw [← Except.ok.inj same]
  obtain ⟨_, check⟩ := rule
  simp only [all, List.mem_cons, List.not_mem_nil, or_false] at known
  obtain rfl | rfl | rfl | rfl := known
  · obtain ⟨names, -, rfl⟩ := map_eq_ok_iff.1 made
    exact .inl ⟨manifestFile, isName_manifestFile, (DependencyRule.banned names).aimsAt_manifest⟩
  · obtain rfl := Except.ok.inj made
    exact .inl ⟨manifestFile, isName_manifestFile, DependencyRule.consistent.aimsAt_manifest⟩
  · obtain ⟨o, read, rfl⟩ := map_eq_ok_iff.1 made
    obtain rfl := info
    exact .inr ⟨o, rfl, FileContents.aimsAt_file (FileContents.asks_of_readFrom read)⟩
  · obtain ⟨o, read, rfl⟩ := map_eq_ok_iff.1 made
    exact .inl ⟨StandardTsconfig.tsconfigFile, isName_tsconfigFile,
      StandardTsconfig.aimsAt_tsconfig (StandardTsconfig.asks_of_readFrom read)⟩

end WorkspaceLint
