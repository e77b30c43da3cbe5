import WorkspaceLint.Proofs.Report.Blocks
import WorkspaceLint.Proofs.Rule.Diffs
import WorkspaceLint.Proofs.Run.Containment
import WorkspaceLint.Proofs.Run.DryRun

/-!
# Diffs in the report of a run

Every record of a run is about something that a visit found (`Advance.exists_found`), so with
built-in rules the long messages are diffs.  A reader of the report in Markdown finds them as its
blocks unless a line break got into a name or a message, or some line of a text that somebody wrote
for a file is a fence and stands in its diff as a shared line (`blocks_of_run`).
-/

namespace WorkspaceLint

namespace Run

variable {σ : Type} [FileSystem σ]

theorem exists_of_mem_settleAll {fix : Bool} {name : String} {dir : Path} {fs : σ}
    {rs : List Reported} {f : FindingRecord} (h : f ∈ (settleAll fix name dir fs rs).2) :
    ∃ r ∈ rs, f.untried = recordOf name dir r := by
  induction rs generalizing fs with
  | nil => cases h
  | cons r rs ih =>
    rcases List.mem_cons.1 h with rfl | later
    · exact ⟨r, List.mem_cons_self, untried_settle fix name dir fs r⟩
    · obtain ⟨r', there, same⟩ := ih later
      exact ⟨r', List.mem_cons_of_mem r there, same⟩

/-- Every new record is about something that a visit found. -/
theorem Advance.exists_found {fix : Bool} {p p' : Progress σ} {vs : List (Visit σ)}
    (h : Advance fix p vs p') {f : FindingRecord} (recorded : f ∈ p'.findings) :
    f ∈ p.findings ∨ ∃ v ∈ vs, ∃ r ∈ v.found, f.untried = recordOf v.entry.name v.dir r := by
  induction h with
  | done p => exact .inl recorded
  | @visit p p' c entry vs clear rest ih =>
    rcases ih recorded with before | ⟨v, visited, later⟩
    · refine (List.mem_append.1 before).imp_right fun new => ?_
      exact ⟨⟨p.fs, c, entry⟩, List.mem_cons_self, exists_of_mem_settleAll new⟩
    · exact .inr ⟨v, List.mem_cons_of_mem _ visited, later⟩
  | skip unusable rest ih => exact ih recorded
  | count rest ih => exact ih recorded

section

variable {config : ResolvedConfig} {fs : σ} {root : Path} {o : Outcome}

/-- What a record of a run with built-in rules shows was found on a visit. -/
theorem exists_shows_of_run (builtIn : ∀ entry ∈ config.rules, entry.rule.BuiltIn)
    (ok : (run config fs root).1 = .ok o) {f : FindingRecord} (recorded : f ∈ o.findings) :
    ∃ v ∈ (visits config fs root).flatten, v.entry ∈ config.rules ∧ f.rule = v.entry.name ∧
      ∃ r : Reported, r.Shows v.entry.rule v.fs v.dir ∧
        f.longMessage = r.finding.longMessage := by
  obtain ⟨p, advance, -, outcome⟩ := advance_run config fs root
  rw [outcome o ok] at recorded
  obtain old | ⟨v, visited, r, found, same⟩ := advance.exists_found recorded
  · cases old
  have rule : v.entry ∈ config.rules := by
    cases selected_of_mem_visits visited with
    | root rule _ => exact rule
    | member rule _ _ _ _ => exact rule
  refine ⟨v, visited, rule, congrArg FindingRecord.rule same, r, ?_,
    congrArg FindingRecord.longMessage same⟩
  refine ((builtIn _ rule).adds_shows v.context rfl r found).resolve_left fun before => ?_
  rw [advance.clear v visited] at before
  cases before

/-- The blocks of the report of a run with built-in rules are its diffs exactly when no line outside
of them opens a block and none of their own closes one.  No line outside does if none of the texts
shown there has a break; and a line that closes a block is, after a blank, a line of a text that a
rule wants in a file as it was written. -/
theorem blocks_of_run (builtIn : ∀ entry ∈ config.rules, entry.rule.BuiltIn)
    (ok : (run config fs root).1 = .ok o) (tool : ToolInfo) :
    (Report.blocks (o.report tool).markdown = o.findings.filterMap (·.longMessage) ↔
      (∀ l ∈ Diff.lines (o.report tool).brief.markdown, Report.opensBlock l = false) ∧
      ∀ long ∈ o.findings.filterMap (·.longMessage),
        ∀ l ∈ Diff.lines long, Report.closesBlock l = false) ∧
    ((∀ f ∈ o.findings, Report.OneLine f) → (∀ f ∈ o.failures, Report.OneLineFailure f) →
      ∀ l ∈ Diff.lines (o.report tool).brief.markdown, Report.opensBlock l = false) ∧
    ∀ f ∈ o.findings, ∀ long, f.longMessage = some long →
      ∀ l ∈ Diff.lines long, Report.closesBlock l = true →
        ∃ v ∈ (visits config fs root).flatten, v.entry ∈ config.rules ∧ f.rule = v.entry.name ∧
          ∃ text, v.entry.rule.Wants v.fs v.dir text ∧
            ∃ x ∈ Diff.lines text, l = Report.endLine (" " ++ x) := by
  have findings : (o.report tool).findings = o.findings := rfl
  have shown {long : String} (member : long ∈ o.findings.filterMap (·.longMessage)) :
      long.toList.getLast? = some '\n' ∧ ∀ l ∈ Diff.lines long, Report.opensBlock l = false := by
    obtain ⟨f, recorded, own⟩ := List.mem_filterMap.1 member
    obtain ⟨v, -, -, -, r, shows, same⟩ := exists_shows_of_run builtIn ok recorded
    obtain ⟨ends, unopened, -⟩ := shows.fences (same.symm.trans own)
    exact ⟨ends, unopened⟩
  refine ⟨?_, fun recorded failed => ?_, fun f recorded long own l member closes => ?_⟩
  · exact Report.blocks_markdown_iff (r := o.report tool) (fun long member => (shown member).1)
      fun long member => (shown member).2
  · exact Report.Unbroken.not_opensBlock ⟨Report.break_not_mem_reasons _, recorded, failed⟩
  · obtain ⟨v, visited, rule, name, r, shows, same⟩ := exists_shows_of_run builtIn ok recorded
    obtain ⟨-, -, closing⟩ := shows.fences (same.symm.trans own)
    obtain ⟨text, wants, x, there, line⟩ := closing l member closes
    exact ⟨v, visited, rule, name, text, wants, x, there, line⟩

end

/-- The rule that the readme of every member holds a text. -/
def readmes (text : String) : ResolvedConfig where
  rules := [⟨"file-contents", FileContents.rule ⟨⟨"README.md"⟩, .template text⟩, .allMembers⟩]
  settings := ⟨false, []⟩
  failures := []

/-- A workspace with one member that has a readme. -/
def memberWithReadme (text : String) : Tree where
  files := [(⟨"/r/a/README.md"⟩, text),
    jsonFile "/r/a/package.json" (.object [("name", .string "a")]),
    jsonFile "/r/package.json" (.object [("workspaces", .array [.string "a"])])]
  dirs := []

/-- The outcome for a readme that does not hold the text, with its diff. -/
def readmeFound (diff : String) : Outcome where
  mode := .check
  findings := [⟨"file-contents", .error, ⟨"/r/a"⟩, ⟨"/r/a/README.md"⟩,
    "Expect file contents to match", some diff, true, false, none⟩]
  failures := []
  packagesChecked := 1

theorem bind_readme (text : String) :
    FileContents.kind.bind (some (.object
      [("file", .string "README.md"), ("template", .string text)])) =
      .ok (FileContents.rule ⟨⟨"README.md"⟩, .template text⟩) := rfl

theorem builtIn_readmes (text : String) : ∀ entry ∈ (readmes text).rules, entry.rule.BuiltIn := by
  intro entry rule
  rw [List.mem_singleton.1 rule]
  exact RuleKind.builtIn_of_bind (by simp [RuleKind.all]) (bind_readme text)

/-- The diff of a line that was replaced is the block of the report. -/
theorem blocks_of_readmes :
    let o := readmeFound "--- original\n+++ modified\n@@ -1,2 +1,2 @@\n # a\n-old\n+new\n"
    (run (readmes "# a\nnew\n") (memberWithReadme "# a\nold\n") ⟨"/r"⟩).1 = .ok o ∧
    Report.blocks (o.report ⟨"monolint", none⟩).markdown = o.findings.filterMap (·.longMessage) := by
  have ok : (run (readmes "# a\nnew\n") (memberWithReadme "# a\nold\n") ⟨"/r"⟩).1 =
      .ok (readmeFound "--- original\n+++ modified\n@@ -1,2 +1,2 @@\n # a\n-old\n+new\n") :=
    eq_ok_of_toOption_eq (by decide +kernel)
  obtain ⟨blocks, unopened, -⟩ := blocks_of_run (builtIn_readmes _) ok ⟨"monolint", none⟩
  refine ⟨ok, blocks.2 ⟨unopened ?_ ?_, ?_⟩⟩
  · exact List.forall_mem_singleton.2
      ⟨by decide +kernel, by decide +kernel, by decide +kernel, nofun⟩
  · exact List.forall_mem_nil _
  · decide +kernel

/-- A shared line that is a fence ends the block of its diff. -/
theorem not_blocks_of_readmes :
    ¬ ∀ (config : ResolvedConfig) (t : Tree) (root : Path) (o : Outcome) (tool : ToolInfo),
      (∀ entry ∈ config.rules, entry.rule.BuiltIn) → (run config t root).1 = .ok o →
        Report.blocks (o.report tool).markdown = o.findings.filterMap (·.longMessage) := by
  intro claim
  let o := readmeFound
    "--- original\n+++ modified\n@@ -1,3 +1,3 @@\n ```\n-npm i\n+npm ci\n ```\n"
  have ok : (run (readmes "```\nnpm ci\n```\n") (memberWithReadme "```\nnpm i\n```\n") ⟨"/r"⟩).1 =
      .ok o := eq_ok_of_toOption_eq (by decide +kernel)
  have read := claim _ _ _ o ⟨"monolint", none⟩ (builtIn_readmes _) ok
  have shut := ((Report.blocks_markdown_iff (r := o.report ⟨"monolint", none⟩) (by decide +kernel)
    (by decide +kernel)).1 read).2
  revert shut
  decide +kernel

end Run

end WorkspaceLint
