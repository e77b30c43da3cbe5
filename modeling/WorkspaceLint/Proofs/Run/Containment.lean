import WorkspaceLint.Proofs.Rule.Targets

/-!
# Where a run changes files

A run in fix mode changes files only where the fixers of its rules aim, each in a package that the
rule was selected for (`Selected`).  So with built-in rules every changed file lies inside such a
package, or a rule about file contents was given a file that does not go down from the package
(`inside_of_changed`).
-/

namespace WorkspaceLint

/-! ## Changed files -/

namespace Tree

variable {t t' : Tree} {p : Path}

theorem lookup_filter_not_same {q : Path} (other : ¬ q.same p = true) (fs : List (Path × String)) :
    lookup p (fs.filter fun f => !f.1.same q) = lookup p fs := by
  induction fs with
  | nil => rfl
  | cons f fs ih =>
    by_cases removed : f.1.same q = true
    · have apart : ¬ f.1.same p = true := by
        rw [Path.same_iff] at removed other ⊢
        rwa [removed]
      rw [List.filter_cons_of_neg (by simp [removed]), ih, lookup, if_neg apart]
    · rw [List.filter_cons_of_pos (by simp [removed]), lookup, lookup, ih]

theorem contents?_of_write {q : Path} {contents : String} (made : t.write q contents = .ok t')
    (other : ¬ q.same p = true) : t'.contents? p = t.contents? p := by
  obtain ⟨-, -, rfl⟩ := write_eq_ok_iff.1 made
  rw [contents?_withFile, if_neg other]

/-- A change leaves every file as it is but the one it is about. -/
theorem contents?_of_apply {op : FixOp} (made : op.apply t = .ok t')
    (other : ∀ q, op.file? = some q → ¬ q.same p = true) : t'.contents? p = t.contents? p := by
  cases op with
  | writeJson q value => exact contents?_of_write made (other q rfl)
  | writeFile q contents => exact contents?_of_write made (other q rfl)
  | setJsonKey q key value =>
    obtain ⟨v, -, made⟩ := bind_eq_ok_iff.1 made
    cases v with
    | object members => exact contents?_of_write made (other q rfl)
    | _ => cases made
  | createDirs q => rw [contents?, contents?, (createDirs_cases made).1]
  | removeFile q =>
    simp only [FixOp.apply] at made
    split at made
    · have removed : t.remove q = .ok t' := made
      unfold remove at removed
      split at removed
      · cases removed
      · rw [← Except.ok.inj removed]
        exact lookup_filter_not_same (other q rfl) t.files
    · rw [Except.ok.inj made]

theorem contents?_of_applied {ops : List FixOp} (h : FixOp.Applied t ops t')
    (other : ∀ op ∈ ops, ∀ q, FixOp.file? op = some q → ¬ q.same p = true) :
    t'.contents? p = t.contents? p := by
  induction h with
  | nil t => rfl
  | cons made rest ih =>
    obtain ⟨first, later⟩ := List.forall_mem_cons.1 other
    rw [ih later, contents?_of_apply made first]

end Tree

namespace Run

/-- A file that is about none of the fixers that are due stays as it is. -/
theorem Repaired.contents?_eq {t t' : Tree} {rs : List Registered} {records : List FindingRecord}
    {p : Path} (h : Repaired t rs records t')
    (other : ∀ r ∈ rs, ∀ fixer, r.due = some fixer →
      ∀ op ∈ fixer.ops, ∀ q, FixOp.file? op = some q → ¬ q.same p = true) :
    t'.contents? p = t.contents? p := by
  induction h with
  | nil t => rfl
  | left none rest ih => exact ih (List.forall_mem_cons.1 other).2
  | fixed due all rest ih =>
    obtain ⟨first, later⟩ := List.forall_mem_cons.1 other
    rw [ih later, Tree.contents?_of_applied all (first _ due)]
  | failed due before stuck rest ih =>
    obtain ⟨first, later⟩ := List.forall_mem_cons.1 other
    rw [ih later, Tree.contents?_of_applied before fun op made =>
      first _ due op (List.mem_append_left _ made)]

/-! ## Selected packages -/

section

variable {σ : Type} [FileSystem σ]

/-- The packages that a run selects a rule for: the root when the scope includes it, and the members
that are left by the wanted paths, when the scope applies to the name in the manifest as it is when
the run comes to the member. -/
inductive Selected (config : ResolvedConfig) (fs : σ) (root : Path) : RuleEntry → Path → Prop where
  | root {entry : RuleEntry} (rule : entry ∈ config.rules)
      (applies : entry.scope.appliesToRoot = true) : Selected config fs root entry root
  | member {entry : RuleEntry} {dirs before after : List Path} {dir : Path} {w : Workspace}
      {m : Manifest} (rule : entry ∈ config.rules)
      (enumerated : (runRoot config (start config fs) (.fresh root)).2.readDirs
        (runRoot config (start config fs) (.fresh root)).1.fs = (.ok dirs, w))
      (kept : selected root config.settings.paths dirs = before ++ dir :: after)
      (loaded : Package.load
        (runMembers config (runRoot config (start config fs) (.fresh root)).1 w before).1.fs dir =
          .ok m)
      (applies : entry.scope.appliesToMember m.name? = true) : Selected config fs root entry dir

theorem exists_of_mem_membersVisits {config : ResolvedConfig} {p : Progress σ} {w : Workspace}
    {dirs : List Path} {v : Visit σ} (h : v ∈ (membersVisits config p w dirs).flatten) :
    ∃ before dir after m, dirs = before ++ dir :: after ∧
      Package.load (runMembers config p w before).1.fs dir = .ok m ∧
      v.dir = dir ∧ v.entry ∈ rulesFor config m.name? := by
  induction dirs generalizing p w with
  | nil => cases h
  | cons dir dirs ih =>
    rw [membersVisits, List.flatten_cons, List.mem_append] at h
    rcases h with here | later
    · unfold memberVisits at here
      rcases hl : Package.load p.fs dir with e | m <;> rw [hl] at here
      · cases here
      · refine ⟨[], dir, dirs, m, rfl, hl, ?_, entry_mem_of_mem_ruleVisits here⟩
        rw [Visit.dir, ← Context.dir_opened, opened_of_mem_ruleVisits here]
        rfl
    · obtain ⟨before, dir', after, m, rfl, loaded, same, rule⟩ := ih later
      exact ⟨dir :: before, dir', after, m, rfl, loaded, same, rule⟩

/-- A run visits packages with the rules they are selected for. -/
theorem selected_of_mem_visits {config : ResolvedConfig} {fs : σ} {root : Path} {v : Visit σ}
    (h : v ∈ (visits config fs root).flatten) : Selected config fs root v.entry v.dir := by
  unfold visits at h
  rcases ho : Package.open? fs root with e | package <;> rw [ho] at h
  · cases h
  · simp only [List.flatten_cons, List.mem_append] at h
    rcases h with onRoot | onMember
    · have dir : v.dir = root := by
        rw [Visit.dir, ← Context.dir_opened, opened_of_mem_ruleVisits onRoot]
        rfl
      obtain ⟨rule, applies⟩ := List.mem_filter.1 (entry_mem_of_mem_ruleVisits onRoot)
      rw [dir]
      exact .root rule applies
    · rcases hd : (runRoot config (start config fs) (.fresh root)).2.readDirs
        (runRoot config (start config fs) (.fresh root)).1.fs with ⟨trouble | dirs, w⟩ <;>
        rw [hd] at onMember
      · cases onMember
      · obtain ⟨before, dir, after, m, kept, loaded, same, rule⟩ :=
          exists_of_mem_membersVisits onMember
        obtain ⟨rule, applies⟩ := List.mem_filter.1 rule
        rw [same]
        exact .member rule hd kept loaded applies

/-- Rules are asked on contexts without findings. -/
theorem Advance.clear {fix : Bool} {p p' : Progress σ} {vs : List (Visit σ)}
    (h : Advance fix p vs p') : ∀ v ∈ vs, v.context.findings = [] := by
  induction h with
  | done p => exact nofun
  | visit clear rest ih => exact List.forall_mem_cons.2 ⟨clear, ih⟩
  | skip unusable rest ih => exact ih
  | count rest ih => exact ih

end

/-! ## Built-in rules -/

variable {config : ResolvedConfig} {t : Tree} {root p : Path}

/-- A changed file is the one that a rule aims at in a package it is selected for. -/
theorem exists_selected_of_changed (fix : config.settings.fix = true)
    (changed : (run config t root).2.contents? p ≠ t.contents? p) :
    ∃ entry dir, Selected config t root entry dir ∧
      ∀ relative, Rule.AimsAt relative entry.rule → (dir.join relative).same p = true := by
  obtain ⟨q, advance, after, -⟩ := advance_run config t root
  have clear := advance.clear
  rw [fix] at advance
  obtain ⟨records, -, repaired⟩ := advance.repaired
  rw [after] at changed
  by_contra none
  refine changed (repaired.contents?_eq ?_)
  intro r registered fixer due op member file aims same
  obtain ⟨v, visited, found⟩ := List.mem_flatMap.1 registered
  obtain ⟨reported, there, rfl⟩ := List.mem_map.1 found
  have attached : reported.finding.fixer = some fixer := by
    unfold Registered.due at due
    split at due
    · exact due
    · cases due
  refine none ⟨v.entry, v.dir, selected_of_mem_visits visited, fun relative aimsAt => ?_⟩
  rcases aimsAt v.fs v.dir v.context rfl reported there with before | target
  · rw [clear v visited] at before
    cases before
  · rw [← target fixer attached op member file aims]
    exact same

/-- In fix mode with built-in rules, every file that a run changes lies inside a package that a rule
was selected for, or a rule about file contents was given a file that does not go down from there. -/
theorem inside_of_changed
    (builtin : ∀ entry ∈ config.rules,
      ∃ kind ∈ RuleKind.all, ∃ options, kind.bind options = .ok entry.rule)
    (fix : config.settings.fix = true)
    (changed : (run config t root).2.contents? p ≠ t.contents? p) :
    ∃ entry dir, Selected config t root entry dir ∧
      (p.Inside dir ∨ ∃ o, entry.rule = FileContents.rule o ∧ (dir.join o.file).same p = true ∧
        ¬ o.file.Descends) := by
  obtain ⟨entry, dir, selected, aims⟩ := exists_selected_of_changed fix changed
  have rule : entry ∈ config.rules := by
    cases selected with
    | root rule _ => exact rule
    | member rule _ _ _ _ => exact rule
  obtain ⟨kind, known, options, bound⟩ := builtin entry rule
  refine ⟨entry, dir, selected, ?_⟩
  rcases RuleKind.aimsAt_of_bind known bound with ⟨name, isName, aimsAt⟩ | ⟨o, same, aimsAt⟩
  · have target := (Path.same_iff.1 (aims _ aimsAt)).symm
    exact .inl ((Path.inside_join dir (Path.descends_of_isName isName)).congr target)
  · by_cases down : o.file.Descends
    · have target := (Path.same_iff.1 (aims _ aimsAt)).symm
      exact .inl ((Path.inside_join dir down).congr target)
    · exact .inr ⟨o, same, aims _ aimsAt, down⟩

/-- The rule that a file of every member holds a text. -/
def filling (file : String) : ResolvedConfig where
  rules := [⟨"file-contents", FileContents.rule ⟨⟨file⟩, .template "text"⟩, .allMembers⟩]
  settings := ⟨true, []⟩
  failures := []

/-- The options of that rule. -/
def fillingOptions (file : String) : Json :=
  .object [("file", .string file), ("template", .string "text")]

theorem bind_filling (file : String) : ∀ entry ∈ (filling file).rules,
    FileContents.kind.bind (some (fillingOptions file)) = .ok entry.rule := by
  intro entry rule
  rw [List.mem_singleton.1 rule]
  rfl

theorem bound_filling (file : String) : ∀ entry ∈ (filling file).rules,
    ∃ kind ∈ RuleKind.all, ∃ options, kind.bind options = .ok entry.rule := fun entry rule =>
  ⟨FileContents.kind, by simp [RuleKind.all], _, bind_filling file entry rule⟩

set_option maxRecDepth 20000 in
theorem inside_of_filling :
    ((run (filling "README") oneMember ⟨"/r"⟩).2.contents? ⟨"/r/a/README"⟩ ≠
      oneMember.contents? ⟨"/r/a/README"⟩) ∧
    ∃ entry dir, Selected (filling "README") oneMember ⟨"/r"⟩ entry dir ∧
      ((Path.mk "/r/a/README").Inside dir ∨ ∃ o, entry.rule = FileContents.rule o ∧
        (dir.join o.file).same ⟨"/r/a/README"⟩ = true ∧ ¬ o.file.Descends) := by
  have changed : (run (filling "README") oneMember ⟨"/r"⟩).2.contents? ⟨"/r/a/README"⟩ ≠
      oneMember.contents? ⟨"/r/a/README"⟩ := by decide +kernel
  exact ⟨changed, inside_of_changed (bound_filling "README") rfl changed⟩

set_option maxRecDepth 20000 in
/-- A file that starts with `..` is written next to the only package that its rule is selected
for. -/
theorem not_inside_of_filling :
    (∀ entry ∈ (filling "../x").rules,
      ∃ kind ∈ RuleKind.all, ∃ options, kind.bind options = .ok entry.rule) ∧
    (filling "../x").settings.fix = true ∧
    (run (filling "../x") oneMember ⟨"/r"⟩).2.contents? ⟨"/r/a/../x"⟩ = some "text" ∧
    oneMember.contents? ⟨"/r/a/../x"⟩ = none ∧
    ∀ entry dir, Selected (filling "../x") oneMember ⟨"/r"⟩ entry dir →
      ¬ (Path.mk "/r/a/../x").Inside dir := by
  refine ⟨bound_filling "../x", rfl, by decide +kernel, by decide +kernel, ?_⟩
  intro entry dir selected
  cases selected with
  | root rule applies =>
    rw [List.mem_singleton.1 rule] at applies
    cases applies
  | @member dirs before after _ w m rule enumerated kept loaded applies =>
    have members : ((runRoot (filling "../x") (start (filling "../x") oneMember)
        (.fresh ⟨"/r"⟩)).2.readDirs (runRoot (filling "../x") (start (filling "../x") oneMember)
        (.fresh ⟨"/r"⟩)).1.fs).1.toOption = some [⟨"/r/a"⟩] := by decide +kernel
    rw [enumerated] at members
    have all : dirs = before ++ dir :: after := kept
    have here : dir ∈ [(⟨"/r/a"⟩ : Path)] := by
      rw [← Option.some.inj members, all]
      exact List.mem_append_right _ List.mem_cons_self
    rw [List.mem_singleton.1 here]
    unfold Path.Inside
    decide

end Run

end WorkspaceLint
