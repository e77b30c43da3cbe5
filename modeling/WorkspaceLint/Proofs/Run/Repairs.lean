import WorkspaceLint.Proofs.Run.Visits

/-!
# What a run in fix mode changes

The only changes of a run are those of fixers.  `FixOp.Applied` says that changes were made one after
the other, and `Repaired` what becomes of findings whose fixers are tried in order: which changes
were made, and what the records say about it.  A run that ends with an outcome has repaired the
findings that its visits registered.  A run that ends with an error has repaired those on the root,
and no report says so.
-/

namespace WorkspaceLint

variable {σ : Type} [FileSystem σ]

/-! ## Changes in order -/

/-- Changes that can all be made lead from one file system to another. -/
inductive FixOp.Applied : σ → List FixOp → σ → Prop where
  | nil (fs : σ) : Applied fs [] fs
  | cons {fs fs₁ fs₂ : σ} {op : FixOp} {ops : List FixOp} (made : op.apply fs = .ok fs₁)
      (rest : Applied fs₁ ops fs₂) : Applied fs (op :: ops) fs₂

namespace Fixer

open FixOp

/-- A fixer succeeds when all of its changes can be made. -/
theorem applied_of_applyOps {fs fs' : σ} {ops : List FixOp} (h : applyOps fs ops = (fs', none)) :
    Applied fs ops fs' := by
  induction ops generalizing fs with
  | nil =>
    rw [← (Prod.mk.inj h).1]
    exact .nil fs
  | cons op ops ih =>
    rw [applyOps] at h
    rcases ho : op.apply fs with trouble | fs₁
    · simp [ho] at h
    · rw [ho] at h
      exact .cons ho (ih h)

/-- A fixer that fails has made the changes before the first that cannot be made. -/
theorem exists_applied_of_applyOps {fs fs' : σ} {ops : List FixOp} {trouble : Trouble}
    (h : applyOps fs ops = (fs', some trouble)) :
    ∃ made op unmade, ops = made ++ op :: unmade ∧ Applied fs made fs' ∧
      op.apply fs' = .error trouble := by
  induction ops generalizing fs with
  | nil => cases h
  | cons op ops ih =>
    rw [applyOps] at h
    rcases ho : op.apply fs with trouble' | fs₁
    · rw [ho] at h
      obtain ⟨rfl, why⟩ := Prod.mk.inj h
      exact ⟨[], op, ops, rfl, .nil fs, by rw [ho, Option.some.inj why]⟩
    · rw [ho] at h
      obtain ⟨made, op', unmade, rfl, applied, failed⟩ := ih h
      exact ⟨op :: made, op', unmade, rfl, .cons ho applied, failed⟩

end Fixer

namespace Run

/-! ## Findings with their fixers -/

/-- A finding that a rule registered on a package. -/
structure Registered where
  rule : String
  dir : Path
  reported : Reported

namespace Registered

/-- The record of a finding before its fixer is tried. -/
def record (r : Registered) : FindingRecord := recordOf r.rule r.dir r.reported

/-- The fixer that fix mode owes to a finding: that of an error. -/
def due (r : Registered) : Option Fixer :=
  if r.reported.severity = .error then r.reported.finding.fixer else none

end Registered

/-- Findings are repaired in order: the fixer of every error is tried once, whatever became of those
before it.  The record of a finding says whether all changes of its fixer were made or why the first
one that was not could not be made; without a fixer that is due it says neither. -/
inductive Repaired : σ → List Registered → List FindingRecord → σ → Prop where
  | nil (fs : σ) : Repaired fs [] [] fs
  | left {fs fs' : σ} {r : Registered} {rs : List Registered} {records : List FindingRecord}
      (none : r.due = none) (rest : Repaired fs rs records fs') :
      Repaired fs (r :: rs) (r.record :: records) fs'
  | fixed {fs fs₁ fs' : σ} {r : Registered} {rs : List Registered} {records : List FindingRecord}
      {fixer : Fixer} (due : r.due = some fixer) (all : FixOp.Applied fs fixer.ops fs₁)
      (rest : Repaired fs₁ rs records fs') :
      Repaired fs (r :: rs) ({ r.record with fixed := true } :: records) fs'
  | failed {fs fs₁ fs' : σ} {r : Registered} {rs : List Registered} {records : List FindingRecord}
      {made unmade : List FixOp} {op : FixOp} {trouble : Trouble}
      (due : r.due = some ⟨made ++ op :: unmade⟩) (before : FixOp.Applied fs made fs₁)
      (stuck : op.apply fs₁ = .error trouble) (rest : Repaired fs₁ rs records fs') :
      Repaired fs (r :: rs) ({ r.record with fixError := some trouble.message } :: records) fs'

namespace Repaired

theorem append {fs fs₁ fs' : σ} {rs rs' : List Registered} {records records' : List FindingRecord}
    (h : Repaired fs rs records fs₁) (h' : Repaired fs₁ rs' records' fs') :
    Repaired fs (rs ++ rs') (records ++ records') fs' := by
  induction h with
  | nil fs => exact h'
  | left none rest ih => exact .left none (ih h')
  | fixed due all rest ih => exact .fixed due all (ih h')
  | failed due before stuck rest ih => exact .failed due before stuck (ih h')

/-- Where no fixer is due, nothing changes. -/
theorem eq_of_due_eq_none {fs fs' : σ} {rs : List Registered} {records : List FindingRecord}
    (h : Repaired fs rs records fs') (none : ∀ r ∈ rs, r.due = none) : fs' = fs := by
  induction h with
  | nil fs => rfl
  | left _ rest ih => exact ih fun r hr => none r (List.mem_cons_of_mem _ hr)
  | fixed due _ _ _ =>
    rw [none _ List.mem_cons_self] at due
    cases due
  | failed due _ _ _ _ =>
    rw [none _ List.mem_cons_self] at due
    cases due

end Repaired

/-! ## Repairs of a run -/

/-- The findings of a rule are repaired in the order in which it reported them. -/
theorem repaired_settleAll (name : String) (dir : Path) (fs : σ) (rs : List Reported) :
    Repaired fs (rs.map (Registered.mk name dir)) (settleAll true name dir fs rs).2
      (settleAll true name dir fs rs).1 := by
  induction rs generalizing fs with
  | nil => exact .nil fs
  | cons r rs ih =>
    have due : Registered.due ⟨name, dir, r⟩ = fixerToTry true r := by
      simp only [Registered.due, fixerToTry, Bool.true_and, decide_eq_true_eq]
    rw [settleAll, settle]
    rcases hf : fixerToTry true r with _ | fixer
    · exact .left (due.trans hf) (ih fs)
    · rcases ha : fixer.apply fs with ⟨fs₁, _ | trouble⟩
      · simp only [ha]
        exact .fixed (due.trans hf) (Fixer.applied_of_applyOps ha) (ih fs₁)
      · obtain ⟨made, op, unmade, parts, before, stuck⟩ := Fixer.exists_applied_of_applyOps ha
        have owed : Registered.due ⟨name, dir, r⟩ = some ⟨made ++ op :: unmade⟩ := by
          rw [due, hf, ← parts]
        simp only [ha]
        exact .failed owed before stuck (ih fs₁)

/-- The findings that a visit registers. -/
def Visit.registered (v : Visit σ) : List Registered :=
  v.found.map (Registered.mk v.entry.name v.dir)

/-- The findings that a run registers, in the order of its report. -/
def registered (config : ResolvedConfig) (fs : σ) (root : Path) : List Registered :=
  (visits config fs root).flatten.flatMap Visit.registered

/-- Over its visits a run repairs what they register, and records it. -/
theorem Advance.repaired {p p' : Progress σ} {vs : List (Visit σ)} (h : Advance true p vs p') :
    ∃ records, p'.findings = p.findings ++ records ∧
      Repaired p.fs (vs.flatMap Visit.registered) records p'.fs := by
  induction h with
  | done p => exact ⟨[], (List.append_nil _).symm, .nil p.fs⟩
  | @visit p p' c entry vs clear rest ih =>
    obtain ⟨records, found, repaired⟩ := ih
    let v : Visit σ := ⟨p.fs, c, entry⟩
    refine ⟨(v.settled true).2 ++ records, ?_, ?_⟩
    · rw [found, ← List.append_assoc]
      rfl
    · exact (repaired_settleAll v.entry.name v.dir v.fs v.found).append repaired
  | skip unusable rest ih => exact ih
  | count rest ih => exact ih

/-- A run in fix mode that ends with an outcome has tried the fixer of every error once, in the
order of its report, has changed nothing else, and its records say what became of them. -/
theorem repaired_of_run_ok {config : ResolvedConfig} {fs : σ} {root : Path} {o : Outcome}
    (fix : config.settings.fix = true) (ok : (run config fs root).1 = .ok o) :
    Repaired fs (registered config fs root) o.findings (run config fs root).2 := by
  obtain ⟨p, advance, after, outcome⟩ := advance_run config fs root
  rw [fix] at advance
  obtain ⟨records, found, repaired⟩ := advance.repaired
  have same : o.findings = records := by
    rw [outcome o ok]
    exact found
  rw [same, after]
  exact repaired

/-- A member with three findings: a fixer that stops halfway, one that succeeds, and a warning. -/
def threeFindings : ResolvedConfig where
  rules := [⟨"tidy", reporting [
      ⟨.error, ⟨"old"⟩, "old file", none,
        some ⟨[.removeFile ⟨"/r/a/old"⟩, .writeFile ⟨"/nowhere/x"⟩ "x"]⟩⟩,
      ⟨.error, ⟨"new"⟩, "no new file", none, some ⟨[.writeFile ⟨"/r/a/new"⟩ "new"]⟩⟩,
      ⟨.warning, ⟨"new"⟩, "file is new", none, some ⟨[.removeFile ⟨"/r/a/new"⟩]⟩⟩] (.ok ()),
    .allMembers⟩]
  settings := ⟨true, []⟩
  failures := []

/-- A workspace with one member. -/
def oneMember : Tree where
  files := [(⟨"/r/a/old"⟩, "old"),
    jsonFile "/r/a/package.json" (.object [("name", .string "a")]),
    jsonFile "/r/package.json" (.object [("workspaces", .array [.string "a"])])]
  dirs := []

/-- What becomes of the three findings. -/
def repairedMember : Outcome where
  mode := .fix
  findings := [
    ⟨"tidy", .error, ⟨"/r/a"⟩, ⟨"old"⟩, "old file", none, true, false,
      some (Trouble.refused .write ⟨"/nowhere/x"⟩ .noParent).message⟩,
    ⟨"tidy", .error, ⟨"/r/a"⟩, ⟨"new"⟩, "no new file", none, true, true, none⟩,
    ⟨"tidy", .warning, ⟨"/r/a"⟩, ⟨"new"⟩, "file is new", none, true, false, none⟩]
  failures := []
  packagesChecked := 1

set_option maxRecDepth 20000 in
theorem repaired_threeFindings :
    threeFindings.settings.fix = true ∧
    (run threeFindings oneMember ⟨"/r"⟩).1 = .ok repairedMember ∧
    Repaired oneMember (registered threeFindings oneMember ⟨"/r"⟩) repairedMember.findings
      (run threeFindings oneMember ⟨"/r"⟩).2 := by
  have ok : (run threeFindings oneMember ⟨"/r"⟩).1 = .ok repairedMember :=
    eq_ok_of_toOption_eq (by decide +kernel)
  exact ⟨rfl, ok, repaired_of_run_ok rfl ok⟩

/-! ## Runs that end with an error -/

section

variable {config : ResolvedConfig} {fs : σ} {root : Path} {e : RunError}

/-- A run in fix mode that ends with an error has asked only rules about the root, and has changed
only what their fixers change: nothing if none of them is due or the root cannot be opened. -/
theorem repaired_of_run_error (fix : config.settings.fix = true)
    (error : (run config fs root).1 = .error e) :
    (∀ v ∈ (visits config fs root).flatten,
      v.context.isRoot = true ∧ v.dir = root ∧ v.entry ∈ rootRules config) ∧
    (∃ records, Repaired fs (registered config fs root) records (run config fs root).2) ∧
    ((∀ r ∈ registered config fs root, r.due = none) → (run config fs root).2 = fs) ∧
    (∀ root' cause, e = .openWorkspace root' cause → (run config fs root).2 = fs) := by
  obtain ⟨p, advance, after, -⟩ := advance_run config fs root
  rw [fix] at advance
  obtain ⟨records, -, repaired⟩ := advance.repaired
  have repairs : Repaired fs (registered config fs root) records (run config fs root).2 := by
    rw [after]
    exact repaired
  refine ⟨?_, ⟨records, repairs⟩, repairs.eq_of_due_eq_none, ?_⟩
  · intro v visited
    have ofRoot : v ∈ rootVisits config fs (.fresh root) := by
      rcases cases_of_run_error error with ⟨_, -, -, none⟩ | ⟨_, -, one⟩
      · simp [none] at visited
      · simpa [one] using visited
    have opened : v.context.opened = .root (.fresh root) := opened_of_mem_ruleVisits ofRoot
    refine ⟨?_, ?_, entry_mem_of_mem_ruleVisits ofRoot⟩
    · rw [← Context.isRoot_opened, opened]
      rfl
    · rw [Visit.dir, ← Context.dir_opened, opened]
      rfl
  · rintro root' cause rfl
    rcases cases_of_run_error error with ⟨_, -, unchanged, -⟩ | ⟨_, other, -⟩
    · exact unchanged
    · cases other

end

/-- A rule for the root that removes its manifest. -/
def selfRemoving : ResolvedConfig where
  rules := [⟨"clear", reporting [⟨.error, ⟨"package.json"⟩, "not wanted", none,
      some ⟨[.removeFile ⟨"/r/package.json"⟩]⟩⟩] (.ok ()), ⟨.empty, .empty, true⟩⟩]
  settings := ⟨true, []⟩
  failures := []

/-- A workspace without members. -/
def loneRoot : Tree := ⟨[jsonFile "/r/package.json" (.object [])], []⟩

/-- A run that cannot enumerate members may have changed files before. -/
theorem changed_by_failed_run :
    selfRemoving.settings.fix = true ∧
    (∃ e, (run selfRemoving loneRoot ⟨"/r"⟩).1 = .error e) ∧
    (run selfRemoving loneRoot ⟨"/r"⟩).2 ≠ loneRoot := by
  exact ⟨rfl, ⟨_, rfl⟩, by decide +kernel⟩

theorem repaired_selfRemoving :
    selfRemoving.settings.fix = true ∧
    ∃ e, (run selfRemoving loneRoot ⟨"/r"⟩).1 = .error e ∧
    (∀ v ∈ (visits selfRemoving loneRoot ⟨"/r"⟩).flatten,
      v.context.isRoot = true ∧ v.dir = ⟨"/r"⟩ ∧ v.entry ∈ rootRules selfRemoving) ∧
    (∃ records, Repaired loneRoot (registered selfRemoving loneRoot ⟨"/r"⟩) records
      (run selfRemoving loneRoot ⟨"/r"⟩).2) ∧
    ((∀ r ∈ registered selfRemoving loneRoot ⟨"/r"⟩, r.due = none) →
      (run selfRemoving loneRoot ⟨"/r"⟩).2 = loneRoot) ∧
    (∀ root' cause, e = .openWorkspace root' cause →
      (run selfRemoving loneRoot ⟨"/r"⟩).2 = loneRoot) := by
  have failed : ∃ e, (run selfRemoving loneRoot ⟨"/r"⟩).1 = .error e := ⟨_, rfl⟩
  obtain ⟨e, error⟩ := failed
  exact ⟨rfl, e, error, repaired_of_run_error rfl error⟩

end Run

end WorkspaceLint
