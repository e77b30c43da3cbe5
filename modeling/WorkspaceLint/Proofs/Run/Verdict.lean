import Mathlib.Data.List.Basic
import WorkspaceLint.Proofs.Run.Repairs

/-!
# What a report says about its findings

The summary of a report counts errors and fixed findings apart from each other, and takes the
difference for the errors that still stand.  This is their number because a run records a finding as
fixed only when it is an error with a fixer (`Sincere`), which one rule keeps and so does a run.
The verdict and the exit code follow from the counts.
-/

namespace WorkspaceLint

/-! ## Errors that stand -/

namespace FindingRecord

/-- An error that was not fixed. -/
def stands (f : FindingRecord) : Bool := f.severity = .error && !f.fixed

/-- Only an error with a fixer is recorded as fixed. -/
def Sincere (f : FindingRecord) : Prop :=
  f.fixed = true → f.severity = .error ∧ f.fixable = true

end FindingRecord

open FindingRecord

/-- Among sincere records the errors are those that are fixed and those that stand. -/
theorem countP_error {fs : List FindingRecord} (sincere : ∀ f ∈ fs, f.Sincere) :
    fs.countP (·.severity = .error) = fs.countP (·.fixed) + fs.countP stands := by
  induction fs with
  | nil => rfl
  | cons f fs ih =>
    have rest := ih fun g hg => sincere g (List.mem_cons_of_mem _ hg)
    have own := sincere f List.mem_cons_self
    rw [List.countP_cons, List.countP_cons, List.countP_cons, rest]
    by_cases fixed : f.fixed = true
    · have error := (own fixed).1
      simp only [stands, fixed, error, decide_true, Bool.not_true, Bool.and_false, if_true]
      simp only [Bool.false_eq_true, if_false]
      omega
    · by_cases error : f.severity = .error
      · simp only [stands, fixed, error, decide_true, Bool.not_false, Bool.and_true, if_true,
          Bool.false_eq_true, if_false]
        omega
      · simp only [stands, fixed, error, decide_false, Bool.false_and, Bool.false_eq_true, if_false]
        omega

/-! ## Records of a run -/

namespace Run

variable {σ : Type} [FileSystem σ]

theorem sincere_settle (fix : Bool) (name : String) (dir : Path) (fs : σ) (r : Reported) :
    (settle fix name dir fs r).2.Sincere := by
  intro fixed
  rw [settle] at fixed ⊢
  rcases hf : fixerToTry fix r with _ | fixer
  · rw [hf] at fixed
    cases fixed
  · -- A fixer is tried for an error only, and it is the one of the finding.
    have due : r.severity = .error ∧ r.finding.fixer = some fixer := by
      unfold fixerToTry at hf
      split at hf
      · rename_i called
        rw [Bool.and_eq_true, decide_eq_true_eq] at called
        exact ⟨called.2, hf⟩
      · cases hf
    have fixable : r.finding.fixer.isSome = true := by rw [due.2]; rfl
    rcases ha : fixer.apply fs with ⟨fs', _ | trouble⟩
    · simp only [ha]
      exact ⟨due.1, fixable⟩
    · simp only [hf, ha] at fixed
      cases fixed

theorem sincere_settleAll (fix : Bool) (name : String) (dir : Path) (fs : σ) (rs : List Reported) :
    ∀ f ∈ (settleAll fix name dir fs rs).2, f.Sincere := by
  induction rs generalizing fs with
  | nil => nofun
  | cons r rs ih =>
    intro f hf
    rw [settleAll] at hf
    rcases List.mem_cons.1 hf with rfl | later
    · exact sincere_settle fix name dir fs r
    · exact ih _ f later

/-- Whatever a run does keeps its records sincere. -/
theorem Advance.sincere {fix : Bool} {p p' : Progress σ} {vs : List (Visit σ)}
    (h : Advance fix p vs p') (before : ∀ f ∈ p.findings, f.Sincere) :
    ∀ f ∈ p'.findings, f.Sincere := by
  induction h with
  | done p => exact before
  | visit clear rest ih =>
    apply ih
    intro f hf
    rcases List.mem_append.1 hf with old | new
    · exact before f old
    · exact sincere_settleAll _ _ _ _ _ f new
  | skip unusable rest ih => exact ih before
  | count rest ih => exact ih before

theorem sincere_of_run_ok {config : ResolvedConfig} {fs : σ} {root : Path} {o : Outcome}
    (ok : (run config fs root).1 = .ok o) : ∀ f ∈ o.findings, f.Sincere := by
  obtain ⟨p, advance, -, outcome⟩ := advance_run config fs root
  rw [outcome o ok]
  exact advance.sincere nofun

end Run

/-! ## Verdict and exit code -/

namespace Report

variable {s : Summary}

theorem failReasons_eq_nil_iff : failReasons s = [] ↔ s.unfixedErrors = 0 ∧ s.failures = 0 := by
  unfold failReasons
  rw [List.append_eq_nil_iff]
  by_cases unfixed : 0 < s.unfixedErrors <;> by_cases failed : 0 < s.failures <;>
    simp [unfixed, failed] <;> omega

/-- A run fails when something failed or an error stands, else it may warn. -/
theorem status_judge (s : Summary) :
    (judge s).status =
      if 0 < s.failures ∨ 0 < s.unfixedErrors then .fail
      else if 0 < s.warnings then .warn else .pass := by
  show (if !(failReasons s).isEmpty then VerdictStatus.fail else _) = _
  by_cases none : failReasons s = []
  · have quiet : ¬ (0 < s.failures ∨ 0 < s.unfixedErrors) := by
      have zero := failReasons_eq_nil_iff.1 none
      omega
    rw [if_neg quiet, none]
    rfl
  · have loud : 0 < s.failures ∨ 0 < s.unfixedErrors := by
      rw [failReasons_eq_nil_iff] at none
      omega
    rw [if_pos loud, if_pos]
    rw [Bool.not_eq_true', ← Bool.not_eq_true, List.isEmpty_iff]
    exact none

end Report

theorem summary_report (o : Outcome) (tool : ToolInfo) :
    (o.report tool).summary = Report.summarize o.packagesChecked o.findings o.failures := rfl

theorem unfixedErrors_report {o : Outcome} (sincere : ∀ f ∈ o.findings, f.Sincere)
    (tool : ToolInfo) : (o.report tool).summary.unfixedErrors = o.findings.countP stands := by
  have errors := countP_error sincere
  rw [summary_report]
  unfold Summary.unfixedErrors Report.summarize
  simp only
  omega

namespace Run

variable {σ : Type} [FileSystem σ] {config : ResolvedConfig} {fs : σ} {root : Path} {o : Outcome}

/-- The report of a run counts the errors that stand.  It fails when something failed or an error
stands, else it warns when there is a warning, and the exit code tells failures from errors. -/
theorem report_of_run_ok (ok : (run config fs root).1 = .ok o) (tool : ToolInfo) :
    (o.report tool).findings = o.findings ∧ (o.report tool).failures = o.failures ∧
    (o.report tool).summary.unfixedErrors = (o.findings.filter stands).length ∧
    ((o.report tool).verdict.status = .fail ↔
      o.failures ≠ [] ∨ ∃ f ∈ o.findings, f.stands = true) ∧
    ((o.report tool).verdict.status = .warn ↔
      ¬ (o.failures ≠ [] ∨ ∃ f ∈ o.findings, f.stands = true) ∧
        ∃ f ∈ o.findings, f.severity = .warning) ∧
    ((o.report tool).verdict.status = .pass ↔
      ¬ (o.failures ≠ [] ∨ ∃ f ∈ o.findings, f.stands = true) ∧
        ¬ ∃ f ∈ o.findings, f.severity = .warning) ∧
    (o.report tool).exitCode =
      if o.failures ≠ [] then 1 else if ∃ f ∈ o.findings, f.stands = true then 2 else 0 := by
  have unfixed := unfixedErrors_report (sincere_of_run_ok ok) tool
  have failed : 0 < (o.report tool).summary.failures ↔ o.failures ≠ [] := by
    rw [summary_report]
    exact List.length_pos_iff
  have standing :
      0 < (o.report tool).summary.unfixedErrors ↔ ∃ f ∈ o.findings, f.stands = true := by
    rw [unfixed]
    exact List.countP_pos_iff
  have warned : 0 < (o.report tool).summary.warnings ↔ ∃ f ∈ o.findings, f.severity = .warning := by
    rw [summary_report]
    show 0 < o.findings.countP _ ↔ _
    rw [List.countP_pos_iff]
    simp only [decide_eq_true_eq]
  have status : (o.report tool).verdict.status =
      if o.failures ≠ [] ∨ ∃ f ∈ o.findings, f.stands = true then .fail
      else if ∃ f ∈ o.findings, f.severity = .warning then .warn else .pass := by
    simp only [← failed, ← standing, ← warned]
    exact Report.status_judge _
  refine ⟨rfl, rfl, ?_, ?_⟩
  · rw [unfixed, List.countP_eq_length_filter]
  rw [status, Report.exitCode]
  simp only [failed, standing, and_true]
  by_cases broken : o.failures ≠ [] ∨ ∃ f ∈ o.findings, f.stands = true
  · simp [broken]
  · by_cases warns : ∃ f ∈ o.findings, f.severity = .warning <;> simp [broken, warns]

set_option maxRecDepth 20000 in
/-- Two errors of which one was fixed, and a warning: one error stands. -/
theorem report_repairedMember :
    (run threeFindings oneMember ⟨"/r"⟩).1 = .ok repairedMember ∧
    (repairedMember.report ⟨"monolint", none⟩).summary.unfixedErrors = 1 ∧
    (repairedMember.report ⟨"monolint", none⟩).verdict.status = .fail ∧
    (repairedMember.report ⟨"monolint", none⟩).exitCode = 2 := by
  have ok : (run threeFindings oneMember ⟨"/r"⟩).1 = .ok repairedMember :=
    eq_ok_of_toOption_eq (by decide +kernel)
  obtain ⟨-, -, unfixed, fail, -, -, code⟩ := report_of_run_ok ok ⟨"monolint", none⟩
  have stands : ∃ f ∈ repairedMember.findings, f.stands = true := by decide
  refine ⟨ok, ?_, fail.2 (.inr stands), ?_⟩
  · rw [unfixed]
    decide
  · rw [code, if_neg (by decide), if_pos stands]

end Run

end WorkspaceLint
