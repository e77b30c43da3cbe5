import WorkspaceLint.Proofs.Run.DryRun
import WorkspaceLint.Report.Listing

/-!
# The hint to run with fixes

A listing ends with a hint when some finding has a fixer that was not tried, whatever its severity.
A run in fix mode only tries the fixers of errors.  Both are read off the findings of the run in
check mode: the hint by `listing_ends_with_hint_iff`, the attempts of fix mode by `attempts_iff`,
since two runs agree up to the first error with a fixer.  So the hint promises too much exactly when
the only findings with fixers are warnings (`hint_iff`).
-/

namespace WorkspaceLint

namespace Report

/-! ## The end of a listing -/

/-- The line of counts ends with the verdict. -/
theorem summaryLine_eq (r : Report) :
    ∃ counts, summaryLine r = counts ++ r.verdict.status.label ++ "\n" := ⟨_, rfl⟩

/-- A text that ends with the line of counts does not end with the hint. -/
theorem summaryLine_ne_hint (r : Report) (above above' : String) :
    above ++ summaryLine r ≠ above' ++ fixHint := by
  intro same
  obtain ⟨counts, line⟩ := summaryLine_eq r
  rw [line] at same
  -- Both texts end alike, so the verdict and the end of the hint would be the same.
  have chars := congrArg String.toList same
  have status : (r.verdict.status.label ++ "\n").toList <:+ (above' ++ fixHint).toList := by
    rw [← chars]
    refine ⟨(above ++ counts).toList, ?_⟩
    simp only [String.toList_append, List.append_assoc]
  have hint : fixHint.toList <:+ (above' ++ fixHint).toList := by
    rw [String.toList_append]
    exact List.suffix_append _ _
  have short : (r.verdict.status.label ++ "\n").toList.length ≤ fixHint.toList.length := by
    cases r.verdict.status <;> decide
  have both := List.suffix_of_suffix_length_le status hint short
  revert both
  cases r.verdict.status <;> decide

/-- A listing ends with the hint exactly when the hint is given. -/
theorem listing_ends_with_hint_iff (r : Report) (verbose : Bool) :
    (∃ above, r.listing verbose = above ++ fixHint) ↔ r.hintsFix = true := by
  unfold listing
  by_cases given : r.hintsFix = true
  · rw [if_pos given]
    exact ⟨fun _ => given, fun _ => ⟨_, rfl⟩⟩
  · rw [if_neg given, String.append_empty]
    exact ⟨fun ⟨_, ends⟩ => absurd ends (summaryLine_ne_hint r _ _), fun h => absurd h given⟩

end Report

namespace Run

variable {σ : Type} [FileSystem σ]

/-! ## Fixers that are attempted -/

/-- A run attempts a fixer: some visit finds what has a fixer to try. -/
def Attempts (config : ResolvedConfig) (fs : σ) (root : Path) : Prop :=
  ∃ v ∈ (visits config fs root).flatten, ∃ r ∈ v.found,
    (fixerToTry config.settings.fix r).isSome = true

theorem isFixable_settle (name : String) (dir : Path) (fs : σ) (r : Reported) (fix : Bool) :
    (settle fix name dir fs r).2.isFixable = (fixerToTry true r).isSome := by
  have same := untried_settle fix name dir fs r
  rw [← isFixable_recordOf name dir r, ← same]
  rfl

theorem exists_isFixable_settleAll (fix : Bool) (name : String) (dir : Path) (fs : σ)
    (rs : List Reported) :
    (∃ f ∈ (settleAll fix name dir fs rs).2, f.isFixable = true) ↔
      ∃ r ∈ rs, (fixerToTry true r).isSome = true := by
  induction rs generalizing fs with
  | nil => exact ⟨nofun, nofun⟩
  | cons r rs ih =>
    rw [settleAll]
    simp only [List.mem_cons, or_and_right, exists_or, exists_eq_left, ih, isFixable_settle]

/-- Between two states of a run, an error with a fixer is recorded exactly if some visit finds it. -/
theorem Advance.exists_isFixable {fix : Bool} {p p' : Progress σ} {vs : List (Visit σ)}
    (h : Advance fix p vs p') :
    (∃ f ∈ p'.findings, f.isFixable = true) ↔
      (∃ f ∈ p.findings, f.isFixable = true) ∨
        ∃ v ∈ vs, ∃ r ∈ v.found, (fixerToTry true r).isSome = true := by
  induction h with
  | done p => simp only [List.not_mem_nil, false_and, exists_false, or_false]
  | @visit p p' c entry vs clear rest ih =>
    let v : Visit σ := ⟨p.fs, c, entry⟩
    have own : (∃ f ∈ (v.onto fix p).findings, f.isFixable = true) ↔
        (∃ f ∈ p.findings, f.isFixable = true) ∨
          ∃ r ∈ v.found, (fixerToTry true r).isSome = true := by
      rw [← exists_isFixable_settleAll fix v.entry.name v.dir v.fs v.found]
      simp only [Visit.onto, Visit.settled, List.mem_append, or_and_right, exists_or]
    rw [ih, own, or_assoc]
    simp only [List.mem_cons, or_and_right, exists_or, exists_eq_left]
    rfl
  | skip unusable rest ih => exact ih
  | count rest ih => exact ih

/-- A run in fix mode that ends with an outcome attempted a fixer exactly when it says so. -/
theorem attempts_iff_of_fix_run {config : ResolvedConfig} {fs : σ} {root : Path} {o : Outcome}
    (fix : config.settings.fix = true) (ok : (run config fs root).1 = .ok o) :
    Attempts config fs root ↔ ∃ f ∈ o.findings, f.isFixable = true := by
  obtain ⟨p, advance, -, outcome⟩ := advance_run config fs root
  rw [outcome o ok, Attempts, fix, finish, advance.exists_isFixable]
  simp only [start, List.not_mem_nil, false_and, exists_false, false_or]

/-- What is attempted on the root is attempted by the run. -/
theorem attempts_of_runRoot {config : ResolvedConfig} {fs : σ} {root : Path} {package : Package}
    (fix : config.settings.fix = true) (there : Package.open? fs root = .ok package)
    (found : ∃ f ∈ (runRoot config (start config fs) (.fresh root)).1.findings,
      f.isFixable = true) : Attempts config fs root := by
  have advance := advance_runRoot config (start config fs) (.fresh root) rfl
  obtain ⟨f, none, -⟩ | ⟨v, visited, attempt⟩ := advance.exists_isFixable.1 found
  · cases none
  · refine ⟨v, ?_, by rwa [fix]⟩
    rw [visits, there]
    exact List.mem_append_left _ visited

omit [FileSystem σ] in
theorem Parted.exists_isFixable {checked fixed : List FindingRecord} (h : Parted checked fixed) :
    ∃ f ∈ fixed, f.isFixable = true := by
  obtain ⟨same, f, f', rest, rest', -, rfl, -, fixable, alike⟩ := h
  have fixable' : f'.untried.isFixable = true := by
    rw [alike]
    exact fixable
  exact ⟨f', by simp, fixable'⟩

section

variable {config : ResolvedConfig} {fs : σ} {root : Path} {o : Outcome}

/-- In either mode the run of a root that can be opened goes on from what its rules come to. -/
theorem run_inMode {package : Package} (there : Package.open? fs root = .ok package) (fix : Bool) :
    run (config.inMode fix) fs root = runFromRoot (config.inMode fix) root
      (runRoot (config.inMode fix) (start config fs) (.fresh root)) := by
  rw [run_eq, there]
  rfl

/-- A run in fix mode that ends with an error, where check mode does not, attempted a fixer on the
root: had the two runs still been the same there, both would have read the same members. -/
theorem attempts_of_fix_run_error {e : RunError}
    (ok : (run (config.inMode false) fs root).1 = .ok o)
    (error : (run (config.inMode true) fs root).1 = .error e) :
    Attempts (config.inMode true) fs root := by
  rcases there : Package.open? fs root with cause | package
  · rw [run_eq, there] at ok
    cases ok
  · rw [run_inMode there] at ok error
    obtain ⟨dirs, hd, -⟩ := (runFromRoot_eq_ok_iff (config.inMode false)).1 ok
    have agree := agree_runRoot config (p := start config fs) nofun (.fresh root)
    rcases agree.eq_or_parted with ⟨same, -⟩ | parted
    · rw [same] at error
      obtain ⟨o', ends⟩ : ∃ o', (runFromRoot (config.inMode true) root
          (runRoot (config.inMode false) (start config fs) (.fresh root))).1 = .ok o' :=
        ⟨_, (runFromRoot_eq_ok_iff _).2 ⟨dirs, hd, rfl⟩⟩
      rw [error] at ends
      cases ends
    · exact attempts_of_runRoot rfl there parted.exists_isFixable

/-- Fix mode attempts a fixer exactly when check mode finds an error that has one. -/
theorem attempts_iff (ok : (run (config.inMode false) fs root).1 = .ok o) :
    Attempts (config.inMode true) fs root ↔ ∃ f ∈ o.findings, f.isFixable = true := by
  rcases hr : (run (config.inMode true) fs root).1 with e | o'
  · refine iff_of_true (attempts_of_fix_run_error ok hr) ?_
    rcases agree_run config fs root o ok with ⟨-, same⟩ | ⟨unclean, -⟩
    · rw [same] at hr
      cases hr
    · simpa [Clean] using unclean
  · rw [attempts_iff_of_fix_run rfl hr]
    rcases agree_run config fs root o ok with ⟨-, same⟩ | ⟨unclean, parted⟩
    · rw [same] at hr
      obtain rfl := Except.ok.inj hr
      rfl
    · exact iff_of_true (parted o' hr).exists_isFixable (by simpa [Clean] using unclean)

/-! ## What the hint promises -/

/-- Check mode records no finding as fixed. -/
theorem Advance.unfixed {p p' : Progress σ} {vs : List (Visit σ)} (h : Advance false p vs p')
    (before : ∀ f ∈ p.findings, f.fixed = false) : ∀ f ∈ p'.findings, f.fixed = false := by
  induction h with
  | done p => exact before
  | @visit p p' c entry vs clear rest ih =>
    apply ih
    intro f recorded
    rw [Visit.onto, Visit.settled_check] at recorded
    rcases List.mem_append.1 recorded with old | new
    · exact before f old
    · obtain ⟨r, -, rfl⟩ := List.mem_map.1 new
      rfl
  | skip unusable rest ih => exact ih before
  | count rest ih => exact ih before

/-- The hint is given in check mode when some finding, of any severity, has a fixer. -/
theorem hintsFix_iff (ok : (run (config.inMode false) fs root).1 = .ok o) (tool : ToolInfo) :
    (o.report tool).hintsFix = true ↔ ∃ f ∈ o.findings, f.fixable = true := by
  obtain ⟨p, advance, -, outcome⟩ := advance_run (config.inMode false) fs root
  have unfixed : ∀ f ∈ o.findings, f.fixed = false := by
    rw [outcome o ok]
    exact advance.unfixed nofun
  have mode : (o.report tool).mode = .check := by
    rw [outcome o ok]
    rfl
  have findings : (o.report tool).findings = o.findings := rfl
  rw [Report.hintsFix, mode, findings, decide_eq_true rfl, Bool.true_and, List.any_eq_true]
  constructor
  · rintro ⟨f, member, some⟩
    exact ⟨f, member, (Bool.and_eq_true_iff.1 some).1⟩
  · rintro ⟨f, member, fixable⟩
    exact ⟨f, member, by rw [fixable, unfixed f member]; rfl⟩

/-- The listing of a run in check mode ends with the hint exactly when a run in fix mode attempts a
fixer, or else some warning has a fixer: those are never tried. -/
theorem hint_iff (ok : (run (config.inMode false) fs root).1 = .ok o) (tool : ToolInfo)
    (verbose : Bool) :
    (∃ above, (o.report tool).listing verbose = above ++ Report.fixHint) ↔
      Attempts (config.inMode true) fs root ∨
        ∃ f ∈ o.findings, f.severity = .warning ∧ f.fixable = true := by
  rw [Report.listing_ends_with_hint_iff, hintsFix_iff ok, attempts_iff ok, ← exists_or]
  refine exists_congr fun f => ?_
  rw [← and_or_left]
  refine and_congr_right fun _ => ?_
  unfold FindingRecord.isFixable
  cases f.severity <;> simp

end

/-- A rule that warns of a file and could remove it. -/
def advising : ResolvedConfig where
  rules := [⟨"advice", reporting [⟨.warning, ⟨"/w/a/NOTES"⟩, "left over", none,
    some ⟨[.removeFile ⟨"/w/a/NOTES"⟩]⟩⟩] (.ok ()), .allMembers⟩]
  settings := ⟨false, []⟩
  failures := []

/-- What the advice comes to in check mode. -/
def advised : Outcome where
  mode := .check
  findings := [⟨"advice", .warning, ⟨"/w/a"⟩, ⟨"/w/a/NOTES"⟩, "left over", none, true, false, none⟩]
  failures := []
  packagesChecked := 1

/-- The hint is given for a warning with a fixer. -/
theorem hint_of_advising :
    (run (advising.inMode false) bareMember ⟨"/w"⟩).1 = .ok advised ∧
    ∃ above, (advised.report ⟨"monolint", none⟩).listing false = above ++ Report.fixHint := by
  have ok : (run (advising.inMode false) bareMember ⟨"/w"⟩).1 = .ok advised :=
    eq_ok_of_toOption_eq (by decide +kernel)
  exact ⟨ok, (hint_iff ok ⟨"monolint", none⟩ false).2 (.inr (by decide))⟩

/-- The hint may be given although fix mode attempts nothing. -/
theorem hint_without_attempt :
    ¬ ∀ (config : ResolvedConfig) (t : Tree) (root : Path) (o : Outcome) (tool : ToolInfo)
      (verbose : Bool), (run (config.inMode false) t root).1 = .ok o →
        ((∃ above, (o.report tool).listing verbose = above ++ Report.fixHint) ↔
          Attempts (config.inMode true) t root) := by
  intro claim
  have ok : (run (advising.inMode false) bareMember ⟨"/w"⟩).1 = .ok advised :=
    eq_ok_of_toOption_eq (by decide +kernel)
  have promised := claim advising bareMember ⟨"/w"⟩ advised ⟨"monolint", none⟩ false ok
  rw [Report.listing_ends_with_hint_iff, hintsFix_iff ok, attempts_iff ok] at promised
  exact absurd (promised.1 (by decide)) (by decide)

end Run

end WorkspaceLint
