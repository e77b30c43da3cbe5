import WorkspaceLint.Proofs.Run.Visits

/-!
# Check mode as a dry run

Until the first error with a fixer is found, a run in fix mode does what the run in check mode does:
the same files, the same contexts, the same records.  `Agree` holds of the two runs after every
stage: either they are still the same, or their records *part* at an error with a fixer, of which
fix mode says in addition what became of it.  Records are only ever added, so what is parted stays
parted.
-/

namespace WorkspaceLint

/-- Whether a record is about an error that has a fixer. -/
def FindingRecord.isFixable (f : FindingRecord) : Bool := f.severity = .error && f.fixable

/-- The record without what became of its fixer. -/
def FindingRecord.untried (f : FindingRecord) : FindingRecord :=
  { f with fixed := false, fixError := none }

/-- The configuration with its mode set. -/
def ResolvedConfig.inMode (fix : Bool) (config : ResolvedConfig) : ResolvedConfig :=
  { config with settings := { config.settings with fix := fix } }

namespace Run

variable {σ : Type} [FileSystem σ]

/-! ## Records that part -/

/-- No record is about an error that has a fixer. -/
def Clean (records : List FindingRecord) : Prop := ∀ f ∈ records, f.isFixable = false

theorem Clean.append {records records' : List FindingRecord} (h : Clean records)
    (h' : Clean records') : Clean (records ++ records') := by
  intro f member
  rcases List.mem_append.1 member with first | second
  · exact h f first
  · exact h' f second

/-- The records of two runs are the same up to the first error with a fixer, and there they differ
at most in what became of the fixer. -/
def Parted (checked fixed : List FindingRecord) : Prop :=
  ∃ same f f' rest rest', checked = same ++ f :: rest ∧ fixed = same ++ f' :: rest' ∧
    Clean same ∧ f.isFixable = true ∧ f'.untried = f.untried

namespace Parted

variable {checked fixed : List FindingRecord}

theorem append (h : Parted checked fixed) (more more' : List FindingRecord) :
    Parted (checked ++ more) (fixed ++ more') := by
  obtain ⟨same, f, f', rest, rest', rfl, rfl, clean, fixable, alike⟩ := h
  refine ⟨same, f, f', rest ++ more, rest' ++ more', ?_, ?_, clean, fixable, alike⟩
  · rw [List.append_assoc, List.cons_append]
  · rw [List.append_assoc, List.cons_append]

theorem prepend {before : List FindingRecord} (clean : Clean before) (h : Parted checked fixed) :
    Parted (before ++ checked) (before ++ fixed) := by
  obtain ⟨same, f, f', rest, rest', rfl, rfl, clean', fixable, alike⟩ := h
  refine ⟨before ++ same, f, f', rest, rest', ?_, ?_, clean.append clean', fixable, alike⟩
  · rw [List.append_assoc]
  · rw [List.append_assoc]

theorem of_prefix {checked' fixed' : List FindingRecord} (h : Parted checked fixed)
    (more : checked <+: checked') (more' : fixed <+: fixed') : Parted checked' fixed' := by
  obtain ⟨rest, rfl⟩ := more
  obtain ⟨rest', rfl⟩ := more'
  exact h.append rest rest'

theorem not_clean (h : Parted checked fixed) : ¬ Clean checked := by
  obtain ⟨same, f, f', rest, rest', rfl, -, -, fixable, -⟩ := h
  intro clean
  rw [clean f (by simp)] at fixable
  cases fixable

end Parted

/-! ## One rule -/

theorem isFixable_recordOf (name : String) (dir : Path) (r : Reported) :
    (recordOf name dir r).isFixable = (fixerToTry true r).isSome := by
  unfold recordOf FindingRecord.isFixable fixerToTry
  by_cases error : r.severity = .error <;> simp [error]

theorem untried_settle (fix : Bool) (name : String) (dir : Path) (fs : σ) (r : Reported) :
    (settle fix name dir fs r).2.untried = recordOf name dir r := by
  unfold settle
  rcases fixerToTry fix r with _ | fixer
  · rfl
  · simp only
    rcases fixer.apply fs with ⟨fs', _ | trouble⟩ <;> rfl

/-- Findings come to the same in both modes, unless one of them is an error with a fixer. -/
theorem settleAll_cases (name : String) (dir : Path) (fs : σ) (rs : List Reported) :
    (settleAll true name dir fs rs = settleAll false name dir fs rs ∧
      Clean (settleAll false name dir fs rs).2) ∨
    Parted (settleAll false name dir fs rs).2 (settleAll true name dir fs rs).2 := by
  rw [settleAll_check]
  induction rs generalizing fs with
  | nil => exact .inl ⟨rfl, List.forall_mem_nil _⟩
  | cons r rs ih =>
    rcases hf : fixerToTry true r with _ | fixer
    · have untried : settle true name dir fs r = (fs, recordOf name dir r) := by
        rw [settle, hf]
      have first : Clean [recordOf name dir r] := by
        simp [Clean, isFixable_recordOf, hf]
      rw [settleAll, untried]
      rcases ih fs with ⟨same, clean⟩ | parted
      · rw [same]
        exact .inl ⟨rfl, first.append clean⟩
      · exact .inr (parted.prepend first)
    · refine .inr ⟨[], recordOf name dir r, (settle true name dir fs r).2, _, _, rfl, rfl,
        List.forall_mem_nil _, ?_, untried_settle true name dir fs r⟩
      rw [isFixable_recordOf, hf]
      rfl

/-! ## Stages of a run -/

/-- Two runs, of which the second is in fix mode, are still the same and have found no error with a
fixer, or else their records have parted. -/
inductive Agree {α : Type} : Progress σ × α → Progress σ × α → Prop where
  | together {r : Progress σ × α} (clean : Clean r.1.findings) : Agree r r
  | apart {r r' : Progress σ × α} (parted : Parted r.1.findings r'.1.findings) : Agree r r'

/-- A stage only adds records. -/
def Grows {α β : Type} (stage : Progress σ × α → Progress σ × β) : Prop :=
  ∀ r, r.1.findings <+: (stage r).1.findings

omit [FileSystem σ] in
theorem Agree.eq_or_parted {α : Type} {r r' : Progress σ × α} (h : Agree r r') :
    (r' = r ∧ Clean r.1.findings) ∨ Parted r.1.findings r'.1.findings := by
  cases h with
  | together clean => exact .inl ⟨rfl, clean⟩
  | apart parted => exact .inr parted

omit [FileSystem σ] in
theorem Agree.map {α β : Type} {r r' : Progress σ × α} (h : Agree r r') (f : α → β) :
    Agree (r.1, f r.2) (r'.1, f r'.2) := by
  cases h with
  | together clean => exact .together clean
  | apart parted => exact .apart parted

omit [FileSystem σ] in
/-- Two runs that agree still agree after stages that agree wherever nothing was found so far. -/
theorem Agree.andThen {α β : Type} {r r' : Progress σ × α} (h : Agree r r')
    {stage stage' : Progress σ × α → Progress σ × β} (grows : Grows stage) (grows' : Grows stage')
    (same : ∀ r, Clean r.1.findings → Agree (stage r) (stage' r)) :
    Agree (stage r) (stage' r') := by
  cases h with
  | together clean => exact same r clean
  | apart parted => exact .apart (parted.of_prefix (grows r) (grows' r'))

theorem Advance.findings_grow {fix : Bool} {p p' : Progress σ} {vs : List (Visit σ)}
    (h : Advance fix p vs p') : p.findings <+: p'.findings := by
  induction h with
  | done p => exact List.prefix_rfl
  | visit clear rest ih => exact (List.prefix_append _ _).trans ih
  | skip unusable rest ih => exact ih
  | count rest ih => exact ih

theorem agree_runRule {p : Progress σ} (clean : Clean p.findings) (c : Context)
    (entry : RuleEntry) : Agree (runRule false p c entry) (runRule true p c entry) := by
  let v : Visit σ := ⟨p.fs, c, entry⟩
  rw [runRule_eq, runRule_eq]
  rcases settleAll_cases v.entry.name v.dir v.fs v.found with ⟨same, none⟩ | parted
  · have settled : v.settled true = v.settled false := same
    have still : (v.onto true p, v.next true) = (v.onto false p, v.next false) := by
      simp only [Visit.onto, Visit.next, settled]
    rw [still]
    exact .together (clean.append none)
  · exact .apart (parted.prepend clean)

theorem grows_runRules (fix : Bool) (entries : List RuleEntry) :
    Grows fun r : Progress σ × Context => runRules fix r.1 r.2 entries := by
  intro r
  induction entries generalizing r with
  | nil => exact List.prefix_rfl
  | cons entry entries ih =>
    have first : r.1.findings <+: (runRule fix r.1 r.2 entry).1.findings := by
      rw [runRule_eq]
      exact List.prefix_append _ _
    exact first.trans (ih (runRule fix r.1 r.2 entry))

theorem agree_runRules {p : Progress σ} (clean : Clean p.findings) (c : Context)
    (entries : List RuleEntry) : Agree (runRules false p c entries) (runRules true p c entries) := by
  induction entries generalizing p c with
  | nil => exact .together clean
  | cons entry entries ih =>
    exact (agree_runRule clean c entry).andThen (grows_runRules false entries)
      (grows_runRules true entries) fun r clean => ih clean r.2

/-! ## The whole run -/

section

variable (config : ResolvedConfig)

theorem agree_runMember {p : Progress σ} (clean : Clean p.findings) (w : Workspace) (dir : Path) :
    Agree (runMember (config.inMode false) p w dir) (runMember (config.inMode true) p w dir) := by
  rw [runMember_eq, runMember_eq]
  rcases Package.load p.fs dir with e | m
  · exact .together clean
  · have rules := agree_runRules (p := { p with packagesChecked := p.packagesChecked + 1 }) clean
      (openedMember w dir m) (rulesFor config m.name?)
    exact rules.map (workspaceAfter w)

theorem grows_runMembers (dirs : List Path) :
    Grows fun r : Progress σ × Workspace => runMembers config r.1 r.2 dirs :=
  fun r => (advance_runMembers config r.1 r.2 dirs).findings_grow

theorem agree_runMembers {p : Progress σ} (clean : Clean p.findings) (w : Workspace)
    (dirs : List Path) :
    Agree (runMembers (config.inMode false) p w dirs)
      (runMembers (config.inMode true) p w dirs) := by
  induction dirs generalizing p w with
  | nil => exact .together clean
  | cons dir dirs ih =>
    exact (agree_runMember config clean w dir).andThen
      (grows_runMembers (config.inMode false) dirs) (grows_runMembers (config.inMode true) dirs)
      fun r clean => ih clean r.2

theorem agree_runRoot {p : Progress σ} (clean : Clean p.findings) (w : Workspace) :
    Agree (runRoot (config.inMode false) p w) (runRoot (config.inMode true) p w) := by
  have applies (fix : Bool) : (config.inMode fix).appliesToRoot = config.appliesToRoot := rfl
  unfold runRoot
  simp only [applies]
  split
  · have rules := agree_runRules (p := { p with packagesChecked := p.packagesChecked + 1 }) clean
      (.root w) (rootRules config)
    exact rules.map (workspaceAfter w)
  · exact .together clean

/-- The end of a run whose root was checked. -/
def runFromRoot (root : Path) (r : Progress σ × Workspace) : Except RunError Outcome × σ :=
  match r.2.readDirs r.1.fs with
  | (.error trouble, _) => (.error (.enumerate root (.runtime trouble)), r.1.fs)
  | (.ok dirs, w) =>
    let m := runMembers config r.1 w (selected root config.settings.paths dirs)
    (.ok (finish config m.1), m.1.fs)

theorem runFromRoot_eq_ok_iff {root : Path} {r : Progress σ × Workspace} {o : Outcome} :
    (runFromRoot config root r).1 = .ok o ↔ ∃ dirs, (r.2.readDirs r.1.fs).1 = .ok dirs ∧
      o = finish config (runMembers config r.1 (r.2.readDirs r.1.fs).2
        (selected root config.settings.paths dirs)).1 := by
  unfold runFromRoot
  rcases r.2.readDirs r.1.fs with ⟨trouble | dirs, w⟩
  · simp
  · simp [eq_comm]

/-- Whether two runs agree on what they end with. -/
def AgreeInOutcome (checked fixed : Except RunError Outcome × σ) : Prop :=
  ∀ o, checked.1 = .ok o →
    (Clean o.findings ∧ fixed = (.ok { o with mode := .fix }, checked.2)) ∨
    (¬ Clean o.findings ∧ ∀ o', fixed.1 = .ok o' → Parted o.findings o'.findings)

theorem agree_runFromRoot {root : Path} {r r' : Progress σ × Workspace} (h : Agree r r') :
    AgreeInOutcome (runFromRoot (config.inMode false) root r)
      (runFromRoot (config.inMode true) root r') := by
  intro o ok
  obtain ⟨dirs, hd, rfl⟩ := (runFromRoot_eq_ok_iff _).1 ok
  cases h with
  | together clean =>
    have members := agree_runMembers config clean (r.2.readDirs r.1.fs).2
      (selected root config.settings.paths dirs)
    rcases members.eq_or_parted with ⟨same, clean⟩ | parted
    · refine .inl ⟨clean, ?_⟩
      unfold runFromRoot
      rcases hr : r.2.readDirs r.1.fs with ⟨trouble | dirs', w⟩
      · rw [hr] at hd
        cases hd
      · rw [hr] at hd same
        obtain rfl := Except.ok.inj hd
        have paths (fix : Bool) : (config.inMode fix).settings.paths = config.settings.paths := rfl
        simp only [paths, same]
        rfl
    · refine .inr ⟨parted.not_clean, fun o' ok' => ?_⟩
      obtain ⟨dirs', hd', rfl⟩ := (runFromRoot_eq_ok_iff _).1 ok'
      rw [hd] at hd'
      obtain rfl := Except.ok.inj hd'
      exact parted
  | apart parted =>
    have more := grows_runMembers (config.inMode false) (selected root config.settings.paths dirs)
      (r.1, (r.2.readDirs r.1.fs).2)
    refine .inr ⟨(parted.of_prefix more List.prefix_rfl).not_clean, fun o' ok' => ?_⟩
    obtain ⟨dirs', -, rfl⟩ := (runFromRoot_eq_ok_iff _).1 ok'
    exact parted.of_prefix more (grows_runMembers (config.inMode true)
      (selected root config.settings.paths dirs') (r'.1, (r'.2.readDirs r'.1.fs).2))

/-- What a run in check mode ends with, that in fix mode ends with too, or the records part. -/
theorem agree_run (fs : σ) (root : Path) :
    AgreeInOutcome (run (config.inMode false) fs root) (run (config.inMode true) fs root) := by
  rw [run_eq, run_eq]
  rcases Package.open? fs root with e | package
  · exact nofun
  · exact agree_runFromRoot config (agree_runRoot config (p := start config fs) nofun (.fresh root))

end

/-- A workspace with a member that has nothing but a manifest. -/
def bareMember : Tree where
  files := [
    jsonFile "/w/a/package.json" (.object [("name", .string "a")]),
    jsonFile "/w/package.json" (.object [("workspaces", .array [.string "a"])])]
  dirs := []

end Run

end WorkspaceLint
