import WorkspaceLint.Proofs.Run.Repairs

/-!
# The manifests that rules find

A manifest is kept once it was read, and dropped when the fixer of a finding did all its work.  A
rule therefore finds the manifest as its file holds it (`Visit.Fresh`), unless a rule before it on
the same package has spoiled it (`Visit.Spoils`): what it repaired changed the file, and none of it
was recorded as fixed.  This is the only way, and it takes a fixer that fails after it made a change.
-/

namespace WorkspaceLint

namespace Run

variable {σ : Type} [FileSystem σ]

/-! ## Fixers that fail halfway -/

/-- A finding whose fixer can make its first changes and then fails. -/
def Registered.Halfway (r : Registered) (fs fs' : σ) : Prop :=
  ∃ made op unmade trouble, made ≠ [] ∧ r.due = some ⟨made ++ op :: unmade⟩ ∧
    FixOp.Applied fs made fs' ∧ op.apply fs' = .error trouble

/-- Repairs of which none is recorded as fixed change nothing, unless a fixer failed halfway. -/
theorem Repaired.exists_halfway {fs fs' : σ} {rs : List Registered} {records : List FindingRecord}
    (h : Repaired fs rs records fs') (unfixed : records.any (·.fixed) = false)
    (changed : fs' ≠ fs) : ∃ r ∈ rs, ∃ before after : σ, r.Halfway before after := by
  induction h with
  | nil fs => exact absurd rfl changed
  | left none rest ih =>
    rw [List.any_cons, Bool.or_eq_false_iff] at unfixed
    obtain ⟨r, member, halfway⟩ := ih unfixed.2 changed
    exact ⟨r, List.mem_cons_of_mem _ member, halfway⟩
  | fixed due all rest ih => simp at unfixed
  | @failed fs fs₁ fs' r rs records made unmade op trouble due before stuck rest ih =>
    rw [List.any_cons, Bool.or_eq_false_iff] at unfixed
    by_cases started : made = []
    · subst started
      cases before
      obtain ⟨r, member, halfway⟩ := ih unfixed.2 changed
      exact ⟨r, List.mem_cons_of_mem _ member, halfway⟩
    · exact ⟨r, List.mem_cons_self, fs, fs₁, made, op, unmade, trouble, started, due, before,
        stuck⟩

/-! ## One visit -/

namespace Visit

/-- The rule finds the manifest, or the trouble with it, that reading its file gives. -/
def Fresh (v : Visit σ) : Prop := (v.context.readManifest v.fs).1 = Package.load v.fs v.dir

/-- The check left a manifest on the context that its file no longer holds after the repairs, and no
repair is recorded as fixed. -/
def Spoils (fix : Bool) (v : Visit σ) : Prop :=
  (v.settled fix).2.any (·.fixed) = false ∧
  v.checked.2.package.manifest.isSome ∧
  Package.load (v.settled fix).1 v.dir ≠ Package.load v.fs v.dir

theorem fresh_iff {v : Visit σ} : v.Fresh ↔ v.context.package.Coherent v.fs :=
  Package.readManifest_fst_eq_load_iff

/-- After a visit that found the manifest fresh, it is kept as its file holds it unless it was
spoiled. -/
theorem coherent_next_iff {fix : Bool} {v : Visit σ} (fresh : v.Fresh) :
    (v.next fix).package.Coherent (v.settled fix).1 ↔ ¬ v.Spoils fix := by
  have kept : v.checked.2.package.Coherent v.fs :=
    Check.coherent_package_run_snd v.entry.rule.check (fresh_iff.1 fresh)
  have dir : v.checked.2.package.dir = v.dir := Check.dir_run_snd v.entry.rule.check v.fs v.context
  unfold next Spoils
  simp only
  by_cases fixed : (v.settled fix).2.any (·.fixed) = true
  · simp only [fixed, if_true, Context.package_forget, Bool.true_eq_false, false_and,
      not_false_iff, iff_true]
    exact Package.coherent_forget _ _
  · rw [if_neg fixed, Context.package_withoutFindings, Package.Coherent]
    simp only [Package.withoutFindings, dir, Bool.eq_false_iff.2 fixed, true_and]
    rcases hm : v.checked.2.package.manifest with _ | m
    · simp
    · have read : Package.load v.fs v.dir = .ok m := by
        rw [← dir]
        exact kept m hm
      simp only [Option.some.injEq, forall_eq', Option.isSome_some, read, true_and, ne_eq]
      exact Classical.not_not.symm

/-- A manifest is spoiled only in fix mode, and only by a fixer that fails halfway. -/
theorem Spoils.exists_halfway {fix : Bool} {v : Visit σ} (spoils : v.Spoils fix) :
    fix = true ∧ ∃ r ∈ v.registered, ∃ before after : σ, r.Halfway before after := by
  obtain ⟨unfixed, -, changed⟩ := spoils
  have moved : (v.settled fix).1 ≠ v.fs := fun same => changed (by rw [same])
  cases fix with
  | false =>
    rw [v.settled_check] at moved
    exact absurd rfl moved
  | true =>
    exact ⟨rfl, (repaired_settleAll v.entry.name v.dir v.fs v.found).exists_halfway unfixed moved⟩

end Visit

/-! ## A whole run -/

/-- Rules that are asked one after the other find the manifest fresh exactly when none of them
spoils it for the next. -/
theorem fresh_ruleVisits_iff {fix : Bool} {fs : σ} {c : Context} (coherent : c.package.Coherent fs)
    (entries : List RuleEntry) :
    (∀ v ∈ ruleVisits fix fs c entries, v.Fresh) ↔
      ∀ v ∈ (ruleVisits fix fs c entries).dropLast, ¬ v.Spoils fix := by
  induction entries generalizing fs c with
  | nil => simp [ruleVisits]
  | cons entry entries ih =>
    let v : Visit σ := ⟨fs, c, entry⟩
    have fresh : v.Fresh := Visit.fresh_iff.2 coherent
    cases entries with
    | nil => simpa [ruleVisits] using fresh
    | cons entry' entries =>
      have more : ruleVisits fix (v.settled fix).1 (v.next fix) (entry' :: entries) ≠ [] :=
        List.cons_ne_nil _ _
      rw [ruleVisits, List.dropLast_cons_of_ne_nil more, List.forall_mem_cons, List.forall_mem_cons]
      by_cases spoils : v.Spoils fix
      · refine iff_of_false ?_ fun none => none.1 spoils
        rintro ⟨-, later⟩
        have next := Visit.fresh_iff.1 (later _ List.mem_cons_self)
        exact (Visit.coherent_next_iff fresh).1 next spoils
      · have next := ih ((Visit.coherent_next_iff fresh).2 spoils)
        exact ⟨fun all => ⟨spoils, next.1 all.2⟩, fun none => ⟨fresh, next.2 none.2⟩⟩

section

variable {config : ResolvedConfig} {vs : List (Visit σ)}

/-- The visits to a member start on a context that keeps its manifest as its file holds it. -/
theorem exists_ruleVisits_of_mem_membersVisits {p : Progress σ} {w : Workspace} {dirs : List Path}
    (h : vs ∈ membersVisits config p w dirs) :
    ∃ fs c entries, c.package.Coherent fs ∧ vs = ruleVisits config.settings.fix fs c entries := by
  induction dirs generalizing p w with
  | nil => cases h
  | cons dir dirs ih =>
    rcases List.mem_cons.1 h with rfl | later
    · unfold memberVisits
      rcases hl : Package.load p.fs dir with e | m
      · exact ⟨p.fs, .root (.fresh dir), [], Package.coherent_forget p.fs (.fresh dir), rfl⟩
      · refine ⟨p.fs, openedMember w dir m, _, ?_, rfl⟩
        intro m' hm'
        rw [← Option.some.inj hm']
        exact hl
    · exact ih later

/-- The visits to a package start on a context that keeps its manifest as its file holds it. -/
theorem exists_ruleVisits_of_mem_visits {fs₀ : σ} {root : Path}
    (h : vs ∈ visits config fs₀ root) :
    ∃ fs c entries, c.package.Coherent fs ∧ vs = ruleVisits config.settings.fix fs c entries := by
  unfold visits at h
  split at h
  · cases h
  · rcases List.mem_cons.1 h with rfl | later
    · exact ⟨fs₀, .root (.fresh root), _, Package.coherent_forget fs₀ (.fresh root), rfl⟩
    · split at later
      · cases later
      · exact exists_ruleVisits_of_mem_membersVisits later

end

/-- Every rule of a run finds the manifest of its package as its file holds it exactly when no rule
spoils it for the next one on the same package, which takes a fixer that fails halfway. -/
theorem fresh_iff_not_spoiled (config : ResolvedConfig) (fs : σ) (root : Path) :
    ((∀ vs ∈ visits config fs root, ∀ v ∈ vs, v.Fresh) ↔
      ∀ vs ∈ visits config fs root, ∀ v ∈ vs.dropLast, ¬ v.Spoils config.settings.fix) ∧
    ∀ vs ∈ visits config fs root, ∀ v ∈ vs, v.Spoils config.settings.fix →
      config.settings.fix = true ∧
        ∃ r ∈ v.registered, ∃ before after : σ, r.Halfway before after := by
  refine ⟨?_, fun vs _ v _ spoils => spoils.exists_halfway⟩
  refine forall₂_congr fun vs member => ?_
  obtain ⟨fs', c, entries, coherent, rfl⟩ := exists_ruleVisits_of_mem_visits member
  exact fresh_ruleVisits_iff coherent entries

/-- A rule that renames a package and then fails to write a file, and one that warns of the name. -/
def halfRenamed : ResolvedConfig where
  rules := [⟨"rename", reporting [⟨.error, ⟨"package.json"⟩, "wrong name", none,
        some ⟨[.setJsonKey ⟨"/r/a/package.json"⟩ "name" (.string "b"),
          .writeFile ⟨"/nowhere/x"⟩ "x"]⟩⟩] (.ok ()), .allMembers⟩,
    ⟨"naming", naming, .allMembers⟩]
  settings := ⟨true, []⟩
  failures := []

/-- After a fixer that fails halfway the next rule finds the manifest as it was before. -/
theorem not_fresh_halfRenamed :
    halfRenamed.settings.fix = true ∧
    ¬ ∀ vs ∈ visits halfRenamed oneMember ⟨"/r"⟩, ∀ v ∈ vs, v.Fresh := by
  refine ⟨rfl, fun fresh => ?_⟩
  have named : ∀ v ∈ (visits halfRenamed oneMember ⟨"/r"⟩).flatten,
      (v.context.readManifest v.fs).1.toOption.bind Manifest.name? =
        (Package.load v.fs v.dir).toOption.bind Manifest.name? := by
    intro v visited
    obtain ⟨vs, group, member⟩ := List.mem_flatten.1 visited
    rw [fresh vs group v member]
  revert named
  decide +kernel

end Run

end WorkspaceLint
