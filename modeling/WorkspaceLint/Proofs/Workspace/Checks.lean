import WorkspaceLint.Proofs.Workspace.Caches
import WorkspaceLint.Rule.Generator

/-!
# What checks come to

`Check.ComesTo` says what a check results in and which findings it adds on every coherent context of
a package.  It has one rule for each way in which checks are put together and one for each question,
so what a check of a rule comes to is read off its text; no rule mentions what the context keeps.
-/

namespace WorkspaceLint

variable {σ : Type} [FileSystem σ]

namespace Context

/-- A look-up gives what it gives on all coherent workspaces with the same root. -/
theorem inWorkspace_fst {α : Type} {fs : σ} {c : Context} {root : Path} (h : c.Coherent fs)
    (inside : c.workspaceDir = .ok root) {f : Workspace → Except RuleError α × Workspace}
    {value : Except RuleError α}
    (gives : ∀ w : Workspace, w.Coherent fs → w.package.dir = root → (f w).1 = value) :
    (c.inWorkspace f).1 = value := by
  cases c with
  | root w => exact gives w h (Except.ok.inj inside)
  | member p w => exact gives w h.2 (Except.ok.inj inside)
  | standalone p => cases inside

end Context

theorem Probe.run_bind {α β : Type} (fs : σ) (p : Probe α) (f : α → Probe β) (c : Context) :
    (p.bind f).run fs c = (f (p.run fs c).1).run fs (p.run fs c).2 := by
  induction p generalizing c with
  | done a => rfl
  | ask q next ih => exact ih _ _

namespace Check

variable {α β : Type}

theorem run_bind (fs : σ) (x : Check α) (f : α → Check β) (c : Context) :
    (x >>= f).run fs c = match x.run fs c with
      | (.ok a, c) => (f a).run fs c
      | (.error e, c) => (.error e, c) := by
  have parts := Probe.run_bind fs (ExceptT.run x) (ExceptT.bindCont f) c
  show ((ExceptT.run x).bind (ExceptT.bindCont f)).run fs c = _
  rw [parts]
  unfold Check.run
  rcases (ExceptT.run x).run fs c with ⟨e | a, c'⟩ <;> rfl

/-- On every coherent context of the package that was opened as `o`, a check results in `result` and
adds the findings `found`. -/
def ComesTo (fs : σ) (o : Context) (check : Check α) (result : Except RuleError α)
    (found : List Reported) : Prop :=
  ∀ c : Context, c.Coherent fs → c.opened = o →
    (check.run fs c).1 = result ∧ (check.run fs c).2.findings = c.findings ++ found

namespace ComesTo

variable {fs : σ} {o : Context} {x : Check α} {f : α → Check β} {found found' : List Reported}

theorem pure (a : α) : ComesTo fs o (Pure.pure a : Check α) (.ok a) [] :=
  fun c _ _ => ⟨rfl, (List.append_nil c.findings).symm⟩

theorem ofExcept (r : Except RuleError α) : ComesTo fs o (Check.ofExcept r) r [] :=
  fun c _ _ => ⟨rfl, (List.append_nil c.findings).symm⟩

theorem report (severity : Severity) (finding : Finding) :
    ComesTo fs o (Check.report severity finding) (.ok ()) [⟨severity, finding⟩] := by
  intro c _ _
  refine ⟨rfl, ?_⟩
  show (c.add severity finding).findings = _
  cases c <;> rfl

theorem bind {a : α} {result : Except RuleError β} (h : ComesTo fs o x (.ok a) found)
    (h' : ComesTo fs o (f a) result found') :
    ComesTo fs o (x >>= f) result (found ++ found') := by
  intro c coherent opened
  obtain ⟨ok, first⟩ := h c coherent opened
  have left := coherent_run_snd x coherent
  have same := (opened_run_snd x fs c).trans opened
  rw [run_bind]
  rcases hx : x.run fs c with ⟨r, c'⟩
  rw [hx] at ok first left same
  simp only at ok first left same
  subst ok
  obtain ⟨result, rest⟩ := h' c' left same
  exact ⟨result, by rw [rest, first, List.append_assoc]⟩

/-- After a result that was come to without findings. -/
theorem andThen {a : α} {result : Except RuleError β} (h : ComesTo fs o x (.ok a) [])
    (h' : ComesTo fs o (f a) result found) : ComesTo fs o (x >>= f) result found := h.bind h'

theorem bind_error {e : RuleError} (h : ComesTo fs o x (.error e) found) :
    ComesTo fs o (x >>= f) (.error e) found := by
  intro c coherent opened
  obtain ⟨failed, first⟩ := h c coherent opened
  rw [run_bind]
  rcases hx : x.run fs c with ⟨r, c'⟩
  rw [hx] at failed first
  simp only at failed first
  subst failed
  exact ⟨rfl, first⟩

theorem bindResult {r : Except RuleError α} {result : α → Except RuleError β}
    (h : ComesTo fs o x r []) (h' : ∀ a, ComesTo fs o (f a) (result a) []) :
    ComesTo fs o (x >>= f) (r >>= result) [] := by
  cases r with
  | ok a => exact h.bind (h' a)
  | error e => exact h.bind_error

theorem ask (q : Question) {a : q.Answer}
    (answer : ∀ c : Context, c.Coherent fs → c.opened = o → (c.answer fs q).1 = a)
    (quiet : ∀ c : Context, (c.answer fs q).2.bare = c.bare) :
    ComesTo fs o (Check.ask q) (.ok a) [] := by
  intro c coherent opened
  refine ⟨congrArg Except.ok (answer c coherent opened), ?_⟩
  have same : (c.answer fs q).2.findings = c.findings := by
    rw [← Context.findings_bare, quiet, Context.findings_bare]
  rw [List.append_nil]
  exact same

/-! ### Questions -/

theorem dir : ComesTo fs o Check.dir (.ok o.dir) [] :=
  ask .dir (fun c _ opened => by rw [← opened, Context.dir_opened]; rfl) fun c =>
    c.bare_answer_snd fs .dir

theorem contains (path : Path) :
    ComesTo fs o (Check.contains path) (.ok (FileSystem.contains fs path)) [] :=
  ask (.contains path) (fun _ _ _ => rfl) fun c => c.bare_answer_snd fs (.contains path)

theorem workspaceDir {root : Path} (inside : o.workspaceDir = .ok root) :
    ComesTo fs o Check.workspaceDir (.ok root) [] := by
  have asked : ComesTo fs o (Check.ask .workspaceDir) (.ok (.ok root)) [] := by
    refine ask .workspaceDir (fun c _ opened => ?_) fun c => c.bare_answer_snd fs .workspaceDir
    rw [← inside, ← opened, Context.workspaceDir_opened]
    rfl
  exact asked.bind (ofExcept (.ok root))

theorem workspacePath {root : Path} (inside : o.workspaceDir = .ok root) (relative : Path) :
    ComesTo fs o (Check.workspacePath relative) (.ok (root.join relative)) [] :=
  (workspaceDir inside).bind (pure _)

theorem manifest :
    ComesTo fs o Check.manifest ((Package.load fs o.dir).mapError .config) [] := by
  have asked : ComesTo fs o (Check.ask .manifest) (.ok (Package.load fs o.dir)) [] := by
    refine ask .manifest (fun c coherent opened => ?_) fun c => c.bare_answer_snd fs .manifest
    rw [← opened, Context.dir_opened]
    exact coherent.package.readManifest_fst
  exact asked.bind (ofExcept _)

theorem rootManifest {root : Path} (inside : o.workspaceDir = .ok root) :
    ComesTo fs o Check.rootManifest ((Package.load fs root).mapError .config) [] := by
  have asked : ComesTo fs o (Check.ask .rootManifest)
      (.ok ((Package.load fs root).mapError .config)) [] := by
    refine ask .rootManifest (fun c coherent opened => ?_) fun c =>
      c.bare_answer_snd fs .rootManifest
    refine Context.inWorkspace_fst coherent
      (by rw [← inside, ← opened, Context.workspaceDir_opened]) fun w kept same => ?_
    rw [← same]
    exact congrArg (Except.mapError RuleError.config) kept.package.readManifest_fst
  exact asked.bind (ofExcept _)

theorem memberNames {root : Path} (inside : o.workspaceDir = .ok root) :
    ComesTo fs o Check.memberNames
      (((Workspace.memberDirs fs root).map (Workspace.memberNames fs)).mapError .runtime) [] := by
  have asked : ComesTo fs o (Check.ask .memberNames)
      (.ok (((Workspace.memberDirs fs root).map (Workspace.memberNames fs)).mapError .runtime))
      [] := by
    refine ask .memberNames (fun c coherent opened => ?_) fun c =>
      c.bare_answer_snd fs .memberNames
    refine Context.inWorkspace_fst coherent
      (by rw [← inside, ← opened, Context.workspaceDir_opened]) fun w kept same => ?_
    rw [← same]
    exact congrArg (Except.mapError RuleError.runtime) kept.readNames_fst
  exact asked.bind (ofExcept _)

theorem read (path : Path) :
    ComesTo fs o (Check.read path) ((FileSystem.read fs path).mapError .runtime) [] := by
  have asked : ComesTo fs o (Check.ask (.read path)) (.ok (FileSystem.read fs path)) [] :=
    ask (.read path) (fun _ _ _ => rfl) fun c => c.bare_answer_snd fs (.read path)
  exact asked.bind (ofExcept _)

theorem readFor (purpose : Purpose) (path : Path) :
    ComesTo fs o (Check.readFor purpose path)
      ((FileSystem.read fs path).mapError fun trouble =>
        .runtime (.reading purpose path trouble)) [] := by
  have asked : ComesTo fs o (Check.ask (.read path)) (.ok (FileSystem.read fs path)) [] :=
    ask (.read path) (fun _ _ _ => rfl) fun c => c.bare_answer_snd fs (.read path)
  exact asked.bind (ofExcept _)

theorem readJsonFor (purpose : Purpose) (path : Path) :
    ComesTo fs o (Check.readJsonFor purpose path)
      (((FileSystem.read fs path).mapError fun trouble =>
          RuleError.runtime (.reading purpose path trouble)) >>= fun text =>
        (Json.parse text).mapError fun e => .runtime (.reading purpose path (.notJson path e))) [] :=
  (readFor purpose path).bindResult fun _ => ofExcept _

end ComesTo

/-! ## Checks that report at their end -/

/-- A check fails without findings, or succeeds with those of its verdict. -/
def Judges (fs : σ) (o : Context) (check : Check Unit)
    (verdict : Except RuleError (List Reported)) : Prop :=
  ComesTo fs o check (verdict.map fun _ => ()) (verdict.toOption.getD [])

namespace Judges

variable {fs : σ} {o : Context} {x : Check α} {f : α → Check Unit}

theorem of_comesTo {check : Check Unit} {found : List Reported}
    (h : ComesTo fs o check (.ok ()) found) : Judges fs o check (.ok found) := h

theorem bind {r : Except RuleError α} {verdict : α → Except RuleError (List Reported)}
    (h : ComesTo fs o x r []) (h' : ∀ a, r = .ok a → Judges fs o (f a) (verdict a)) :
    Judges fs o (x >>= f) (r >>= verdict) := by
  cases r with
  | ok a => exact h.bind (h' a rfl)
  | error e => exact h.bind_error

/-- What a check that was judged comes to on a coherent context without findings. -/
theorem run {check : Check Unit} {verdict : Except RuleError (List Reported)}
    (h : Judges fs o check verdict) {c : Context} (coherent : c.Coherent fs) (opened : c.opened = o)
    (clear : c.findings = []) :
    (check.run fs c).1 = verdict.map (fun _ => ()) ∧
      (check.run fs c).2.findings = verdict.toOption.getD [] := by
  obtain ⟨result, found⟩ := h c coherent opened
  rw [clear, List.nil_append] at found
  exact ⟨result, found⟩

end Judges

end Check

end WorkspaceLint
