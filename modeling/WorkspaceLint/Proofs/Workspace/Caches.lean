import WorkspaceLint.Check

/-!
# What contexts keep

A package keeps its manifest once it was read, and a workspace its members and their names.  What is
kept is *coherent* with a file system when reading it again would give the same.  Questions keep it
so (`Context.Coherent.answer_snd`), and a check on a coherent context cannot tell what is kept: its
result and its findings are those on the context as it was opened (`Check.run_eq_run_opened`).
-/

namespace WorkspaceLint

variable {σ : Type} [FileSystem σ]

/-! ## Packages -/

theorem eq_ok_of_toOption_eq {ε α : Type} {r : Except ε α} {a : α} (h : r.toOption = some a) :
    r = .ok a := by
  cases r with
  | ok b => exact congrArg Except.ok (Option.some.inj h)
  | error e => cases h

theorem mapError_eq_ok_iff {ε ε' α : Type} {f : ε → ε'} {r : Except ε α} {a : α} :
    r.mapError f = .ok a ↔ r = .ok a := by
  cases r with
  | ok b => constructor <;> intro h <;> exact congrArg Except.ok (Except.ok.inj h)
  | error e => exact ⟨nofun, nofun⟩

theorem bind_eq_ok_iff {ε α β : Type} {r : Except ε α} {f : α → Except ε β} {b : β} :
    r >>= f = .ok b ↔ ∃ a, r = .ok a ∧ f a = .ok b := by
  cases r with
  | ok a => exact ⟨fun h => ⟨a, rfl, h⟩, fun ⟨_, same, h⟩ => Except.ok.inj same ▸ h⟩
  | error e => exact ⟨nofun, nofun⟩

theorem map_bind {ε α β γ : Type} (g : β → γ) (r : Except ε α) (f : α → Except ε β) :
    (r >>= f).map g = r >>= fun a => (f a).map g := by
  cases r <;> rfl

theorem map_eq_ok_iff {ε α β : Type} {f : α → β} {r : Except ε α} {b : β} :
    r.map f = .ok b ↔ ∃ a, r = .ok a ∧ f a = b := by
  cases r <;> simp [Except.map]

theorem Manifest.ofJson_eq_ok_iff {v : Json} {m : Manifest} :
    Manifest.ofJson v = .ok m ↔ v = .object m.members := by
  obtain ⟨ms⟩ := m
  cases v <;> simp [ofJson]

namespace Package

/-- A manifest can be read when its file is there and holds a JSON object. -/
theorem load_eq_ok_iff {fs : σ} {dir : Path} {m : Manifest} :
    load fs dir = .ok m ↔ FileSystem.contains fs dir.manifest = true ∧
      FileSystem.readJson fs dir.manifest = .ok (.object m.members) := by
  unfold load
  by_cases there : FileSystem.contains fs dir.manifest = true
  · rw [if_pos there]
    rcases FileSystem.readJson fs dir.manifest with trouble | v
    · simp
    · simp only [mapError_eq_ok_iff, Manifest.ofJson_eq_ok_iff, there, true_and, Except.ok.injEq]
  · simp [there]

theorem open?_eq_ok_iff {fs : σ} {dir : Path} {p : Package} :
    open? fs dir = .ok p ↔ FileSystem.contains fs dir.manifest = true ∧ p = fresh dir := by
  unfold open?
  split
  · rename_i there
    simp only [there, true_and, Except.ok.injEq]
    exact eq_comm
  · rename_i missing
    simp [missing]

/-- The manifest is kept as the file holds it, if it is kept at all. -/
def Coherent (fs : σ) (p : Package) : Prop := ∀ m, p.manifest = some m → load fs p.dir = .ok m

theorem coherent_forget (fs : σ) (p : Package) : p.forget.Coherent fs := by
  intro m hm
  exact absurd hm (by simp [forget])

/-- Reading a manifest gives what its file holds exactly when nothing else is kept. -/
theorem readManifest_fst_eq_load_iff {fs : σ} {p : Package} :
    (p.readManifest fs).1 = load fs p.dir ↔ p.Coherent fs := by
  unfold readManifest Coherent
  rcases hm : p.manifest with _ | m
  · rcases hl : load fs p.dir with e | m <;> simp
  · simp [eq_comm]

/-- Reading a manifest changes nothing but what is kept of it. -/
@[simp] theorem forget_readManifest_snd (fs : σ) (p : Package) :
    (p.readManifest fs).2.forget = p.forget := by
  unfold readManifest
  rcases p.manifest with _ | m
  · rcases load fs p.dir with e | m <;> rfl
  · rfl

@[simp] theorem dir_readManifest_snd (fs : σ) (p : Package) :
    (p.readManifest fs).2.dir = p.dir := by
  show (p.readManifest fs).2.forget.dir = p.dir
  rw [forget_readManifest_snd]
  rfl

namespace Coherent

variable {fs : σ} {p : Package}

theorem readManifest_fst (h : p.Coherent fs) : (p.readManifest fs).1 = load fs p.dir :=
  readManifest_fst_eq_load_iff.2 h

theorem readManifest_snd (h : p.Coherent fs) : (p.readManifest fs).2.Coherent fs := by
  unfold readManifest
  rcases hm : p.manifest with _ | m
  · rcases hl : load fs p.dir with e | m
    · exact h
    · intro m' hm'
      rw [← Option.some.inj hm']
      exact hl
  · exact h

theorem add (h : p.Coherent fs) (severity : Severity) (finding : Finding) :
    (p.add severity finding).Coherent fs := h

theorem withoutFindings (h : p.Coherent fs) : p.withoutFindings.Coherent fs := h

end Coherent

end Package

/-! ## Workspaces -/

namespace Workspace

/-- All that is kept of a workspace is what reading it again would give. -/
structure Coherent (fs : σ) (w : Workspace) : Prop where
  package : w.package.Coherent fs
  dirs : ∀ ds, w.dirs = some ds → memberDirs fs w.package.dir = .ok ds
  names : ∀ ns, w.names = some ns →
    (memberDirs fs w.package.dir).map (memberNames fs) = .ok ns

/-- The workspace with nothing kept. -/
def bare (w : Workspace) : Workspace := ⟨w.package.forget, none, none⟩

theorem coherent_bare (fs : σ) (w : Workspace) : w.bare.Coherent fs where
  package := Package.coherent_forget fs w.package
  dirs _ h := absurd h (by simp [bare])
  names _ h := absurd h (by simp [bare])

@[simp] theorem package_readDirs_snd (fs : σ) (w : Workspace) :
    (w.readDirs fs).2.package = w.package := by
  unfold readDirs
  rcases w.dirs with _ | ds
  · rcases memberDirs fs w.package.dir with trouble | ds <;> rfl
  · rfl

@[simp] theorem package_readNames_snd (fs : σ) (w : Workspace) :
    (w.readNames fs).2.package = w.package := by
  unfold readNames
  have dirs := package_readDirs_snd fs w
  rcases w.names with _ | ns
  · rcases hr : w.readDirs fs with ⟨trouble | ds, w'⟩ <;> rw [hr] at dirs <;> exact dirs
  · rfl

theorem bare_eq_of_package_eq {w w' : Workspace} (h : w.package = w'.package) :
    w.bare = w'.bare := by
  simp only [bare, h]

namespace Coherent

variable {fs : σ} {w : Workspace}

theorem readDirs_fst (h : w.Coherent fs) : (w.readDirs fs).1 = memberDirs fs w.package.dir := by
  unfold readDirs
  rcases hd : w.dirs with _ | ds
  · rcases memberDirs fs w.package.dir with trouble | ds <;> rfl
  · exact (h.dirs ds hd).symm

theorem readDirs_snd (h : w.Coherent fs) : (w.readDirs fs).2.Coherent fs := by
  unfold readDirs
  rcases hd : w.dirs with _ | ds
  · rcases hm : memberDirs fs w.package.dir with trouble | ds
    · exact h
    · refine ⟨h.package, ?_, h.names⟩
      intro ds' hds'
      rw [← Option.some.inj hds']
      exact hm
  · exact h

theorem readNames_fst (h : w.Coherent fs) :
    (w.readNames fs).1 = (memberDirs fs w.package.dir).map (memberNames fs) := by
  unfold readNames
  rcases hn : w.names with _ | ns
  · have hd := h.readDirs_fst
    rcases hr : w.readDirs fs with ⟨trouble | ds, w'⟩ <;> rw [hr] at hd <;> rw [← hd] <;> rfl
  · exact (h.names ns hn).symm

theorem readNames_snd (h : w.Coherent fs) : (w.readNames fs).2.Coherent fs := by
  have hn := h.readNames_fst
  have hd := h.readDirs_snd
  have hp := package_readDirs_snd fs w
  unfold readNames at hn ⊢
  rcases hk : w.names with _ | ns
  · rcases hr : w.readDirs fs with ⟨trouble | ds, w'⟩ <;> rw [hr] at hd hp <;>
      simp only [hk, hr] at hn ⊢
    · exact hd
    · refine ⟨hd.package, hd.dirs, ?_⟩
      intro ns' hns'
      simp only at hns' hp ⊢
      rw [hp, ← hn, Option.some.inj hns']
  · exact h

theorem withPackage (h : w.Coherent fs) {p : Package} (dir : p.dir = w.package.dir)
    (coherent : p.Coherent fs) : Coherent fs { w with package := p } where
  package := coherent
  dirs ds hd := by simpa only [dir] using h.dirs ds hd
  names ns hn := by simpa only [dir] using h.names ns hn

theorem readManifest (h : w.Coherent fs) :
    Coherent fs { w with package := (w.package.readManifest fs).2 } :=
  h.withPackage (Package.dir_readManifest_snd fs w.package) h.package.readManifest_snd

end Coherent

end Workspace

/-! ## Contexts -/

namespace Context

/-- All that a context keeps is what reading it again would give. -/
def Coherent (fs : σ) : Context → Prop
  | root w => w.Coherent fs
  | member p w => p.Coherent fs ∧ w.Coherent fs
  | standalone p => p.Coherent fs

/-- The context with nothing kept. -/
def bare : Context → Context
  | root w => root w.bare
  | member p w => member p.forget w.bare
  | standalone p => standalone p.forget

@[simp] theorem bare_bare (c : Context) : c.bare.bare = c.bare := by cases c <;> rfl

@[simp] theorem dir_bare (c : Context) : c.bare.dir = c.dir := by cases c <;> rfl

@[simp] theorem dir_withoutFindings (c : Context) : c.withoutFindings.dir = c.dir := by
  cases c <;> rfl

@[simp] theorem findings_bare (c : Context) : c.bare.findings = c.findings := by cases c <;> rfl

theorem bare_add (severity : Severity) (finding : Finding) (c : Context) :
    (c.add severity finding).bare = c.bare.add severity finding := by cases c <;> rfl

/-- The context as it was opened: with nothing kept and nothing found. -/
def opened (c : Context) : Context := c.bare.withoutFindings

@[simp] theorem dir_opened (c : Context) : c.opened.dir = c.dir := by cases c <;> rfl

@[simp] theorem isRoot_opened (c : Context) : c.opened.isRoot = c.isRoot := by cases c <;> rfl

@[simp] theorem workspaceDir_opened (c : Context) : c.opened.workspaceDir = c.workspaceDir := by
  cases c <;> rfl

@[simp] theorem opened_forget (c : Context) : c.forget.opened = c.opened := by cases c <;> rfl

@[simp] theorem opened_withoutFindings (c : Context) : c.withoutFindings.opened = c.opened := by
  cases c <;> rfl

theorem bare_eq_opened {c : Context} (h : c.findings = []) : c.bare = c.opened := by
  cases c with
  | root w => exact congrArg (fun fs => root ⟨⟨w.package.dir, none, fs⟩, none, none⟩) h
  | member p w => exact congrArg (fun fs => member ⟨p.dir, none, fs⟩ w.bare) h
  | standalone p => exact congrArg (fun fs => standalone ⟨p.dir, none, fs⟩) h

theorem coherent_bare (fs : σ) (c : Context) : c.bare.Coherent fs := by
  cases c with
  | root w => exact w.coherent_bare fs
  | member p w => exact ⟨Package.coherent_forget fs p, w.coherent_bare fs⟩
  | standalone p => exact Package.coherent_forget fs p

theorem package_mapPackage (f : Package → Package) (c : Context) :
    (c.mapPackage f).package = f c.package := by cases c <;> rfl

theorem package_forget (c : Context) : c.forget.package = c.package.forget :=
  c.package_mapPackage Package.forget

theorem package_withoutFindings (c : Context) :
    c.withoutFindings.package = c.package.withoutFindings :=
  c.package_mapPackage Package.withoutFindings

namespace Coherent

variable {fs : σ} {c : Context}

theorem package (h : c.Coherent fs) : c.package.Coherent fs := by
  cases c with
  | root w => exact Workspace.Coherent.package h
  | member p w => exact h.1
  | standalone p => exact h

theorem mapPackage (h : c.Coherent fs) {f : Package → Package}
    (dir : (f c.package).dir = c.dir) (coherent : (f c.package).Coherent fs) :
    (c.mapPackage f).Coherent fs := by
  cases c with
  | root w => exact Workspace.Coherent.withPackage h dir coherent
  | member p w => exact ⟨coherent, h.2⟩
  | standalone p => exact coherent

theorem add (h : c.Coherent fs) (severity : Severity) (finding : Finding) :
    (c.add severity finding).Coherent fs :=
  h.mapPackage rfl (h.package.add severity finding)

theorem withoutFindings (h : c.Coherent fs) : c.withoutFindings.Coherent fs :=
  h.mapPackage rfl h.package.withoutFindings

theorem inWorkspace {α : Type} (h : c.Coherent fs)
    {f : Workspace → Except RuleError α × Workspace}
    (keeps : ∀ w : Workspace, w.Coherent fs → (f w).2.Coherent fs) :
    (c.inWorkspace f).2.Coherent fs := by
  cases c with
  | root w => exact keeps w h
  | member p w => exact ⟨h.1, keeps w h.2⟩
  | standalone p => exact h

end Coherent

/-! ### Opening -/

section

variable {fs : σ} {c : Context}

theorem openWorkspace_eq_ok_iff {dir : Path} :
    openWorkspace fs dir = .ok c ↔
      FileSystem.contains fs dir.manifest = true ∧ c = root (.fresh dir) := by
  simp only [openWorkspace, map_eq_ok_iff, Package.open?_eq_ok_iff]
  exact ⟨fun ⟨_, ⟨there, same⟩, made⟩ => ⟨there, by rw [← made, same]; rfl⟩,
    fun ⟨there, same⟩ => ⟨_, ⟨there, rfl⟩, same.symm⟩⟩

theorem openPackage_eq_ok_iff {dir : Path} :
    openPackage fs dir = .ok c ↔
      FileSystem.contains fs dir.manifest = true ∧ c = standalone (.fresh dir) := by
  simp only [openPackage, map_eq_ok_iff, Package.open?_eq_ok_iff]
  exact ⟨fun ⟨_, ⟨there, same⟩, made⟩ => ⟨there, by rw [← made, same]⟩,
    fun ⟨there, same⟩ => ⟨_, ⟨there, rfl⟩, same.symm⟩⟩

theorem createChild_eq_ok_iff {w : Workspace} {dir : Path} :
    (root w).createChild fs dir = .ok c ↔
      FileSystem.contains fs dir.manifest = true ∧ c = member (.fresh dir) w := by
  simp only [createChild, map_eq_ok_iff, Package.open?_eq_ok_iff]
  exact ⟨fun ⟨_, ⟨there, same⟩, made⟩ => ⟨there, by rw [← made, same]⟩,
    fun ⟨there, same⟩ => ⟨_, ⟨there, rfl⟩, same.symm⟩⟩

end

/-! ### Questions -/

section

variable {α : Type} {f : Workspace → Except RuleError α × Workspace}

theorem inWorkspace_fst_bare {fs : σ} {c : Context} (h : c.Coherent fs)
    (same : ∀ w : Workspace, w.Coherent fs → (f w).1 = (f w.bare).1) :
    (c.inWorkspace f).1 = (c.bare.inWorkspace f).1 := by
  cases c with
  | root w => exact same w h
  | member p w => exact same w h.2
  | standalone p => rfl

theorem bare_inWorkspace_snd (c : Context) (same : ∀ w : Workspace, (f w).2.bare = w.bare) :
    (c.inWorkspace f).2.bare = c.bare := by
  cases c with
  | root w => exact congrArg root (same w)
  | member p w => exact congrArg (member p.forget) (same w)
  | standalone p => rfl

end

/-- The answer to a question does not depend on what is kept. -/
theorem Coherent.answer_fst {fs : σ} {c : Context} (h : c.Coherent fs) (q : Question) :
    (c.answer fs q).1 = (c.bare.answer fs q).1 := by
  cases q with
  | dir => exact c.dir_bare.symm
  | isRoot | workspaceDir => cases c <;> rfl
  | contains _ | read _ | globDirs _ _ | report _ _ => rfl
  | findings => exact c.findings_bare.symm
  | manifest =>
    refine h.package.readManifest_fst.trans ?_
    rw [← dir, ← c.dir_bare]
    exact (coherent_bare fs c).package.readManifest_fst.symm
  | rootManifest =>
    refine inWorkspace_fst_bare h fun w hw => congrArg (Except.mapError RuleError.config) ?_
    exact hw.package.readManifest_fst.trans (w.coherent_bare fs).package.readManifest_fst.symm
  | members =>
    refine inWorkspace_fst_bare h fun w hw => congrArg (Except.mapError RuleError.runtime) ?_
    exact hw.readDirs_fst.trans (w.coherent_bare fs).readDirs_fst.symm
  | memberNames =>
    refine inWorkspace_fst_bare h fun w hw => congrArg (Except.mapError RuleError.runtime) ?_
    exact hw.readNames_fst.trans (w.coherent_bare fs).readNames_fst.symm

/-- What is kept after a question is what reading it again would give. -/
theorem Coherent.answer_snd {fs : σ} {c : Context} (h : c.Coherent fs) (q : Question) :
    (c.answer fs q).2.Coherent fs := by
  cases q with
  | manifest =>
    exact h.mapPackage (f := fun _ => (c.package.readManifest fs).2)
      (Package.dir_readManifest_snd fs _) h.package.readManifest_snd
  | rootManifest => exact h.inWorkspace fun w hw => hw.readManifest
  | members => exact h.inWorkspace fun w hw => hw.readDirs_snd
  | memberNames => exact h.inWorkspace fun w hw => hw.readNames_snd
  | report severity finding => exact h.add severity finding
  | _ => exact h

/-- A question that reports nothing changes nothing but what is kept. -/
theorem bare_answer_snd (fs : σ) (c : Context) (q : Question) :
    (c.answer fs q).2.bare = match q with
      | .report severity finding => c.bare.add severity finding
      | _ => c.bare := by
  cases q with
  | manifest =>
    have kept := Package.forget_readManifest_snd fs c.package
    cases c with
    | root w => exact congrArg (fun p => root ⟨p, none, none⟩) kept
    | member p w => exact congrArg (fun p => member p w.bare) kept
    | standalone p => exact congrArg standalone kept
  | rootManifest =>
    refine bare_inWorkspace_snd c fun w => ?_
    exact congrArg (fun p => Workspace.mk p none none) (Package.forget_readManifest_snd fs w.package)
  | members =>
    exact bare_inWorkspace_snd c fun w =>
      Workspace.bare_eq_of_package_eq (Workspace.package_readDirs_snd fs w)
  | memberNames =>
    exact bare_inWorkspace_snd c fun w =>
      Workspace.bare_eq_of_package_eq (Workspace.package_readNames_snd fs w)
  | report severity finding => exact bare_add severity finding c
  | _ => rfl

/-- A question leaves a context as it was opened. -/
theorem opened_answer_snd (fs : σ) (c : Context) (q : Question) :
    (c.answer fs q).2.opened = c.opened := by
  unfold opened
  rw [bare_answer_snd]
  cases q with
  | report severity finding => cases c <;> rfl
  | _ => rfl

theorem package_inWorkspace_snd {α : Type} {f : Workspace → Except RuleError α × Workspace}
    {P : Package → Prop} {c : Context} (h : P c.package)
    (keeps : ∀ w : Workspace, P w.package → P (f w).2.package) :
    P (c.inWorkspace f).2.package := by
  cases c with
  | root w => exact keeps w h
  | member p w => exact h
  | standalone p => exact h

/-- A question keeps the manifest of the package coherent, also where the rest is not. -/
theorem coherent_package_answer_snd {fs : σ} {c : Context} (h : c.package.Coherent fs)
    (q : Question) : (c.answer fs q).2.package.Coherent fs := by
  cases q with
  | manifest =>
    show (c.mapPackage fun _ => (c.package.readManifest fs).2).package.Coherent fs
    rw [package_mapPackage]
    exact h.readManifest_snd
  | rootManifest => exact package_inWorkspace_snd h fun w hw => hw.readManifest_snd
  | members =>
    refine package_inWorkspace_snd h fun w hw => ?_
    rw [membersOf, Workspace.package_readDirs_snd]
    exact hw
  | memberNames =>
    refine package_inWorkspace_snd h fun w hw => ?_
    rw [namesOf, Workspace.package_readNames_snd]
    exact hw
  | report severity finding =>
    show (c.mapPackage (Package.add severity finding)).package.Coherent fs
    rw [package_mapPackage]
    exact h.add severity finding
  | _ => exact h

end Context

/-! ## Checks -/

namespace Probe

variable {α : Type}

/-- What every question keeps, a whole program keeps. -/
theorem run_induction {fs : σ} {P : Context → Prop}
    (keeps : ∀ c q, P c → P (c.answer fs q).2) (probe : Probe α) (c : Context) (h : P c) :
    P (probe.run fs c).2 := by
  induction probe generalizing c with
  | done a => exact h
  | ask q next ih => exact ih _ _ (keeps c q h)

/-- A program comes to the same on two contexts that are coherent and differ at most in what they
keep. -/
theorem run_eq_of_bare_eq {fs : σ} (probe : Probe α) {c c' : Context} (h : c.Coherent fs)
    (h' : c'.Coherent fs) (same : c.bare = c'.bare) :
    (probe.run fs c).1 = (probe.run fs c').1 ∧
      (probe.run fs c).2.bare = (probe.run fs c').2.bare := by
  induction probe generalizing c c' with
  | done a => exact ⟨rfl, same⟩
  | ask q next ih =>
    have answer : (c.answer fs q).1 = (c'.answer fs q).1 := by
      rw [h.answer_fst, h'.answer_fst, same]
    have left : (c.answer fs q).2.bare = (c'.answer fs q).2.bare := by
      rw [Context.bare_answer_snd, Context.bare_answer_snd, same]
    simp only [run, answer]
    exact ih _ (h.answer_snd q) (h'.answer_snd q) left

end Probe

namespace Check

variable {α : Type} (check : Check α) {fs : σ} {c : Context}

theorem opened_run_snd (fs : σ) (c : Context) : (check.run fs c).2.opened = c.opened :=
  Probe.run_induction (P := fun c' => c'.opened = c.opened)
    (fun c' q h => (c'.opened_answer_snd fs q).trans h) _ c rfl

theorem dir_run_snd (fs : σ) (c : Context) : (check.run fs c).2.dir = c.dir := by
  rw [← Context.dir_opened, opened_run_snd, Context.dir_opened]

theorem coherent_run_snd (h : c.Coherent fs) : (check.run fs c).2.Coherent fs :=
  Probe.run_induction (fun _ q h => h.answer_snd q) _ c h

theorem coherent_package_run_snd (h : c.package.Coherent fs) :
    (check.run fs c).2.package.Coherent fs :=
  Probe.run_induction (P := fun c => c.package.Coherent fs)
    (fun _ q h => Context.coherent_package_answer_snd h q) _ c h

/-- On a coherent context without findings, a check comes to what it comes to on the context as it
was opened. -/
theorem run_eq_run_opened (h : c.Coherent fs) (none : c.findings = []) :
    (check.run fs c).1 = (check.run fs c.opened).1 ∧
      (check.run fs c).2.findings = (check.run fs c.opened).2.findings := by
  have same := Context.bare_eq_opened none
  have coherent := c.coherent_bare fs
  rw [← same]
  obtain ⟨result, left⟩ := Probe.run_eq_of_bare_eq (ExceptT.run check) h coherent c.bare_bare.symm
  refine ⟨result, ?_⟩
  rw [← Context.findings_bare, Check.run, left, Context.findings_bare, Check.run]

end Check

end WorkspaceLint
