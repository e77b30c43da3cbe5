import WorkspaceLint.Proofs.Workspace.Checks
import WorkspaceLint.Proofs.Workspace.Mirror
import WorkspaceLint.Rule.Generator

/-!
# Questions to a tree and to its disk

A package in a tree and the same package on the disk of the tree give the same answers, except for
the wording of errors, as long as the patterns of the workspace fit its root or its members are
known already (`Context.Prepared`).  So a check that asks only for plain paths goes the same way in
both (`Check.Mirrored`): it fails in both with errors of one kind, or comes to the same value, and
it leaves the same context.
-/

namespace WorkspaceLint

open WorkspaceLint.Path (AreNames down)

/-! ## Packages and workspaces -/

namespace Tree.OnDisk

variable {t : Tree} {d : Disk} (h : t.OnDisk d)

include h

theorem open? {dir : Path} (plain : dir.Plain) : Package.open? d dir = Package.open? t dir := by
  unfold Package.open?
  rw [h.contains_manifest plain]

theorem load {dir : Path} (plain : dir.Plain) :
    (Package.load d dir).toOption = (Package.load t dir).toOption := by
  unfold Package.load
  rw [h.contains_manifest plain]
  split
  · rcases cases_of_toOption_eq (h.readJson_manifest plain) with
      ⟨e, e', disk, tree⟩ | ⟨v, disk, tree⟩ <;> rw [disk, tree]
    rfl
  · rfl

theorem readManifest {p : Package} (plain : p.dir.Plain) :
    (p.readManifest d).1.toOption = (p.readManifest t).1.toOption ∧
      (p.readManifest d).2 = (p.readManifest t).2 := by
  unfold Package.readManifest
  rcases p.manifest with _ | m
  · rcases cases_of_toOption_eq (h.load plain) with ⟨e, e', disk, tree⟩ | ⟨m, disk, tree⟩ <;>
      simp only [disk, tree]
    · exact ⟨rfl, trivial⟩
    · exact ⟨trivial, trivial⟩
  · exact ⟨rfl, rfl⟩

end Tree.OnDisk

namespace Workspace

/-- The directories of the root and of the members that are known are plain. -/
structure Plain (w : Workspace) : Prop where
  root : w.package.dir.Plain
  members : ∀ dirs, w.dirs = some dirs → ∀ dir ∈ dirs, dir.Plain

/-- The members that are known have plain directories, and if none are, the patterns for them fit
the root. -/
structure Prepared {σ : Type} [FileSystem σ] (fs : σ) (w : Workspace) : Prop where
  known : ∀ dirs, w.dirs = some dirs → ∀ dir ∈ dirs, dir.Plain
  fits : w.dirs = none → Fitting fs w.package.dir

theorem Prepared.withPackage {σ : Type} [FileSystem σ] {fs : σ} {w : Workspace}
    (prepared : w.Prepared fs) {p : Package} (same : p.dir = w.package.dir) :
    Prepared fs { w with package := p } :=
  ⟨prepared.known, fun none => by simpa only [same] using prepared.fits none⟩

theorem readDirs_of_listed {σ : Type} [FileSystem σ] (fs : σ) {w : Workspace}
    (listed : w.dirs.isSome = true) : (w.readDirs fs).2 = w := by
  obtain ⟨dirs, known⟩ := Option.isSome_iff_exists.1 listed
  simp only [readDirs, known]

theorem listed_readNames {σ : Type} [FileSystem σ] (fs : σ) {w : Workspace}
    (listed : w.dirs.isSome = true) : (w.readNames fs).2.dirs.isSome = true := by
  have same := readDirs_of_listed fs listed
  unfold readNames
  rcases w.names with _ | names
  · rcases hd : w.readDirs fs with ⟨r, w'⟩
    rw [hd] at same
    obtain rfl : w' = w := same
    rcases r with e | dirs <;> exact listed
  · exact listed

end Workspace

namespace Tree.OnDisk

variable {t : Tree} {d : Disk} (h : t.OnDisk d) {w : Workspace} (plain : w.package.dir.Plain)
  (prepared : w.Prepared t)

include h plain prepared

theorem readDirs :
    (w.readDirs d).1.toOption = (w.readDirs t).1.toOption ∧
      (w.readDirs d).2 = (w.readDirs t).2 ∧ (w.readDirs t).2.Prepared t ∧
      ∀ dirs, (w.readDirs t).1 = .ok dirs →
        (∀ dir ∈ dirs, dir.Plain) ∧ (w.readDirs t).2.dirs = some dirs := by
  unfold Workspace.readDirs
  rcases listed : w.dirs with _ | dirs
  · obtain ⟨same, known⟩ := h.memberDirs plain (prepared.fits listed)
    rcases cases_of_toOption_eq same with ⟨e, e', disk, tree⟩ | ⟨dirs, disk, tree⟩ <;>
      simp only [disk, tree]
    · exact ⟨rfl, trivial, prepared, nofun⟩
    · refine ⟨trivial, trivial, ⟨fun dirs' same => ?_, nofun⟩, fun dirs' same => ?_⟩
      · rw [← Option.some.inj same]
        exact known dirs tree
      · rw [← Except.ok.inj same]
        exact ⟨known dirs tree, rfl⟩
  · refine ⟨rfl, rfl, prepared, fun dirs' same => ?_⟩
    rw [← Except.ok.inj same]
    exact ⟨prepared.known dirs listed, listed⟩

theorem readNames :
    (w.readNames d).1.toOption = (w.readNames t).1.toOption ∧
      (w.readNames d).2 = (w.readNames t).2 ∧ (w.readNames t).2.Prepared t := by
  obtain ⟨same, after, prepared', known⟩ := h.readDirs plain prepared
  unfold Workspace.readNames
  rcases w.names with _ | names
  · rcases disk : w.readDirs d with ⟨r, w₁⟩
    rcases tree : w.readDirs t with ⟨r', w₂⟩
    rw [disk, tree] at same after
    rw [tree] at prepared' known
    obtain rfl : w₁ = w₂ := after
    rcases cases_of_toOption_eq same with ⟨e, e', rfl, rfl⟩ | ⟨dirs, rfl, rfl⟩
    · exact ⟨rfl, rfl, prepared'⟩
    · obtain ⟨plain', -⟩ := known dirs rfl
      simp only [h.memberNames plain']
      exact ⟨trivial, trivial, prepared'.known, prepared'.fits⟩
  · exact ⟨rfl, rfl, prepared⟩

end Tree.OnDisk

/-! ## Contexts -/

namespace Context

/-- The package and the workspace have plain directories, and the workspace is prepared. -/
structure Prepared {σ : Type} [FileSystem σ] (fs : σ) (c : Context) : Prop where
  dir : c.dir.Plain
  workspace : ∀ w, c.workspace? = some w → w.package.dir.Plain ∧ w.Prepared fs

/-- The members of the workspace are known. -/
def Listed (c : Context) : Prop := ∀ w, c.workspace? = some w → w.dirs.isSome = true

/-- The directories of the package and of its workspace are plain. -/
structure Plain (c : Context) : Prop where
  dir : c.dir.Plain
  workspace : ∀ w, c.workspace? = some w → w.Plain

/-- The patterns of the workspace fit its root, unless its members are known. -/
def Fitting {σ : Type} [FileSystem σ] (fs : σ) (c : Context) : Prop :=
  ∀ w, c.workspace? = some w → w.dirs = none → Workspace.Fitting fs w.package.dir

theorem Listed.fitting {σ : Type} [FileSystem σ] {c : Context} (listed : c.Listed) (fs : σ) :
    c.Fitting fs := by
  intro w inside none
  have known := listed w inside
  rw [none] at known
  cases known

theorem Prepared.plain {σ : Type} [FileSystem σ] {fs : σ} {c : Context} (prepared : c.Prepared fs) :
    c.Plain where
  dir := prepared.dir
  workspace w inside :=
    ⟨(prepared.workspace w inside).1, (prepared.workspace w inside).2.known⟩

theorem Plain.prepared {σ : Type} [FileSystem σ] {fs : σ} {c : Context} (plain : c.Plain)
    (fitting : c.Fitting fs) : c.Prepared fs where
  dir := plain.dir
  workspace w inside :=
    ⟨(plain.workspace w inside).root, (plain.workspace w inside).members, fitting w inside⟩

variable {t : Tree} {d : Disk} {c : Context}

/-- Changing a package where it is, and nothing of its workspace but the package, keeps a context
prepared. -/
theorem Prepared.mapPackage {σ : Type} [FileSystem σ] {fs : σ} (prepared : c.Prepared fs)
    {f : Package → Package} (same : (f c.package).dir = c.dir) : (c.mapPackage f).Prepared fs := by
  cases c with
  | root w =>
    obtain ⟨plain, known⟩ := prepared.workspace w rfl
    have plain' : (f w.package).dir.Plain := by
      rw [show (f w.package).dir = w.package.dir from same]
      exact plain
    refine ⟨plain', fun w' inside => ?_⟩
    rw [← Option.some.inj inside]
    exact ⟨plain', known.withPackage same⟩
  | member p w =>
    refine ⟨?_, prepared.workspace⟩
    show (f p).dir.Plain
    rw [show (f p).dir = p.dir from same]
    exact prepared.dir
  | standalone p =>
    refine ⟨?_, nofun⟩
    show (f p).dir.Plain
    rw [show (f p).dir = p.dir from same]
    exact prepared.dir

theorem Listed.mapPackage (listed : c.Listed) (f : Package → Package) : (c.mapPackage f).Listed := by
  cases c with
  | root w =>
    intro w' inside
    rw [← Option.some.inj inside]
    exact listed w rfl
  | member p w => exact listed
  | standalone p => exact nofun

theorem Prepared.inWorkspace {α : Type} {σ : Type} [FileSystem σ] {fs : σ}
    (prepared : c.Prepared fs) {f : Workspace → Except RuleError α × Workspace}
    (keeps : ∀ w : Workspace, w.package.dir.Plain → w.Prepared fs →
      (f w).2.package.dir = w.package.dir ∧ (f w).2.Prepared fs) :
    (c.inWorkspace f).2.Prepared fs := by
  have whole : ∀ w, c.workspace? = some w →
      (f w).2.package.dir.Plain ∧ (f w).2.Prepared fs := by
    intro w inside
    obtain ⟨plain, known⟩ := prepared.workspace w inside
    obtain ⟨same, known'⟩ := keeps w plain known
    exact ⟨by rw [same]; exact plain, known'⟩
  cases c with
  | root w => exact ⟨(whole w rfl).1, fun w' inside => Option.some.inj inside ▸ whole w rfl⟩
  | member p w => exact ⟨prepared.dir, fun w' inside => Option.some.inj inside ▸ whole w rfl⟩
  | standalone p => exact prepared

/-- A question keeps a context prepared. -/
theorem Prepared.answer_snd (h : t.OnDisk d) (prepared : c.Prepared t) (q : Question) :
    (c.answer t q).2.Prepared t := by
  cases q with
  | manifest =>
    exact prepared.mapPackage (f := fun _ => (c.package.readManifest t).2)
      (Package.dir_readManifest_snd t c.package)
  | rootManifest =>
    refine prepared.inWorkspace fun w plain known => ?_
    have same := Package.dir_readManifest_snd t w.package
    exact ⟨same, known.withPackage same⟩
  | members =>
    refine prepared.inWorkspace fun w plain known => ⟨?_, (h.readDirs plain known).2.2.1⟩
    show (w.readDirs t).2.package.dir = _
    rw [Workspace.package_readDirs_snd]
  | memberNames =>
    refine prepared.inWorkspace fun w plain known => ⟨?_, (h.readNames plain known).2.2⟩
    show (w.readNames t).2.package.dir = _
    rw [Workspace.package_readNames_snd]
  | report severity finding => exact prepared.mapPackage rfl
  | _ => exact prepared

/-- A question keeps the members that are known. -/
theorem Listed.answer_snd {σ : Type} [FileSystem σ] {fs : σ} (listed : c.Listed) (q : Question) :
    (c.answer fs q).2.Listed := by
  have inside {α : Type} {f : Workspace → Except RuleError α × Workspace}
      (keeps : ∀ w : Workspace, w.dirs.isSome = true → (f w).2.dirs.isSome = true) :
      (c.inWorkspace f).2.Listed := by
    cases c with
    | root w => exact fun w' inside => Option.some.inj inside ▸ keeps w (listed w rfl)
    | member p w => exact fun w' inside => Option.some.inj inside ▸ keeps w (listed w rfl)
    | standalone p => exact listed
  cases q with
  | manifest => exact listed.mapPackage fun _ => (c.package.readManifest fs).2
  | rootManifest => exact inside fun w known => known
  | members =>
    refine inside fun w known => ?_
    show (w.readDirs fs).2.dirs.isSome = true
    rwa [Workspace.readDirs_of_listed fs known]
  | memberNames => exact inside fun w known => Workspace.listed_readNames fs known
  | report severity finding => exact listed.mapPackage _
  | _ => exact listed

end Context

namespace Check

variable {α β : Type} {t : Tree} {d : Disk} {c : Context}

theorem prepared_run_snd (h : t.OnDisk d) (check : Check α) (prepared : c.Prepared t) :
    (check.run t c).2.Prepared t :=
  Probe.run_induction (fun _ q prepared => prepared.answer_snd h q) _ c prepared

theorem listed_run_snd {σ : Type} [FileSystem σ] {fs : σ} (check : Check α) (listed : c.Listed) :
    (check.run fs c).2.Listed :=
  Probe.run_induction (fun _ q listed => listed.answer_snd q) _ c listed

/-! ## Checks -/

/-- On one context a check fails with errors of one kind or comes to the same value, in a tree and
on its disk.  It leaves the same context, to which it added findings that `S` allows, and its value
is one of `Q`. -/
structure Same (t : Tree) (d : Disk) (S : List Reported → Prop) (Q : α → Prop) (x : Check α)
    (c : Context) : Prop where
  result : (x.run d c).1.mapError RuleError.kind = (x.run t c).1.mapError RuleError.kind
  context : (x.run d c).2 = (x.run t c).2
  found : ∃ added, (x.run t c).2.findings = c.findings ++ added ∧ S added
  value : ∀ a, (x.run t c).1 = .ok a → Q a

/-- The same on every context of the package that was opened as `o`. -/
def Mirrored (t : Tree) (d : Disk) (o : Context) (S : List Reported → Prop) (Q : α → Prop)
    (x : Check α) : Prop :=
  ∀ c : Context, c.opened = o → c.Prepared t → Same t d S Q x c

/-- The same on every context of the package that was opened as `o`, with nothing found. -/
def Asks (t : Tree) (d : Disk) (o : Context) (Q : α → Prop) (x : Check α) : Prop :=
  Mirrored t d o (· = []) Q x

theorem mapError_eq_mapError_iff {ε κ : Type} {f : ε → κ} {r r' : Except ε α} :
    r.mapError f = r'.mapError f ↔
      (∃ e e', r = .error e ∧ r' = .error e' ∧ f e = f e') ∨ ∃ a, r = .ok a ∧ r' = .ok a := by
  rcases r with e | a <;> rcases r' with e' | a' <;> simp [Except.mapError, eq_comm]

/-- What could not be read fails in the same way, whatever the trouble is. -/
theorem mapError_kind_congr {ε : Type} {r r' : Except ε α} (h : r.toOption = r'.toOption)
    {f : ε → RuleError} (kind : FailureKind) (known : ∀ e, (f e).kind = kind) :
    (r.mapError f).mapError RuleError.kind = (r'.mapError f).mapError RuleError.kind := by
  rcases cases_of_toOption_eq h with ⟨e, e', rfl, rfl⟩ | ⟨a, rfl, rfl⟩
  · exact congrArg Except.error ((known e).trans (known e').symm)
  · rfl

variable {o : Context} {S : List Reported → Prop} {Q : α → Prop} {R : β → Prop} {x : Check α}
  {f : α → Check β}

theorem Asks.pure {a : α} (value : Q a) : Asks t d o Q (Pure.pure a : Check α) := fun _ _ _ =>
  ⟨rfl, rfl, ⟨[], (List.append_nil _).symm, rfl⟩, fun _ same => Except.ok.inj same ▸ value⟩

theorem Asks.ofExcept {r : Except RuleError α} (value : ∀ a, r = .ok a → Q a) :
    Asks t d o Q (Check.ofExcept r) := fun _ _ _ =>
  ⟨rfl, rfl, ⟨[], (List.append_nil _).symm, rfl⟩, value⟩

theorem Mirrored.report {severity : Severity} {finding : Finding}
    (allowed : S [⟨severity, finding⟩]) :
    Mirrored t d o S (fun _ => True) (Check.report severity finding) := by
  intro c _ _
  refine ⟨rfl, rfl, ⟨[⟨severity, finding⟩], ?_, allowed⟩, fun _ _ => trivial⟩
  show (c.add severity finding).findings = _
  cases c <;> rfl

theorem Mirrored.imp {S' : List Reported → Prop} (h : Mirrored t d o S Q x)
    (weaker : ∀ rs, S rs → S' rs) : Mirrored t d o S' Q x := fun c opened prepared =>
  let ⟨result, context, ⟨added, found, allowed⟩, value⟩ := h c opened prepared
  ⟨result, context, ⟨added, found, weaker added allowed⟩, value⟩

theorem Mirrored.pure {a : α} (none : S []) (value : Q a) :
    Mirrored t d o S Q (Pure.pure a : Check α) :=
  (Asks.pure value).imp fun _ same => same ▸ none

/-- One check after another, when the findings of both together are allowed. -/
theorem Mirrored.bind (disk : t.OnDisk d) {S₁ S₂ : List Reported → Prop}
    (h : Mirrored t d o S₁ Q x) (h' : ∀ a, Q a → Mirrored t d o S₂ R (f a))
    (first : ∀ rs, S₁ rs → S rs) (both : ∀ rs rs', S₁ rs → S₂ rs' → S (rs ++ rs')) :
    Mirrored t d o S R (x >>= f) := by
  intro c opened prepared
  obtain ⟨result, context, ⟨added, found, allowed⟩, value⟩ := h c opened prepared
  have opened' := (opened_run_snd x t c).trans opened
  have prepared' := prepared_run_snd disk x prepared
  rcases hd : x.run d c with ⟨r, c'⟩
  rcases ht : x.run t c with ⟨r', c''⟩
  rw [hd, ht] at result context
  rw [ht] at found value opened' prepared'
  obtain rfl : c' = c'' := context
  rcases mapError_eq_mapError_iff.1 result with ⟨e, e', rfl, rfl, same⟩ | ⟨a, rfl, rfl⟩
  · have left : (x >>= f).run d c = (.error e, c') := by rw [run_bind, hd]
    have right : (x >>= f).run t c = (.error e', c') := by rw [run_bind, ht]
    refine ⟨?_, ?_, ⟨added, ?_, first added allowed⟩, ?_⟩
    · rw [left, right]
      exact congrArg Except.error same
    · rw [left, right]
    · rw [right]
      exact found
    · rw [right]
      exact fun _ none => nomatch none
  · have left : (x >>= f).run d c = (f a).run d c' := by rw [run_bind, hd]
    have right : (x >>= f).run t c = (f a).run t c' := by rw [run_bind, ht]
    obtain ⟨result', context', ⟨added', found', allowed'⟩, value'⟩ :=
      h' a (value a rfl) c' opened' prepared'
    refine ⟨?_, ?_, ⟨added ++ added', ?_, both added added' allowed allowed'⟩, ?_⟩
    · rw [left, right]
      exact result'
    · rw [left, right]
      exact context'
    · rw [right, found', show c'.findings = c.findings ++ added from found, List.append_assoc]
    · rw [right]
      exact value'

/-- What follows a check that finds nothing. -/
theorem Asks.andThen (disk : t.OnDisk d) (h : Asks t d o Q x) (none : S [])
    (h' : ∀ a, Q a → Mirrored t d o S R (f a)) : Mirrored t d o S R (x >>= f) := by
  refine Mirrored.bind disk h h' ?_ ?_
  · rintro rs rfl
    exact none
  · rintro rs rs' rfl allowed
    exact allowed

theorem Asks.bind (disk : t.OnDisk d) (h : Asks t d o Q x) (h' : ∀ a, Q a → Asks t d o R (f a)) :
    Asks t d o R (x >>= f) := h.andThen disk rfl h'

/-! ## Questions -/

/-- A question whose answer is read in one way. -/
theorem Asks.asked {q : Question} {f : q.Answer → Except RuleError β}
    (quiet : ∀ c : Context, (c.answer t q).2.bare = c.bare)
    (same : ∀ c : Context, c.opened = o → c.Prepared t →
      (f (c.answer d q).1).mapError RuleError.kind = (f (c.answer t q).1).mapError RuleError.kind ∧
        (c.answer d q).2 = (c.answer t q).2 ∧ ∀ b, f (c.answer t q).1 = .ok b → R b) :
    Asks t d o R (Check.ask q >>= fun a => Check.ofExcept (f a)) := by
  intro c opened prepared
  obtain ⟨result, context, value⟩ := same c opened prepared
  refine ⟨result, context, ⟨[], ?_, rfl⟩, value⟩
  show (c.answer t q).2.findings = _
  rw [← Context.findings_bare, quiet, Context.findings_bare, List.append_nil]

theorem Asks.ask {q : Question} {Q : q.Answer → Prop}
    (quiet : ∀ c : Context, (c.answer t q).2.bare = c.bare)
    (same : ∀ c : Context, c.opened = o → c.Prepared t →
      c.answer d q = c.answer t q ∧ Q (c.answer t q).1) : Asks t d o Q (Check.ask q) := by
  intro c opened prepared
  obtain ⟨answer, value⟩ := same c opened prepared
  have left : (Check.ask q).run d c = (Check.ask q).run t c := by
    show (Except.ok (c.answer d q).1, (c.answer d q).2) = _
    rw [answer]
    rfl
  refine ⟨by rw [left], by rw [left], ⟨[], ?_, rfl⟩, fun a known => ?_⟩
  · show (c.answer t q).2.findings = _
    rw [← Context.findings_bare, quiet, Context.findings_bare, List.append_nil]
  · rw [← Except.ok.inj (show Except.ok (c.answer t q).1 = Except.ok a from known)]
    exact value

theorem Asks.dir : Asks t d o (fun dir => dir = o.dir ∧ dir.Plain) Check.dir := by
  refine Asks.ask (fun c => c.bare_answer_snd t .dir) fun c opened prepared =>
    ⟨rfl, ?_, prepared.dir⟩
  rw [← opened, Context.dir_opened]
  rfl

theorem Asks.workspaceDir : Asks t d o Path.Plain Check.workspaceDir := by
  refine Asks.asked (fun c => c.bare_answer_snd t .workspaceDir) fun c _ prepared =>
    ⟨rfl, rfl, fun root known => ?_⟩
  have inside : c.workspaceDir = .ok root := mapError_eq_ok_iff.1 known
  unfold Context.workspaceDir at inside
  rcases hw : c.workspace? with _ | w <;> rw [hw] at inside
  · cases inside
  · rw [← Except.ok.inj inside]
    exact (prepared.workspace w hw).1

theorem Asks.workspacePath {relative : Path} {Q : Path → Prop} (disk : t.OnDisk d)
    (leads : ∀ root : Path, root.Plain → Q (root.join relative)) :
    Asks t d o Q (Check.workspacePath relative) :=
  Asks.workspaceDir.bind disk fun root plain => Asks.pure (leads root plain)

theorem Asks.manifest (disk : t.OnDisk d) : Asks t d o (fun _ => True) Check.manifest := by
  refine Asks.asked (fun c => c.bare_answer_snd t .manifest) fun c _ prepared => ?_
  obtain ⟨result, package⟩ := disk.readManifest prepared.dir
  refine ⟨mapError_kind_congr result .config fun _ => rfl, ?_, fun _ _ => trivial⟩
  exact congrArg (fun p => c.mapPackage fun _ => p) package

/-- Looking something up in the workspace. -/
theorem inWorkspace_congr {c : Context} (prepared : c.Prepared t)
    {f g : Workspace → Except RuleError α × Workspace}
    (same : ∀ w : Workspace, w.package.dir.Plain → w.Prepared t →
      (f w).1.mapError RuleError.kind = (g w).1.mapError RuleError.kind ∧ (f w).2 = (g w).2) :
    (c.inWorkspace f).1.mapError RuleError.kind = (c.inWorkspace g).1.mapError RuleError.kind ∧
      (c.inWorkspace f).2 = (c.inWorkspace g).2 := by
  cases c with
  | root w =>
    obtain ⟨plain, known⟩ := prepared.workspace w rfl
    obtain ⟨result, after⟩ := same w plain known
    exact ⟨result, congrArg Context.root after⟩
  | member p w =>
    obtain ⟨plain, known⟩ := prepared.workspace w rfl
    obtain ⟨result, after⟩ := same w plain known
    exact ⟨result, congrArg (Context.member p) after⟩
  | standalone p => exact ⟨rfl, rfl⟩

theorem Asks.rootManifest (disk : t.OnDisk d) : Asks t d o (fun _ => True) Check.rootManifest := by
  refine Asks.asked (fun c => c.bare_answer_snd t .rootManifest) fun c _ prepared => ?_
  have same := inWorkspace_congr prepared
    (f := fun w => ((w.package.readManifest d).1.mapError RuleError.config,
      { w with package := (w.package.readManifest d).2 }))
    (g := fun w => ((w.package.readManifest t).1.mapError RuleError.config,
      { w with package := (w.package.readManifest t).2 })) fun w plain _ => by
      obtain ⟨result, package⟩ := disk.readManifest plain
      refine ⟨mapError_kind_congr result .config fun _ => rfl, ?_⟩
      exact congrArg (fun p => { w with package := p }) package
  exact ⟨same.1, same.2, fun _ _ => trivial⟩

theorem Asks.memberNames (disk : t.OnDisk d) : Asks t d o (fun _ => True) Check.memberNames := by
  refine Asks.asked (fun c => c.bare_answer_snd t .memberNames) fun c _ prepared => ?_
  have same := inWorkspace_congr prepared (f := Context.namesOf d) (g := Context.namesOf t)
    fun w plain known => by
      obtain ⟨result, after, -⟩ := disk.readNames plain known
      exact ⟨mapError_kind_congr result .runtime fun _ => rfl, after⟩
  exact ⟨same.1, same.2, fun _ _ => trivial⟩

/-- A plain path, and what is stored there. -/
theorem Asks.read {names : List String} (disk : t.OnDisk d) (hn : AreNames names)
    (f : Trouble → RuleError) (known : ∀ e, (f e).kind = .runtime) :
    Asks t d o (fun text => d.file? names = some text)
      (Check.ask (.read (down names)) >>= fun r => Check.ofExcept (r.mapError f)) := by
  refine Asks.asked (fun c => c.bare_answer_snd t (.read (down names))) fun c _ _ =>
    ⟨mapError_kind_congr (disk.read hn) .runtime known, rfl, fun text stored => ?_⟩
  have read : FileSystem.read t (down names) = .ok text := mapError_eq_ok_iff.1 stored
  have same := disk.read hn
  rw [read] at same
  exact (disk.sound.toOption_read_down hn).symm.trans same

theorem Asks.readJsonFor {names : List String} (disk : t.OnDisk d) (hn : AreNames names)
    (purpose : Purpose) : Asks t d o (fun _ => True) (Check.readJsonFor purpose (down names)) :=
  (Asks.read disk hn (fun e => .runtime (.reading purpose (down names) e)) fun _ => rfl).bind disk
    fun _ _ => Asks.ofExcept fun _ _ => trivial

/-- Where a file is read if there is one, there is no directory. -/
theorem Asks.readIfThere {names : List String} (disk : t.OnDisk d) (hn : AreNames names) :
    Asks t d o (fun _ => d.isDir names = false) (Check.readIfThere (down names)) := by
  have there : Asks t d o (· = FileSystem.contains d (down names))
      (Check.contains (down names)) := by
    refine Asks.ask (fun c => c.bare_answer_snd t (.contains (down names))) fun c _ _ => ?_
    have same := disk.contains hn
    exact ⟨congrArg (fun b => (b, c)) same, same.symm⟩
  refine there.bind disk fun found same => ?_
  rcases found with _ | _
  · refine Asks.pure ?_
    have none := (disk.sound.contains_down hn).symm.trans same.symm
    rw [Bool.or_eq_false_iff] at none
    exact none.1
  · refine (Asks.read disk hn RuleError.runtime fun _ => rfl).bind disk fun text stored => ?_
    exact Asks.pure (disk.apart names (by rw [stored]; rfl))

end Check

end WorkspaceLint
