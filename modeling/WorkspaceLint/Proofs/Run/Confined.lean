import WorkspaceLint.Proofs.Rule.Rewrites
import WorkspaceLint.Proofs.Run.Manifests
import WorkspaceLint.Proofs.Workspace.Members

/-!
# Changes inside one package

The fixers of the rules about dependencies and `tsconfig.json` set a block in the manifest of their
package or write its `tsconfig.json` (`FixOp.Own`).  Such a change is *confined* to the package: no
other file changes, and the members of the workspace and their names stay as they are.  As each of
these fixers makes one change, none fails halfway, so what contexts keep stays coherent from one rule
to the next (`Visit.coherent_next`).
-/

namespace WorkspaceLint

open StandardTsconfig (tsconfigFile)

namespace Tree

/-- Whether a path is the manifest or the `tsconfig.json` of the package in a directory. -/
def OwnedBy (dir p : Path) : Prop :=
  p.components = dir.manifest.components ∨ p.components = (dir.entry tsconfigFile).components

theorem ownedBy_congr {dir p q : Path} (h : p.components = q.components) :
    OwnedBy dir p ↔ OwnedBy dir q := by rw [OwnedBy, OwnedBy, h]

theorem not_ownedBy_manifest {dir dir' : Path} (h : dir'.components ≠ dir.components) :
    ¬ OwnedBy dir dir'.manifest := by
  rintro (same | same)
  · exact h (Path.components_manifest_inj.1 same)
  · exact Path.components_tsconfig_ne_manifest dir dir' same.symm

theorem not_ownedBy_tsconfig {dir dir' : Path} (h : dir'.components ≠ dir.components) :
    ¬ OwnedBy dir (dir'.entry tsconfigFile) := by
  rintro (same | same)
  · exact Path.components_tsconfig_ne_manifest dir' dir same
  · exact h (Path.components_tsconfig_inj.1 same)

/-- A tree in order, whose manifests have no floating-point numbers. -/
structure Sound (t : Tree) : Prop where
  ordered : t.Ordered
  free : ∀ (dir : Path) (ms : Members),
    FileSystem.readJson t dir.manifest = .ok (.object ms) → (Json.object ms).floatFree = true

/-- In a tree a manifest can be read when its file holds a JSON object. -/
theorem load_eq_ok_iff {t : Tree} {dir : Path} {m : Manifest} :
    Package.load t dir = .ok m ↔ FileSystem.readJson t dir.manifest = .ok m.toJson := by
  rw [Package.load_eq_ok_iff]
  refine ⟨And.right, fun reads => ⟨?_, reads⟩⟩
  rw [contains_eq, stored_of_readJson reads, Bool.true_or]

theorem stored_of_load {t : Tree} {dir : Path} {m : Manifest} (h : Package.load t dir = .ok m) :
    (t.contents? dir.manifest).isSome = true := stored_of_readJson (load_eq_ok_iff.1 h)

theorem Sound.plain {t : Tree} (h : t.Sound) {dir : Path} {m : Manifest}
    (loaded : Package.load t dir = .ok m) : m.Plain := by
  have reads := load_eq_ok_iff.1 loaded
  obtain ⟨text, -, parsed⟩ := readJson_eq_ok_iff.1 reads
  exact ⟨Json.legible_of_parse parsed, h.free dir m.members reads⟩

/-- A manifest does not depend on the spelling of its directory. -/
theorem load_of_components {t : Tree} {dir dir' : Path} {m : Manifest}
    (same : dir'.components = dir.components) (loaded : Package.load t dir = .ok m) :
    Package.load t dir' = .ok m := by
  obtain ⟨text, stored, parsed⟩ := readJson_eq_ok_iff.1 (load_eq_ok_iff.1 loaded)
  refine load_eq_ok_iff.2 (readJson_eq_ok_iff.2 ⟨text, ?_, parsed⟩)
  rw [contents?_congr (Path.components_manifest_inj.2 same), stored]

/-- No JSON object in a file has a floating-point number. -/
def FloatFree (t : Tree) : Prop :=
  ∀ (path : Path) (ms : Members),
    FileSystem.readJson t path = .ok (.object ms) → (Json.object ms).floatFree = true

theorem FloatFree.plain {t : Tree} (free : t.FloatFree) {path : Path} {ms : Members}
    (reads : FileSystem.readJson t path = .ok (.object ms)) :
    (Json.object ms).Plain Json.Reader.nestingLimit := by
  obtain ⟨text, -, parsed⟩ := readJson_eq_ok_iff.1 reads
  exact ⟨Json.legible_of_parse parsed, free path ms reads⟩

theorem FloatFree.sound {t : Tree} (free : t.FloatFree) (ordered : t.Ordered) : t.Sound :=
  ⟨ordered, fun dir => free dir.manifest⟩

theorem mem_of_lookup {p : Path} {text : String} {fs : List (Path × String)}
    (h : lookup p fs = some text) : ∃ f ∈ fs, f.2 = text := by
  induction fs with
  | nil => cases h
  | cons f fs ih =>
    rw [lookup] at h
    split at h
    · exact ⟨f, List.mem_cons_self, Option.some.inj h⟩
    · obtain ⟨g, later, same⟩ := ih h
      exact ⟨g, List.mem_cons_of_mem _ later, same⟩

theorem floatFree_of_files {t : Tree}
    (free : t.files.all (fun f => (Json.parse f.2).toOption.all (·.floatFree)) = true) :
    t.FloatFree := by
  intro path ms reads
  obtain ⟨text, stored, parsed⟩ := readJson_eq_ok_iff.1 reads
  obtain ⟨f, member, rfl⟩ := mem_of_lookup stored
  have one := List.all_eq_true.1 free f member
  rwa [parsed] at one

/-- A tree after changes inside the package in a directory. -/
structure Confined (dir : Path) (t t' : Tree) : Prop where
  dirs : t'.dirs = t.dirs
  members : Workspace.SameMembers t t'
  contents : ∀ p, ¬ OwnedBy dir p → t'.contents? p = t.contents? p
  there : ∀ p, ¬ OwnedBy dir p → FileSystem.contains t' p = FileSystem.contains t p

namespace Confined

variable {dir : Path} {t t₁ t₂ : Tree}

theorem refl (dir : Path) (t : Tree) : Confined dir t t :=
  ⟨rfl, .refl t, fun _ _ => rfl, fun _ _ => rfl⟩

theorem trans (h : Confined dir t t₁) (h' : Confined dir t₁ t₂) : Confined dir t t₂ where
  dirs := h'.dirs.trans h.dirs
  members := h.members.trans h'.members
  contents p other := (h'.contents p other).trans (h.contents p other)
  there p other := (h'.there p other).trans (h.there p other)

/-- The manifests of other packages stay as they are. -/
theorem load (h : Confined dir t t₁) {dir' : Path} (other : dir'.components ≠ dir.components) :
    Package.load t₁ dir' = Package.load t dir' := by
  have free := not_ownedBy_manifest other
  unfold Package.load
  rw [h.there _ free, readJson_congr (h.contents _ free)]

end Confined

/-! ## Single changes -/

variable {t : Tree} {dir : Path} {m m' : Manifest}

theorem parentExists_tsconfig (loaded : Package.load t dir = .ok m) :
    t.parentExists (dir.entry tsconfigFile) = true := by
  have housed := parentExists_of_stored (stored_of_load loaded)
  rw [Path.manifest, parentExists_entry isName_manifestFile] at housed
  rw [parentExists_entry isName_tsconfigFile, housed]

/-- Storing a file in a package that stays confined to it. -/
theorem confined_withFile {p : Path} (owned : OwnedBy dir p) (parent : t.parentExists p = true)
    (contents : String) (members : Workspace.SameMembers t (t.withFile p contents)) :
    Confined dir t (t.withFile p contents) where
  dirs := rfl
  members := members
  contents q other := by
    have different : ¬ p.same q = true := by
      rw [Path.same_iff]
      exact fun same => other ((ownedBy_congr same).1 owned)
    rw [contents?_withFile, if_neg different]
  there q other := by
    have different : p.same q = false := by
      rw [Bool.eq_false_iff, Ne, Path.same_iff]
      exact fun same => other ((ownedBy_congr same).1 owned)
    rw [contains_withFile parent, different, Bool.false_or]

theorem confined_withManifest (sound : t.Sound) (loaded : Package.load t dir = .ok m)
    (plain : m'.Plain) (same : Workspace.outline m'.toJson = Workspace.outline m.toJson) :
    Confined dir t (t.withFile dir.manifest m'.toJson.canonical) ∧
      (t.withFile dir.manifest m'.toJson.canonical).Sound ∧
      Package.load (t.withFile dir.manifest m'.toJson.canonical) dir = .ok m' := by
  have reads := load_eq_ok_iff.1 loaded
  refine ⟨?_, ⟨sound.ordered.withFile _ _, fun d ms read => ?_⟩, ?_⟩
  · exact confined_withFile (.inl rfl) (parentExists_of_stored (stored_of_readJson reads)) _
      (Workspace.sameMembers_withManifest sound.ordered reads plain same)
  · by_cases here : dir.manifest.components = d.manifest.components
    · rw [readJson_withFile here plain] at read
      rw [← Except.ok.inj read]
      exact plain.free
    · rw [readJson_withFile_of_ne here] at read
      exact sound.free d ms read
  · exact load_eq_ok_iff.2 (readJson_withFile rfl plain)

theorem confined_withTsconfig (sound : t.Sound) (loaded : Package.load t dir = .ok m)
    (text : String) :
    Confined dir t (t.withFile (dir.entry tsconfigFile) text) ∧
      (t.withFile (dir.entry tsconfigFile) text).Sound ∧
      Package.load (t.withFile (dir.entry tsconfigFile) text) dir = .ok m := by
  have other := fun d => readJson_withFile_of_ne (t := t)
    (Path.components_tsconfig_ne_manifest dir d) text
  refine ⟨?_, ⟨sound.ordered.withFile _ _, fun d ms read => ?_⟩, ?_⟩
  · exact confined_withFile (.inr rfl) (parentExists_tsconfig loaded) _
      (Workspace.sameMembers_withTsconfig sound.ordered (stored_of_load loaded) text)
  · rw [other] at read
    exact sound.free d ms read
  · rw [load_eq_ok_iff, other]
    exact load_eq_ok_iff.1 loaded

/-- A rewritten manifest is a change inside its package. -/
theorem Rewritten.confined {t' : Tree} (h : t.Rewritten dir m m' t') (sound : t.Sound)
    (loaded : Package.load t dir = .ok m) (plain : m'.Plain)
    (same : Workspace.outline m'.toJson = Workspace.outline m.toJson) :
    Confined dir t t' ∧ t'.Sound ∧ Package.load t' dir = .ok m' := by
  cases h with
  | kept kept => exact ⟨.refl dir t, sound, by rw [kept]; exact loaded⟩
  | written _ => exact confined_withManifest sound loaded plain same

end Tree

/-! ## Changes of fixers -/

namespace FixOp

/-- A change that sets a block in the manifest of a package or writes its `tsconfig.json`. -/
inductive Own (dir : Path) : FixOp → Prop where
  | block (kind : DependencyKind) {block : Members} (plain : Manifest.PlainBlock block) :
      Own dir (.setJsonKey dir.manifest kind.key (.object block))
  | tsconfig (text : String) : Own dir (.writeFile (dir.entry tsconfigFile) text)

variable {t t' : Tree} {dir : Path} {m : Manifest}

/-- A manifest with one block set. -/
def withBlock (m : Manifest) (kind : DependencyKind) (block : Members) : Manifest :=
  ⟨Members.insert kind.key (.object block) m.members⟩

theorem apply_block (loaded : Package.load t dir = .ok m) (kind : DependencyKind)
    (block : Members) :
    (setJsonKey dir.manifest kind.key (.object block)).apply t =
      if t.created dir.manifest then .error (.refused .write dir.manifest .isDirectory)
      else .ok (t.withFile dir.manifest (withBlock m kind block).toJson.canonical) :=
  apply_setJsonKey (Tree.load_eq_ok_iff.1 loaded) kind.key (.object block)

theorem apply_tsconfig (loaded : Package.load t dir = .ok m) (text : String) :
    (writeFile (dir.entry tsconfigFile) text).apply t =
      if t.created (dir.entry tsconfigFile) then
        .error (.refused .write (dir.entry tsconfigFile) .isDirectory)
      else .ok (t.withFile (dir.entry tsconfigFile) text) := by
  show FileSystem.write t (dir.entry tsconfigFile) text = _
  rw [Tree.write_eq, Tree.parentExists_tsconfig loaded]
  rfl

theorem get?_withBlock {key : String} (kind : DependencyKind) (block : Members)
    (other : DependencyKind.ofKey? key = none) :
    (withBlock m kind block).toJson.get? key = m.toJson.get? key := by
  have different : kind.key ≠ key := by
    rintro rfl
    rw [DependencyKind.ofKey?_key] at other
    cases other
  show Members.get? key (Members.insert kind.key _ m.members) = _
  rw [Members.get?_insert, if_neg different]
  rfl

theorem outline_withBlock (kind : DependencyKind) (block : Members) :
    Workspace.outline (withBlock m kind block).toJson = Workspace.outline m.toJson := by
  unfold Workspace.outline Manifest.workspaceGlobs
  rw [get?_withBlock kind block (by decide), get?_withBlock kind block (by decide)]

theorem plain_withBlock (plain : m.Plain) (kind : DependencyKind) {block : Members}
    (plainBlock : Manifest.PlainBlock block) : (withBlock m kind block).Plain :=
  Json.Plain.insert plain plainBlock

theorem Own.confined {op : FixOp} (own : op.Own dir) (sound : t.Sound)
    (loaded : Package.load t dir = .ok m) (made : op.apply t = .ok t') :
    Tree.Confined dir t t' ∧ t'.Sound ∧ ∃ m', Package.load t' dir = .ok m' := by
  cases own with
  | @block kind block plain =>
    rw [apply_block loaded] at made
    split at made
    · cases made
    · obtain ⟨confined, sound', loaded'⟩ := Tree.confined_withManifest sound loaded
        (plain_withBlock (sound.plain loaded) kind plain) (outline_withBlock kind block)
      rw [← Except.ok.inj made]
      exact ⟨confined, sound', _, loaded'⟩
  | tsconfig text =>
    rw [apply_tsconfig loaded] at made
    split at made
    · cases made
    · obtain ⟨confined, sound', loaded'⟩ := Tree.confined_withTsconfig sound loaded text
      rw [← Except.ok.inj made]
      exact ⟨confined, sound', _, loaded'⟩

end FixOp

/-- Every fixer of the findings makes one change inside the package. -/
def OwnFindings (dir : Path) (rs : List Reported) : Prop :=
  ∀ r ∈ rs, ∀ fixer, r.finding.fixer = some fixer → ∃ op : FixOp, fixer.ops = [op] ∧ op.Own dir

namespace Run

theorem fixer_of_fixerToTry {fix : Bool} {r : Reported} {fixer : Fixer}
    (h : fixerToTry fix r = some fixer) : r.finding.fixer = some fixer := by
  unfold fixerToTry at h
  split at h
  · exact h
  · cases h

/-- Whether a fixer succeeds or fails, what it does is confined to the package. -/
theorem confined_settle {t : Tree} {dir : Path} {m : Manifest} {r : Reported}
    (own : ∀ fixer, r.finding.fixer = some fixer → ∃ op : FixOp, fixer.ops = [op] ∧ op.Own dir)
    (sound : t.Sound) (loaded : Package.load t dir = .ok m) (name : String) (label : Path) :
    Tree.Confined dir t (settle true name label t r).1 ∧
      (settle true name label t r).1.Sound ∧
      ∃ m', Package.load (settle true name label t r).1 dir = .ok m' := by
  unfold settle
  rcases hf : fixerToTry true r with _ | fixer
  · exact ⟨.refl dir t, sound, m, loaded⟩
  obtain ⟨op, ops, ownOp⟩ := own fixer (fixer_of_fixerToTry hf)
  have applied : fixer.apply t = Fixer.applyOps t [op] := by rw [Fixer.apply, ops]
  simp only [applied, Fixer.applyOps]
  rcases ha : op.apply t with trouble | t'
  · exact ⟨.refl dir t, sound, m, loaded⟩
  · exact ownOp.confined sound loaded ha

theorem confined_settleAll {t : Tree} {dir : Path} {m : Manifest} {rs : List Reported}
    (own : OwnFindings dir rs) (sound : t.Sound) (loaded : Package.load t dir = .ok m)
    (name : String) (label : Path) :
    Tree.Confined dir t (settleAll true name label t rs).1 ∧
      (settleAll true name label t rs).1.Sound ∧
      ∃ m', Package.load (settleAll true name label t rs).1 dir = .ok m' := by
  induction rs generalizing t m with
  | nil => exact ⟨.refl dir t, sound, m, loaded⟩
  | cons r rs ih =>
    obtain ⟨first, rest⟩ := List.forall_mem_cons.1 own
    obtain ⟨confined, sound', m', loaded'⟩ := confined_settle first sound loaded name label
    obtain ⟨confined', rest'⟩ := ih rest sound' loaded'
    rw [settleAll]
    exact ⟨confined.trans confined', rest'⟩

end Run

/-! ## Coherence from one rule to the next -/

/-- What is kept of the members stays coherent as long as they are the same. -/
theorem Workspace.Coherent.of_sameMembers {σ : Type} [FileSystem σ] {fs fs' : σ} {w : Workspace}
    (h : w.Coherent fs) (same : SameMembers fs fs') (package : w.package.Coherent fs') :
    w.Coherent fs' where
  package := package
  dirs ds kept := by
    rw [same.dirs]
    exact h.dirs ds kept
  names ns kept := by
    rw [same.dirs, funext same.memberNames]
    exact h.names ns kept

namespace Run

/-- Fixers of one change each that do not succeed change nothing. -/
theorem Visit.settled_of_unfixed {σ : Type} [FileSystem σ] {v : Visit σ}
    (single : ∀ r ∈ v.found, ∀ fixer, r.finding.fixer = some fixer → ∃ op, fixer.ops = [op])
    (unfixed : (v.settled true).2.any (·.fixed) = false) : (v.settled true).1 = v.fs := by
  have repaired := repaired_settleAll v.entry.name v.dir v.fs v.found
  refine Classical.byContradiction fun changed => ?_
  obtain ⟨r, member, before, after, made, op, unmade, trouble, some, due, -, -⟩ :=
    repaired.exists_halfway unfixed changed
  obtain ⟨reported, found, rfl⟩ := List.mem_map.1 member
  have fixer : reported.finding.fixer = .some ⟨made ++ op :: unmade⟩ := by
    unfold Registered.due at due
    split at due
    · exact due
    · cases due
  obtain ⟨only, one⟩ := single reported found _ fixer
  have length := congrArg List.length one
  rw [List.length_append, List.length_cons, List.length_singleton] at length
  have positive := List.length_pos_iff.2 some
  omega

/-- After a visit whose fixers make single changes inside the package, what is kept is coherent.
A member must not be the root under another spelling. -/
theorem Visit.coherent_next {v : Visit Tree} (coherent : v.context.Coherent v.fs)
    (apart : v.context.isRoot = false → ∀ root, v.context.workspaceDir = .ok root →
      root.components ≠ v.dir.components)
    (confined : Tree.Confined v.dir v.fs (v.settled true).1)
    (single : ∀ r ∈ v.found, ∀ fixer, r.finding.fixer = some fixer → ∃ op, fixer.ops = [op]) :
    (v.next true).Coherent (v.settled true).1 := by
  have kept : v.checked.2.withoutFindings.Coherent v.fs :=
    (Check.coherent_run_snd v.entry.rule.check coherent).withoutFindings
  have opened : v.checked.2.withoutFindings.opened = v.context.opened := by
    rw [Context.opened_withoutFindings]
    exact Check.opened_run_snd v.entry.rule.check v.fs v.context
  rw [← Context.isRoot_opened, ← Context.workspaceDir_opened, ← opened, Context.isRoot_opened,
    Context.workspaceDir_opened] at apart
  unfold next
  simp only
  by_cases fixed : (v.settled true).2.any (·.fixed) = true
  · rw [if_pos fixed]
    have dir : v.checked.2.withoutFindings.dir = v.dir := by
      rw [← Context.dir_opened, opened, Context.dir_opened]
      rfl
    rcases hc : v.checked.2.withoutFindings with w | ⟨p, w⟩ | p <;> rw [hc] at kept apart dir
    · have bare : Workspace.Coherent v.fs { w with package := w.package.forget } :=
        Workspace.Coherent.withPackage kept rfl (Package.coherent_forget v.fs w.package)
      exact bare.of_sameMembers confined.members (Package.coherent_forget _ w.package)
    · refine ⟨Package.coherent_forget _ p, kept.2.of_sameMembers confined.members ?_⟩
      intro m hm
      rw [confined.load (apart rfl w.package.dir rfl)]
      exact kept.2.package m hm
    · exact Package.coherent_forget _ p
  · rw [if_neg fixed, v.settled_of_unfixed single (Bool.eq_false_iff.2 fixed)]
    exact kept

end Run

end WorkspaceLint
