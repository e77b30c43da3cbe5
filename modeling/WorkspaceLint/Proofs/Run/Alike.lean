import WorkspaceLint.Proofs.Run.Local
import WorkspaceLint.Proofs.Workspace.Order

/-!
# Trees that are alike for a package

Two trees are *alike* for a package when local rules find the same in both: they agree on what these
rules read of the package, of the workspace root and of the names of the members.  The fixers then
do the same in both, so the rules report the same and leave the trees alike
(`Run.inStep_localRules`), and the trees stay alike when other packages are fixed
(`Tree.Alike.frame`).
-/

namespace WorkspaceLint

open StandardTsconfig (tsconfigFile)

namespace Manifest

/-- What rules read of a manifest: the name and the blocks. -/
def digest (m : Manifest) : Option String × (DependencyKind → Option Members) := (m.name?, m.block?)

variable {m m' : Manifest}

theorem block?_of_digest (same : m'.digest = m.digest) (kind : DependencyKind) :
    m'.block? kind = m.block? kind := congrFun (congrArg Prod.snd same) kind

theorem dependencyNames_of_digest (same : m'.digest = m.digest) (kinds : List DependencyKind) :
    m'.dependencyNames kinds = m.dependencyNames kinds := by
  simp only [dependencyNames, block?_of_digest same]

end Manifest

theorem DependencyRule.findings_of_digest {m m' r r' : Manifest} (same : m'.digest = m.digest)
    (rootSame : r'.digest = r.digest) (rule : DependencyRule) (path : Path)
    (kinds : List DependencyKind) :
    rule.findings path m' r' kinds = rule.findings path m r kinds := by
  unfold findings
  rw [List.filterMap_congr fun kind _ => blockFinding?_congr
    (Manifest.block?_of_digest same kind) (Manifest.block?_of_digest rootSame kind)]

theorem StandardTsconfig.referencedDirs_congr {names names' : List (String × Path)}
    (same : ∀ name, names'.lookup name = names.lookup name) (excluded : PatternSet)
    (wanted : List String) :
    referencedDirs names' excluded wanted = referencedDirs names excluded wanted := by
  simp only [referencedDirs, same]

namespace Tree

/-- Trees in which local rules find the same for the package in a directory. -/
structure Alike (root dir : Path) (t t' : Tree) : Prop where
  dirs : t'.dirs = t.dirs
  tsconfig : t'.contents? (dir.entry tsconfigFile) = t.contents? (dir.entry tsconfigFile)
  there : FileSystem.contains t' (dir.entry tsconfigFile) =
    FileSystem.contains t (dir.entry tsconfigFile)
  manifest : (Package.load t' dir).map Manifest.digest = (Package.load t dir).map Manifest.digest
  rootManifest :
    (Package.load t' root).map Manifest.digest = (Package.load t root).map Manifest.digest
  /-- The manifest of a member is also the same text. -/
  text : root.components ≠ dir.components → t'.contents? dir.manifest = t.contents? dir.manifest
  names : Workspace.nameTable t' root = Workspace.nameTable t root

namespace Alike

variable {root dir : Path} {t t₁ t' t₁' : Tree}

theorem refl (root dir : Path) (t : Tree) : Alike root dir t t :=
  ⟨rfl, rfl, rfl, rfl, rfl, fun _ => rfl, rfl⟩

/-! ## What rules find -/

theorem verdict_dependencies (h : Alike root dir t t') (rule : DependencyRule) :
    rule.verdict t' root dir = rule.verdict t root dir := by
  cases rule with
  | banned names =>
    obtain ⟨e, own', own⟩ | ⟨m', m, own', own, same⟩ := cases_of_map_eq_map h.manifest
    · simp only [DependencyRule.verdict, own, own']
    · simp only [DependencyRule.verdict, own, own']
      exact congrArg Except.ok (DependencyRule.findings_of_digest same same _ _ _)
  | consistent =>
    obtain ⟨e, rootOwn', rootOwn⟩ | ⟨r', r, rootOwn', rootOwn, rootSame⟩ :=
      cases_of_map_eq_map h.rootManifest
    · simp only [DependencyRule.verdict, rootOwn, rootOwn']
      rfl
    obtain ⟨e, own', own⟩ | ⟨m', m, own', own, same⟩ := cases_of_map_eq_map h.manifest
    · simp only [DependencyRule.verdict, rootOwn, rootOwn', own, own']
      rfl
    · simp only [DependencyRule.verdict, rootOwn, rootOwn', own, own']
      exact congrArg Except.ok (DependencyRule.findings_of_digest same rootSame _ _ _)

theorem contentsAt (h : Alike root dir t t') :
    WorkspaceLint.contentsAt t' (dir.entry tsconfigFile) =
      WorkspaceLint.contentsAt t (dir.entry tsconfigFile) := by
  rw [WorkspaceLint.contentsAt, WorkspaceLint.contentsAt, h.there, read_eq, read_eq, h.tsconfig]

theorem referencesIn (h : Alike root dir t t') {ds : List Path}
    (members : Workspace.memberDirs t root = .ok ds) (excluded : PatternSet) :
    StandardTsconfig.referencesIn t' root dir excluded =
      StandardTsconfig.referencesIn t root dir excluded := by
  have names := h.names
  unfold Workspace.nameTable at names
  rcases members' : Workspace.memberDirs t' root with trouble | ds' <;>
    rw [members, members'] at names
  · cases names
  have lookups : ∀ name, (Workspace.memberNames t' ds').lookup name =
      (Workspace.memberNames t ds).lookup name := congrFun (Option.some.inj names)
  obtain ⟨e, own', own⟩ | ⟨m', m, own', own, same⟩ := cases_of_map_eq_map h.manifest
  · simp only [StandardTsconfig.referencesIn, members, members', own, own']
    rfl
  · simp only [StandardTsconfig.referencesIn, members, members', own, own']
    show Except.mapError _ (StandardTsconfig.references dir _) =
      Except.mapError _ (StandardTsconfig.references dir _)
    rw [StandardTsconfig.referencedDirs_congr lookups, Manifest.dependencyNames_of_digest same]

/-- Where members can be enumerated, local rules come to the same. -/
theorem verdict (h : Alike root dir t t') {ds : List Path}
    (members : Workspace.memberDirs t root = .ok ds) (rule : LocalRule) :
    rule.verdict t' root dir = rule.verdict t root dir := by
  cases rule with
  | dependencies rule => exact h.verdict_dependencies rule
  | tsconfig template excluded =>
    simp only [LocalRule.verdict, fileVerdict, h.referencesIn members, h.contentsAt]

theorem found (h : Alike root dir t t') (rule : LocalRule) :
    rule.found t' root dir = rule.found t root dir := by
  rcases members : Workspace.memberDirs t root with trouble | ds
  · cases rule with
    | dependencies rule =>
      exact congrArg (fun v : Except RuleError (List Reported) => v.toOption.getD [])
        (h.verdict_dependencies rule)
    | tsconfig template excluded =>
      have names := h.names
      unfold Workspace.nameTable at names
      rcases members' : Workspace.memberDirs t' root with trouble' | ds' <;>
        rw [members, members'] at names
      · simp only [LocalRule.found, LocalRule.verdict, fileVerdict, StandardTsconfig.referencesIn,
          members, members']
        rfl
      · cases names
  · rw [LocalRule.found, LocalRule.found, h.verdict members]

/-! ## What fixers do -/

/-- Trees stay alike for a package over changes inside it that do the same to its files. -/
theorem of_confined (h : Alike root dir t t') (left : Confined dir t t₁)
    (right : Confined dir t' t₁')
    (tsconfig : t₁'.contents? (dir.entry tsconfigFile) = t₁.contents? (dir.entry tsconfigFile))
    (there : FileSystem.contains t₁' (dir.entry tsconfigFile) =
      FileSystem.contains t₁ (dir.entry tsconfigFile))
    {m m' : Manifest} (loaded : Package.load t₁ dir = .ok m)
    (loaded' : Package.load t₁' dir = .ok m') (same : m'.digest = m.digest)
    (text : root.components ≠ dir.components →
      t₁'.contents? dir.manifest = t₁.contents? dir.manifest) : Alike root dir t₁ t₁' where
  dirs := by rw [left.dirs, right.dirs, h.dirs]
  tsconfig := tsconfig
  there := there
  manifest := by
    rw [loaded, loaded']
    exact congrArg Except.ok same
  rootManifest := by
    by_cases itself : root.components = dir.components
    · rw [load_of_components itself loaded, load_of_components itself loaded']
      exact congrArg Except.ok same
    · rw [left.load itself, right.load itself, h.rootManifest]
  text := text
  names := by rw [left.members.nameTable, right.members.nameTable, h.names]

theorem withManifest (h : Alike root dir t t') (sound : t.Sound) (sound' : t'.Sound)
    {m m' n n' : Manifest} (loaded : Package.load t dir = .ok m)
    (loaded' : Package.load t' dir = .ok m') (plain : n.Plain) (plain' : n'.Plain)
    (outline : Workspace.outline n.toJson = Workspace.outline m.toJson)
    (outline' : Workspace.outline n'.toJson = Workspace.outline m'.toJson)
    (same : n'.digest = n.digest) (text : root.components ≠ dir.components → n' = n) :
    Alike root dir (t.withFile dir.manifest n.toJson.canonical)
      (t'.withFile dir.manifest n'.toJson.canonical) := by
  obtain ⟨left, -, now⟩ := confined_withManifest sound loaded plain outline
  obtain ⟨right, -, now'⟩ := confined_withManifest sound' loaded' plain' outline'
  have other : ¬ dir.manifest.same (dir.entry tsconfigFile) = true := fun same =>
    Path.components_tsconfig_ne_manifest dir dir (Path.same_iff.1 same).symm
  refine h.of_confined left right ?_ ?_ now now' same fun member => ?_
  · rw [contents?_withFile, contents?_withFile, if_neg other, if_neg other, h.tsconfig]
  · rw [contains_withFile (parentExists_of_stored (stored_of_load loaded)),
      contains_withFile (parentExists_of_stored (stored_of_load loaded')), h.there]
  · rw [contents?_withFile, contents?_withFile, if_pos dir.manifest.same_self,
      if_pos dir.manifest.same_self, text member]

theorem withTsconfig (h : Alike root dir t t') (sound : t.Sound) (sound' : t'.Sound)
    {m m' : Manifest} (loaded : Package.load t dir = .ok m)
    (loaded' : Package.load t' dir = .ok m') (same : m'.digest = m.digest) (text : String) :
    Alike root dir (t.withFile (dir.entry tsconfigFile) text)
      (t'.withFile (dir.entry tsconfigFile) text) := by
  obtain ⟨left, -, now⟩ := confined_withTsconfig sound loaded text
  obtain ⟨right, -, now'⟩ := confined_withTsconfig sound' loaded' text
  have itself := (dir.entry tsconfigFile).same_self
  have other : ¬ (dir.entry tsconfigFile).same dir.manifest = true := fun same =>
    Path.components_tsconfig_ne_manifest dir dir (Path.same_iff.1 same)
  refine h.of_confined left right ?_ ?_ now now' same fun member => ?_
  · rw [contents?_withFile, contents?_withFile, if_pos itself, if_pos itself]
  · rw [contains_withFile (parentExists_tsconfig loaded),
      contains_withFile (parentExists_tsconfig loaded'), itself]
    rfl
  · rw [contents?_withFile, contents?_withFile, if_neg other, if_neg other, h.text member]

/-- The manifest of a member is the same in both trees. -/
theorem load_member (h : Alike root dir t t') (member : root.components ≠ dir.components)
    {m m' : Manifest} (loaded : Package.load t dir = .ok m)
    (loaded' : Package.load t' dir = .ok m') : m' = m := by
  have reads := load_eq_ok_iff.1 loaded'
  rw [readJson_congr (h.text member), load_eq_ok_iff.1 loaded] at reads
  exact congrArg Manifest.mk (Json.object.inj (Except.ok.inj reads)).symm

/-- Changes in another package leave trees alike that agree on the root. -/
theorem frame (h : Alike root dir t t') {dir' : Path} (left : Confined dir' t t₁)
    (right : Confined dir' t' t₁') (other : dir.components ≠ dir'.components)
    (rootManifest : (Package.load t₁' root).map Manifest.digest =
      (Package.load t₁ root).map Manifest.digest) : Alike root dir t₁ t₁' where
  dirs := by rw [left.dirs, right.dirs, h.dirs]
  tsconfig := by
    rw [left.contents _ (not_ownedBy_tsconfig other), right.contents _ (not_ownedBy_tsconfig other),
      h.tsconfig]
  there := by
    rw [left.there _ (not_ownedBy_tsconfig other), right.there _ (not_ownedBy_tsconfig other),
      h.there]
  manifest := by rw [left.load other, right.load other, h.manifest]
  rootManifest := rootManifest
  text member := by
    rw [left.contents _ (not_ownedBy_manifest other), right.contents _ (not_ownedBy_manifest other),
      h.text member]
  names := by rw [left.members.nameTable, right.members.nameTable, h.names]

end Alike

end Tree

namespace FixOp

variable {root dir : Path} {t t' : Tree} {m m' : Manifest}

theorem digest_withBlock (same : m'.digest = m.digest) (kind : DependencyKind) (block : Members) :
    (withBlock m' kind block).digest = (withBlock m kind block).digest := by
  refine Prod.ext ?_ (funext fun other => ?_)
  · have name (m : Manifest) : (withBlock m kind block).name? = m.name? :=
      congrArg (Option.bind · Json.asString?) (get?_withBlock kind block (by decide))
    show (withBlock m' kind block).name? = (withBlock m kind block).name?
    rw [name, name]
    exact congrArg Prod.fst same
  · have set (m : Manifest) : (withBlock m kind block).block? other =
        if kind.key = other.key then some block else m.block? other := by
      unfold Manifest.block? withBlock
      rw [Members.get?_insert]
      split <;> rfl
    show (withBlock m' kind block).block? other = (withBlock m kind block).block? other
    rw [set, set, Manifest.block?_of_digest same]

/-- A change inside the package is made in both of two trees that are alike, or in none. -/
theorem Own.alike {op : FixOp} (own : op.Own dir) (h : Tree.Alike root dir t t') (sound : t.Sound)
    (sound' : t'.Sound) (loaded : Package.load t dir = .ok m) :
    (∃ trouble, op.apply t = .error trouble ∧ op.apply t' = .error trouble) ∨
    ∃ t₁ t₁', op.apply t = .ok t₁ ∧ op.apply t' = .ok t₁' ∧ Tree.Alike root dir t₁ t₁' := by
  have created (p : Path) : t'.created p = t.created p := by rw [Tree.created, Tree.created, h.dirs]
  obtain ⟨e, -, missing⟩ | ⟨m', m₀, loaded', loaded₀, same⟩ := cases_of_map_eq_map h.manifest
  · rw [loaded] at missing
    cases missing
  obtain rfl := Except.ok.inj (loaded.symm.trans loaded₀)
  cases own with
  | @block kind block plain =>
    rw [apply_block loaded, apply_block loaded', created]
    split
    · exact .inl ⟨_, rfl, rfl⟩
    refine .inr ⟨_, _, rfl, rfl, h.withManifest sound sound' loaded loaded'
      (plain_withBlock (sound.plain loaded) kind plain)
      (plain_withBlock (sound'.plain loaded') kind plain) (outline_withBlock kind block)
      (outline_withBlock kind block) (digest_withBlock same kind block) fun member => ?_⟩
    rw [h.load_member member loaded loaded']
  | tsconfig text =>
    rw [apply_tsconfig loaded, apply_tsconfig loaded', created]
    split
    · exact .inl ⟨_, rfl, rfl⟩
    · exact .inr ⟨_, _, rfl, rfl, h.withTsconfig sound sound' loaded loaded' same text⟩

end FixOp

namespace Run

variable {root dir : Path} {t t' : Tree} {m : Manifest}

/-- Fixers inside the package leave the same records on trees that are alike, and these alike. -/
theorem alike_settleAll {rs : List Reported} (own : OwnFindings dir rs)
    (h : Tree.Alike root dir t t') (sound : t.Sound) (sound' : t'.Sound)
    (loaded : Package.load t dir = .ok m) (name : String) (label : Path) :
    (settleAll true name label t' rs).2 = (settleAll true name label t rs).2 ∧
      Tree.Alike root dir (settleAll true name label t rs).1
        (settleAll true name label t' rs).1 := by
  induction rs generalizing t t' m with
  | nil => exact ⟨rfl, h⟩
  | cons r rs ih =>
    obtain ⟨first, rest⟩ := List.forall_mem_cons.1 own
    have one : (settle true name label t' r).2 = (settle true name label t r).2 ∧
        Tree.Alike root dir (settle true name label t r).1 (settle true name label t' r).1 := by
      unfold settle
      rcases hf : fixerToTry true r with _ | fixer
      · exact ⟨rfl, h⟩
      obtain ⟨op, ops, ownOp⟩ := first fixer (fixer_of_fixerToTry hf)
      have applied (t : Tree) : fixer.apply t = Fixer.applyOps t [op] := by rw [Fixer.apply, ops]
      simp only [applied, Fixer.applyOps]
      obtain ⟨trouble, fails, fails'⟩ | ⟨t₁, t₁', made, made', alike⟩ :=
        ownOp.alike h sound sound' loaded
      · rw [fails, fails']
        exact ⟨rfl, h⟩
      · rw [made, made']
        exact ⟨rfl, alike⟩
    obtain ⟨-, sound₁, m₁, loaded₁⟩ := confined_settle first sound loaded name label
    obtain ⟨e, -, missing⟩ | ⟨m', m₀, loaded', -, -⟩ := cases_of_map_eq_map h.manifest
    · rw [loaded] at missing
      cases missing
    obtain ⟨-, sound₁', -⟩ := confined_settle first sound' loaded' name label
    obtain ⟨records, alike⟩ := ih rest one.2 sound₁ sound₁' loaded₁
    exact ⟨congrArg₂ List.cons one.1 records, alike⟩

/-! ## What local rules report -/

/-- Progress on two trees that reports the same and leaves them alike, except that failures are only
compared where the members can be enumerated. -/
structure InStep (root dir : Path) (listed : Prop) (p p' : Progress Tree) : Prop where
  findings : p'.findings = p.findings
  failures : listed → p'.failures = p.failures
  packagesChecked : p'.packagesChecked = p.packagesChecked
  alike : Tree.Alike root dir p.fs p'.fs

namespace InStep

variable {listed : Prop} {p p' q q' : Progress Tree}

theorem none (listed : Prop) (h : Tree.Alike root dir t t') :
    InStep root dir listed (.none t) (.none t') := ⟨rfl, fun _ => rfl, rfl, h⟩

theorem followedBy (h : InStep root dir listed p p') (next : InStep root dir listed q q') :
    InStep root dir listed (p.followedBy q) (p'.followedBy q') where
  findings := congrArg₂ (· ++ ·) h.findings next.findings
  failures known := congrArg₂ (· ++ ·) (h.failures known) (next.failures known)
  packagesChecked := congrArg₂ (· + ·) h.packagesChecked next.packagesChecked
  alike := next.alike

theorem counted (h : InStep root dir listed p p') :
    InStep root dir listed p.counted p'.counted :=
  ⟨h.findings, h.failures, congrArg (· + 1) h.packagesChecked, h.alike⟩

end InStep

variable (of : RuleEntry → LocalRule) {config : ResolvedConfig}

theorem inStep_localRule (h : Tree.Alike root dir t t') (sound : t.Sound) (sound' : t'.Sound)
    (e : RuleEntry) :
    InStep root dir ((Workspace.memberDirs t root).isOk = true)
      (localRule of true root dir t e) (localRule of true root dir t' e) := by
  have settled : (settleAll true e.name dir t' ((of e).found t' root dir)).2 =
      (settleAll true e.name dir t ((of e).found t root dir)).2 ∧
        Tree.Alike root dir (settleAll true e.name dir t ((of e).found t root dir)).1
          (settleAll true e.name dir t' ((of e).found t' root dir)).1 := by
    rw [h.found]
    rcases loaded : Package.load t dir with trouble | m
    · rw [LocalRule.found_of_load_error loaded]
      exact ⟨rfl, h⟩
    · exact alike_settleAll ((of e).own_found sound root dir) h sound sound' loaded e.name dir
  refine ⟨settled.1, fun listed => ?_, rfl, settled.2⟩
  rcases members : Workspace.memberDirs t root with trouble | ds
  · rw [members] at listed
    cases listed
  · rw [localRule, localRule, h.verdict members]

theorem inStep_localRules (h : Tree.Alike root dir t t') (sound : t.Sound) (sound' : t'.Sound)
    (es : List RuleEntry) :
    InStep root dir ((Workspace.memberDirs t root).isOk = true)
      (localRules of true root dir t es) (localRules of true root dir t' es) := by
  induction es generalizing t t' with
  | nil => exact .none _ h
  | cons e es ih =>
    have first := inStep_localRule of h sound sound' e
    obtain ⟨confined, left⟩ := (of e).confined_settleAll sound true e.name root dir dir
    obtain ⟨-, right⟩ := (of e).confined_settleAll sound' true e.name root dir dir
    have rest := ih first.alike left right
    rw [show Workspace.memberDirs (localRule of true root dir t e).fs root = _ from
      confined.members.dirs root] at rest
    exact first.followedBy rest

theorem inStep_localRoot (fix : config.settings.fix = true) (h : Tree.Alike root root t t')
    (sound : t.Sound) (sound' : t'.Sound) :
    InStep root root ((Workspace.memberDirs t root).isOk = true)
      (localRoot of config root t) (localRoot of config root t') := by
  unfold localRoot
  rw [fix]
  split
  · exact (inStep_localRules of h sound sound' _).counted
  · exact .none _ h

theorem inStep_localMember (fix : config.settings.fix = true) (h : Tree.Alike root dir t t')
    (sound : t.Sound) (sound' : t'.Sound) :
    InStep root dir ((Workspace.memberDirs t root).isOk = true)
      (localMember of config root t dir) (localMember of config root t' dir) := by
  unfold localMember
  rw [fix]
  obtain ⟨e, own', own⟩ | ⟨m', m, own', own, same⟩ := cases_of_map_eq_map h.manifest
  · rw [own, own']
    exact ⟨rfl, fun _ => rfl, rfl, h⟩
  · have name : m'.name? = m.name? := congrArg Prod.fst same
    simp only [own, own', name]
    exact (inStep_localRules of h sound sound' _).counted

end Run

end WorkspaceLint
