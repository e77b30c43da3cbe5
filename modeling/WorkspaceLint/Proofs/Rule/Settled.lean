import WorkspaceLint.Proofs.Rule.Files
import WorkspaceLint.Proofs.Run.Confined
import WorkspaceLint.Rule.Registry

/-!
# What fixers leave behind

When all fixers of a built-in rule succeed, the rule has nothing left to find: what the check wants
is what the fixers make, although they read the files again and write canonical text.  Making the
same changes once more changes nothing (`settled_of_applied`).
-/

namespace WorkspaceLint

open StandardTsconfig (tsconfigFile)

variable {t t' : Tree}

namespace FixOp

theorem Applied.of_kept {σ : Type} [FileSystem σ] {fs : σ} {ops : List FixOp}
    (h : ∀ op ∈ ops, op.apply fs = .ok fs) : Applied fs ops fs := by
  induction ops with
  | nil => exact .nil fs
  | cons op ops ih =>
    obtain ⟨first, rest⟩ := List.forall_mem_cons.1 h
    exact .cons first (ih rest)

end FixOp

namespace Tree

theorem contains_withFile_of_contains {p q : Path} (parent : t.parentExists q = true)
    (contents : String) (there : FileSystem.contains t p = true) :
    FileSystem.contains (t.withFile q contents) p = true := by
  rw [contains_withFile parent, there, Bool.or_true]

theorem contains_withDir_of_contains {p q : Path} (there : FileSystem.contains t p = true) :
    FileSystem.contains (t.withDir q) p = true := by
  rw [contains_eq, Bool.or_eq_true] at there ⊢
  exact there.imp_right fun known => dirExists_withDir.2 (.inl known)

/-! ## Files that were written -/

/-- The changes `ops` lead from one tree to another by writing `text` to a file, and would not change
that one. -/
structure Wrote (path : Path) (text : String) (ops : List FixOp) (t t' : Tree) : Prop where
  contents : ∀ q, t'.contents? q = if path.same q then some text else t.contents? q
  there : ∀ q, FileSystem.contains t q = true → FileSystem.contains t' q = true
  again : FixOp.Applied t' ops t'

theorem wrote_writeFile {path : Path} {text : String}
    (h : FixOp.Applied t [.writeFile path text] t') :
    t' = t.withFile path text ∧ t.parentExists path = true ∧
      Wrote path text [.writeFile path text] t t' := by
  cases h with
  | cons made rest =>
    cases rest
    obtain ⟨parent, apart, rfl⟩ := write_eq_ok_iff.1 made
    refine ⟨rfl, parent, fun q => contents?_withFile t path q text, fun q => ?_, ?_⟩
    · exact contains_withFile_of_contains parent text
    · refine .of_kept (List.forall_mem_singleton.2 ?_)
      refine write_eq_ok_iff.2 ⟨?_, apart, (withFile_withFile t path text text).symm⟩
      rw [parentExists_withFile parent, parent]

/-- Directories are created next to the files, and found when they are to be created again. -/
theorem createDirs_cases {p : Path} (made : (FixOp.createDirs p).apply t = .ok t') :
    t'.files = t.files ∧ (∀ q, FileSystem.contains t q = true → FileSystem.contains t' q = true) ∧
      FileSystem.contains t' p = true := by
  have create : (FixOp.createDirs p).apply t =
      if FileSystem.contains t p then .ok t else FileSystem.makeDir t p true := rfl
  rw [create] at made
  split at made
  · rename_i there
    rw [← Except.ok.inj made]
    exact ⟨rfl, fun _ => id, there⟩
  · have deep : FileSystem.makeDir t p true = if (t.contents? p).isSome then
        .error (.refused .create p .fileExists) else .ok (t.withDir p) := rfl
    rw [deep] at made
    split at made
    · cases made
    · rw [← Except.ok.inj made]
      refine ⟨rfl, fun q => contains_withDir_of_contains, ?_⟩
      rw [contains_eq, dirExists_of_created (t.created_withDir_self p), Bool.or_true]

theorem wrote_fixer {path : Path} {text : String}
    (h : FixOp.Applied t (FileContents.fixer path (some text)).ops t') :
    Wrote path text (FileContents.fixer path (some text)).ops t t' := by
  obtain ⟨t₁, parents, written⟩ := FixOp.Applied.exists_of_append _ h
  obtain ⟨-, -, wrote⟩ := wrote_writeFile written
  unfold FileContents.fixer
  rcases hp : path.parent? with _ | parent <;> rw [hp] at parents
  · cases parents
    exact wrote
  · cases parents with
    | cons made rest =>
      cases rest
      obtain ⟨files, there, known⟩ := createDirs_cases made
      refine ⟨fun q => ?_, fun q found => wrote.there q (there q found), ?_⟩
      · rw [wrote.contents, contents?, contents?, files]
      · refine .cons ?_ wrote.again
        rw [FixOp.apply, if_pos (wrote.there parent known)]

end Tree

/-! ## Settled verdicts -/

/-- A verdict after the fixers of its findings were applied: there is nothing to find, applying them
again changes nothing, and nothing is gone. -/
structure Settled (verdict : Tree → Except RuleError (List Reported)) (rs : List Reported)
    (t t' : Tree) : Prop where
  clean : verdict t' = .ok []
  again : FixOp.Applied t' (dueOps rs) t'
  there : ∀ p, FileSystem.contains t p = true → FileSystem.contains t' p = true

/-- A verdict that is settled whenever all its fixers succeed. -/
def Settles (verdict : Tree → Except RuleError (List Reported)) (t : Tree) : Prop :=
  ∀ rs t', verdict t = .ok rs → FixOp.Applied t (dueOps rs) t' → Settled verdict rs t t'

theorem settled_nil {verdict : Tree → Except RuleError (List Reported)}
    (judged : verdict t = .ok []) (applied : FixOp.Applied t (dueOps []) t') :
    Settled verdict [] t t' := by
  cases applied
  exact ⟨judged, .nil t, fun _ => id⟩

theorem contentsAt_of_contents? {path : Path} {text : String} (h : t.contents? path = some text) :
    contentsAt t path = .ok (some text) := by
  have there : FileSystem.contains t path = true := by
    rw [Tree.contains_eq, h]
    rfl
  rw [contentsAt, if_pos there, Tree.read_eq, h]
  rfl

/-- A file that is written as expected is settled, when this does not change what is expected. -/
theorem settles_fileVerdict {path : Path} {finding : String → Option String → Finding}
    {expected : Tree → Except RuleError String} {ops : String → List FixOp}
    (due : ∀ text actual, Reported.due ⟨.error, finding text actual⟩ = ops text)
    (wrote : ∀ text t', FixOp.Applied t (ops text) t' → Tree.Wrote path text (ops text) t t')
    (stable : ∀ text t', expected t = .ok text → FixOp.Applied t (ops text) t' →
      expected t' = .ok text) :
    Settles (fun t => fileVerdict t path finding (expected t)) t := by
  intro rs t' judged applied
  simp only at judged
  rcases expects : expected t with e | text
  · rw [expects] at judged
    cases judged
  rcases holds : contentsAt t path with e | actual
  · rw [expects, fileVerdict, holds] at judged
    cases judged
  have found : rs = if actual = some text then [] else [⟨.error, finding text actual⟩] := by
    rw [expects, fileVerdict, holds] at judged
    exact (Except.ok.inj judged).symm
  by_cases same : actual = some text
  · rw [if_pos same] at found
    subst found
    exact settled_nil judged applied
  · rw [if_neg same] at found
    subst found
    have ops' : dueOps [⟨.error, finding text actual⟩] = ops text := by
      rw [dueOps, List.flatMap_singleton, due]
    rw [ops'] at applied
    have file := wrote text t' applied
    refine ⟨?_, by rw [ops']; exact file.again, file.there⟩
    have now : t'.contents? path = some text := by
      rw [file.contents, if_pos path.same_self]
    simp only [stable text t' expects applied]
    rw [fileVerdict, contentsAt_of_contents? now]
    show Except.ok (if some text = some text then _ else _) = _
    rw [if_pos rfl]

/-! ### File contents -/

namespace FileContents

theorem due_finding (path : Path) (text : String) (actual : Option String) :
    Reported.due ⟨.error, finding path (some text) actual⟩ = (fixer path (some text)).ops := rfl

theorem settles_template (path : Path) (text : String) :
    Settles (fun t => fileVerdict t path (fun text => finding path (some text)) (.ok text)) t :=
  settles_fileVerdict (due_finding path) (fun _ _ => Tree.wrote_fixer) fun _ _ expects _ => expects

/-- A template that is the file itself has the text already. -/
theorem settles_templateFile (path template : Path) :
    Settles (fun t => fileVerdict t path (fun text => finding path (some text))
      (templateAt t template)) t := by
  refine settles_fileVerdict (due_finding path) (fun _ _ => Tree.wrote_fixer)
    fun text t' expects applied => ?_
  have stored : t.contents? template = some text := by
    rw [templateAt, Tree.read_eq] at expects
    rcases hc : t.contents? template with _ | found <;> rw [hc] at expects
    · cases expects
    · exact congrArg some (Except.ok.inj expects)
  have kept : t'.contents? template = some text := by
    rw [(Tree.wrote_fixer applied).contents, stored, ite_self]
  rw [templateAt, Tree.read_eq, kept]
  rfl

end FileContents

/-! ### Standard tsconfig -/

namespace StandardTsconfig

theorem due_finding (path : Path) (text : String) (actual : Option String) :
    Reported.due ⟨.error, finding path text actual⟩ = [.writeFile path text] := rfl

/-- Writing a `tsconfig.json` does not change which references there are. -/
theorem referencesIn_withTsconfig (sound : t.Sound) {root dir : Path} {excluded : PatternSet}
    {refs : List Json} (h : referencesIn t root dir excluded = .ok refs) (text : String) :
    referencesIn (t.withFile (dir.entry tsconfigFile) text) root dir excluded = .ok refs := by
  obtain ⟨names, m, named, loaded, found⟩ := referencesIn_eq_ok_iff.1 h
  obtain ⟨confined, -, loaded'⟩ := Tree.confined_withTsconfig sound loaded text
  refine referencesIn_eq_ok_iff.2 ⟨names, m, ?_, loaded', found⟩
  rw [confined.members.dirs, funext confined.members.memberNames, named]

theorem settles_template (sound : t.Sound) (root dir : Path) (template : Members)
    (excluded : PatternSet) :
    Settles (fun t => fileVerdict t (dir.entry tsconfigFile) (finding (dir.entry tsconfigFile))
      ((referencesIn t root dir excluded).map (withReferences template))) t := by
  refine settles_fileVerdict (due_finding _) (fun _ _ h => (Tree.wrote_writeFile h).2.2)
    fun text t' expects applied => ?_
  obtain ⟨rfl, -, -⟩ := Tree.wrote_writeFile applied
  rcases hr : referencesIn t root dir excluded with e | refs <;> rw [hr] at expects
  · cases expects
  · rw [referencesIn_withTsconfig sound hr, expects]

theorem templateAt_eq_ok_iff {path : Path} {template : Members} :
    templateAt t path = .ok template ↔ FileSystem.readJson t path = .ok (.object template) := by
  have object (v : Json) : templateObject path.text v = .ok template ↔ v = .object template := by
    cases v <;> simp [templateObject]
  rw [Tree.readJson_eq_ok_iff]
  simp only [templateAt, bind_eq_ok_iff, mapError_eq_ok_iff, object, exists_eq_right]
  rw [Tree.read_eq]
  rcases t.contents? path with _ | text <;> simp

theorem plain_references {source : Path} {targets : List Path} {refs : List Json}
    (h : references source targets = .ok refs) {depth : Nat} (deep : 1 < depth) :
    ∀ v ∈ refs, v.Plain depth := by
  induction targets generalizing refs with
  | nil =>
    rw [← Except.ok.inj h]
    exact nofun
  | cons target targets ih =>
    simp only [references, bind_eq_ok_iff] at h
    obtain ⟨path, -, more, rest, made⟩ := h
    rw [← Except.ok.inj made]
    refine List.forall_mem_cons.2 ⟨?_, ih rest⟩
    refine Json.plain_object_iff.2 ⟨deep, List.nodup_cons.2 ⟨nofun, .nil⟩, ?_⟩
    exact List.forall_mem_singleton.2 (Json.plain_string _ path)

theorem plain_referencesIn {root dir : Path} {excluded : PatternSet} {refs : List Json}
    (h : referencesIn t root dir excluded = .ok refs) :
    (Json.array refs).Plain (Json.Reader.nestingLimit - 1) := by
  obtain ⟨names, m, -, -, found⟩ := referencesIn_eq_ok_iff.1 h
  exact Json.plain_array (by decide) (plain_references found (by decide))

/-- References that are set again are as they were. -/
theorem withReferences_insert (template : Members) (refs : List Json) :
    withReferences (Members.insert "references" (.array refs) template) refs =
      withReferences template refs := by
  rw [withReferences, Members.insert_insert, withReferences]

/-- A template that is the file itself is the same template after the references were set in it. -/
theorem settles_templateFile (sound : t.Sound) (free : t.FloatFree) (root dir path : Path)
    (excluded : PatternSet) :
    Settles (fun t => fileVerdict t (dir.entry tsconfigFile) (finding (dir.entry tsconfigFile))
      (templateAt t path >>= fun template =>
        (referencesIn t root dir excluded).map (withReferences template))) t := by
  refine settles_fileVerdict (due_finding _) (fun _ _ h => (Tree.wrote_writeFile h).2.2)
    fun text t' expects applied => ?_
  obtain ⟨rfl, -, -⟩ := Tree.wrote_writeFile applied
  rcases ht : templateAt t path with e | template <;> rw [ht] at expects
  · cases expects
  rcases hr : referencesIn t root dir excluded with e | refs <;> rw [hr] at expects
  · cases expects
  have written : withReferences template refs = text := Except.ok.inj expects
  rw [referencesIn_withTsconfig sound hr]
  have reads := templateAt_eq_ok_iff.1 ht
  by_cases itself : (dir.entry tsconfigFile).components = path.components
  · have plain : (Json.object (Members.insert "references" (.array refs) template)).Plain
        Json.Reader.nestingLimit := (free.plain reads).insert (plain_referencesIn hr)
    have reads' := Tree.readJson_withFile (t := t) itself plain
    rw [show (Json.object (Members.insert "references" (.array refs) template)).canonical = text
      from written] at reads'
    rw [templateAt_eq_ok_iff.2 reads']
    show Except.ok (withReferences _ refs) = _
    rw [withReferences_insert, written]
  · have reads' := reads
    rw [← Tree.readJson_withFile_of_ne itself text] at reads'
    rw [templateAt_eq_ok_iff.2 reads', ← written]
    rfl

end StandardTsconfig

/-! ### Rules about dependencies -/

namespace DependencyRule

variable {rule : DependencyRule} {m r : Manifest}

/-- A manifest is consistent with itself. -/
theorem consistent_revise_self (plain : m.Plain) : consistent.revise (sharedBy m) m = m := by
  rw [revise_sharedBy_self plain, consistent_revise_nothingShared]

/-- What is owed to a finding on a manifest is that one block is set as it is wanted. -/
theorem exists_due_of_mem_findings {path : Path} (plain : m.Plain) (plainRoot : r.Plain)
    {kinds : List DependencyKind} {reported : Reported}
    (member : reported ∈ rule.findings path m r kinds) :
    ∃ kind block, m.block? kind = some block ∧
      reported.due =
        [.setJsonKey path kind.key (.object (rule.wanted (sharedBy r) kind block))] := by
  obtain ⟨f, found, rfl⟩ := List.mem_map.1 member
  obtain ⟨kind, -, some⟩ := List.mem_filterMap.1 found
  rcases rule.blockFinding?_cases path plain plainRoot kind with
    ⟨none, -⟩ | ⟨f', block, some', there, -, fixer⟩
  · rw [none] at some
    cases some
  · rw [some] at some'
    cases some'
    exact ⟨kind, block, there, due_of_fixer fixer⟩

/-- A revised manifest has every block as it is wanted, so setting it changes nothing. -/
theorem apply_setJsonKey_revised (sound : t.Sound) {dir : Path}
    (apart : t.created dir.manifest = false)
    (stored : t.contents? dir.manifest = some (rule.revise (sharedBy r) m).toJson.canonical)
    (loaded : Package.load t dir = .ok (rule.revise (sharedBy r) m)) {kind : DependencyKind}
    {block : Members} (there : m.block? kind = some block) :
    (FixOp.setJsonKey dir.manifest kind.key
      (.object (rule.wanted (sharedBy r) kind block))).apply t = .ok t := by
  have plain := sound.plain loaded
  have wanted : (rule.revise (sharedBy r) m).block? kind =
      some (rule.wanted (sharedBy r) kind block) := by
    rw [revise, Manifest.block?_mapBlocks, there]
    rfl
  have inserted := Manifest.insert_eq_mapBlocks (f := fun _ block => block) plain.nodup wanted
  have same : Manifest.only [kind] (fun _ (block : Members) => block) = fun _ block => block := by
    funext other block
    exact ite_self block
  rw [same, Manifest.mapBlocks_id] at inserted
  rw [FixOp.apply_block loaded, apart, if_neg Bool.false_ne_true, FixOp.withBlock, inserted,
    sound.ordered.withFile_eq_self stored]

/-- Where there is a finding, its fixer can only succeed when no directory is in the way. -/
theorem created_eq_false_of_applied (plain : m.Plain) (plainRoot : r.Plain) {dir : Path}
    (loaded : Package.load t dir = .ok m) {kinds : List DependencyKind}
    (some : rule.findings dir.manifest m r kinds ≠ [])
    (applied : FixOp.Applied t (dueOps (rule.findings dir.manifest m r kinds)) t') :
    t.created dir.manifest = false := by
  obtain ⟨reported, rs, parts⟩ := List.exists_cons_of_ne_nil some
  have member : reported ∈ rule.findings dir.manifest m r kinds := parts ▸ List.mem_cons_self
  obtain ⟨kind, block, -, due⟩ := exists_due_of_mem_findings plain plainRoot member
  rw [parts, dueOps, List.flatMap_cons, due] at applied
  cases applied with
  | cons made rest =>
    rw [FixOp.apply_setJsonKey (Tree.load_eq_ok_iff.1 loaded)] at made
    refine Bool.eq_false_iff.2 fun created => ?_
    rw [if_pos created] at made
    cases made

/-- After the fixers for a manifest it is the revised one, and they have nothing left to do. -/
theorem revised_of_applied (sound : t.Sound) (plainRoot : r.Plain) {dir : Path}
    (loaded : Package.load t dir = .ok m)
    (some : rule.findings dir.manifest m r DependencyKind.all ≠ [])
    (applied : FixOp.Applied t (dueOps (rule.findings dir.manifest m r DependencyKind.all)) t') :
    Package.load t' dir = .ok (rule.revise (sharedBy r) m) ∧ Tree.Confined dir t t' ∧
      FixOp.Applied t' (dueOps (rule.findings dir.manifest m r DependencyKind.all)) t' ∧
      ∀ p, FileSystem.contains t p = true → FileSystem.contains t' p = true := by
  have plain := sound.plain loaded
  have apart := created_eq_false_of_applied plain plainRoot loaded some applied
  obtain ⟨t'', rewritten, made⟩ :=
    rule.applied_findings plainRoot plain (Tree.load_eq_ok_iff.1 loaded) apart
  obtain rfl := made.unique applied
  have plain' : (rule.revise (sharedBy r) m).Plain :=
    plain_revise (fun kind => plainBlock_sharedBy plainRoot kind) plain
  obtain ⟨confined, sound', loaded'⟩ := rewritten.confined sound loaded plain'
    (Workspace.outline_mapBlocks _ m)
  cases rewritten with
  | kept same => exact absurd ((findings_eq_nil_iff plain plainRoot).2 same) some
  | written changed =>
    refine ⟨loaded', confined, .of_kept fun op member => ?_, fun p => ?_⟩
    · obtain ⟨reported, found, owed⟩ := List.mem_flatMap.1 member
      obtain ⟨kind, block, there, due⟩ := exists_due_of_mem_findings plain plainRoot found
      rw [due, List.mem_singleton] at owed
      rw [owed]
      refine apply_setJsonKey_revised sound' apart ?_ loaded' there
      rw [Tree.contents?_withFile, if_pos dir.manifest.same_self]
    · exact Tree.contains_withFile_of_contains
        (Tree.parentExists_of_stored (Tree.stored_of_load loaded)) _

theorem settles (rule : DependencyRule) (sound : t.Sound) (root dir : Path) :
    Settles (fun t => rule.verdict t root dir) t := by
  intro rs t' judged applied
  by_cases none : rs = []
  · subst none
    exact settled_nil judged applied
  cases rule with
  | banned names =>
    simp only [verdict, bind_eq_ok_iff, mapError_eq_ok_iff] at judged
    obtain ⟨m, loaded, found⟩ := judged
    obtain rfl := Except.ok.inj found
    have plain := sound.plain loaded
    obtain ⟨loaded', -, again, there⟩ := revised_of_applied sound plain loaded none applied
    refine ⟨?_, again, there⟩
    have clean : (banned names).findings dir.manifest ((banned names).revise (sharedBy m) m) m
        DependencyKind.all = [] :=
      (findings_eq_nil_iff (plain_revise (fun kind => plainBlock_sharedBy plain kind) plain)
        plain).2 revise_revise
    simp only [verdict, loaded']
    exact congrArg Except.ok clean
  | consistent =>
    simp only [verdict, bind_eq_ok_iff, mapError_eq_ok_iff] at judged
    obtain ⟨r, rootLoaded, m, loaded, found⟩ := judged
    obtain rfl := Except.ok.inj found
    have plainRoot := sound.plain rootLoaded
    have plain := sound.plain loaded
    obtain ⟨loaded', confined, again, there⟩ :=
      revised_of_applied sound plainRoot loaded none applied
    have apart : root.components ≠ dir.components := by
      intro itself
      have same := Tree.load_of_components itself.symm rootLoaded
      rw [loaded] at same
      obtain rfl := Except.ok.inj same
      exact none ((findings_eq_nil_iff plain plain).2 (consistent_revise_self plain))
    refine ⟨?_, again, there⟩
    have clean : consistent.findings dir.manifest (consistent.revise (sharedBy r) m) r
        DependencyKind.all = [] :=
      (findings_eq_nil_iff (plain_revise (fun kind => plainBlock_sharedBy plainRoot kind) plain)
        plainRoot).2 revise_revise
    simp only [verdict, loaded', confined.load apart, rootLoaded]
    exact congrArg Except.ok clean

end DependencyRule

/-! ## Built-in rules -/

theorem FileContents.source_of_readFrom {v : Json} {o : Options} (h : readFrom v = .ok o) :
    (∃ text, o.source = .template text) ∨ ∃ path, o.source = .templateFile path := by
  simp only [readFrom, bind_eq_ok_iff] at h
  obtain ⟨w, -, made⟩ := h
  unfold Written.options? at made
  split at made
  · rename_i written
    rw [← Except.ok.inj made]
    split at written
    · exact .inl ⟨_, by rw [← Option.some.inj written]⟩
    · exact .inr ⟨_, by rw [← Option.some.inj written]⟩
    · cases written
  · cases made

theorem StandardTsconfig.source_of_readFrom {v : Json} {o : Options} (h : readFrom v = .ok o) :
    (∃ template, o.source = .template template) ∨ ∃ path, o.source = .templateFile path := by
  simp only [readFrom, bind_eq_ok_iff] at h
  obtain ⟨w, -, made⟩ := h
  split at made
  · simp only [bind_eq_ok_iff] at made
    obtain ⟨template, -, made⟩ := made
    exact .inl ⟨template, by rw [← Except.ok.inj made]⟩
  · exact .inr ⟨_, by rw [← Except.ok.inj made]⟩
  · cases made

namespace RuleKind

variable {kind : RuleKind} {options : Option Json} {rule : Rule}

theorem checkFor_of_bind (bound : kind.bind options = .ok rule) :
    kind.checkFor (options.getD .null) = .ok rule.check := by
  simp only [bind, bind_eq_ok_iff] at bound
  obtain ⟨-, -, check, made, same⟩ := bound
  rw [made, ← Except.ok.inj same]

/-- Every built-in rule comes to a verdict that its fixers settle. -/
theorem exists_verdict (known : kind ∈ all) (bound : kind.bind options = .ok rule)
    (root dir : Path) :
    ∃ verdict : Tree → Except RuleError (List Reported),
      (∀ (t : Tree) (o : Context), o.workspaceDir = .ok root → o.dir = dir →
        Check.Judges t o rule.check (verdict t)) ∧
      ∀ t : Tree, t.Ordered → t.FloatFree → Settles verdict t := by
  have made := checkFor_of_bind bound
  simp only [all, List.mem_cons, List.not_mem_nil, or_false] at known
  obtain rfl | rfl | rfl | rfl := known
  · obtain ⟨names, -, check⟩ := map_eq_ok_iff.1 made
    rw [← check]
    refine ⟨_, fun t o inside here => here ▸ (DependencyRule.banned names).judges_check inside, ?_⟩
    exact fun t ordered free =>
      (DependencyRule.banned names).settles (free.sound ordered) root dir
  · rw [← Except.ok.inj made]
    refine ⟨_, fun t o inside here => here ▸ DependencyRule.consistent.judges_check inside, ?_⟩
    exact fun t ordered free => DependencyRule.consistent.settles (free.sound ordered) root dir
  · obtain ⟨⟨file, source⟩, read, check⟩ := map_eq_ok_iff.1 made
    rw [← check]
    rcases FileContents.source_of_readFrom read with ⟨text, rfl⟩ | ⟨path, rfl⟩
    · refine ⟨fun t => fileVerdict t (dir.join file)
        (fun text => FileContents.finding (dir.join file) (some text)) (.ok text),
        fun t o inside here => here ▸ FileContents.judges_check
          (FileContents.comesTo_template text), ?_⟩
      exact fun t _ _ => FileContents.settles_template (dir.join file) text
    · refine ⟨_, fun t o inside here => here ▸ FileContents.judges_check
        (FileContents.comesTo_templateFile inside path), ?_⟩
      exact fun t _ _ => FileContents.settles_templateFile (dir.join file) (root.join path)
  · obtain ⟨⟨source, excluded⟩, read, check⟩ := map_eq_ok_iff.1 made
    rw [← check]
    rcases StandardTsconfig.source_of_readFrom read with ⟨template, rfl⟩ | ⟨path, rfl⟩
    · refine ⟨_, fun t o inside here => here ▸ StandardTsconfig.judges_check
        (StandardTsconfig.comesTo_template inside template excluded), ?_⟩
      exact fun t ordered free =>
        StandardTsconfig.settles_template (free.sound ordered) root dir template excluded
    · refine ⟨_, fun t o inside here => here ▸ StandardTsconfig.judges_check
        (StandardTsconfig.comesTo_templateFile inside path excluded), ?_⟩
      exact fun t ordered free => StandardTsconfig.settles_templateFile (free.sound ordered) free
        root dir (root.join path) excluded

end RuleKind

/-! ## Contexts built anew -/

namespace Context

variable {σ : Type} [FileSystem σ] {fs fs' : σ} {c c' : Context}

/-- The context of the same package, built anew. -/
def reopen (fs : σ) : Context → Except ConfigError Context
  | root w => openWorkspace fs w.package.dir
  | member p w => openWorkspace fs w.package.dir >>= fun r => r.createChild fs p.dir
  | standalone p => openPackage fs p.dir

/-- The context of the same package with nothing kept, neither of it nor of its workspace. -/
def renewed : Context → Context
  | root w => root (.fresh w.package.dir)
  | member p w => member (.fresh p.dir) (.fresh w.package.dir)
  | standalone p => standalone (.fresh p.dir)

@[simp] theorem dir_renewed (c : Context) : c.renewed.dir = c.dir := by cases c <;> rfl

@[simp] theorem workspaceDir_renewed (c : Context) : c.renewed.workspaceDir = c.workspaceDir := by
  cases c <;> rfl

@[simp] theorem findings_renewed (c : Context) : c.renewed.findings = [] := by cases c <;> rfl

theorem coherent_renewed (fs : σ) (c : Context) : c.renewed.Coherent fs := by
  have bare : c.renewed.bare = c.renewed := by cases c <;> rfl
  rw [← bare]
  exact c.renewed.coherent_bare fs

/-- A context of a package in a workspace, as rules are asked on it: it can be built, it keeps
nothing that has changed, and nothing is reported yet. -/
structure Ready (fs : σ) (c : Context) : Prop where
  inside : c.workspace?.isSome = true
  opens : ∃ fresh, c.reopen fs = .ok fresh
  coherent : c.Coherent fs
  clear : c.findings = []

/-- A context can be built when no manifest is missing. -/
theorem reopen_eq_ok_iff :
    c.reopen fs = .ok c' ↔ FileSystem.contains fs c.dir.manifest = true ∧
      (∀ root, c.parent? = some root → FileSystem.contains fs root.manifest = true) ∧
      c' = c.renewed := by
  cases c with
  | root w =>
    rw [reopen, openWorkspace_eq_ok_iff]
    exact and_congr_right fun _ => (and_iff_right nofun).symm
  | standalone p =>
    rw [reopen, openPackage_eq_ok_iff]
    exact and_congr_right fun _ => (and_iff_right nofun).symm
  | member p w =>
    simp only [reopen, bind_eq_ok_iff, openWorkspace_eq_ok_iff, parent?, Option.some.injEq,
      forall_eq']
    constructor
    · rintro ⟨_, ⟨rootThere, rfl⟩, child⟩
      obtain ⟨there, rfl⟩ := createChild_eq_ok_iff.1 child
      exact ⟨there, rootThere, rfl⟩
    · rintro ⟨there, rootThere, rfl⟩
      exact ⟨_, ⟨rootThere, rfl⟩, createChild_eq_ok_iff.2 ⟨there, rfl⟩⟩

end Context

/-- When the check of a built-in rule succeeds and all its fixers do, the check of a context built
anew for the same package finds nothing, and making the same changes again changes nothing. -/
theorem settled_of_applied {kind : RuleKind} {options : Option Json} {rule : Rule}
    (known : kind ∈ RuleKind.all) (bound : kind.bind options = .ok rule) (ordered : t.Ordered)
    (free : t.FloatFree) {c : Context} (ready : c.Ready t)
    (ok : (rule.check.run t c).1 = .ok ())
    (applied : FixOp.Applied t (dueOps (rule.check.run t c).2.findings) t') :
    ∃ fresh, c.reopen t' = .ok fresh ∧ (rule.check.run t' fresh).1 = .ok () ∧
      (rule.check.run t' fresh).2.findings = [] ∧
      FixOp.Applied t' (dueOps (rule.check.run t c).2.findings) t' := by
  obtain ⟨root, inside⟩ : ∃ root, c.workspaceDir = .ok root := by
    have some := ready.inside
    cases c with
    | root w => exact ⟨w.package.dir, rfl⟩
    | member p w => exact ⟨w.package.dir, rfl⟩
    | standalone p => cases some
  obtain ⟨verdict, judges, settles⟩ := RuleKind.exists_verdict known bound root c.dir
  obtain ⟨result, found⟩ := (judges t c.opened (c.workspaceDir_opened.trans inside)
    c.dir_opened).run ready.coherent rfl ready.clear
  rw [ok] at result
  rcases judged : verdict t with e | rs <;> rw [judged] at result found
  · cases result
  rw [found] at applied ⊢
  have settled := settles t ordered free rs t' judged applied
  obtain ⟨fresh, opens⟩ := ready.opens
  obtain ⟨there, rootThere, rfl⟩ := Context.reopen_eq_ok_iff.1 opens
  refine ⟨c.renewed, Context.reopen_eq_ok_iff.2 ⟨settled.there _ there,
    fun root parent => settled.there _ (rootThere root parent), rfl⟩, ?_⟩
  have opened : c.renewed.opened.workspaceDir = .ok root := by
    rw [Context.workspaceDir_opened, Context.workspaceDir_renewed, inside]
  obtain ⟨result', found'⟩ := (judges t' c.renewed.opened opened
    (by rw [Context.dir_opened, Context.dir_renewed])).run (c.coherent_renewed t') rfl
    c.findings_renewed
  rw [settled.clean] at result' found'
  exact ⟨result', found', settled.again⟩

/-- A member that depends on another one, and whose `tsconfig.json` is the template. -/
def ownTemplate : Tree where
  files := [
    Run.jsonFile "/w/a/package.json" (.object [("dependencies", .object [("b", .string "*")])]),
    Run.jsonFile "/w/a/tsconfig.json" (.object [("strict", .bool true)]),
    Run.jsonFile "/w/b/package.json" (.object [("name", .string "b")]),
    Run.jsonFile "/w/package.json" (.object [("workspaces", .array [.string "*"])])]
  dirs := []

/-- The rule that takes the `tsconfig.json` of the member as its template. -/
def ownTemplateRule : Rule := StandardTsconfig.rule ⟨.templateFile ⟨"a/tsconfig.json"⟩, .empty⟩

/-- The member that is its own template. -/
def ownTemplateMember : Context := .member (.fresh ⟨"/w/a"⟩) (.fresh ⟨"/w"⟩)

theorem settled_of_ownTemplate :
    StandardTsconfig.kind.bind (some (.object [("template_file", .string "a/tsconfig.json")])) =
      .ok ownTemplateRule ∧
    ownTemplate.Ordered ∧ ownTemplate.FloatFree ∧ ownTemplateMember.Ready ownTemplate ∧
    (ownTemplateRule.check.run ownTemplate ownTemplateMember).1 = .ok () ∧
    ∃ t', t' ≠ ownTemplate ∧
      FixOp.Applied ownTemplate
        (dueOps (ownTemplateRule.check.run ownTemplate ownTemplateMember).2.findings) t' ∧
      ∃ fresh, ownTemplateMember.reopen t' = .ok fresh ∧
        (ownTemplateRule.check.run t' fresh).1 = .ok () ∧
        (ownTemplateRule.check.run t' fresh).2.findings = [] ∧
        FixOp.Applied t'
          (dueOps (ownTemplateRule.check.run ownTemplate ownTemplateMember).2.findings) t' := by
  have known : StandardTsconfig.kind ∈ RuleKind.all :=
    .tail _ (.tail _ (.tail _ (.head _)))
  have bound : StandardTsconfig.kind.bind
      (some (.object [("template_file", .string "a/tsconfig.json")])) = .ok ownTemplateRule := rfl
  have ordered : ownTemplate.Ordered := by decide +kernel
  have free : ownTemplate.FloatFree := Tree.floatFree_of_files (by decide +kernel)
  have ready : ownTemplateMember.Ready ownTemplate :=
    ⟨rfl, ⟨_, Context.reopen_eq_ok_iff.2 ⟨by decide +kernel, by decide +kernel, rfl⟩⟩,
      ownTemplateMember.coherent_renewed ownTemplate, rfl⟩
  let checked := ownTemplateRule.check.run ownTemplate ownTemplateMember
  let made := Fixer.applyOps ownTemplate (dueOps checked.2.findings)
  have runs : checked.1.toOption = some () ∧ made.2.isNone = true ∧ made.1 ≠ ownTemplate := by
    decide +kernel
  have ok : checked.1 = .ok () := eq_ok_of_toOption_eq runs.1
  have applied := Fixer.applied_of_applyOps
    (Prod.ext rfl (Option.isNone_iff_eq_none.1 runs.2.1) : made = (made.1, none))
  exact ⟨bound, ordered, free, ready, ok, made.1, runs.2.2, applied,
    settled_of_applied known bound ordered free ready ok applied⟩

end WorkspaceLint
