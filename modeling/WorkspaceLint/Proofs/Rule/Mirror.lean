import WorkspaceLint.Proofs.Rule.Targets
import WorkspaceLint.Proofs.Rule.TsconfigOptions
import WorkspaceLint.Proofs.Workspace.Questions

/-!
# Rules in a tree and on its disk

Every built-in rule whose options name tidy paths finds the same in a tree and on its disk
(`RuleKind.mirrored_of_bind`), and its fixers do the same in both unless they are to create a
directory below a stored file.
-/

namespace WorkspaceLint

open WorkspaceLint.Path (AreNames down)

/-- A finding without the wording of why its fixer failed. -/
def FindingRecord.gist (f : FindingRecord) : FindingRecord :=
  { f with fixError := f.fixError.map fun _ => "" }

/-! ## Fixers -/

namespace Tree

/-- No file is stored above a path. -/
def Free (t : Tree) (path : Path) : Prop :=
  ∀ p ∈ t.paths, p.components <+: path.components → p.components = path.components

instance (t : Tree) (path : Path) : Decidable (t.Free path) :=
  inferInstanceAs (Decidable (∀ p ∈ t.paths,
    p.components <+: path.components → p.components = path.components))

theorem OnDisk.file?_eq_none {t : Tree} {d : Disk} (h : t.OnDisk d) {names : List String}
    (hn : AreNames names) (free : t.Free (down names)) {above : List String}
    (isPrefix : above <+: names) (other : above ≠ names) : d.file? above = none := by
  have ha := hn.of_prefix isPrefix
  rw [← h.contents above ha, ← Option.isNone_iff_eq_none, ← Option.isSome_eq_false_iff,
    Bool.eq_false_iff]
  intro stored
  obtain ⟨p, member, same⟩ := List.mem_map.1 (contents?_isSome_iff_paths.1 stored)
  have whole := free p member (same ▸ (Path.prefix_components_down ha hn).2 isPrefix)
  exact other ((Path.components_down_inj ha hn).1 (same.symm.trans whole))

end Tree

namespace Fixer

/-- What a fixer comes to in a tree and on its disk. -/
structure Both (x : Tree × Option Trouble) (y : Disk × Option Trouble) : Prop where
  fs : x.1.OnDisk y.1
  failed : y.2.isSome = x.2.isSome

variable {t : Tree} {d : Disk} {names : List String}

theorem both_cons (h : t.OnDisk d) {op : FixOp} {ops : List FixOp}
    (first : Tree.Agreed (op.apply t) (op.apply d))
    (rest : ∀ t' d', op.apply t = .ok t' → op.apply d = .ok d' → t'.OnDisk d' →
      Both (applyOps t' ops) (applyOps d' ops)) :
    Both (applyOps t (op :: ops)) (applyOps d (op :: ops)) := by
  rw [applyOps, applyOps]
  rcases tree : op.apply t with e | t' <;> rcases disk : op.apply d with e' | d' <;>
    rw [tree, disk] at first
  · exact ⟨h, rfl⟩
  · cases first
  · cases first
  · cases first with
    | ok after => exact rest t' d' tree disk after

theorem both_setJsonKey (h : t.OnDisk d) (hn : AreNames names) (key : String) (value : Json) :
    Both (applyOps t [.setJsonKey (down names) key value])
      (applyOps d [.setJsonKey (down names) key value]) :=
  both_cons h (h.setJsonKey hn key value) fun _ _ _ _ after => ⟨after, rfl⟩

theorem both_writeFile (h : t.OnDisk d) (hn : AreNames names) (noDir : d.isDir names = false)
    (text : String) :
    Both (applyOps t [.writeFile (down names) text]) (applyOps d [.writeFile (down names) text]) :=
  both_cons h (h.write hn noDir text) fun _ _ _ _ after => ⟨after, rfl⟩

/-- A file is written in a directory that is created before. -/
theorem both_createDirs_writeFile (h : t.OnDisk d) (hn : AreNames names) (some : names ≠ [])
    (noDir : d.isDir names = false) (free : t.Free (down names.dropLast)) (text : String) :
    Both (applyOps t [.createDirs (down names.dropLast), .writeFile (down names) text])
      (applyOps d [.createDirs (down names.dropLast), .writeFile (down names) text]) := by
  have front := hn.dropLast
  obtain ⟨t₁, d₁, tree, disk, after, dirs⟩ :=
    h.createDirs front fun above => h.file?_eq_none front free
  refine both_cons h ?_ fun t' d' made made' _ => ?_
  · rw [tree, disk]
    exact .ok after
  · obtain rfl := Except.ok.inj (tree.symm.trans made)
    obtain rfl := Except.ok.inj (disk.symm.trans made')
    refine both_writeFile after hn ?_ text
    rw [Bool.eq_false_iff]
    intro dir
    rcases dirs names dir with old | below
    · rw [noDir] at old
      cases old
    · have shorter := below.length_le
      have nonempty := List.length_pos_iff.2 some
      rw [List.length_dropLast] at shorter
      omega

end Fixer

namespace Run

variable {t : Tree} {d : Disk}

theorem settle_both (h : t.OnDisk d) {r : Reported}
    (fixes : ∀ fixer, r.finding.fixer = some fixer → Fixer.Both (fixer.apply t) (fixer.apply d))
    (name : String) (label : Path) :
    (settle true name label t r).1.OnDisk (settle true name label d r).1 ∧
      (settle true name label d r).2.gist = (settle true name label t r).2.gist := by
  unfold settle
  rcases due : fixerToTry true r with _ | fixer
  · exact ⟨h, rfl⟩
  have attached : r.finding.fixer = some fixer := by
    unfold fixerToTry at due
    split at due
    · exact due
    · cases due
  obtain ⟨after, failed⟩ := fixes fixer attached
  rcases tree : fixer.apply t with ⟨t', e | e⟩ <;> rcases disk : fixer.apply d with ⟨d', e' | e'⟩ <;>
    rw [tree, disk] at after failed <;> simp only [tree, disk]
  · exact ⟨after, trivial⟩
  · cases failed
  · cases failed
  · exact ⟨after, rfl⟩

end Run

/-- The directory that a change creates. -/
def FixOp.created? : FixOp → Option Path
  | createDirs path => some path
  | _ => none

/-- None of the directories that the fixer of a finding is to create is below a stored file. -/
def Reported.Unblocked (t : Tree) (r : Reported) : Prop :=
  ∀ fixer ∈ r.finding.fixer, ∀ op ∈ fixer.ops, ∀ path ∈ op.created?, t.Free path

instance (t : Tree) (r : Reported) : Decidable (r.Unblocked t) :=
  inferInstanceAs (Decidable (∀ fixer ∈ r.finding.fixer, ∀ op ∈ fixer.ops,
    ∀ path ∈ op.created?, t.Free path))

/-- The fixers of findings do the same in a tree and on its disk, unless one of them is blocked. -/
def Repairable (t : Tree) (d : Disk) (rs : List Reported) : Prop :=
  (∀ r ∈ rs, r.Unblocked t) → ∀ name label,
    (Run.settleAll true name label t rs).1.OnDisk (Run.settleAll true name label d rs).1 ∧
      (Run.settleAll true name label d rs).2.map FindingRecord.gist =
        (Run.settleAll true name label t rs).2.map FindingRecord.gist

/-- The fixer of a finding sets one member of an object in a file with a plain path. -/
def Reported.SetsKey (r : Reported) : Prop :=
  ∃ names key value, AreNames names ∧ r.finding.fixer = some ⟨[.setJsonKey (down names) key value]⟩

section

variable {t : Tree} {d : Disk}

theorem repairable_nil (h : t.OnDisk d) : Repairable t d [] := fun _ _ _ => ⟨h, rfl⟩

theorem repairable_of_setsKey (h : t.OnDisk d) {rs : List Reported} (sets : ∀ r ∈ rs, r.SetsKey) :
    Repairable t d rs := by
  intro unblocked name label
  clear unblocked
  induction rs generalizing t d with
  | nil => exact ⟨h, rfl⟩
  | cons r rs ih =>
    obtain ⟨⟨names, key, value, hn, fixer⟩, later⟩ := List.forall_mem_cons.1 sets
    have one := Run.settle_both h (r := r) (fun other same => by
      rw [← Option.some.inj (fixer.symm.trans same)]
      exact Fixer.both_setJsonKey h hn key value) name label
    obtain ⟨after, records⟩ := ih one.1 later
    refine ⟨after, ?_⟩
    rw [Run.settleAll, Run.settleAll, List.map_cons, List.map_cons, one.2, records]

theorem repairable_singleton (h : t.OnDisk d) {r : Reported}
    (fixes : r.Unblocked t → ∀ fixer, r.finding.fixer = some fixer →
      Fixer.Both (fixer.apply t) (fixer.apply d)) : Repairable t d [r] := by
  intro unblocked name label
  have one := Run.settle_both h (fixes (unblocked r (List.mem_singleton_self r))) name label
  exact ⟨one.1, congrArg (fun f => [f]) one.2⟩

theorem FileContents.repairable (h : t.OnDisk d) {names : List String} (hn : AreNames names)
    (some : names ≠ []) (noDir : d.isDir names = false) (text : String) (actual : Option String) :
    Repairable t d [⟨.error, finding (down names) (.some text) actual⟩] := by
  refine repairable_singleton h fun unblocked other same => ?_
  obtain rfl := Option.some.inj same
  have ops : (fixer (down names) (.some text)).ops =
      [.createDirs (down names.dropLast), .writeFile (down names) text] := by
    rw [fixer, Path.parent?_down hn some]
    rfl
  have free := unblocked _ rfl (.createDirs (down names.dropLast))
    (by rw [ops]; exact List.mem_cons_self) _ rfl
  have both := Fixer.both_createDirs_writeFile h hn some noDir free text
  rw [← ops] at both
  exact both

theorem StandardTsconfig.repairable (h : t.OnDisk d) {names : List String} (hn : AreNames names)
    (noDir : d.isDir names = false) (text : String) (actual : Option String) :
    Repairable t d [⟨.error, finding (down names) text actual⟩] := by
  refine repairable_singleton h fun _ other same => ?_
  obtain rfl := Option.some.inj same
  exact Fixer.both_writeFile h hn noDir text

end

/-! ## Checks -/

/-- The checks of a rule go the same way in every tree and on its disk. -/
def Rule.Mirrored (rule : Rule) : Prop :=
  ∀ (t : Tree) (d : Disk), t.OnDisk d → ∀ o : Context,
    Check.Mirrored t d o (Repairable t d) (fun _ => True) rule.check

open Check

theorem mirrored_reportEach {t : Tree} {d : Disk} {o : Context} (h : t.OnDisk d)
    {find : DependencyKind → Option Finding}
    (sets : ∀ kind f, find kind = some f → Reported.SetsKey ⟨.error, f⟩)
    {report : List DependencyKind → Check Unit} (nil : report [] = pure ())
    (cons : ∀ kind kinds, report (kind :: kinds) = do
      match find kind with
      | some f => Check.report .error f
      | none => pure ()
      report kinds)
    (kinds : List DependencyKind) :
    Mirrored t d o (fun rs => ∀ r ∈ rs, r.SetsKey) (fun _ => True) (report kinds) := by
  have none : ∀ r ∈ ([] : List Reported), r.SetsKey := nofun
  induction kinds with
  | nil =>
    rw [nil]
    exact .pure none trivial
  | cons kind kinds ih =>
    rw [cons]
    rcases found : find kind with _ | f
    · show Mirrored t d o _ _ ((pure () : Check Unit) >>= fun _ => report kinds)
      exact (Asks.pure (Q := fun _ => True) trivial).andThen h none fun _ _ => ih
    · show Mirrored t d o _ _ (Check.report .error f >>= fun _ => report kinds)
      refine Mirrored.bind h (Mirrored.report (S := fun rs => ∀ r ∈ rs, r.SetsKey) ?_)
        (fun _ _ => ih) (fun _ allowed => allowed) fun _ _ first rest =>
          List.forall_mem_append.2 ⟨first, rest⟩
      exact List.forall_mem_singleton.2 (sets kind f found)

theorem DependencyRule.mirrored (rule : DependencyRule) (t : Tree) (d : Disk) (h : t.OnDisk d)
    (o : Context) : Mirrored t d o (Repairable t d) (fun _ => True) rule.check := by
  have none := repairable_nil h
  have sets {dir : Path} (plain : dir.Plain) {f : Finding} {key : String} {value : Json}
      (fixer : f.fixer = some ⟨[.setJsonKey dir.manifest key value]⟩) :
      Reported.SetsKey ⟨.error, f⟩ := by
    obtain ⟨names, hn, rfl⟩ := plain
    rw [Path.manifest_down hn] at fixer
    exact ⟨_, _, _, Path.areNames_manifest hn, fixer⟩
  cases rule with
  | consistent =>
    refine (Asks.rootManifest h).andThen h none fun root _ => ?_
    refine (Asks.manifest h).andThen h none fun m _ => ?_
    refine Asks.dir.andThen h none fun dir known => ?_
    refine (mirrored_reportEach h (fun kind f found => ?_) rfl (fun _ _ => rfl)
      ConsistentDependencies.blocks).imp fun rs => repairable_of_setsKey h
    obtain ⟨_, _, _, fixer, -⟩ := ConsistentDependencies.onBlock_of_blockFinding? found
    exact sets known.2 fixer
  | banned names =>
    refine (Asks.manifest h).andThen h none fun m _ => ?_
    refine Asks.dir.andThen h none fun dir known => ?_
    refine (mirrored_reportEach h (fun kind f found => ?_) rfl (fun _ _ => rfl)
      DependencyKind.all).imp fun rs => repairable_of_setsKey h
    obtain ⟨_, _, _, fixer, -⟩ := BannedDependencies.onBlock_of_blockFinding? found
    exact sets known.2 fixer

/-- A file below the workspace root that is named by a tidy path is read at a plain path. -/
theorem asks_workspacePath {t : Tree} {d : Disk} {o : Context} (h : t.OnDisk d) {relative : Path}
    (tidy : relative.Tidy) : Asks t d o Path.Plain (workspacePath relative) :=
  Asks.workspacePath h fun _ plain =>
    let ⟨more, hm, _, leads⟩ := tidy.join plain
    ⟨more, hm, leads⟩

theorem FileContents.mirrored {o : Options} (file : o.file.Tidy)
    (source : (∃ text, o.source = .template text) ∨
      ∃ path, o.source = .templateFile path ∧ path.Tidy) : Rule.Mirrored (rule o) := by
  intro t d h c
  have none := repairable_nil h
  refine Asks.dir.andThen h none fun dir known => ?_
  obtain ⟨names, hn, some, leads⟩ := file.join known.2
  have expected : Asks t d c (fun e => ∃ text, e = .some text) o.source.expected := by
    rcases source with ⟨text, same⟩ | ⟨path, same, tidy⟩ <;> rw [same]
    · exact Asks.pure ⟨text, rfl⟩
    · refine (asks_workspacePath h tidy).bind h fun path plain => ?_
      obtain ⟨more, hm, rfl⟩ := plain
      exact (Asks.read h hm _ fun _ => rfl).bind h fun text _ => Asks.pure ⟨text, rfl⟩
  refine expected.andThen h none fun e written => ?_
  obtain ⟨text, rfl⟩ := written
  rw [leads]
  refine (Asks.readIfThere h hn).andThen h none fun actual noDir => ?_
  split
  · exact .pure none trivial
  · exact Mirrored.report (FileContents.repairable h hn some noDir text actual)

theorem StandardTsconfig.asks_render {t : Tree} {d : Disk} {o : Context} (h : t.OnDisk d)
    (template : Members) (excluded : PatternSet) :
    Asks t d o (fun _ => True) (render template excluded) :=
  (Asks.memberNames h).bind h fun _ _ => (Asks.manifest h).bind h fun _ _ =>
    Asks.dir.bind h fun _ _ => (Asks.ofExcept (Q := fun _ => True) fun _ _ => trivial).bind h
      fun _ _ => Asks.pure trivial

theorem StandardTsconfig.mirrored {o : Options}
    (source : (∃ template, o.source = .template template) ∨
      ∃ path, o.source = .templateFile path ∧ path.Tidy) : Rule.Mirrored (rule o) := by
  intro t d h c
  have none := repairable_nil h
  refine Asks.dir.andThen h none fun dir known => ?_
  obtain ⟨names, hn, rfl⟩ := known.2
  have all : AreNames (names ++ [tsconfigFile]) :=
    Path.areNames_append.2 ⟨hn, List.forall_mem_singleton.2 isName_tsconfigFile⟩
  have expected : Asks t d c (fun e => ∃ text, e = some text) o.expected := by
    unfold Options.expected
    rcases source with ⟨template, same⟩ | ⟨path, same, tidy⟩ <;> rw [same]
    · exact (asks_render h template o.excluded).bind h fun text _ => Asks.pure ⟨text, rfl⟩
    · refine (asks_workspacePath h tidy).bind h fun path plain => ?_
      obtain ⟨more, hm, rfl⟩ := plain
      refine (Asks.readJsonFor h hm .tsconfigTemplate).bind h fun v _ => ?_
      refine (Asks.ofExcept (Q := fun _ => True) fun _ _ => trivial).bind h fun members _ => ?_
      exact (asks_render h members o.excluded).bind h fun text _ => Asks.pure ⟨text, rfl⟩
  refine expected.andThen h none fun e written => ?_
  obtain ⟨text, rfl⟩ := written
  simp only [Path.entry_down hn isName_tsconfigFile]
  refine (Asks.readIfThere h all).andThen h none fun actual noDir => ?_
  split
  · exact .pure none trivial
  · exact Mirrored.report (StandardTsconfig.repairable h all noDir text actual)

/-! ## Options -/

/-- The paths in the options of a rule are tidy. -/
def TidyOptions (options : Option Json) : Prop :=
  ∀ key ∈ ["file", "template_file"], ∀ text, (options.getD .null).get? key = some (.string text) →
    (Path.mk text).Tidy

theorem RuleKind.allows_of_bind {kind : RuleKind} {options : Option Json} {rule : Rule} {s : Schema}
    (read : Schema.ofJson kind.schema = .ok s) (bound : kind.bind options = .ok rule) :
    s.Allows (options.getD .null) := by
  by_contra refused
  obtain ⟨vs, told⟩ := bind_of_not_allows read refused
  rw [bound] at told
  cases told

theorem FileContents.mirrored_of_bind {options : Option Json} {rule : Rule}
    (bound : kind.bind options = .ok rule) (tidy : TidyOptions options) : rule.Mirrored := by
  obtain ⟨o, read, same⟩ := map_eq_ok_iff.1 (RuleKind.checkFor_of_bind bound)
  have allowed := RuleKind.allows_of_bind ofJson_schema bound
  suffices o.file.Tidy ∧ ((∃ text, o.source = .template text) ∨
      ∃ path, o.source = .templateFile path ∧ path.Tidy) by
    intro t d h c
    rw [← same]
    exact FileContents.mirrored this.1 this.2 t d h c
  unfold TidyOptions at tidy
  generalize options.getD .null = v at read allowed tidy
  rcases cases_of_allows allowed with documented | ⟨ms, rfl, repeated⟩
  · obtain @⟨ms, file, text, members⟩ | @⟨ms, file, path, members⟩ := documented
    · have made : o = ⟨⟨file⟩, .template text⟩ := by
        rcases perm_pair members with rfl | rfl <;> exact (Except.ok.inj read).symm
      have named := tidy "file" (by decide) file
        ((Members.get?_perm members (by simp [Members.keys])).2 (by simp))
      subst made
      exact ⟨named, .inl ⟨text, rfl⟩⟩
    · have made : o = ⟨⟨file⟩, .templateFile ⟨path⟩⟩ := by
        rcases perm_pair members with rfl | rfl <;> exact (Except.ok.inj read).symm
      have nodup : (Members.keys [("file", Json.string file),
          ("template_file", .string path)]).Nodup := by simp [Members.keys]
      have named := tidy "file" (by decide) file ((Members.get?_perm members nodup).2 (by simp))
      have named' := tidy "template_file" (by decide) path
        ((Members.get?_perm members nodup).2 (by simp))
      subst made
      exact ⟨named, .inr ⟨⟨path⟩, rfl, named'⟩⟩
  · obtain ⟨m, told⟩ := exists_mismatch_of_repeated (r := Written.record) rfl info.name repeated
    simp only [readFrom, told] at read
    cases read

theorem StandardTsconfig.mirrored_of_bind {options : Option Json} {rule : Rule}
    (bound : kind.bind options = .ok rule) (tidy : TidyOptions options) : rule.Mirrored := by
  obtain ⟨o, read, same⟩ := map_eq_ok_iff.1 (RuleKind.checkFor_of_bind bound)
  have allowed := RuleKind.allows_of_bind ofJson_schema bound
  suffices (∃ template, o.source = .template template) ∨
      ∃ path, o.source = .templateFile path ∧ path.Tidy by
    intro t d h c
    rw [← same]
    exact StandardTsconfig.mirrored this t d h c
  unfold TidyOptions at tidy
  generalize options.getD .null = v at read allowed tidy
  rcases cases_of_allows allowed with ⟨source, w, patterns, given, shaped⟩ | ⟨ms, rfl, repeated⟩
  · rcases readOptions_shaped given shaped with ⟨-, excluded, ok⟩ | ⟨-, m, refused⟩
    · rw [readFrom, ok] at read
      cases given with
      | object template =>
        obtain rfl := Except.ok.inj read
        exact .inl ⟨template, rfl⟩
      | text text =>
        obtain ⟨template, -, made⟩ :=
          bind_eq_ok_iff.1 (show (readTemplate (.string text) >>= _) = _ from read)
        obtain rfl := Except.ok.inj made
        exact .inl ⟨template, rfl⟩
      | file path =>
        obtain rfl := Except.ok.inj read
        obtain ⟨ms, rfl, members⟩ := shaped
        refine .inr ⟨⟨path⟩, rfl, tidy "template_file" (by decide) path ?_⟩
        exact (Members.get?_perm members (nodup_keys (.file path) patterns)).2 (by simp)
    · rw [readFrom, refused] at read
      cases read
  · obtain ⟨m, told⟩ := exists_mismatch_of_repeated (r := Written.record) rfl info.name repeated
    simp only [readFrom, told] at read
    cases read

/-- The built-in rules, with options whose paths are tidy, find the same in a tree and on its
disk. -/
theorem RuleKind.mirrored_of_bind {kind : RuleKind} (registered : kind ∈ all)
    {options : Option Json} {rule : Rule} (bound : kind.bind options = .ok rule)
    (tidy : TidyOptions options) : rule.Mirrored := by
  simp only [all, List.mem_cons, List.not_mem_nil, or_false] at registered
  rcases registered with rfl | rfl | rfl | rfl
  · obtain ⟨names, -, same⟩ := map_eq_ok_iff.1 (checkFor_of_bind bound)
    intro t d h c
    rw [← same]
    exact (DependencyRule.banned names).mirrored t d h c
  · intro t d h c
    rw [← Except.ok.inj (checkFor_of_bind bound)]
    exact DependencyRule.consistent.mirrored t d h c
  · exact FileContents.mirrored_of_bind bound tidy
  · exact StandardTsconfig.mirrored_of_bind bound tidy

end WorkspaceLint
