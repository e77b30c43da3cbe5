import WorkspaceLint.Proofs.Path.Relative
import WorkspaceLint.Proofs.Rule.Settled
import WorkspaceLint.Proofs.Rule.TsconfigOptions
import WorkspaceLint.Proofs.Workspace.Discovery

/-!
# References

A reference leads from the directory of a package to that of a member (`referencePath_leads`).  The
rendered `tsconfig.json` of a package is the template with one reference for each member that the
package depends on, whichever way the template was given (`rendered_references`).
-/

namespace WorkspaceLint

open WorkspaceLint.Path (down upAndDown)

namespace StandardTsconfig

/-! ## Paths -/

theorem slashed_eq_self {s : String} (free : '\\' ∉ s.toList) : slashed s = s := by
  have kept : (s.toList.map fun c => if c = '\\' then '/' else c) = s.toList := by
    refine (List.map_congr_left fun c hc => ?_).trans (List.map_id _)
    have other : c ≠ '\\' := by
      rintro rfl
      exact free hc
    rw [if_neg other]
    rfl
  rw [slashed, kept, String.ofList_toList]

theorem backslash_not_mem_slashed (s : String) : '\\' ∉ (slashed s).toList := by
  rw [slashed, String.toList_ofList]
  intro member
  obtain ⟨c, -, same⟩ := List.mem_map.1 member
  split at same
  · exact absurd same (by decide)
  · rename_i other
    exact other same

section

variable {source target : Path} (hs : source.Plain) (ht : target.Plain)

include hs ht

/-- Between plain directories there is a reference. -/
theorem exists_referencePath : ∃ path, referencePath source target = .ok path := by
  obtain ⟨base, hb, rfl⟩ := hs
  obtain ⟨names, hn, rfl⟩ := ht
  obtain ⟨common, up, rest, -, -, leads⟩ := Path.exists_relativeTo hn hb
  exact ⟨_, by rw [referencePath, leads]⟩

/-- A reference leads to the directory that it was made for. -/
theorem normalize_join_referencePath (free : '\\' ∉ target.text.toList) {path : String}
    (made : referencePath source target = .ok path) : (source.join ⟨path⟩).normalize = target := by
  obtain ⟨base, hb, rfl⟩ := hs
  obtain ⟨names, hn, rfl⟩ := ht
  obtain ⟨common, up, rest, rfl, rfl, leads⟩ := Path.exists_relativeTo hn hb
  have clean : '\\' ∉ (Path.joinSegments (upAndDown up rest)).toList := by
    rw [Path.mem_joinSegments_iff (by decide)]
    rintro ⟨s, hs, member⟩
    rcases List.mem_append.1 hs with upward | downward
    · obtain ⟨-, -, rfl⟩ := List.mem_map.1 upward
      exact absurd member (by decide)
    · have inTarget := (Path.mem_joinSegments_iff (by decide)).2
        ⟨s, List.mem_append_right common downward, member⟩
      exact free (String.toList_append ▸ List.mem_append_right _ inTarget)
  rw [referencePath, leads] at made
  rw [← Except.ok.inj made, slashed_eq_self clean]
  exact Path.normalize_join_upAndDown hb (Path.areNames_append.1 hn).2

end

/-- From one absolute directory in normal form to another there is a reference, without backslashes,
that leads back to the other one; so two different directories are referenced differently. -/
theorem referencePath_leads {source target : Path} (absolute : source.isAbsolute = true)
    (normal : source.normalize = source) (absolute' : target.isAbsolute = true)
    (normal' : target.normalize = target) (free : '\\' ∉ target.text.toList) :
    ∃ path, referencePath source target = .ok path ∧ '\\' ∉ path.toList ∧
      (source.join ⟨path⟩).normalize = target ∧
      ∀ other : Path, other.isAbsolute = true → other.normalize = other →
        '\\' ∉ other.text.toList → other ≠ target → referencePath source other ≠ .ok path := by
  have hs := Path.plain_iff.2 ⟨absolute, normal⟩
  have ht := Path.plain_iff.2 ⟨absolute', normal'⟩
  obtain ⟨path, made⟩ := exists_referencePath hs ht
  have leads := normalize_join_referencePath hs ht free made
  refine ⟨path, made, ?_, leads, ?_⟩
  · unfold referencePath at made
    split at made
    · rw [← Except.ok.inj made]
      exact backslash_not_mem_slashed _
    · cases made
  · intro other isAbsolute isNormal clean different same
    have ho := Path.plain_iff.2 ⟨isAbsolute, isNormal⟩
    exact different ((normalize_join_referencePath hs ho clean same).symm.trans leads)

/-- A directory next to one above, with a name that the other one starts with. -/
theorem referencePath_sibling :
    referencePath ⟨"/w/pkg/a/b"⟩ ⟨"/w/pkg-extra/a"⟩ = .ok "../../../pkg-extra/a" ∧
      (Path.join ⟨"/w/pkg/a/b"⟩ ⟨"../../../pkg-extra/a"⟩).normalize = ⟨"/w/pkg-extra/a"⟩ ∧
      referencePath ⟨"/w/pkg/a/b"⟩ ⟨"/w/pkg"⟩ ≠ .ok "../../../pkg-extra/a" := by
  have made : referencePath ⟨"/w/pkg/a/b"⟩ ⟨"/w/pkg-extra/a"⟩ = .ok "../../../pkg-extra/a" :=
    eq_ok_of_toOption_eq (by decide +kernel)
  have source : (Path.mk "/w/pkg/a/b").normalize = ⟨"/w/pkg/a/b"⟩ := by decide +kernel
  have target : (Path.mk "/w/pkg-extra/a").normalize = ⟨"/w/pkg-extra/a"⟩ := by decide +kernel
  obtain ⟨path, found, -, leads, apart⟩ := referencePath_leads (by decide +kernel) source
    (by decide +kernel) target (by decide +kernel)
  obtain rfl := Except.ok.inj (made.symm.trans found)
  exact ⟨made, leads, apart ⟨"/w/pkg"⟩ (by decide +kernel) (by decide +kernel) (by decide +kernel)
    (by decide +kernel)⟩

/-! ## Names -/

theorem eraseDups_eq_self {names : List String} (nodup : names.Nodup) :
    names.eraseDups = names := by
  induction names with
  | nil => rfl
  | cons name names ih =>
    obtain ⟨new, later⟩ := List.nodup_cons.1 nodup
    have others : names.filter (fun other => !other == name) = names := by
      refine List.filter_eq_self.2 fun other member => ?_
      have different : other ≠ name := by
        rintro rfl
        exact new member
      simpa using different
    rw [List.eraseDups_cons, others, ih later]

/-- The names that a manifest depends on: those of its dependencies, and then those of its
development dependencies that are not among them. -/
def dependedOn (m : Manifest) : List String :=
  let own := Members.keys ((m.block? .dependencies).getD [])
  let dev := Members.keys ((m.block? .devDependencies).getD [])
  own ++ dev.filter (· ∉ own)

theorem nodup_keys_block {m : Manifest} {depth : Nat} (legible : m.toJson.Legible depth)
    (kind : DependencyKind) : (Members.keys ((m.block? kind).getD [])).Nodup := by
  rcases hb : m.block? kind with _ | block
  · exact .nil
  · obtain ⟨v, found, isBlock⟩ := Option.bind_eq_some_iff.1 hb
    obtain ⟨-, -, values⟩ := Json.legible_object_iff.1 legible
    have value := values _ (Members.mem_of_get? found)
    cases v with
    | object ms =>
      rw [← Option.some.inj isBlock]
      exact (Json.legible_object_iff.1 value).2.1
    | null | bool _ | number _ | string _ | array _ => cases isBlock

theorem dependencyNames_blocks {m : Manifest} {depth : Nat} (legible : m.toJson.Legible depth) :
    m.dependencyNames blocks = dependedOn m := by
  have own := nodup_keys_block legible .dependencies
  have dev := nodup_keys_block legible .devDependencies
  rw [Manifest.dependencyNames, blocks, List.flatMap_cons, List.flatMap_cons, List.flatMap_nil,
    List.append_nil, List.eraseDups_append, eraseDups_eq_self own, List.removeAll,
    eraseDups_eq_self (dev.filter _), dependedOn]
  simp

/-- The members that are referenced for names: for each one that is not excluded, the first member
that has it. -/
def referenced {σ : Type} [FileSystem σ] (fs : σ) (dirs : List Path) (excluded : PatternSet)
    (names : List String) : List Path :=
  (names.filter fun name => !excluded.accepts name).filterMap fun name =>
    dirs.find? fun dir => Workspace.nameAt? fs dir = some name

theorem referencedDirs_memberNames {σ : Type} [FileSystem σ] (fs : σ) (dirs : List Path)
    (excluded : PatternSet) (names : List String) :
    referencedDirs (Workspace.memberNames fs dirs) excluded names =
      referenced fs dirs excluded names := by
  rw [referencedDirs, referenced, List.filterMap_filter]
  refine List.filterMap_congr fun name _ => ?_
  rw [Workspace.lookup_memberNames]
  cases excluded.accepts name <;>
    cases dirs.find? fun dir => Workspace.nameAt? fs dir = some name <;> rfl

/-! ## References -/

/-- The reference from one directory to another. -/
def Refers (source target : Path) (v : Json) : Prop :=
  ∃ path, v = .object [("path", .string path)] ∧ referencePath source target = .ok path ∧
    ('\\' ∉ target.text.toList → (source.join ⟨path⟩).normalize = target)

/-- To plain directories there are references, one for each. -/
theorem exists_references {source : Path} (hs : source.Plain) {targets : List Path}
    (plain : ∀ target ∈ targets, target.Plain) :
    ∃ found, references source targets = .ok found ∧
      List.Forall₂ (Refers source) targets found := by
  induction targets with
  | nil => exact ⟨[], rfl, .nil⟩
  | cons target targets ih =>
    obtain ⟨first, later⟩ := List.forall_mem_cons.1 plain
    obtain ⟨path, made⟩ := exists_referencePath hs first
    obtain ⟨found, rest, refers⟩ := ih later
    refine ⟨.object [("path", .string path)] :: found, ?_, .cons ?_ refers⟩
    · rw [references, made, rest]
      rfl
    · exact ⟨path, rfl, made, fun free => normalize_join_referencePath hs first free made⟩

/-! ## Rendered templates -/

/-- A member of the options that gives a template: as an object, as the text of one, or as the path
of a file that holds its text. -/
inductive Gives (t : Tree) (root : Path) (template : Members) : String × Json → Prop where
  | object : Gives t root template ("template", .object template)
  | text {text : String} (read : Json.parse text = .ok (.object template)) :
      Gives t root template ("template", .string text)
  | file {path text : String} (stored : t.contents? (root.join ⟨path⟩) = some text)
      (read : Json.parse text = .ok (.object template)) :
      Gives t root template ("template_file", .string path)

section

variable {t : Tree} {c : Context} {root : Path} {template : Members} {source : String × Json}
  {v : Json} {excluded : PatternSet} {text : String}

/-- The options that give a template make of it what rendering it gives. -/
theorem expected_of_gives (inside : c.workspaceDir = .ok root) (coherent : c.Coherent t)
    (rendered : ((render template excluded).run t c).1 = .ok text)
    (gives : Gives t root template source) (patterns : PatternSet.decoder.ofJson v = .ok excluded) :
    ∃ o, readFrom (.object [source, ("excluded_references", v)]) = .ok o ∧
      (o.expected.run t c).1 = .ok (some text) := by
  have opened : c.opened.workspaceDir = .ok root := c.workspaceDir_opened.trans inside
  have made : (referencesIn t root c.opened.dir excluded).map (withReferences template) =
      .ok text := by
    rw [← rendered]
    exact ((comesTo_render opened template excluded) c coherent rfl).1.symm
  have read {w : Written} (given : Given source w) :
      readOptions info.name Written.record.decoder
        (.object [source, ("excluded_references", v)]) = .ok { w with excluded } := by
    rw [readOptions, ofJson_before given, patterns]
    rfl
  have direct : ((Options.expected ⟨.template template, excluded⟩).run t c).1 =
      .ok (some text) := by
    rw [((comesTo_template opened template excluded) c coherent rfl).1, made]
    rfl
  cases gives with
  | object =>
    refine ⟨⟨.template template, excluded⟩, ?_, direct⟩
    rw [readFrom, read (.object template)]
    rfl
  | text parsed =>
    refine ⟨⟨.template template, excluded⟩, ?_, direct⟩
    rw [readFrom, read (.text _)]
    show (readTemplate (.string _) >>= _) = _
    rw [readTemplate, parsed]
    rfl
  | @file path stored there parsed =>
    refine ⟨⟨.templateFile ⟨path⟩, excluded⟩, ?_, ?_⟩
    · rw [readFrom, read (.file path)]
      rfl
    · have holds : templateAt t (root.join ⟨path⟩) = .ok template :=
        templateAt_eq_ok_iff.2 (Tree.readJson_eq_ok_iff.2 ⟨stored, there, parsed⟩)
      rw [((comesTo_templateFile opened ⟨path⟩ excluded) c coherent rfl).1, holds]
      show ((referencesIn t root c.opened.dir excluded).map (withReferences template)).map some = _
      rw [made]
      rfl

end

/-- A rendered template is the template with the references of the package set in it: to the first
member of each name that the package depends on and that is not excluded.  It does not matter in
which way the template is given. -/
theorem rendered_references {t : Tree} {c : Context} {root : Path} {dirs : List Path} {m : Manifest}
    {template : Members} (plain : t.Plain) (here : c.dir.Plain)
    (inside : c.workspaceDir = .ok root) (coherent : c.Coherent t)
    (members : Workspace.memberDirs t root = .ok dirs) (loaded : Package.load t c.dir = .ok m)
    (legible : (Json.object template).Plain Json.Reader.nestingLimit) (excluded : PatternSet) :
    ∃ text result found, ((render template excluded).run t c).1 = .ok text ∧
      Json.parse text = .ok (.object result) ∧
      Members.SetTo "references" (.array found) template result ∧
      List.Forall₂ (Refers c.dir) (referenced t dirs excluded (dependedOn m)) found ∧
      ∀ source v, Gives t root template source → PatternSet.decoder.ofJson v = .ok excluded →
        ∃ o, readFrom (.object [source, ("excluded_references", v)]) = .ok o ∧
          (o.expected.run t c).1 = .ok (some text) := by
  have targets : ∀ dir ∈ referenced t dirs excluded (dependedOn m), dir.Plain := by
    intro dir member
    obtain ⟨name, -, first⟩ := List.mem_filterMap.1 member
    exact Workspace.plain_of_mem_memberDirs plain members dir (List.mem_of_find?_eq_some first)
  obtain ⟨found, made, refers⟩ := exists_references here targets
  have refs : referencesIn t root c.dir excluded = .ok found := by
    refine referencesIn_eq_ok_iff.2 ⟨_, m, by rw [members]; rfl, loaded, ?_⟩
    rw [dependencyNames_blocks (Package.legible_of_load loaded), referencedDirs_memberNames, made]
  have rendered : ((render template excluded).run t c).1 = .ok (withReferences template found) := by
    have opened : c.opened.workspaceDir = .ok root := c.workspaceDir_opened.trans inside
    rw [((comesTo_render opened template excluded) c coherent rfl).1, Context.dir_opened, refs]
    rfl
  have written : (Json.object (Members.insert "references" (.array found) template)).Plain
      Json.Reader.nestingLimit := legible.insert (plain_referencesIn refs)
  exact ⟨_, _, found, rendered, written.parse_canonical, Members.setTo_insert _ _ _, refers,
    fun _ _ gives patterns => expected_of_gives inside coherent rendered gives patterns⟩

/-- A template that has references already. -/
def twinTemplate : Members := [("references", .null), ("strict", .bool true)]

/-- A workspace with that template at its root, of which two members have the same name. -/
def twins : Tree := Tree.ofFiles [
  (["w", "a", "package.json"], (Json.object [
    ("devDependencies", .object [("c", .string "*"), ("b", .string "*"), ("d", .string "*")]),
    ("dependencies", .object [("x", .string "*"), ("b", .string "1")])]).compact),
  (["w", "b", "package.json"], (Json.object [("name", .string "b")]).compact),
  (["w", "b2", "package.json"], (Json.object [("name", .string "b")]).compact),
  (["w", "base.json"], (Json.object twinTemplate).canonical),
  (["w", "c", "package.json"], (Json.object [("name", .string "c")]).compact),
  (["w", "d", "package.json"], (Json.object [("name", .string "d")]).compact),
  (["w", "package.json"], (Json.object [("workspaces", .array [.string "*"])]).compact)]

/-- The members of that workspace. -/
def twinDirs : List Path := [⟨"/w/a"⟩, ⟨"/w/b"⟩, ⟨"/w/b2"⟩, ⟨"/w/c"⟩, ⟨"/w/d"⟩]

/-- The member that depends on others. -/
def twinMember : Context := .member (.fresh ⟨"/w/a"⟩) (.fresh ⟨"/w"⟩)

theorem rendered_references_twins :
    twins.Plain ∧ twinMember.workspaceDir = .ok ⟨"/w"⟩ ∧
      Workspace.memberDirs twins ⟨"/w"⟩ = .ok twinDirs ∧
    ∃ m excluded, Package.load twins twinMember.dir = .ok m ∧
      PatternSet.decoder.ofJson (.array [.string "d*"]) = .ok excluded ∧
      dependedOn m = ["x", "b", "c", "d"] ∧
    ∃ text result found, ((render twinTemplate excluded).run twins twinMember).1 = .ok text ∧
      Json.parse text = .ok (.object result) ∧
      Members.SetTo "references" (.array found) twinTemplate result ∧
      List.Forall₂ (Refers ⟨"/w/a"⟩) [⟨"/w/b"⟩, ⟨"/w/c"⟩] found ∧
    ∃ o, readFrom (.object [("template_file", .string "base.json"),
        ("excluded_references", .array [.string "d*"])]) = .ok o ∧
      (o.expected.run twins twinMember).1 = .ok (some text) := by
  have plain : twins.Plain := Tree.plain_ofFiles (by decide +kernel)
  have here : twinMember.dir.Plain := ⟨["w", "a"], by decide +kernel, rfl⟩
  have coherent : twinMember.Coherent twins := twinMember.coherent_renewed twins
  have members : Workspace.memberDirs twins ⟨"/w"⟩ = .ok twinDirs :=
    eq_ok_of_toOption_eq (by decide +kernel)
  have loads : (Package.load twins twinMember.dir).toOption.map dependedOn =
      some ["x", "b", "c", "d"] := by decide +kernel
  obtain ⟨m, loaded, names⟩ := Option.map_eq_some_iff.1 loads
  have reads : (PatternSet.decoder.ofJson (.array [.string "d*"])).toOption.map
      (fun excluded => referenced twins twinDirs excluded ["x", "b", "c", "d"]) =
      some [⟨"/w/b"⟩, ⟨"/w/c"⟩] := by decide +kernel
  obtain ⟨excluded, patterns, first⟩ := Option.map_eq_some_iff.1 reads
  have legible : (Json.object twinTemplate).Plain Json.Reader.nestingLimit := by
    refine Json.plain_object_iff.2 ⟨by decide, by decide, fun m member => ?_⟩
    simp only [twinTemplate, List.mem_cons, List.not_mem_nil, or_false] at member
    rcases member with rfl | rfl <;> exact ⟨trivial, rfl⟩
  obtain ⟨text, result, found, rendered, parsed, set, refers, routes⟩ :=
    rendered_references plain here rfl coherent members (eq_ok_of_toOption_eq loaded) legible
      excluded
  rw [names, first] at refers
  have stored : twins.contents? (Path.join ⟨"/w"⟩ ⟨"base.json"⟩) =
      some (Json.object twinTemplate).canonical := by decide +kernel
  exact ⟨plain, rfl, members, m, excluded, eq_ok_of_toOption_eq loaded,
    eq_ok_of_toOption_eq patterns, names, text, result, found, rendered, parsed, set, refers,
    routes _ _ (.file stored legible.parse_canonical) (eq_ok_of_toOption_eq patterns)⟩

/-! ### Templates that are no texts -/

/-- An array in arrays. -/
def nested : Nat → Json
  | 0 => .array []
  | n + 1 => .array [nested n]

/-- A template with one level more than a text may have. -/
def deepTemplate : Members := [("a", nested 126)]

/-- A workspace whose root depends on a member with a backslash in the name of its directory. -/
def slashedMember : Tree := Tree.ofFiles [
  (["r", "b\\c", "package.json"], (Json.object [("name", .string "x")]).compact),
  (["r", "package.json"], (Json.object [("dependencies", .object [("x", .string "*")]),
    ("workspaces", .array [.string "*"])]).compact)]

/-- The root of that workspace. -/
def slashedRoot : Context := .root (.fresh ⟨"/r"⟩)

/-- The text of a template is refused where the template itself is taken, if it is nested too deep,
and a reference to a directory with a backslash leads somewhere else. -/
theorem deepTemplate_refused :
    slashedMember.Plain ∧ slashedRoot.dir.Plain ∧ slashedRoot.workspaceDir = .ok ⟨"/r"⟩ ∧
      slashedRoot.Coherent slashedMember ∧
      Workspace.memberDirs slashedMember ⟨"/r"⟩ = .ok [⟨"/r/b\\c"⟩] ∧
      (∃ m, Package.load slashedMember slashedRoot.dir = .ok m ∧ dependedOn m = ["x"]) ∧
      (Json.object deepTemplate).floatFree = true ∧
    (∃ o text, readFrom (.object [("template", .object deepTemplate)]) = .ok o ∧
      (o.expected.run slashedMember slashedRoot).1 = .ok (some text)) ∧
    (∃ fault, readFrom (.object [("template", .string (Json.object deepTemplate).compact)]) =
      .error (.invalidTemplate "template" fault)) ∧
    ((render [] .empty).run slashedMember slashedRoot).1 =
      .ok (Json.object [("references", .array [.object [("path", .string "b/c")]])]).canonical ∧
    (Path.join ⟨"/r"⟩ ⟨"b/c"⟩).normalize ≠ ⟨"/r/b\\c"⟩ := by
  have plain : slashedMember.Plain := Tree.plain_ofFiles (by decide +kernel)
  have members : Workspace.memberDirs slashedMember ⟨"/r"⟩ = .ok [⟨"/r/b\\c"⟩] :=
    eq_ok_of_toOption_eq (by decide +kernel)
  have loads : (Package.load slashedMember slashedRoot.dir).toOption.map dependedOn =
      some ["x"] := by decide +kernel
  obtain ⟨m, loaded, names⟩ := Option.map_eq_some_iff.1 loads
  have taken : readFrom (.object [("template", .object deepTemplate)]) =
      .ok ⟨.template deepTemplate, .empty⟩ := rfl
  have inside : slashedRoot.opened.workspaceDir = .ok ⟨"/r"⟩ := rfl
  have some : (referencesIn slashedMember ⟨"/r"⟩ slashedRoot.opened.dir .empty).toOption.isSome =
      true := by decide +kernel
  obtain ⟨refs, found⟩ := Option.isSome_iff_exists.1 some
  have expected := (comesTo_template inside deepTemplate .empty slashedRoot
    (slashedRoot.coherent_renewed slashedMember) rfl).1
  rw [eq_ok_of_toOption_eq found] at expected
  have unread : (Json.Reader.document (Json.object deepTemplate).compactChars).isOk = false := by
    decide +kernel
  have noText : ¬ IsObjectText (Json.object deepTemplate).compact := by
    rintro ⟨ms, parsed⟩
    rw [Json.parse, Json.compact, String.toList_ofList, mapError_eq_ok_iff] at parsed
    rw [parsed] at unread
    cases unread
  have fit : Fit none := fun _ none => by cases none
  have refused := readFrom_of_badTemplate ⟨_, none, ⟨_, rfl, .refl _⟩, noText, fit⟩
  have slashes : ((render [] .empty).run slashedMember slashedRoot).1 =
      .ok (Json.object [("references", .array [.object [("path", .string "b/c")]])]).canonical :=
    eq_ok_of_toOption_eq (by decide +kernel)
  exact ⟨plain, ⟨["r"], by decide +kernel, rfl⟩, rfl, slashedRoot.coherent_renewed slashedMember,
    members, ⟨m, eq_ok_of_toOption_eq loaded, names⟩, by decide +kernel,
    ⟨_, _, taken, expected⟩, refused, slashes, by decide +kernel⟩

end StandardTsconfig

end WorkspaceLint
