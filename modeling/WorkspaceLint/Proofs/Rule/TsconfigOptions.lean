import WorkspaceLint.Proofs.Rule.Options

/-!
# Which options the standard tsconfig takes

The template of a `tsconfig.json` is an object, the text of one, or the path of a file, and beside
it there may be a list of patterns.  Only a template that is a text but not the text of an object
is refused as a template; everything else that is refused is told as a fault of the options.
-/

namespace WorkspaceLint

open Schema

namespace StandardTsconfig

/-! ## The shape of the options -/

/-- A member that says where the contents come from, and the options it is read as. -/
inductive Given : String × Json → Written → Prop where
  | object (template : Members) :
      Given ("template", .object template) ⟨some (.object template), none, .empty⟩
  | text (text : String) : Given ("template", .string text) ⟨some (.string text), none, .empty⟩
  | file (path : String) : Given ("template_file", .string path) ⟨none, some ⟨path⟩, .empty⟩

/-- The member that lists patterns, if they are given. -/
def patternsMember (patterns : Option (List String)) : Members :=
  (patterns.map fun sources => ("excluded_references", PatternSet.listed sources)).toList

/-- An object of a source and perhaps a list of patterns, in some order. -/
def Shaped (source : String × Json) (patterns : Option (List String)) (v : Json) : Prop :=
  ∃ ms, v = .object ms ∧ ms.Perm (source :: patternsMember patterns)

/-- The given patterns can all be read. -/
def Fit (patterns : Option (List String)) : Prop :=
  ∀ sources, patterns = some sources → PatternSet.Readable sources

/-- A text is the JSON text of an object. -/
def IsObjectText (text : String) : Prop := ∃ ms, Json.parse text = .ok (.object ms)

/-- A source that a template can be had from. -/
inductive Usable : String × Json → Prop where
  | object (template : Members) : Usable ("template", .object template)
  | text {text : String} (object : IsObjectText text) : Usable ("template", .string text)
  | file (path : String) : Usable ("template_file", .string path)

/-- The documented options: a usable source, and perhaps patterns that can be read. -/
def Documented (v : Json) : Prop :=
  ∃ source patterns, Shaped source patterns v ∧ Usable source ∧ Fit patterns

/-- Options that would be documented ones but for a template that is no object's text. -/
def BadTemplate (v : Json) : Prop :=
  ∃ text patterns, Shaped ("template", .string text) patterns v ∧ ¬ IsObjectText text ∧
    Fit patterns

theorem given_of_usable {source : String × Json} (h : Usable source) :
    ∃ w, Given source w := by
  cases h with
  | object template => exact ⟨_, .object template⟩
  | text object => exact ⟨_, .text _⟩
  | file path => exact ⟨_, .file path⟩

theorem isObjectText_of_usable {source : String × Json} {text : String} (h : Usable source)
    (same : source = ("template", .string text)) : IsObjectText text := by
  cases h with
  | object template => exact nomatch congrArg Prod.snd same
  | text object => exact Json.string.inj (congrArg Prod.snd same) ▸ object
  | file path => exact absurd (congrArg Prod.fst same) (by decide : "template_file" ≠ "template")

/-! ## The schema -/

/-- The schema of the options, read. -/
def readSchema : Schema :=
  .keywords [.object] []
    [("template", .keywords [.object, .string] [] [] false [] [] []),
      ("template_file", .keywords [.string] [] [] false [] [] []),
      ("excluded_references",
        .keywords [.array] [] [] false [] [.keywords [.string] [] [] false [] [] []] [])]
    true [] []
    [.keywords [] ["template"] [] false [] [] [], .keywords [] ["template_file"] [] false [] [] []]

theorem ofJson_schema : Schema.ofJson kind.schema = .ok readSchema := rfl

theorem nodup_keys {source : String × Json} {w : Written} (h : Given source w)
    (patterns : Option (List String)) :
    (Members.keys (source :: patternsMember patterns)).Nodup := by
  rcases patterns with _ | sources <;> cases h <;> simp [patternsMember, Members.keys]

theorem allows_of_shaped {source : String × Json} {w : Written} {patterns : Option (List String)}
    {v : Json} (given : Given source w) (shaped : Shaped source patterns v) :
    readSchema.Allows v := by
  obtain ⟨ms, rfl, members⟩ := shaped
  refine allows_of_perm members ?_ ?_ nofun (.inr ?_)
  · intro e he s found
    rcases List.mem_cons.1 he with rfl | listed
    · cases given with
      | object t =>
        rw [← Option.some.inj found]
        exact allows_objectOrString_iff.2 (.inl ⟨t, rfl⟩)
      | text t =>
        rw [← Option.some.inj found]
        exact allows_objectOrString_iff.2 (.inr ⟨t, rfl⟩)
      | file p =>
        rw [← Option.some.inj found]
        exact allows_string_iff.2 ⟨p, rfl⟩
    · obtain ⟨sources, -, rfl⟩ := Option.map_eq_some_iff.1 (Option.mem_toList.1 listed)
      rw [← Option.some.inj found]
      exact allows_stringList_iff.2 ⟨sources, rfl⟩
  · rcases patterns with _ | sources <;> cases given <;> simp [patternsMember, Members.keys]
  · rw [allowedBy_having_iff, ← Bool.not_eq_true, ← Bool.not_eq_true,
      Members.contains_perm members, Members.contains_perm members]
    rcases patterns with _ | sources <;> cases given <;> simp [patternsMember, Members.keys]

/-- The schema leaves open whether a key is repeated, whether a text is an object's and whether the
patterns can be read. -/
theorem cases_of_allows {v : Json} (allowed : readSchema.Allows v) :
    (∃ source w patterns, Given source w ∧ Shaped source patterns v) ∨
      ∃ ms, v = .object ms ∧ ¬ (Members.keys ms).Nodup := by
  obtain ⟨ms, rfl, own, known, -, one⟩ := allows_closed_iff.1 allowed
  refine or_iff_not_imp_right.2 fun repeated => ?_
  have nodup : (Members.keys ms).Nodup := by
    by_contra twice
    exact repeated ⟨ms, rfl, twice⟩
  obtain ⟨source, w, given, there, only⟩ : ∃ source w, Given source w ∧
      Members.get? source.1 ms = some source.2 ∧
      ∀ key ∈ Members.keys ms, key = source.1 ∨ key = "excluded_references" := by
    rcases allowedBy_having_iff.1 (one.resolve_left (by simp)) with
      ⟨here, without⟩ | ⟨without, here⟩
    · have only (key : String) (there : key ∈ Members.keys ms) :
          key = "template" ∨ key = "excluded_references" := by
        have other := Members.ne_of_absent without there
        have := known key there
        simp only [List.map_cons, List.map_nil, List.mem_cons, List.not_mem_nil, or_false] at this
        tauto
      obtain ⟨_, found, typed⟩ := Members.exists_allowed own "template" rfl here
      rcases allows_objectOrString_iff.1 typed with ⟨t, rfl⟩ | ⟨t, rfl⟩
      · exact ⟨_, _, .object t, found, only⟩
      · exact ⟨_, _, .text t, found, only⟩
    · have only (key : String) (there : key ∈ Members.keys ms) :
          key = "template_file" ∨ key = "excluded_references" := by
        have other := Members.ne_of_absent without there
        have := known key there
        simp only [List.map_cons, List.map_nil, List.mem_cons, List.not_mem_nil, or_false] at this
        tauto
      obtain ⟨_, found, typed⟩ := Members.exists_allowed own "template_file" rfl here
      obtain ⟨p, rfl⟩ := allows_string_iff.1 typed
      exact ⟨_, _, .file p, found, only⟩
  by_cases listed : Members.contains "excluded_references" ms = true
  · obtain ⟨_, found, typed⟩ := Members.exists_allowed own "excluded_references" rfl listed
    obtain ⟨sources, rfl⟩ := allows_stringList_iff.1 typed
    refine ⟨source, w, some sources, given, ms, rfl,
      Members.perm_of_get? nodup (nodup_keys given _) ?_ ?_⟩
    · intro key hkey
      simpa [Members.keys, patternsMember] using only key hkey
    · simp [patternsMember, there, found, PatternSet.listed]
  · rw [Bool.not_eq_true] at listed
    refine ⟨source, w, none, given, ms, rfl,
      Members.perm_of_get? nodup (nodup_keys given _) ?_ ?_⟩
    · intro key hkey
      have := (only key hkey).resolve_right (Members.ne_of_absent listed hkey)
      simpa [Members.keys, patternsMember] using this
    · simp [patternsMember, there]

/-! ## Reading -/

theorem ofJson_alone {source : String × Json} {w : Written} (h : Given source w) :
    Written.record.decoder.ofJson (.object [source]) = .ok w := by
  cases h <;> rfl

theorem ofJson_before {source : String × Json} {w : Written} (h : Given source w) (v : Json) :
    Written.record.decoder.ofJson (.object [source, ("excluded_references", v)]) =
      (PatternSet.decoder.ofJson v).map fun patterns => { w with excluded := patterns } := by
  cases h <;>
  · show Written.record.ofMembers Written.record.blank [] _ = _
    rw [Json.Decoder.Record.ofMembers_cons rfl rfl]
    show Written.record.ofMembers _ _ _ = _
    rw [Json.Decoder.Record.ofMembers_cons rfl rfl]
    show (PatternSet.decoder.ofJson v).map _ >>= _ = _
    rcases PatternSet.decoder.ofJson v with m | patterns <;> rfl

theorem ofJson_after {source : String × Json} {w : Written} (h : Given source w) (v : Json) :
    Written.record.decoder.ofJson (.object [("excluded_references", v), source]) =
      (PatternSet.decoder.ofJson v).map fun patterns => { w with excluded := patterns } := by
  show Written.record.ofMembers Written.record.blank [] _ = _
  rw [Json.Decoder.Record.ofMembers_cons rfl rfl]
  show (PatternSet.decoder.ofJson v).map _ >>= _ = _
  rcases PatternSet.decoder.ofJson v with m | patterns
  · rfl
  · cases h <;> rfl

/-- What has the shape of options is read, unless some pattern cannot be. -/
theorem readOptions_shaped {source : String × Json} {w : Written}
    {patterns : Option (List String)} {v : Json} (given : Given source w)
    (shaped : Shaped source patterns v) :
    (Fit patterns ∧ ∃ excluded,
        readOptions info.name Written.record.decoder v = .ok { w with excluded }) ∨
      ¬ Fit patterns ∧ ∃ m,
        readOptions info.name Written.record.decoder v =
          .error (.invalidOptions info.name [.mismatch m]) := by
  obtain ⟨ms, rfl, members⟩ := shaped
  rcases patterns with _ | sources
  · obtain rfl := List.perm_singleton.1 members
    refine .inl ⟨nofun, w.excluded, ?_⟩
    rw [readOptions, ofJson_alone given]
    rfl
  · have fit : Fit (some sources) ↔ PatternSet.Readable sources :=
      ⟨fun h => h _ rfl, fun h _ same => Option.some.inj same ▸ h⟩
    have read : readOptions info.name Written.record.decoder (.object ms) =
        ((PatternSet.decoder.ofJson (PatternSet.listed sources)).map fun excluded =>
          { w with excluded }).mapError fun m => .invalidOptions info.name [.mismatch m] := by
      rcases perm_pair members with rfl | rfl
      · rw [readOptions, ofJson_before given]
      · rw [readOptions, ofJson_after given]
    rw [fit, read]
    rcases PatternSet.ofJson_listed sources with ⟨readable, excluded, ok⟩ | ⟨bad, m, refused⟩
    · rw [ok]
      exact .inl ⟨readable, excluded, rfl⟩
    · rw [refused]
      exact .inr ⟨bad, m, rfl⟩

/-- A template is had from what is an object or the text of one. -/
theorem readTemplate_text (text : String) :
    (IsObjectText text ∧ ∃ ms, readTemplate (.string text) = .ok ms) ∨
      ¬ IsObjectText text ∧ ∃ fault,
        readTemplate (.string text) = .error (.invalidTemplate "template" fault) := by
  have read : readTemplate (.string text) =
      ((Json.parse text).mapError fun e => .invalidTemplate "template" (.syntaxError e)) >>=
        templateObject "template" := rfl
  rw [IsObjectText, read]
  rcases Json.parse text with e | v
  · exact .inr ⟨nofun, _, rfl⟩
  · cases v with
    | object ms => exact .inl ⟨⟨ms, rfl⟩, ms, rfl⟩
    | _ => exact .inr ⟨nofun, _, rfl⟩

/-- The source that options were written with. -/
theorem readFrom_of_readOptions {source : String × Json} {w : Written} {v : Json}
    {excluded : PatternSet} (given : Given source w)
    (read : readOptions info.name Written.record.decoder v = .ok { w with excluded }) :
    (Usable source ∧ ∃ o, readFrom v = .ok o) ∨
      ∃ text, source = ("template", .string text) ∧ ¬ IsObjectText text ∧ ∃ fault,
        readFrom v = .error (.invalidTemplate "template" fault) := by
  unfold readFrom
  rw [read]
  cases given with
  | object t => exact .inl ⟨.object t, _, rfl⟩
  | file p => exact .inl ⟨.file p, _, rfl⟩
  | text t =>
    rcases readTemplate_text t with ⟨object, ms, ok⟩ | ⟨other, fault, refused⟩
    · refine .inl ⟨.text object, ⟨.template ms, excluded⟩, ?_⟩
      show (readTemplate (.string t) >>= _) = _
      rw [ok]
      rfl
    · refine .inr ⟨t, rfl, other, fault, ?_⟩
      show (readTemplate (.string t) >>= _) = _
      rw [refused]
      rfl

/-! ## Both gates -/

theorem readFrom_of_documented {v : Json} (h : Documented v) : ∃ o, readFrom v = .ok o := by
  obtain ⟨source, patterns, shaped, usable, fit⟩ := h
  obtain ⟨w, given⟩ := given_of_usable usable
  obtain ⟨-, excluded, read⟩ := (readOptions_shaped given shaped).resolve_right fun h => h.1 fit
  rcases readFrom_of_readOptions given read with ⟨-, ok⟩ | ⟨text, rfl, other, -⟩
  · exact ok
  · exact absurd (isObjectText_of_usable usable rfl) other

theorem readFrom_of_badTemplate {v : Json} (h : BadTemplate v) :
    ∃ fault, readFrom v = .error (.invalidTemplate "template" fault) := by
  obtain ⟨text, patterns, shaped, other, fit⟩ := h
  obtain ⟨-, excluded, read⟩ :=
    (readOptions_shaped (.text text) shaped).resolve_right fun h => h.1 fit
  rcases readFrom_of_readOptions (.text text) read with ⟨usable, -⟩ | ⟨_, -, -, told⟩
  · exact absurd (isObjectText_of_usable usable rfl) other
  · exact told

theorem follows : kind.Follows Documented BadTemplate := by
  refine RuleKind.follows_of_gates ofJson_schema ?_ ?_ ?_
  · intro v allowed
    rcases cases_of_allows allowed with ⟨source, w, patterns, given, shaped⟩ | ⟨ms, rfl, repeated⟩
    · rcases readOptions_shaped given shaped with ⟨fit, excluded, read⟩ | ⟨-, m, told⟩
      · rcases readFrom_of_readOptions given read with
          ⟨usable, o, ok⟩ | ⟨text, rfl, other, fault, told⟩
        · refine .inl ⟨⟨source, patterns, shaped, usable, fit⟩, check o, ?_⟩
          simp only [kind, ok]
          rfl
        · refine .inr (.inl ⟨⟨text, patterns, shaped, other, fit⟩, fault, ?_⟩)
          simp only [kind, told]
          rfl
      · refine .inr (.inr ⟨m, ?_⟩)
        simp only [kind, readFrom, told]
        rfl
    · obtain ⟨m, told⟩ := exists_mismatch_of_repeated (r := Written.record) rfl info.name repeated
      refine .inr (.inr ⟨m, ?_⟩)
      simp only [kind, readFrom, told]
      rfl
  · intro v documented
    obtain ⟨o, ok⟩ := readFrom_of_documented documented
    obtain ⟨source, patterns, shaped, usable, -⟩ := documented
    obtain ⟨w, given⟩ := given_of_usable usable
    refine ⟨allows_of_shaped given shaped, check o, ?_⟩
    simp only [kind, ok]
    rfl
  · intro v poor
    obtain ⟨fault, told⟩ := readFrom_of_badTemplate poor
    obtain ⟨text, patterns, shaped, -⟩ := poor
    refine ⟨allows_of_shaped (.text text) shaped, fault, ?_⟩
    simp only [kind, told]
    rfl

end StandardTsconfig

/-! ## The registry -/

namespace RuleKind

/-- The documented options of the rules, by their names. -/
def Documented (name : String) (v : Json) : Prop :=
  name = "consistent-dependencies" ∧ v = .null ∨
    name = "banned-dependencies" ∧ BannedDependencies.Documented v ∨
    name = "file-contents" ∧ FileContents.Documented v ∨
    name = "standard-tsconfig" ∧ StandardTsconfig.Documented v

/-- Options of a rule that are refused for a template that is no object's text. -/
def BadTemplate (name : String) (v : Json) : Prop :=
  name = "standard-tsconfig" ∧ StandardTsconfig.BadTemplate v

theorem cases_of_ofName? {name : String} {kind : RuleKind} (found : ofName? name = some kind) :
    kind.info.name = name ∧ kind ∈ all := by
  have same := List.find?_some found
  exact ⟨of_decide_eq_true same, List.mem_of_find?_eq_some found⟩

/-- Each registered kind of rule follows its documentation. -/
theorem follows_of_mem {kind : RuleKind} (registered : kind ∈ all) :
    kind.Follows (Documented kind.info.name) (BadTemplate kind.info.name) := by
  have other {name : String} (h : name ≠ "standard-tsconfig") (v : Json) :
      False ↔ BadTemplate name v := ⟨False.elim, fun bad => h bad.1⟩
  simp only [all, List.mem_cons, List.not_mem_nil, or_false] at registered
  rcases registered with rfl | rfl | rfl | rfl
  · exact BannedDependencies.follows.congr
      (fun v => by simp [Documented, BannedDependencies.kind, BannedDependencies.ruleName])
      (other (by decide))
  · exact ConsistentDependencies.follows.congr
      (fun v => by simp [Documented, ConsistentDependencies.kind]) (other (by decide))
  · exact FileContents.follows.congr
      (fun v => by simp [Documented, FileContents.kind, FileContents.info]) (other (by decide))
  · exact StandardTsconfig.follows.congr
      (fun v => by simp [Documented, StandardTsconfig.kind, StandardTsconfig.info])
      (fun v => ⟨fun bad => ⟨rfl, bad⟩, fun bad => bad.2⟩)

/-- Binding accepts the documented options of each rule and no others.  What is refused is refused
as options, apart from a template that is not the text of an object, and the reader of options never
finds two sources or none in what the schema lets through. -/
theorem bindNamed_documented (name : String) (options : Option Json) :
    ((bindNamed name options).isOk = true ↔ Documented name (options.getD .null)) ∧
      ((∃ fault, bindNamed name options = .error (.invalidTemplate "template" fault)) ↔
        BadTemplate name (options.getD .null)) ∧
      ∀ kind, ofName? name = some kind →
        (∀ e, bindNamed name options = .error e →
          (∃ faults, e = .invalidOptions name faults) ∨
            ∃ fault, e = .invalidTemplate "template" fault) ∧
        (validateOptions name kind.schema (options.getD .null) = .ok () →
          ∀ rule, kind.checkFor (options.getD .null) ≠
            .error (.invalidOptions rule [.noSingleSource])) := by
  unfold bindNamed
  rcases found : ofName? name with _ | kind
  · have unknown {v : Json} : ¬ Documented name v := by
      rintro (⟨rfl, -⟩ | ⟨rfl, -⟩ | ⟨rfl, -⟩ | ⟨rfl, -⟩) <;> exact nomatch found
    refine ⟨⟨nofun, fun h => absurd h unknown⟩, ⟨nofun, ?_⟩, nofun⟩
    rintro ⟨rfl, -⟩
    exact nomatch found
  · obtain ⟨rfl, registered⟩ := cases_of_ofName? found
    have follows := follows_of_mem registered
    refine ⟨follows.accepts options, follows.template options, ?_⟩
    intro kind' same
    obtain rfl := Option.some.inj same
    exact ⟨follows.refuses options, follows.single _⟩

end RuleKind

end WorkspaceLint
