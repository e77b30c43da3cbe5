import Mathlib.Data.List.Nodup
import Mathlib.Tactic.Tauto
import WorkspaceLint.Proofs.Rule.Schemas
import WorkspaceLint.Proofs.Workspace.Caches
import WorkspaceLint.Rule.Registry

/-!
# Which options rules accept

Options go through two gates, a schema and a reader of records.  Each rule documents its options as
an object with certain members in any order, and the two gates together accept just these.  What
the schema allows and the reader refuses is an object with a repeated key or a pattern that cannot
be read; in no case is the reader left with two sources or none.
-/

namespace WorkspaceLint

open Schema

/-! ## Objects with known members -/

namespace Members

/-- An object has the members `es`, in some order, when it has no other keys, none twice, and gives
their values. -/
theorem perm_of_get? {ms es : Members} (nodup : (keys ms).Nodup) (nodup' : (keys es).Nodup)
    (known : ∀ key ∈ keys ms, key ∈ keys es) (there : ∀ e ∈ es, get? e.1 ms = some e.2) :
    ms.Perm es := by
  rw [List.perm_ext_iff_of_nodup (List.Nodup.of_map _ nodup) (List.Nodup.of_map _ nodup')]
  intro m
  constructor
  · intro hm
    obtain ⟨e, he, same⟩ := List.mem_map.1 (known m.1 (List.mem_map_of_mem hm))
    have value : some e.2 = some m.2 := by
      rw [← there e he, same]
      exact get?_of_mem nodup hm
    rwa [← Prod.ext same (Option.some.inj value)]
  · intro hm
    exact mem_of_get? (there m hm)

theorem get?_perm {ms es : Members} (order : ms.Perm es) (nodup : (keys es).Nodup) {key : String}
    {value : Json} : get? key ms = some value ↔ (key, value) ∈ es := by
  have nodup' : (keys ms).Nodup := (order.map _).nodup_iff.2 nodup
  rw [← order.mem_iff]
  exact ⟨mem_of_get?, get?_of_mem nodup'⟩

theorem contains_perm {ms es : Members} (order : ms.Perm es) {key : String} :
    contains key ms = true ↔ key ∈ keys es := by
  have keys : key ∈ keys ms ↔ key ∈ keys es := (order.map _).mem_iff
  rw [← keys, contains, Option.isSome_iff_ne_none, ne_eq, get?_eq_none_iff, not_not]

end Members

/-- The value of a member that is there is allowed by the schema of its key. -/
theorem Members.exists_allowed {ms : Members} {properties : List (String × Schema)} {s : Schema}
    (own : ∀ m ∈ ms, ∀ s, properties.lookup m.1 = some s → s.Allows m.2) (key : String)
    (known : properties.lookup key = some s) (there : contains key ms = true) :
    ∃ v, get? key ms = some v ∧ s.Allows v := by
  obtain ⟨v, found⟩ := Option.isSome_iff_exists.1 there
  exact ⟨v, found, own _ (mem_of_get? found) s known⟩

theorem Members.ne_of_absent {ms : Members} {key other : String}
    (without : contains other ms = false) (there : key ∈ keys ms) : key ≠ other := by
  rintro rfl
  rw [contains, Option.isSome_eq_false_iff, Option.isNone_iff_eq_none] at without
  exact get?_eq_none_iff.1 without there

theorem perm_pair {α : Type} {xs : List α} {a b : α} (h : xs.Perm [a, b]) :
    xs = [a, b] ∨ xs = [b, a] := by
  rcases xs with _ | ⟨x, _ | ⟨y, _ | ⟨z, rest⟩⟩⟩
  · exact absurd h.length_eq (by simp)
  · exact absurd h.length_eq (by simp)
  · have first : x = a ∨ x = b := by simpa using h.subset List.mem_cons_self
    rcases first with rfl | rfl
    · exact .inl (by rw [List.perm_singleton.1 ((List.perm_cons x).1 h).symm])
    · have rest := (List.perm_cons x).1 (h.trans (List.Perm.swap x a []))
      exact .inr (by rw [List.perm_singleton.1 rest.symm])
  · exact absurd h.length_eq (by simp)

/-- An object with the members `es` is allowed when its members are. -/
theorem Schema.allows_of_perm {ms es : Members} {required : List String}
    {properties : List (String × Schema)} {oneOf : List Schema} (order : ms.Perm es)
    (own : ∀ e ∈ es, ∀ s, properties.lookup e.1 = some s → s.Allows e.2)
    (known : ∀ key ∈ Members.keys es, key ∈ properties.map Prod.fst)
    (there : ∀ key ∈ required, key ∈ Members.keys es)
    (one : oneOf = [] ∨ allowedBy oneOf (.object ms) = 1) :
    (keywords [.object] required properties true [] [] oneOf).Allows (.object ms) := by
  refine allows_closed_iff.2 ⟨ms, rfl, ?_, ?_, ?_, one⟩
  · intro m hm
    exact own m (order.subset hm)
  · intro key hkey
    exact known key ((order.map _).subset hkey)
  · intro key hkey
    exact (Members.contains_perm order).2 (there key hkey)

/-- A record that knows all its fields is read from an object without repeated keys only. -/
theorem Json.Decoder.Record.nodup_of_ofMembers {ρ : Type} {r : Json.Decoder.Record ρ}
    (closed : r.closed = true) {a b : ρ} {seen : List String} {ms : Members}
    (h : r.ofMembers a seen ms = .ok b) :
    (Members.keys ms).Nodup ∧ ∀ key ∈ Members.keys ms, key ∉ seen := by
  induction ms generalizing a seen with
  | nil => exact ⟨List.nodup_nil, nofun⟩
  | cons m ms ih =>
    obtain ⟨key, v⟩ := m
    rw [ofMembers] at h
    rcases hf : r.find? key with _ | f <;> rw [hf] at h
    · simp [closed] at h
    · simp only at h
      split at h
      · cases h
      · rename_i new
        obtain ⟨set, -, rest⟩ := bind_eq_ok_iff.1 h
        obtain ⟨nodup, apart⟩ := ih rest
        rw [Bool.not_eq_true, List.contains_eq_mem, decide_eq_false_iff_not] at new
        refine ⟨List.nodup_cons.2 ⟨fun again => apart key again List.mem_cons_self, nodup⟩, ?_⟩
        intro k there
        rcases List.mem_cons.1 there with rfl | later
        · exact new
        · exact fun old => apart k later (List.mem_cons_of_mem _ old)

/-! ## Lists of patterns -/

namespace PatternSet

/-- All patterns of a list can be read. -/
def Readable (sources : List String) : Prop := ∀ s ∈ sources, (NameGlob.parse s).isOk = true

/-- A document that lists patterns. -/
def listed (sources : List String) : Json := .array (sources.map .string)

theorem isOk_parseAll_iff {sources : List String} :
    (parseAll sources).isOk = true ↔ Readable sources := by
  induction sources with
  | nil => exact ⟨fun _ _ => nofun, fun _ => rfl⟩
  | cons s ss ih =>
    simp only [Readable, List.forall_mem_cons]
    rw [← Readable, ← ih, parseAll, parseOne]
    rcases NameGlob.parse s with fault | g
    · exact ⟨nofun, fun h => nomatch h.1⟩
    · rcases parseAll ss with e | gs
      · exact ⟨nofun, fun h => nomatch h.2⟩
      · exact ⟨fun _ => ⟨rfl, rfl⟩, fun _ => rfl⟩

theorem itemsOfJson_strings (expected : String) (sources : List String) :
    Json.Decoder.itemsOfJson (Json.Decoder.string expected).ofJson (sources.map .string) =
      .ok sources := by
  induction sources with
  | nil => rfl
  | cons s ss ih =>
    rw [List.map_cons, Json.Decoder.itemsOfJson, ih]
    rfl

/-- Listed patterns are read when all of them can be, and refused otherwise. -/
theorem ofJson_listed (sources : List String) :
    (Readable sources ∧ ∃ patterns, decoder.ofJson (listed sources) = .ok patterns) ∨
      ¬ Readable sources ∧ ∃ m, decoder.ofJson (listed sources) = .error m := by
  have read : decoder.ofJson (listed sources) =
      (ofList sources).mapError fun e => Json.Mismatch.told e.message := by
    show (Json.Decoder.itemsOfJson (Json.Decoder.string "a string").ofJson
      (sources.map .string)).bind _ = _
    rw [itemsOfJson_strings]
    rfl
  rw [read, ofList, ← isOk_parseAll_iff]
  rcases parseAll sources with e | gs
  · exact .inr ⟨nofun, _, rfl⟩
  · exact .inl ⟨rfl, _, rfl⟩

end PatternSet

/-! ## The two gates -/

theorem validateOptions_eq_ok_iff {rule : String} {schema v : Json} {s : Schema}
    (read : Schema.ofJson schema = .ok s) :
    validateOptions rule schema v = .ok () ↔ s.Allows v := by
  unfold validateOptions Schema.Allows
  rw [read]
  simp only
  split
  · rename_i none
    exact ⟨fun _ => none, fun _ => rfl⟩
  · rename_i vs some
    exact ⟨nofun, fun none => absurd none some⟩

/-- What a schema does not allow is told as violations. -/
theorem exists_violations_of_validateOptions {rule : String} {schema v : Json} {s : Schema}
    (read : Schema.ofJson schema = .ok s) {e : ConfigError}
    (refused : validateOptions rule schema v = .error e) :
    ∃ vs : List Violation, e = .invalidOptions rule (vs.map .violation) := by
  unfold validateOptions at refused
  rw [read] at refused
  simp only at refused
  split at refused
  · cases refused
  · exact ⟨_, (Except.error.inj refused).symm⟩

namespace RuleKind

/-- The options of a kind of rule are the documented ones.  Others are refused as options, but for
those with a `bad` template, and never for a lack of a single source that the schema let through. -/
structure Follows (kind : RuleKind) (documented bad : Json → Prop) : Prop where
  accepts : ∀ options, (kind.bind options).isOk = true ↔ documented (options.getD .null)
  template : ∀ options, (∃ fault, kind.bind options = .error (.invalidTemplate "template" fault)) ↔
    bad (options.getD .null)
  refuses : ∀ options e, kind.bind options = .error e →
    (∃ faults, e = .invalidOptions kind.info.name faults) ∨
      ∃ fault, e = .invalidTemplate "template" fault
  single : ∀ v, validateOptions kind.info.name kind.schema v = .ok () →
    ∀ rule, kind.checkFor v ≠ .error (.invalidOptions rule [.noSingleSource])

variable {kind : RuleKind} {s : Schema} {documented bad : Json → Prop}

theorem Follows.congr {documented' bad' : Json → Prop} (h : kind.Follows documented bad)
    (same : ∀ v, documented v ↔ documented' v) (same' : ∀ v, bad v ↔ bad' v) :
    kind.Follows documented' bad' := by
  obtain rfl : documented = documented' := funext fun v => propext (same v)
  obtain rfl : bad = bad' := funext fun v => propext (same' v)
  exact h

/-- The options that pass the schema are bound to what the second gate makes of them. -/
theorem bind_of_allows (read : Schema.ofJson kind.schema = .ok s) {options : Option Json}
    (allowed : s.Allows (options.getD .null)) :
    kind.bind options = (kind.checkFor (options.getD .null)).map (Rule.mk kind.info) := by
  have passed : validateOptions kind.info.name kind.schema (options.getD .null) = .ok () :=
    (validateOptions_eq_ok_iff read).2 allowed
  unfold bind
  simp only
  rw [passed]
  rcases kind.checkFor (options.getD .null) with e | check <;> rfl

theorem bind_of_not_allows (read : Schema.ofJson kind.schema = .ok s) {options : Option Json}
    (refused : ¬ s.Allows (options.getD .null)) :
    ∃ vs : List Violation,
      kind.bind options = .error (.invalidOptions kind.info.name (vs.map .violation)) := by
  rcases h : validateOptions kind.info.name kind.schema (options.getD .null) with e | ⟨⟩
  · obtain ⟨vs, rfl⟩ := exists_violations_of_validateOptions read h
    refine ⟨vs, ?_⟩
    unfold bind
    simp only
    rw [h]
    rfl
  · exact absurd ((validateOptions_eq_ok_iff read).1 h) refused

/-- What binding comes to, from what the second gate makes of the options that the first lets
through. -/
theorem bind_cases (read : Schema.ofJson kind.schema = .ok s)
    (cases : ∀ v, s.Allows v →
      (documented v ∧ ∃ check, kind.checkFor v = .ok check) ∨
        (bad v ∧ ∃ fault, kind.checkFor v = .error (.invalidTemplate "template" fault)) ∨
        ∃ m, kind.checkFor v = .error (.invalidOptions kind.info.name [.mismatch m]))
    (options : Option Json) :
    (documented (options.getD .null) ∧ ∃ rule, kind.bind options = .ok rule) ∨
      (bad (options.getD .null) ∧
        ∃ fault, kind.bind options = .error (.invalidTemplate "template" fault)) ∨
      ∃ faults, kind.bind options = .error (.invalidOptions kind.info.name faults) := by
  by_cases allowed : s.Allows (options.getD .null)
  · rw [bind_of_allows read allowed]
    rcases cases _ allowed with ⟨fine, check, ok⟩ | ⟨poor, fault, told⟩ | ⟨m, told⟩
    · rw [ok]
      exact .inl ⟨fine, _, rfl⟩
    · rw [told]
      exact .inr (.inl ⟨poor, fault, rfl⟩)
    · rw [told]
      exact .inr (.inr ⟨_, rfl⟩)
  · obtain ⟨vs, told⟩ := bind_of_not_allows read allowed
    exact .inr (.inr ⟨_, told⟩)

/-- It is enough to know what the second gate makes of the options that the first lets through. -/
theorem follows_of_gates (read : Schema.ofJson kind.schema = .ok s)
    (cases : ∀ v, s.Allows v →
      (documented v ∧ ∃ check, kind.checkFor v = .ok check) ∨
        (bad v ∧ ∃ fault, kind.checkFor v = .error (.invalidTemplate "template" fault)) ∨
        ∃ m, kind.checkFor v = .error (.invalidOptions kind.info.name [.mismatch m]))
    (accepted : ∀ v, documented v → s.Allows v ∧ ∃ check, kind.checkFor v = .ok check)
    (refused : ∀ v, bad v →
      s.Allows v ∧ ∃ fault, kind.checkFor v = .error (.invalidTemplate "template" fault)) :
    kind.Follows documented bad where
  accepts options := by
    constructor
    · intro ok
      rcases bind_cases read cases options with ⟨fine, -⟩ | ⟨-, fault, told⟩ | ⟨faults, told⟩
      · exact fine
      · rw [told] at ok
        cases ok
      · rw [told] at ok
        cases ok
    · intro fine
      obtain ⟨allowed, check, ok⟩ := accepted _ fine
      rw [bind_of_allows read allowed, ok]
      rfl
  template options := by
    constructor
    · rintro ⟨fault, told⟩
      rcases bind_cases read cases options with ⟨-, rule, ok⟩ | ⟨poor, -⟩ | ⟨faults, other⟩
      · rw [ok] at told
        cases told
      · exact poor
      · rw [other] at told
        cases told
    · intro poor
      obtain ⟨allowed, fault, told⟩ := refused _ poor
      refine ⟨fault, ?_⟩
      rw [bind_of_allows read allowed, told]
      rfl
  refuses options e told := by
    rcases bind_cases read cases options with ⟨-, rule, ok⟩ | ⟨-, fault, other⟩ | ⟨faults, other⟩
    · rw [ok] at told
      cases told
    · rw [other] at told
      exact .inr ⟨fault, (Except.error.inj told).symm⟩
    · rw [other] at told
      exact .inl ⟨faults, (Except.error.inj told).symm⟩
  single v passed rule told := by
    rcases cases v ((validateOptions_eq_ok_iff read).1 passed) with
      ⟨-, check, ok⟩ | ⟨-, fault, other⟩ | ⟨m, other⟩
    · rw [ok] at told
      cases told
    · rw [other] at told
      cases told
    · rw [other] at told
      cases told

end RuleKind

/-- A field that was not read before is read and set, and then the other members. -/
theorem Json.Decoder.Record.ofMembers_cons {ρ : Type} {r : Json.Decoder.Record ρ}
    {f : Json.Decoder.Field ρ} {a : ρ} {seen : List String} {key : String} {v : Json} {ms : Members}
    (found : r.find? key = some f) (new : seen.contains key = false) :
    r.ofMembers a seen ((key, v) :: ms) =
      f.ofJson v >>= fun set => r.ofMembers (set a) (key :: seen) ms := by
  rw [ofMembers, found]
  simp only [new, Bool.false_eq_true, if_false]

/-- An object with a repeated key is refused by a record that knows all its fields. -/
theorem exists_mismatch_of_repeated {ρ : Type} {r : Json.Decoder.Record ρ}
    (closed : r.closed = true) (rule : String) {ms : Members}
    (repeated : ¬ (Members.keys ms).Nodup) :
    ∃ m, readOptions rule r.decoder (.object ms) = .error (.invalidOptions rule [.mismatch m]) := by
  unfold readOptions
  show ∃ m, (r.ofMembers r.blank [] ms).mapError _ = _
  rcases h : r.ofMembers r.blank [] ms with m | a
  · exact ⟨m, rfl⟩
  · exact absurd (Json.Decoder.Record.nodup_of_ofMembers closed h).1 repeated

/-! ## Consistent dependencies -/

/-- No options are documented. -/
theorem ConsistentDependencies.follows : kind.Follows (· = .null) fun _ => False := by
  have read : Schema.ofJson kind.schema = .ok (.keywords [.null] [] [] false [] [] []) := rfl
  refine RuleKind.follows_of_gates read ?_ ?_ nofun
  · intro v allowed
    exact .inl ⟨allows_null_iff.1 allowed, check, rfl⟩
  · rintro v rfl
    exact ⟨allows_null_iff.2 rfl, check, rfl⟩

/-! ## Banned dependencies -/

namespace BannedDependencies

/-- The documented options: nothing but a list of patterns. -/
def Documented (v : Json) : Prop :=
  ∃ sources, PatternSet.Readable sources ∧
    v = .object [("banned_dependencies", PatternSet.listed sources)]

/-- The schema of the options, read. -/
def readSchema : Schema :=
  .keywords [.object] ["banned_dependencies"]
    [("banned_dependencies",
      .keywords [.array] [] [] false [] [.keywords [.string] [] [] false [] [] []] [])]
    true [] [] []

theorem ofJson_schema : Schema.ofJson kind.schema = .ok readSchema := rfl

/-- The schema leaves open whether the patterns can be read and whether the key is repeated. -/
theorem cases_of_allows {v : Json} (allowed : readSchema.Allows v) :
    ∃ ms, v = .object ms ∧ ((¬ (Members.keys ms).Nodup) ∨
      ∃ sources, ms = [("banned_dependencies", PatternSet.listed sources)]) := by
  obtain ⟨ms, rfl, own, known, required, -⟩ := allows_closed_iff.1 allowed
  refine ⟨ms, rfl, or_iff_not_imp_left.2 fun nodup => ?_⟩
  obtain ⟨v, found, list⟩ := Members.exists_allowed own "banned_dependencies" rfl
    (required _ (by simp))
  obtain ⟨sources, rfl⟩ := allows_stringList_iff.1 list
  refine ⟨sources, List.perm_singleton.1
    (Members.perm_of_get? (not_not.1 nodup) (by simp [Members.keys]) known ?_)⟩
  intro e he
  rw [List.mem_singleton.1 he]
  exact found

theorem allows_of_documented {v : Json} (h : Documented v) : readSchema.Allows v := by
  obtain ⟨sources, -, rfl⟩ := h
  refine allows_of_perm (List.Perm.refl _) ?_ (fun key there => there) (fun key there => there)
    (.inl rfl)
  intro m hm s found
  rw [List.mem_singleton.1 hm] at found ⊢
  rw [← Option.some.inj found]
  exact allows_stringList_iff.2 ⟨sources, rfl⟩

theorem ofJson_options (sources : List String) :
    options.decoder.ofJson (.object [("banned_dependencies", PatternSet.listed sources)]) =
      PatternSet.decoder.ofJson (PatternSet.listed sources) := by
  show options.ofMembers options.blank [] _ = _
  rw [Json.Decoder.Record.ofMembers_cons rfl rfl]
  show (PatternSet.decoder.ofJson (PatternSet.listed sources)).map _ >>= _ = _
  rcases PatternSet.decoder.ofJson (PatternSet.listed sources) with m | patterns <;> rfl

theorem follows : kind.Follows Documented fun _ => False := by
  refine RuleKind.follows_of_gates ofJson_schema ?_ ?_ nofun
  · intro v allowed
    obtain ⟨ms, rfl, repeated | ⟨sources, rfl⟩⟩ := cases_of_allows allowed
    · obtain ⟨m, told⟩ := exists_mismatch_of_repeated (r := options) rfl ruleName repeated
      refine .inr (.inr ⟨m, ?_⟩)
      simp only [kind, told]
      rfl
    · rcases PatternSet.ofJson_listed sources with ⟨readable, patterns, ok⟩ | ⟨-, m, told⟩
      · refine .inl ⟨⟨sources, readable, rfl⟩, check patterns, ?_⟩
        simp only [kind, readOptions, ofJson_options, ok]
        rfl
      · refine .inr (.inr ⟨m, ?_⟩)
        simp only [kind, readOptions, ofJson_options, told]
        rfl
  · intro v documented
    refine ⟨allows_of_documented documented, ?_⟩
    obtain ⟨sources, readable, rfl⟩ := documented
    obtain ⟨-, patterns, ok⟩ :=
      (PatternSet.ofJson_listed sources).resolve_right fun h => h.1 readable
    refine ⟨check patterns, ?_⟩
    simp only [kind, readOptions, ofJson_options, ok]
    rfl

end BannedDependencies

/-! ## File contents -/

namespace FileContents

/-- The documented options: a file, and a template or the path of one. -/
inductive Documented : Json → Prop where
  | template {ms : Members} {file text : String}
      (members : ms.Perm [("file", .string file), ("template", .string text)]) :
      Documented (.object ms)
  | templateFile {ms : Members} {file path : String}
      (members : ms.Perm [("file", .string file), ("template_file", .string path)]) :
      Documented (.object ms)

/-- The schema of the options, read. -/
def readSchema : Schema :=
  .keywords [.object] ["file"]
    [("file", .keywords [.string] [] [] false [] [] []),
      ("template", .keywords [.string] [] [] false [] [] []),
      ("template_file", .keywords [.string] [] [] false [] [] [])]
    true [] []
    [.keywords [] ["template"] [] false [] [] [], .keywords [] ["template_file"] [] false [] [] []]

theorem ofJson_schema : Schema.ofJson kind.schema = .ok readSchema := rfl

/-- The schema leaves open whether a key is repeated. -/
theorem cases_of_allows {v : Json} (allowed : readSchema.Allows v) :
    Documented v ∨ ∃ ms, v = .object ms ∧ ¬ (Members.keys ms).Nodup := by
  obtain ⟨ms, rfl, own, known, required, one⟩ := allows_closed_iff.1 allowed
  refine or_iff_not_imp_right.2 fun repeated => ?_
  have nodup : (Members.keys ms).Nodup := by
    by_contra twice
    exact repeated ⟨ms, rfl, twice⟩
  obtain ⟨_, hfile, typed⟩ := Members.exists_allowed own "file" rfl (required _ (by simp))
  obtain ⟨file, rfl⟩ := allows_string_iff.1 typed
  rcases allowedBy_having_iff.1 (one.resolve_left (by simp)) with ⟨here, without⟩ | ⟨without, here⟩
  · obtain ⟨_, htext, typed⟩ := Members.exists_allowed own "template" rfl here
    obtain ⟨text, rfl⟩ := allows_string_iff.1 typed
    suffices members : ms.Perm [("file", .string file), ("template", .string text)] from
      .template members
    refine Members.perm_of_get? nodup (by simp [Members.keys]) (fun key there => ?_) ?_
    · have other := Members.ne_of_absent without there
      have := known key there
      simp only [List.map_cons, List.map_nil, List.mem_cons, List.not_mem_nil, or_false,
        Members.keys] at this ⊢
      tauto
    · simp [hfile, htext]
  · obtain ⟨_, hpath, typed⟩ := Members.exists_allowed own "template_file" rfl here
    obtain ⟨path, rfl⟩ := allows_string_iff.1 typed
    suffices members : ms.Perm [("file", .string file), ("template_file", .string path)] from
      .templateFile members
    refine Members.perm_of_get? nodup (by simp [Members.keys]) (fun key there => ?_) ?_
    · have other := Members.ne_of_absent without there
      have := known key there
      simp only [List.map_cons, List.map_nil, List.mem_cons, List.not_mem_nil, or_false,
        Members.keys] at this ⊢
      tauto
    · simp [hfile, hpath]

/-- The documented options in the form that the check works with. -/
theorem readFrom_of_documented {v : Json} (h : Documented v) : ∃ o, readFrom v = .ok o := by
  obtain @⟨ms, file, text, members⟩ | @⟨ms, file, path, members⟩ := h
  · rcases perm_pair members with rfl | rfl
    · exact ⟨⟨⟨file⟩, .template text⟩, rfl⟩
    · exact ⟨⟨⟨file⟩, .template text⟩, rfl⟩
  · rcases perm_pair members with rfl | rfl
    · exact ⟨⟨⟨file⟩, .templateFile ⟨path⟩⟩, rfl⟩
    · exact ⟨⟨⟨file⟩, .templateFile ⟨path⟩⟩, rfl⟩

theorem allows_of_documented {v : Json} (h : Documented v) : readSchema.Allows v := by
  obtain @⟨ms, file, text, members⟩ | @⟨ms, file, path, members⟩ := h
  · refine allows_of_perm members ?_ (by simp [Members.keys]) (by simp [Members.keys]) (.inr ?_)
    · intro e he s found
      rcases List.mem_pair.1 he with rfl | rfl <;> obtain rfl := Option.some.inj found <;>
        exact allows_string_iff.2 ⟨_, rfl⟩
    · refine allowedBy_having_iff.2 (.inl ⟨?_, ?_⟩)
      · exact (Members.contains_perm members).2 (by simp [Members.keys])
      · rw [← Bool.not_eq_true, Members.contains_perm members]
        simp [Members.keys]
  · refine allows_of_perm members ?_ (by simp [Members.keys]) (by simp [Members.keys]) (.inr ?_)
    · intro e he s found
      rcases List.mem_pair.1 he with rfl | rfl <;> obtain rfl := Option.some.inj found <;>
        exact allows_string_iff.2 ⟨_, rfl⟩
    · refine allowedBy_having_iff.2 (.inr ⟨?_, ?_⟩)
      · rw [← Bool.not_eq_true, Members.contains_perm members]
        simp [Members.keys]
      · exact (Members.contains_perm members).2 (by simp [Members.keys])

theorem follows : kind.Follows Documented fun _ => False := by
  refine RuleKind.follows_of_gates ofJson_schema ?_ ?_ nofun
  · intro v allowed
    rcases cases_of_allows allowed with documented | ⟨ms, rfl, repeated⟩
    · obtain ⟨o, read⟩ := readFrom_of_documented documented
      refine .inl ⟨documented, check o, ?_⟩
      simp only [kind, read]
      rfl
    · obtain ⟨m, told⟩ := exists_mismatch_of_repeated (r := Written.record) rfl info.name repeated
      refine .inr (.inr ⟨m, ?_⟩)
      simp only [kind, readFrom, told]
      rfl
  · intro v documented
    obtain ⟨o, read⟩ := readFrom_of_documented documented
    refine ⟨allows_of_documented documented, check o, ?_⟩
    simp only [kind, read]
    rfl

end FileContents

end WorkspaceLint
