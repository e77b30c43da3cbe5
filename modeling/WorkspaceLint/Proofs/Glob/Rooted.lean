import Mathlib.Data.List.Forall2
import WorkspaceLint.Proofs.Glob.Segments

/-!
# Patterns below a root

A pattern is put behind the escaped text of a root.  When its segments can be read one by one, the
whole is read as the names of the root and those segments (`parse_rooted`), and accepts the text of
a path when they match its names (`accepts_below_iff`).
-/

namespace WorkspaceLint

namespace DirGlob

/-! ## Escaped names -/

/-- The token of an escaped character. -/
def escapedToken (c : Char) : Token := if isMeta c then .oneOf false [(c, c)] else .literal c

/-- The tokens of an escaped text. -/
def escaped (text : List Char) : DirGlob := text.map escapedToken

theorem charClass_escaped {c : Char} (special : isMeta c = true) (rest : List Char) :
    charClass (c :: ']' :: rest) = some (.oneOf false [(c, c)], rest) := by
  refine charClass_eq_some_iff.2 ⟨c, _, [], rfl, .inr ⟨rfl, ?_, rfl⟩⟩
  rintro rfl
  cases special

theorem reads_escape {before : Option Char} (text : List Char) :
    Reads before (escape text) (escaped text) := by
  induction text generalizing before with
  | nil => exact .nil
  | cons c text ih =>
    unfold escape escaped at ih ⊢
    rw [List.flatMap_cons, List.map_cons, escapeChar, escapedToken]
    by_cases special : isMeta c = true
    · rw [if_pos special, if_pos special]
      exact .oneOf (charClass_escaped special _) ih
    · rw [if_neg special, if_neg special]
      have plain : c ≠ '?' ∧ c ≠ '*' ∧ c ≠ '[' := by
        refine ⟨?_, ?_, ?_⟩ <;> rintro rfl <;> exact special rfl
      exact .literal plain.1 plain.2.1 plain.2.2 ih

theorem slash_not_mem_escape {text : List Char} (h : '/' ∉ text) : '/' ∉ escape text := by
  intro member
  obtain ⟨c, hc, there⟩ := List.mem_flatMap.1 member
  unfold escapeChar at there
  split at there
  · simp only [List.mem_cons, List.not_mem_nil, or_false] at there
    rcases there with same | same | same
    · cases same
    · exact h (same ▸ hc)
    · cases same
  · exact h (List.mem_singleton.1 there ▸ hc)

theorem takes_escapedToken {c d : Char} : (escapedToken c).takes d = true ↔ d = c := by
  unfold escapedToken
  split
  · rename_i special
    simp only [Token.takes, inRanges, List.any_cons, List.any_nil, Bool.or_false, bne_iff_ne, ne_eq,
      Bool.and_eq_true, decide_eq_true_eq, Bool.not_eq_false]
    constructor
    · rintro ⟨-, low, high⟩
      exact (Char.le_antisymm low high).symm
    · rintro rfl
      refine ⟨?_, Char.le_refl _, Char.le_refl _⟩
      rintro rfl
      cases special
  · simp only [Token.takes, decide_eq_true_eq]

/-- An escaped character is one token that takes one character. -/
theorem accepts_escapedToken_cons {c : Char} {g : DirGlob} {text : List Char}
    (h : Accepts (escapedToken c :: g) text) :
    ∃ d rest, text = d :: rest ∧ (escapedToken c).takes d = true ∧ Accepts g rest := by
  generalize token : escapedToken c = t at h ⊢
  cases h with
  | single takes rest => exact ⟨_, _, rfl, takes, rest⟩
  | run | noDirs | dirs | allDirs =>
    unfold escapedToken at token
    split at token <;> cases token

/-- An escaped text in front of a pattern accepts itself. -/
theorem accepts_escaped_append_iff {text : List Char} {g : DirGlob} {cs : List Char} :
    Accepts (escaped text ++ g) cs ↔ ∃ rest, cs = text ++ rest ∧ Accepts g rest := by
  induction text generalizing cs with
  | nil => simp [escaped]
  | cons c text ih =>
    constructor
    · intro accepted
      obtain ⟨d, left, rfl, taken, more⟩ := accepts_escapedToken_cons accepted
      obtain ⟨rest, rfl, last⟩ := ih.1 more
      exact ⟨rest, by rw [takes_escapedToken.1 taken]; rfl, last⟩
    · rintro ⟨rest, rfl, last⟩
      exact .single (takes_escapedToken.2 rfl) (ih.2 ⟨rest, rfl, last⟩)

theorem accepts_nil_iff {cs : List Char} : Accepts [] cs ↔ cs = [] := by
  constructor
  · rintro ⟨⟩
    rfl
  · rintro rfl
    exact .nil

/-- An escaped text accepts itself alone. -/
theorem accepts_escaped_iff {text cs : List Char} : Accepts (escaped text) cs ↔ cs = text := by
  have whole : Accepts (escaped text ++ []) cs ↔ ∃ rest, cs = text ++ rest ∧ Accepts [] rest :=
    accepts_escaped_append_iff
  simpa [accepts_nil_iff] using whole

/-! ## The whole pattern -/

/-- The segments of a pattern. -/
def parts (pattern : String) : List (List Char) :=
  Path.splitSlashes (trimSlashes pattern.toList)

theorem parts_ne_nil (pattern : String) : parts pattern ≠ [] := Path.splitSlashes_ne_nil _

theorem intercalate_parts (pattern : String) :
    ['/'].intercalate (parts pattern) = trimSlashes pattern.toList := intercalate_splitSlashes _

theorem text_down (names : List String) : (Path.down names).text.toList = '/' :: joined names := by
  show ("/" ++ Path.joinSegments names).toList = _
  rw [String.toList_append, Path.joinSegments, String.toList_intercalate]
  rfl

theorem escape_append (text more : List Char) :
    escape (text ++ more) = escape text ++ escape more := List.flatMap_append

theorem escape_joined (names : List String) :
    escape (joined names) = ['/'].intercalate (names.map fun s => escape s.toList) := by
  induction names with
  | nil => rfl
  | cons s names ih =>
    rcases names with _ | ⟨t, rest⟩
    · rw [joined_singleton]
      simp [List.intercalate]
    · rw [joined_cons (List.cons_ne_nil t rest), escape_append]
      show escape s.toList ++ ('/' :: escape (joined (t :: rest))) = _
      rw [ih]
      simp [List.intercalate]

/-- Escaping keeps whether a text ends with a slash. -/
theorem getLast?_escape_eq_slash_iff {text : List Char} :
    (escape text).getLast? = some '/' ↔ text.getLast? = some '/' := by
  rcases List.eq_nil_or_concat text with rfl | ⟨front, c, rfl⟩
  · rfl
  · have last : escape [c] = escapeChar c := List.flatMap_singleton escapeChar c
    rw [List.concat_eq_append, escape_append, last, List.getLast?_concat]
    unfold escapeChar
    split
    · rename_i special
      have other : c ≠ '/' := by
        rintro rfl
        cases special
      simp [other]
    · rw [List.getLast?_concat]

/-- The text of a pattern below a root: the segments of both with slashes between them. -/
theorem rootedChars_down {names : List String} (h : Path.AreNames names) (pattern : String) :
    rootedChars (Path.down names).text.toList pattern.toList =
      '/' :: ['/'].intercalate ((names.map fun s => escape s.toList) ++ parts pattern) := by
  unfold rootedChars
  by_cases some : names = []
  · subst some
    rw [if_pos (getLast?_escape_eq_slash_iff.2 rfl)]
    show '/' :: trimSlashes pattern.toList = _
    rw [List.map_nil, List.nil_append, intercalate_parts]
  · rw [if_neg fun slash => Path.getLast?_text_down h some (getLast?_escape_eq_slash_iff.1 slash),
      text_down]
    show '/' :: (escape (joined names) ++ '/' :: trimSlashes pattern.toList) = _
    rw [escape_joined, ← intercalate_parts,
      intercalate_append (by simpa using some) (parts_ne_nil pattern)]

/-- The segments of a pattern below the directory of the given names. -/
def below (names : List String) (gs : List DirGlob) : List DirGlob :=
  (names.map fun s => escaped s.toList) ++ gs

theorem readEach_below {names : List String} (h : Path.AreNames names) {segs : List (List Char)}
    {gs : List DirGlob} (each : ReadEach segs gs) :
    ReadEach ((names.map fun s => escape s.toList) ++ segs) (below names gs) := by
  induction names with
  | nil => exact each
  | cons s names ih =>
    obtain ⟨first, later⟩ := List.forall_mem_cons.1 h
    refine .cons ⟨slash_not_mem_escape first.noSlash, ?_, reads_escape s.toList⟩ (ih later)
    have nonempty : s.toList ≠ [] := by simpa using first.nonempty
    obtain ⟨c, cs, same⟩ := List.exists_cons_of_ne_nil nonempty
    show escape s.toList ≠ []
    rw [same]
    show escapeChar c ++ escape cs ≠ []
    unfold escapeChar
    split <;> exact List.cons_ne_nil _ _

/-- A pattern with readable segments is read as these segments behind the names of the root. -/
theorem parse_rooted {names : List String} (h : Path.AreNames names) {pattern : String}
    {gs : List DirGlob} (each : ReadEach (parts pattern) gs) :
    parse (rooted (Path.down names).text pattern) =
      .ok (.literal '/' :: glue (below names gs)) := by
  unfold rooted
  rw [parse_eq_ok_iff, rootedChars_down h]
  exact .literal (by decide) (by decide) (by decide)
    (reads_intercalate (.inr rfl) (readEach_below h each))

/-- It accepts the plain paths whose names the segments match. -/
theorem accepts_below_iff {names : List String} (h : Path.AreNames names) {pattern : String}
    {gs : List DirGlob} (each : ReadEach (parts pattern) gs) {more : List String}
    (hm : Path.AreNames more) (some : more ≠ []) :
    accepts (.literal '/' :: glue (below names gs)) (Path.down more).text.toList = true ↔
      Matches (below names gs) more := by
  have whole := readEach_below h each
  have nonempty : below names gs ≠ [] := by
    intro none
    have length := whole.length_eq
    rw [none, List.length_nil, List.length_append] at length
    exact parts_ne_nil pattern (List.length_eq_zero_iff.1 (by omega))
  rw [accepts_iff, text_down, accepts_slash_cons_iff,
    ← accepts_glue_iff (segments_of_readEach whole) nonempty hm some]
  constructor
  · rintro ⟨left, same, accepted⟩
    rwa [(List.cons.inj same).2]
  · intro accepted
    exact ⟨_, rfl, accepted⟩

/-! ## Regular patterns -/

/-- A segment with a dot in front accepts neither `.` nor `..`. -/
def Dotless (g : DirGlob) : Prop :=
  g.head? = some (.literal '.') → accepts g ['.'] = false ∧ accepts g ['.', '.'] = false

/-- The segments of a pattern can be read one by one, and no dot in front makes one of them mean a
directory itself or the one above it. -/
def Regular (pattern : String) : Prop :=
  ∃ gs, ReadEach (parts pattern) gs ∧ ∀ g ∈ gs, Dotless g

/-- If a pattern below a root can be read at all, it is regular and does not stand for the top of
the file system. -/
def Fits (root : Path) (pattern : String) : Prop :=
  ∀ g, parse (rooted root.text pattern) = .ok g → Regular pattern ∧ accepts g ['/'] = false

theorem not_accepts_nil_glue_escaped {text : List Char} (some : text ≠ []) (gs : List DirGlob) :
    ¬ Accepts (glue (escaped text :: gs)) [] := by
  obtain ⟨c, text, rfl⟩ := List.exists_cons_of_ne_nil some
  have start : ∃ more, glue (escaped (c :: text) :: gs) = escapedToken c :: more := by
    rcases gs with _ | ⟨g, gs⟩
    · exact ⟨_, rfl⟩
    · rw [glue]
      split <;> exact ⟨_, rfl⟩
  obtain ⟨more, same⟩ := start
  rw [same]
  intro accepted
  obtain ⟨d, rest, none, -⟩ := accepts_escapedToken_cons accepted
  cases none

/-- Below a root that is not the top, a regular pattern fits. -/
theorem fits_of_regular {names : List String} (h : Path.AreNames names) (some : names ≠ [])
    {pattern : String} (regular : Regular pattern) : Fits (Path.down names) pattern := by
  intro g read
  refine ⟨regular, ?_⟩
  obtain ⟨gs, each, -⟩ := regular
  rw [parse_rooted h each] at read
  rw [← Except.ok.inj read, Bool.eq_false_iff, Ne, accepts_iff, accepts_slash_cons_iff]
  rintro ⟨left, same, accepted⟩
  obtain rfl := (List.cons.inj same).2
  obtain ⟨s, rest, rfl⟩ := List.exists_cons_of_ne_nil some
  have nonempty : s.toList ≠ [] := by simpa using (h s List.mem_cons_self).nonempty
  exact not_accepts_nil_glue_escaped nonempty _ accepted

theorem dotless_escaped {s : String} (h : Path.IsName s) : Dotless (escaped s.toList) := by
  have other {cs : List Char} (differs : cs ≠ s.toList) :
      accepts (escaped s.toList) cs = false := by
    rw [Bool.eq_false_iff, Ne, accepts_iff, accepts_escaped_iff]
    exact differs
  intro _
  refine ⟨other fun same => h.notCurrent ?_, other fun same => h.notParent ?_⟩
  · rw [← String.ofList_toList (s := s), ← same]
  · rw [← String.ofList_toList (s := s), ← same]

theorem dotless_below {names : List String} (h : Path.AreNames names) {gs : List DirGlob}
    (dotless : ∀ g ∈ gs, Dotless g) : ∀ g ∈ below names gs, Dotless g := by
  intro g hg
  rcases List.mem_append.1 hg with root | rest
  · obtain ⟨s, hs, rfl⟩ := List.mem_map.1 root
    exact dotless_escaped (h s hs)
  · exact dotless g rest

end DirGlob

end WorkspaceLint
