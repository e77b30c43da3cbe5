import WorkspaceLint.Number.Decimal

/-!
# Globs for directories

The patterns of a workspace declaration.  `?` and a character class take one character, `*` any
characters, none of them a slash; `**` is a whole component and takes any directories.  There is no
escape: a character is taken literally by putting it into a class, which is what `escape` does.

`Accepts` says when tokens accept a text, one rule for each token, and `accepts_iff` says that the
matcher decides it.
-/

namespace WorkspaceLint

/-- Why a pattern for directories cannot be read. -/
inductive DirGlob.Cause where
  | wildcards
  | recursive
  | invalidRange
  deriving DecidableEq, Repr, Inhabited

/-- A cause and the position of the character it is about. -/
structure DirGlob.Fault where
  position : Nat
  cause : DirGlob.Cause
  deriving DecidableEq, Repr, Inhabited

/-- The wording of a cause. -/
def DirGlob.Cause.message : DirGlob.Cause → String
  | wildcards => "wildcards are either regular `*` or recursive `**`"
  | recursive => "recursive wildcards must form a single path component"
  | invalidRange => "invalid range pattern"

/-- The wording of a fault. -/
def DirGlob.Fault.message (f : DirGlob.Fault) : String :=
  "Pattern syntax error near position " ++ Decimal.text f.position ++ ": " ++ f.cause.message

/-- A part of a pattern for directories. -/
inductive DirGlob.Token where
  /-- The character itself. -/
  | literal (c : Char)
  /-- One character other than a slash. -/
  | one
  /-- Any characters other than slashes. -/
  | run
  /-- Any directories. -/
  | dirs
  /-- One character inside the ranges, or outside of them when negated, but no slash. -/
  | oneOf (negated : Bool) (ranges : List (Char × Char))
  deriving DecidableEq, Repr, Inhabited

/-- A pattern for directories. -/
abbrev DirGlob := List DirGlob.Token

namespace DirGlob

/-! ### Reading a pattern -/

/-- The ranges of a class. -/
def classRanges : List Char → List (Char × Char)
  | low :: '-' :: high :: rest => (low, high) :: classRanges rest
  | c :: rest => (c, c) :: classRanges rest
  | [] => []

/-- The text in front of the first closing bracket, and the text after it. -/
def toBracket : List Char → Option (List Char × List Char)
  | [] => none
  | c :: cs =>
    if c = ']' then some ([], cs)
    else (toBracket cs).map fun (body, rest) => (c :: body, rest)

/-- Read a class after its opening bracket: its first character may be a bracket. -/
def charClass : List Char → Option (Token × List Char)
  | '!' :: c :: cs => (toBracket cs).map fun (body, rest) => (.oneOf true (classRanges (c :: body)), rest)
  | '!' :: [] => none
  | c :: cs => (toBracket cs).map fun (body, rest) => (.oneOf false (classRanges (c :: body)), rest)
  | [] => none

/-- The number of stars at the start of a text, and the text after them. -/
def stars : List Char → Nat × List Char
  | [] => (0, [])
  | c :: cs =>
    if c = '*' then
      let (n, rest) := stars cs
      (n + 1, rest)
    else (0, c :: cs)

/-- Read a pattern from the position `at`; `before` is the character in front of it. -/
def readFrom : (fuel position : Nat) → (before : Option Char) → List Char → Except Fault DirGlob
  | 0, _, _, _ => .ok []
  | _ + 1, _, _, [] => .ok []
  | fuel + 1, position, before, c :: cs =>
    if c = '?' then (readFrom fuel (position + 1) (some c) cs).map (.one :: ·)
    else if c = '*' then
      match stars cs with
      | (0, rest) => (readFrom fuel (position + 1) (some c) rest).map (.run :: ·)
      | (1, rest) =>
        if before = none ∨ before = some '/' then
          match rest with
          | [] => .ok [.dirs]
          | '/' :: rest => (readFrom fuel (position + 3) (some '/') rest).map (.dirs :: ·)
          | _ => .error ⟨position + 2, .recursive⟩
        else .error ⟨position - 1, .recursive⟩
      | _ => .error ⟨position + 2, .wildcards⟩
    else if c = '[' then
      match charClass cs with
      | none => .error ⟨position, .invalidRange⟩
      | some (t, rest) =>
        (readFrom fuel (position + (cs.length + 1 - rest.length)) (some ']') rest).map (t :: ·)
    else (readFrom fuel (position + 1) (some c) cs).map (.literal c :: ·)

/-- Read a pattern. -/
def parse (pattern : String) : Except Fault DirGlob :=
  let cs := pattern.toList
  readFrom (cs.length + 1) 0 none cs

/-! ### Matching -/

/-- Whether a character is in one of the ranges. -/
def inRanges (ranges : List (Char × Char)) (c : Char) : Bool :=
  ranges.any fun r => r.1 ≤ c && c ≤ r.2

/-- Whether a token that takes one character takes `c`. -/
def Token.takes (c : Char) : Token → Bool
  | .literal d => c = d
  | .one => c ≠ '/'
  | .oneOf negated ranges => c ≠ '/' && inRanges ranges c != negated
  | .run => false
  | .dirs => false

/-- Whether a predicate holds of the text after one of its slashes. -/
def someAfterSlash (p : List Char → Bool) : List Char → Bool
  | [] => false
  | c :: cs => (c = '/' && p cs) || someAfterSlash p cs

/-- Whether a predicate holds of the text after some characters that are not slashes. -/
def someAfterRun (p : List Char → Bool) : List Char → Bool
  | [] => p []
  | c :: cs => p (c :: cs) || (c ≠ '/' && someAfterRun p cs)

/-- Whether a pattern accepts a text. -/
def accepts : DirGlob → List Char → Bool
  | [], text => text.isEmpty
  | .run :: ts, text => someAfterRun (accepts ts) text
  | .dirs :: ts, text => accepts ts text || someAfterSlash (accepts ts) text || accepts ts []
  | t :: ts, text =>
    match text with
    | [] => false
    | c :: cs => t.takes c && accepts ts cs

/-- When a pattern accepts a text. -/
inductive Accepts : DirGlob → List Char → Prop where
  | nil : Accepts [] []
  /-- A token that takes one character. -/
  | single {t : Token} {ts : DirGlob} {c : Char} {cs : List Char} (takes : t.takes c = true)
      (rest : Accepts ts cs) : Accepts (t :: ts) (c :: cs)
  /-- Any characters other than slashes. -/
  | run {ts : DirGlob} {taken left : List Char} (plain : ∀ c ∈ taken, c ≠ '/')
      (rest : Accepts ts left) : Accepts (.run :: ts) (taken ++ left)
  /-- No directory. -/
  | noDirs {ts : DirGlob} {text : List Char} (rest : Accepts ts text) :
      Accepts (.dirs :: ts) text
  /-- The directories in front of a slash. -/
  | dirs {ts : DirGlob} {taken left : List Char} (rest : Accepts ts left) :
      Accepts (.dirs :: ts) (taken ++ '/' :: left)
  /-- Everything, when the rest of the pattern may stand for nothing. -/
  | allDirs {ts : DirGlob} {taken : List Char} (rest : Accepts ts []) :
      Accepts (.dirs :: ts) taken

theorem someAfterSlash_iff {p : List Char → Bool} {text : List Char} :
    someAfterSlash p text = true ↔ ∃ taken left, text = taken ++ '/' :: left ∧ p left = true := by
  induction text with
  | nil => simp [someAfterSlash]
  | cons c cs ih =>
    simp only [someAfterSlash, Bool.or_eq_true, Bool.and_eq_true, decide_eq_true_eq, ih]
    constructor
    · rintro (⟨rfl, h⟩ | ⟨taken, left, rfl, h⟩)
      · exact ⟨[], cs, rfl, h⟩
      · exact ⟨c :: taken, left, rfl, h⟩
    · rintro ⟨taken, left, eq, h⟩
      cases taken with
      | nil =>
        obtain ⟨rfl, rfl⟩ := List.cons.inj eq
        exact .inl ⟨rfl, h⟩
      | cons d ds =>
        obtain ⟨rfl, rfl⟩ := List.cons.inj eq
        exact .inr ⟨ds, left, rfl, h⟩

theorem someAfterRun_iff {p : List Char → Bool} {text : List Char} :
    someAfterRun p text = true ↔
      ∃ taken left, text = taken ++ left ∧ (∀ c ∈ taken, c ≠ '/') ∧ p left = true := by
  induction text with
  | nil =>
    constructor
    · intro h
      exact ⟨[], [], rfl, by simp, h⟩
    · rintro ⟨taken, left, eq, -, h⟩
      obtain ⟨rfl, rfl⟩ := List.append_eq_nil_iff.1 eq.symm
      exact h
  | cons c cs ih =>
    simp only [someAfterRun, Bool.or_eq_true, Bool.and_eq_true, decide_eq_true_eq, ih]
    constructor
    · rintro (h | ⟨hc, taken, left, rfl, plain, h⟩)
      · exact ⟨[], c :: cs, rfl, by simp, h⟩
      · exact ⟨c :: taken, left, rfl, by simpa [hc] using plain, h⟩
    · rintro ⟨taken, left, eq, plain, h⟩
      cases taken with
      | nil => exact .inl (by simp_all)
      | cons d ds =>
        obtain ⟨rfl, rfl⟩ := List.cons.inj eq
        exact .inr ⟨plain c (by simp), ds, left, rfl, fun x hx => plain x (by simp [hx]), h⟩

/-- The matcher decides acceptance. -/
theorem accepts_iff {g : DirGlob} {text : List Char} :
    accepts g text = true ↔ Accepts g text := by
  induction g generalizing text with
  | nil =>
    constructor
    · intro h
      obtain rfl : text = [] := by simpa [accepts] using h
      exact .nil
    · rintro ⟨⟩
      rfl
  | cons t ts ih =>
    constructor
    · intro h
      cases t with
      | run =>
        obtain ⟨taken, left, rfl, plain, rest⟩ := someAfterRun_iff.1 (by simpa [accepts] using h)
        exact .run plain (ih.1 rest)
      | dirs =>
        simp only [accepts, Bool.or_eq_true] at h
        obtain (h | h) | h := h
        · exact .noDirs (ih.1 h)
        · obtain ⟨taken, left, rfl, rest⟩ := someAfterSlash_iff.1 h
          exact .dirs (ih.1 rest)
        · exact .allDirs (ih.1 h)
      | literal | one | oneOf =>
        cases text with
        | nil => simp [accepts] at h
        | cons c cs =>
          simp only [accepts, Bool.and_eq_true] at h
          exact .single h.1 (ih.1 h.2)
    · intro h
      cases h with
      | @single _ _ c cs takes rest =>
        cases t with
        | run | dirs => simp [Token.takes] at takes
        | literal | one | oneOf => simp [accepts, takes, ih.2 rest]
      | run plain rest =>
        exact someAfterRun_iff.2 ⟨_, _, rfl, plain, ih.2 rest⟩
      | noDirs rest => simp [accepts, ih.2 rest]
      | dirs rest =>
        simp only [accepts, Bool.or_eq_true]
        exact .inl (.inr (someAfterSlash_iff.2 ⟨_, _, rfl, ih.2 rest⟩))
      | allDirs rest => simp [accepts, ih.2 rest]

/-! ### Escaping -/

/-- The characters that mean something in a pattern. -/
def isMeta (c : Char) : Bool := c = '?' || c = '*' || c = '[' || c = ']'

/-- A character as a pattern that takes it alone. -/
def escapeChar (c : Char) : List Char := if isMeta c then ['[', c, ']'] else [c]

/-- A text as a pattern that takes it alone. -/
def escape (text : List Char) : List Char := text.flatMap escapeChar

/-- A text without the slashes at its end. -/
def trimSlashes (text : List Char) : List Char :=
  (text.reverse.dropWhile (· = '/')).reverse

/-- `pattern` below `root`, where only `pattern` is read as a pattern. -/
def rootedChars (root pattern : List Char) : List Char :=
  let root := escape root
  let pattern := trimSlashes pattern
  if root.getLast? = some '/' then root ++ pattern else root ++ '/' :: pattern

/-- `pattern` below `root`, where only `pattern` is read as a pattern. -/
def rooted (root pattern : String) : String :=
  String.ofList (rootedChars root.toList pattern.toList)

end DirGlob

end WorkspaceLint
