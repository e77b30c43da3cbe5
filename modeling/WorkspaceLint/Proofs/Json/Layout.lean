import WorkspaceLint.Json.Printer
import WorkspaceLint.Json.Reader

/-!
# Layouts of written documents

The compact and the indented form of a document differ only in the blanks between its parts.
`laidOut` is the written form for any choice of blanks, and both forms are cases of it, so that what
holds of every layout is proved once.
-/

namespace WorkspaceLint

namespace Json

/-- Where blanks stand in a written document: in front of what stands on a level, an item or the
bracket that closes a list, and after a colon. -/
structure Layout where
  gap : Nat → List Char
  afterColon : List Char
  isBlank_of_mem_gap : ∀ level, ∀ c ∈ gap level, Reader.isBlank c = true
  isBlank_of_mem_afterColon : ∀ c ∈ afterColon, Reader.isBlank c = true

mutual

/-- The written form of a document in a layout. -/
def laidOut (l : Layout) (level : Nat) : Json → List Char
  | null => nullChars
  | bool b => boolChars b
  | number n => numberChars n
  | string s => quoted s
  | array [] => ['[', ']']
  | array (v :: vs) =>
    '[' :: (l.gap (level + 1) ++ laidOut l (level + 1) v ++ moreItems l (level + 1) vs ++
      l.gap level ++ [']'])
  | object [] => ['{', '}']
  | object ((k, v) :: ms) =>
    '{' :: (l.gap (level + 1) ++ quoted k ++ ':' :: (l.afterColon ++ laidOut l (level + 1) v) ++
      moreMembers l (level + 1) ms ++ l.gap level ++ ['}'])

/-- The items after the first one. -/
def moreItems (l : Layout) (level : Nat) : List Json → List Char
  | [] => []
  | v :: vs => ',' :: (l.gap level ++ laidOut l level v ++ moreItems l level vs)

/-- The members after the first one. -/
def moreMembers (l : Layout) (level : Nat) : List (String × Json) → List Char
  | [] => []
  | (k, v) :: ms =>
    ',' :: (l.gap level ++ quoted k ++ ':' :: (l.afterColon ++ laidOut l level v) ++
      moreMembers l level ms)

end

/-! ## The two layouts -/

/-- No blanks at all. -/
def Layout.compact : Layout := ⟨fun _ => [], [], nofun, nofun⟩

/-- Every item on a line of its own, indented by its level, and one blank after a colon. -/
def Layout.indented : Layout where
  gap := newline
  afterColon := [' ']
  isBlank_of_mem_gap level c h := by
    rcases List.mem_cons.1 h with rfl | blank
    · rfl
    · rw [(List.mem_replicate.1 blank).2]
      rfl
  isBlank_of_mem_afterColon c h := by
    rw [List.mem_singleton.1 h]
    rfl

@[simp] theorem Layout.gap_compact (level : Nat) : Layout.compact.gap level = [] := rfl

@[simp] theorem Layout.afterColon_compact : Layout.compact.afterColon = [] := rfl

@[simp] theorem Layout.gap_indented (level : Nat) : Layout.indented.gap level = newline level := rfl

@[simp] theorem Layout.afterColon_indented : Layout.indented.afterColon = [' '] := rfl

/-! ## Compact text -/

mutual

theorem compactChars_eq_laidOut (level : Nat) : (v : Json) →
    compactChars v = laidOut .compact level v
  | null | bool _ | number _ | string _ | array [] | object [] => by
    simp [compactChars, laidOut, compactItems, compactMembers]
  | array [v] => by
    have first := compactChars_eq_laidOut (level + 1) v
    simp [compactChars, laidOut, compactItems, moreItems, first]
  | array (v :: w :: vs) => by
    have first := compactChars_eq_laidOut (level + 1) v
    have more := compactItems_eq_moreItems (level + 1) (w :: vs) (List.cons_ne_nil w vs)
    rw [compactChars, laidOut, compactItems, first, ← more]
    simp
  | object [(k, v)] => by
    have first := compactChars_eq_laidOut (level + 1) v
    simp [compactChars, laidOut, compactMembers, moreMembers, first]
  | object ((k, v) :: m :: ms) => by
    have first := compactChars_eq_laidOut (level + 1) v
    have more := compactMembers_eq_moreMembers (level + 1) (m :: ms) (List.cons_ne_nil m ms)
    rw [compactChars, laidOut, compactMembers, first, ← more]
    simp

theorem compactItems_eq_moreItems (level : Nat) : (vs : List Json) → vs ≠ [] →
    ',' :: compactItems vs = moreItems .compact level vs
  | [], nonempty => absurd rfl nonempty
  | [v], _ => by
    have first := compactChars_eq_laidOut level v
    simp [compactItems, moreItems, first]
  | v :: w :: vs, _ => by
    have first := compactChars_eq_laidOut level v
    have more := compactItems_eq_moreItems level (w :: vs) (List.cons_ne_nil w vs)
    rw [compactItems, moreItems, first, ← more]
    simp

theorem compactMembers_eq_moreMembers (level : Nat) : (ms : List (String × Json)) → ms ≠ [] →
    ',' :: compactMembers ms = moreMembers .compact level ms
  | [], nonempty => absurd rfl nonempty
  | [(k, v)], _ => by
    have first := compactChars_eq_laidOut level v
    simp [compactMembers, moreMembers, first]
  | (k, v) :: m :: ms, _ => by
    have first := compactChars_eq_laidOut level v
    have more := compactMembers_eq_moreMembers level (m :: ms) (List.cons_ne_nil m ms)
    rw [compactMembers, moreMembers, first, ← more]
    simp

end

/-! ## Indented text -/

mutual

theorem prettyChars_eq_laidOut (level : Nat) : (v : Json) →
    prettyChars level v = laidOut .indented level v
  | null | bool _ | number _ | string _ | array [] | object [] => by
    simp [prettyChars, laidOut]
  | array [v] => by
    have first := prettyChars_eq_laidOut (level + 1) v
    simp [prettyChars, laidOut, prettyItems, moreItems, first]
  | array (v :: w :: vs) => by
    have first := prettyChars_eq_laidOut (level + 1) v
    have more := prettyItems_eq_moreItems (level + 1) (w :: vs) (List.cons_ne_nil w vs)
    rw [prettyChars, laidOut, prettyItems, first, ← more]
    simp
  | object [(k, v)] => by
    have first := prettyChars_eq_laidOut (level + 1) v
    simp [prettyChars, laidOut, prettyMembers, moreMembers, first]
  | object ((k, v) :: m :: ms) => by
    have first := prettyChars_eq_laidOut (level + 1) v
    have more := prettyMembers_eq_moreMembers (level + 1) (m :: ms) (List.cons_ne_nil m ms)
    rw [prettyChars, laidOut, prettyMembers, first, ← more]
    simp

theorem prettyItems_eq_moreItems (level : Nat) : (vs : List Json) → vs ≠ [] →
    ',' :: prettyItems level vs = moreItems .indented level vs
  | [], nonempty => absurd rfl nonempty
  | [v], _ => by
    have first := prettyChars_eq_laidOut level v
    simp [prettyItems, moreItems, first]
  | v :: w :: vs, _ => by
    have first := prettyChars_eq_laidOut level v
    have more := prettyItems_eq_moreItems level (w :: vs) (List.cons_ne_nil w vs)
    rw [prettyItems, moreItems, first, ← more]
    simp

theorem prettyMembers_eq_moreMembers (level : Nat) : (ms : List (String × Json)) → ms ≠ [] →
    ',' :: prettyMembers level ms = moreMembers .indented level ms
  | [], nonempty => absurd rfl nonempty
  | [(k, v)], _ => by
    have first := prettyChars_eq_laidOut level v
    simp [prettyMembers, moreMembers, first]
  | (k, v) :: m :: ms, _ => by
    have first := prettyChars_eq_laidOut level v
    have more := prettyMembers_eq_moreMembers level (m :: ms) (List.cons_ne_nil m ms)
    rw [prettyMembers, moreMembers, first, ← more]
    simp

end

end Json

end WorkspaceLint
