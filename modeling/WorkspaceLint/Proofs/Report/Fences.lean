import Mathlib.Data.List.TakeWhile
import WorkspaceLint.Proofs.Diff.Lines
import WorkspaceLint.Proofs.Json.Layout
import WorkspaceLint.Proofs.Json.RoundTrip
import WorkspaceLint.Report.Listing
import WorkspaceLint.Report.Markdown

/-!
# Fences

A reader of Markdown opens a block at a fence with the word `diff` and closes it at the next line
with a fence alone.  Either line has a backtick behind its first blanks.  `scan` reads a text and
stops at such a line, so a text that it reads to the end has no fence (`unfenced_of_scan`), and
neither has the canonical text of a JSON document (`unfenced_canonical`).
-/

namespace WorkspaceLint

namespace Report

/-! ## Lines with fences -/

/-- Whether a line opens a block. -/
def opensBlock (line : String) : Bool :=
  withoutBreak line.toList = ['`', '`', '`', 'd', 'i', 'f', 'f']

/-- Whether a line closes a block: at most three spaces, three or more backticks, and blanks. -/
def closesBlock (line : String) : Bool :=
  let cs := withoutBreak line.toList
  let fence := cs.dropWhile (· = ' ')
  (cs.takeWhile (· = ' ')).length ≤ 3 && 3 ≤ (fence.takeWhile (· = '`')).length &&
    (fence.dropWhile (· = '`')).all fun c => c = ' ' || c = '\t'

/-- Whether a line has no backtick behind its first blanks. -/
def Unfenced (line : List Char) : Prop := (line.dropWhile (· = ' ')).head? ≠ some '`'

theorem withoutBreak_prefix (cs : List Char) : withoutBreak cs <+: cs := by
  unfold withoutBreak
  split
  · rename_i rest same
    refine ⟨['\r', '\n'], ?_⟩
    rw [← List.reverse_reverse cs, same]
    simp
  · rename_i rest _ same
    refine ⟨['\n'], ?_⟩
    rw [← List.reverse_reverse cs, same]
    simp
  · exact List.prefix_rfl

theorem head_of_opensBlock {l : String} (h : opensBlock l = true) : l.toList.head? = some '`' := by
  obtain ⟨rest, chars⟩ := withoutBreak_prefix l.toList
  rw [← chars, of_decide_eq_true h]
  rfl

theorem Unfenced.not_opensBlock {l : String} (h : Unfenced l.toList) : opensBlock l = false := by
  refine Bool.eq_false_iff.2 fun opens => h ?_
  obtain ⟨rest, chars⟩ := List.head?_eq_some_iff.1 (head_of_opensBlock opens)
  rw [chars]
  rfl

theorem Unfenced.not_closesBlock {l : String} (h : Unfenced l.toList) : closesBlock l = false := by
  refine Bool.eq_false_iff.2 fun closes => h ?_
  obtain ⟨rest, chars⟩ := withoutBreak_prefix l.toList
  simp only [closesBlock, Bool.and_eq_true, decide_eq_true_eq] at closes
  obtain ⟨⟨-, fence⟩, -⟩ := closes
  rw [← chars, List.dropWhile_append]
  cases ticks : (withoutBreak l.toList).dropWhile (· = ' ') with
  | nil =>
    rw [ticks] at fence
    exact absurd fence (by decide)
  | cons c cs =>
    by_cases tick : c = '`'
    · rw [tick]
      rfl
    rw [ticks, List.takeWhile_cons_of_neg (by simpa using tick)] at fence
    exact absurd fence (by decide)

theorem not_closesBlock_of_opensBlock {l : String} (h : opensBlock l = true) :
    closesBlock l = false := by
  unfold closesBlock
  rw [of_decide_eq_true h]
  decide

/-- Blanks in front make no fence. -/
theorem Unfenced.cons_blank {line : List Char} (h : Unfenced line) : Unfenced (' ' :: line) := by
  rw [Unfenced, List.dropWhile_cons_of_pos (by decide)]
  exact h

theorem unfenced_cons {c : Char} (blank : c ≠ ' ') (tick : c ≠ '`') (cs : List Char) :
    Unfenced (c :: cs) := by
  rw [Unfenced, List.dropWhile_cons_of_neg (by simpa using blank), List.head?_cons]
  exact fun same => tick (Option.some.inj same)

theorem unfenced_nil : Unfenced [] := by
  unfold Unfenced
  decide

theorem Unfenced.append {line more : List Char} (h : Unfenced line) (h' : Unfenced more) :
    Unfenced (line ++ more) := by
  rw [Unfenced, List.dropWhile_append]
  split
  · exact h'
  · rename_i full
    rw [List.head?_append_of_ne_nil _ fun empty => full (by rw [empty]; rfl)]
    exact h

theorem Unfenced.endLine {l : String} (h : Unfenced l.toList) : Unfenced (endLine l).toList := by
  unfold Report.endLine
  split
  · exact h
  · rw [String.toList_append]
    exact h.append (unfenced_cons (by decide) (by decide) [])

/-! ## Reading a text -/

/-- Read a text, knowing whether the line has only blanks so far, up to a backtick behind the blanks
of a line. -/
def scan (blank : Bool) : List Char → Option Bool
  | [] => some blank
  | c :: cs =>
    if c = '\n' then scan true cs
    else if blank && c = '`' then none
    else scan (c = ' ' && blank) cs

theorem scan_append (blank : Bool) (cs ds : List Char) :
    scan blank (cs ++ ds) = (scan blank cs).bind (scan · ds) := by
  induction cs generalizing blank with
  | nil => rfl
  | cons c cs ih =>
    rw [List.cons_append, scan, scan]
    split
    · exact ih true
    split
    · rfl
    · exact ih _

theorem scan_nil (blank : Bool) : scan blank [] = some blank := rfl

theorem scan_cons {c : Char} (plain : c ∉ ['\n', '`', ' ']) (cs : List Char) (blank : Bool) :
    scan blank (c :: cs) = scan false cs := by
  simp only [List.mem_cons, List.not_mem_nil, or_false, not_or] at plain
  obtain ⟨noBreak, noTick, noSpace⟩ := plain
  simp only [scan, noBreak, noTick, noSpace, decide_false, Bool.and_false, Bool.false_and,
    Bool.false_eq_true, if_false]

/-- Behind the first character of a line anything may stand up to the break. -/
theorem scan_unbroken {cs : List Char} (unbroken : '\n' ∉ cs) : scan false cs = some false := by
  induction cs with
  | nil => rfl
  | cons c cs ih =>
    obtain ⟨other, later⟩ := not_or.1 fun member => unbroken (List.mem_cons.2 member)
    rw [scan, if_neg (Ne.symm other), Bool.false_and, if_neg Bool.false_ne_true, Bool.and_false,
      ih later]

theorem unfenced_linesFrom {line cs : List Char} (start : Unfenced line.reverse)
    (read : (scan (line.all (· = ' ')) cs).isSome = true) :
    ∀ l ∈ Diff.linesFrom line cs, Unfenced l := by
  induction cs generalizing line with
  | nil =>
    rw [Diff.linesFrom]
    split
    · exact List.forall_mem_nil _
    · exact List.forall_mem_singleton.2 start
  | cons c cs ih =>
    rw [scan] at read
    rw [Diff.linesFrom]
    split
    · rename_i same
      rw [if_pos same] at read
      rw [List.reverse_cons]
      exact List.forall_mem_cons.2
        ⟨start.append (unfenced_cons (by decide) (by decide) []), ih unfenced_nil read⟩
    · rename_i other
      rw [if_neg other] at read
      split at read
      · cases read
      · rename_i shut
        refine ih ?_ (by rwa [List.all_cons])
        rw [List.reverse_cons, Unfenced, List.dropWhile_append]
        split
        · rename_i blanks
          rw [List.isEmpty_iff, List.dropWhile_eq_nil_iff] at blanks
          have all : line.all (· = ' ') = true :=
            List.all_eq_true.2 fun d member => blanks d (List.mem_reverse.2 member)
          rw [all, Bool.true_and, decide_eq_true_eq] at shut
          by_cases space : c = ' '
          · rw [space]
            exact unfenced_nil.cons_blank
          · exact unfenced_cons space shut []
        · rename_i full
          rw [List.head?_append_of_ne_nil _ fun empty => full (by rw [empty]; rfl)]
          exact start

/-- A text that is read to its end has no fence. -/
theorem unfenced_of_scan {text : String} (read : (scan true text.toList).isSome = true) :
    ∀ l ∈ Diff.lines text, Unfenced l.toList := by
  refine List.forall_mem_map.2 fun l member => ?_
  have start : Unfenced [].reverse := unfenced_nil
  rw [String.toList_ofList]
  exact unfenced_linesFrom start read l member

/-! ## Canonical text -/

/-- Whether a character may stand in a number. -/
def isNumeral (c : Char) : Bool := Decimal.isDigit c || c ∈ ['.', '-', '+', 'e']

theorem scan_numeral {cs : List Char} (full : cs ≠ []) (h : ∀ c ∈ cs, isNumeral c = true)
    (blank : Bool) : scan blank cs = some false := by
  have ne {c d : Char} (numeral : isNumeral c = true) (other : isNumeral d = false) : c ≠ d := by
    rintro rfl
    rw [numeral] at other
    cases other
  obtain ⟨c, cs, rfl⟩ := List.exists_cons_of_ne_nil full
  obtain ⟨first, later⟩ := List.forall_mem_cons.1 h
  have plain : c ∉ ['\n', '`', ' '] := by
    simp only [List.mem_cons, List.not_mem_nil, or_false, not_or]
    exact ⟨ne first rfl, ne first rfl, ne first rfl⟩
  have unbroken : '\n' ∉ cs := fun member => ne (later _ member) (d := '\n') rfl rfl
  rw [scan_cons plain, scan_unbroken unbroken]

theorem isNumeral_of_mem_digits {n : Nat} : ∀ c ∈ Decimal.digits n, isNumeral c = true :=
  fun c member => by rw [isNumeral, Decimal.isDigit_of_mem_digits c member, Bool.true_or]

theorem digits_ne_nil (n : Nat) : Decimal.digits n ≠ [] := by
  obtain ⟨d, ds, eq, -⟩ := Decimal.digitsOnto_head (Nat.lt_succ_self n) []
  have eq : Decimal.digits n = Decimal.digitChar d :: ds := eq
  rw [eq]
  exact List.cons_ne_nil _ _

theorem writtenDecimal_numeral (d : Nat) (k : Int) :
    Binary64.writtenDecimal d k ≠ [] ∧ ∀ c ∈ Binary64.writtenDecimal d k, isNumeral c = true := by
  have digits := isNumeral_of_mem_digits (n := d)
  have zeros (n : Nat) : ∀ c ∈ List.replicate n '0', isNumeral c = true := fun c member => by
    rw [(List.mem_replicate.1 member).2]
    rfl
  have decimals : ∀ c ∈ ['.', '0'], isNumeral c = true :=
    List.forall_mem_cons.2 ⟨rfl, List.forall_mem_singleton.2 rfl⟩
  unfold Binary64.writtenDecimal
  simp only
  split
  · exact ⟨List.cons_ne_nil _ _, List.forall_mem_cons.2 ⟨rfl, decimals⟩⟩
  split
  · refine ⟨by simp, ?_⟩
    exact List.forall_mem_append.2 ⟨List.forall_mem_append.2 ⟨digits, zeros _⟩, decimals⟩
  split
  · refine ⟨by simp, List.forall_mem_append.2 ⟨?_, List.forall_mem_cons.2 ⟨rfl, ?_⟩⟩⟩
    · exact fun c member => digits c (List.mem_of_mem_take member)
    · exact fun c member => digits c (List.mem_of_mem_drop member)
  split
  · refine ⟨by simp, List.forall_mem_cons.2 ⟨rfl, List.forall_mem_cons.2 ⟨rfl, ?_⟩⟩⟩
    exact List.forall_mem_append.2 ⟨zeros _, digits⟩
  · have exponent (e : Int) : Binary64.exponentChars e ≠ [] ∧
        ∀ c ∈ Binary64.exponentChars e, isNumeral c = true := by
      unfold Binary64.exponentChars
      cases e <;> exact ⟨List.cons_ne_nil _ _, List.forall_mem_cons.2 ⟨rfl,
        List.forall_mem_cons.2 ⟨rfl, isNumeral_of_mem_digits⟩⟩⟩
    refine ⟨fun empty => (exponent _).1 (List.append_eq_nil_iff.1 empty).2, ?_⟩
    refine List.forall_mem_append.2 ⟨?_, (exponent _).2⟩
    split
    · exact List.forall_mem_nil _
    · rename_i c same
      rwa [same] at digits
    · rename_i c cs _ same
      rw [same] at digits
      obtain ⟨first, later⟩ := List.forall_mem_cons.1 digits
      exact List.forall_mem_cons.2 ⟨first, List.forall_mem_cons.2 ⟨rfl, later⟩⟩

theorem scan_numberChars (n : JsonNumber) (blank : Bool) :
    scan blank (Json.numberChars n) = some false := by
  have signed {cs : List Char} (h : ∀ c ∈ cs, isNumeral c = true) :
      scan blank ('-' :: cs) = some false :=
    scan_numeral (List.cons_ne_nil _ _) (List.forall_mem_cons.2 ⟨rfl, h⟩) blank
  cases n with
  | integer n =>
    cases n with
    | ofNat n => exact scan_numeral (digits_ne_nil n) isNumeral_of_mem_digits blank
    | negSucc n => exact signed isNumeral_of_mem_digits
  | float x =>
    obtain ⟨full, all⟩ := writtenDecimal_numeral x.shortest.1 x.shortest.2
    rw [Json.numberChars, Binary64.chars]
    simp only
    split
    · exact signed all
    · exact scan_numeral full all blank

theorem break_not_mem_escapeChar (c : Char) : '\n' ∉ Json.escapeChar c := by
  have hex {n : Nat} (small : n < 16) : '\n' ≠ Json.hexDigit n := by
    revert n
    decide
  unfold Json.escapeChar
  -- What stands for a quote, a backslash or a control character with a name is written out.
  iterate 4
    split
    · decide
  split
  · decide
  rename_i other
  iterate 2
    split
    · decide
  split
  · rename_i control
    have high : '\n' ≠ Json.hexDigit (c.toNat / 16) := hex (by omega)
    have low : '\n' ≠ Json.hexDigit (c.toNat % 16) := hex (by omega)
    simp [high, low]
  · exact fun member => other (List.mem_singleton.1 member).symm

theorem scan_quoted (s : String) (blank : Bool) : scan blank (Json.quoted s) = some false := by
  have rest : '\n' ∉ Json.escape s.toList ++ ['"'] := by
    rw [List.mem_append, not_or]
    refine ⟨fun member => ?_, by decide⟩
    obtain ⟨c, -, inside⟩ := List.mem_flatMap.1 member
    exact break_not_mem_escapeChar c inside
  rw [Json.quoted, scan_cons (by decide), scan_unbroken rest]

theorem break_not_mem_decimal (n : Nat) : '\n' ∉ (Decimal.text n).toList := by
  rw [Decimal.text, String.toList_ofList]
  exact fun member => absurd (Decimal.isDigit_of_mem_digits _ member) (by decide)

theorem scan_decimal (n : Nat) : scan false (Decimal.text n).toList = some false :=
  scan_unbroken (break_not_mem_decimal n)

theorem scan_newline (level : Nat) (blank : Bool) : scan blank (Json.newline level) = some true := by
  have blanks (n : Nat) : scan true (List.replicate n ' ') = some true := by
    induction n with
    | zero => rfl
    | succ n ih => rwa [List.replicate_succ, scan, if_neg (by decide), if_neg (by decide)]
  rw [Json.newline, scan, if_pos rfl, blanks]

theorem scan_blank : scan false [' '] = some false := rfl

mutual

/-- A document that is written on several lines has no fence. -/
theorem scan_laidOut (blank : Bool) (level : Nat) : (v : Json) →
    scan blank (Json.laidOut .indented level v) = some false
  | .null | .bool true | .bool false => by cases blank <;> simp [Json.laidOut] <;> rfl
  | .array [] | .object [] => by cases blank <;> simp [Json.laidOut] <;> rfl
  | .number n => by rw [Json.laidOut, scan_numberChars]
  | .string s => by rw [Json.laidOut, scan_quoted]
  | .array (v :: vs) => by
    have first := scan_laidOut true (level + 1) v
    have more := scan_moreItems (level + 1) vs
    simp (disch := decide) only [Json.laidOut, Json.Layout.gap_indented, scan_cons, scan_append,
      scan_newline, Option.bind_some, first, more, scan_nil]
  | .object ((k, v) :: ms) => by
    have first := scan_laidOut false (level + 1) v
    have more := scan_moreMembers (level + 1) ms
    simp (disch := decide) only [Json.laidOut, Json.Layout.gap_indented,
      Json.Layout.afterColon_indented, scan_cons, scan_append, scan_newline, scan_quoted,
      Option.bind_some, scan_blank, first, more, scan_nil]

theorem scan_moreItems (level : Nat) : (vs : List Json) →
    scan false (Json.moreItems .indented level vs) = some false
  | [] => rfl
  | v :: vs => by
    have first := scan_laidOut true level v
    have more := scan_moreItems level vs
    simp (disch := decide) only [Json.moreItems, Json.Layout.gap_indented, scan_cons, scan_append,
      scan_newline, Option.bind_some, first, more]

theorem scan_moreMembers (level : Nat) : (ms : List (String × Json)) →
    scan false (Json.moreMembers .indented level ms) = some false
  | [] => rfl
  | (k, v) :: ms => by
    have first := scan_laidOut false level v
    have more := scan_moreMembers level ms
    simp (disch := decide) only [Json.moreMembers, Json.Layout.gap_indented,
      Json.Layout.afterColon_indented, scan_cons, scan_append, scan_newline, scan_quoted,
      Option.bind_some, scan_blank, first, more]

end

/-- The canonical text of a document has no fence. -/
theorem unfenced_canonical (v : Json) : ∀ l ∈ Diff.lines v.canonical, Unfenced l.toList := by
  refine unfenced_of_scan ?_
  rw [Json.canonical, String.toList_ofList, Json.prettyChars_eq_laidOut, scan_append,
    scan_laidOut true 0 v]
  rfl

end Report

end WorkspaceLint
