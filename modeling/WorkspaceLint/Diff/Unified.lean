import WorkspaceLint.Diff.Edits
import WorkspaceLint.Number.Decimal
import WorkspaceLint.Json.Printer

/-!
# Unified diffs

The edits between two texts, written line by line with three lines of context around them.
-/

namespace WorkspaceLint

namespace Diff

/-- The lines of a text with their line breaks; the last one may lack its own.  `line` is what was
read of the current line, last character first. -/
def linesFrom (line : List Char) : List Char → List (List Char)
  | [] => if line.isEmpty then [] else [line.reverse]
  | c :: cs =>
    if c = '\n' then ('\n' :: line).reverse :: linesFrom [] cs else linesFrom (c :: line) cs

/-- The lines of a text with their line breaks; the last one may lack its own. -/
def lines (text : String) : List String := (linesFrom [] text.toList).map String.ofList

/-- Lines that were replaced: the old lines `oldStart … oldEnd` by the new lines
`newStart … newEnd`. -/
structure Edit where
  oldStart : Nat
  oldEnd : Nat
  newStart : Nat
  newEnd : Nat
  deriving DecidableEq, Repr, Inhabited

/-- The edits of a script, next to each other taken together; `i` and `j` are the lines that were
passed on both sides, and `current` the edit that is still open. -/
def edits (i j : Nat) (current : Option Edit) : List Range → List Edit
  | [] => current.toList
  | r :: rest =>
    match r.kind with
    | .equal => current.toList ++ edits (i + r.length) (j + r.length) none rest
    | .delete =>
      let e := current.getD ⟨i, i, j, j⟩
      edits (i + r.length) j (some { e with oldEnd := e.oldEnd + r.length }) rest
    | .insert =>
      let e := current.getD ⟨i, i, j, j⟩
      edits i (j + r.length) (some { e with newEnd := e.newEnd + r.length }) rest

/-- The number of lines of context. -/
def contextLines : Nat := 3

/-- Lines marked with a leading character. -/
def marked (mark : String) (ls : List String) : List String := ls.map (mark ++ ·)

/-- Where the context after an edit ends on both sides. -/
def contextEnd (s : Sides) (e : Edit) : Nat × Nat :=
  let n := min contextLines (min (s.old.length - e.oldEnd) (s.new.length - e.newEnd))
  (e.oldEnd + n, e.newEnd + n)

/-- The lines that an edit replaces and those that replace them. -/
def editLines (s : Sides) (e : Edit) : List String :=
  marked "-" (slice s.old e.oldStart (e.oldEnd - e.oldStart)) ++
    marked "+" (slice s.new e.newStart (e.newEnd - e.newStart))

/-- The context after an edit, up to the line `newEnd` of the new side. -/
def contextAfter (s : Sides) (e : Edit) (newEnd : Nat) : List String :=
  marked " " (slice s.new e.newEnd (newEnd - e.newEnd))

/-- Whether the edit `f` starts within the context after `e`. -/
def joins (s : Sides) (e f : Edit) : Bool :=
  min f.oldStart (s.old.length - 1) - contextLines < (contextEnd s e).1

/-- The lines of a hunk from the edit `e` on, where it ends on both sides, and the edits after it.
An edit that starts within the context of the one before it belongs to the same hunk. -/
def hunkBody (s : Sides) : (e : Edit) → List Edit → List String × (Nat × Nat) × List Edit
  | e, [] => (editLines s e ++ contextAfter s e (contextEnd s e).2, contextEnd s e, [])
  | e, f :: rest =>
    if joins s e f then
      let gap := min (f.oldStart - e.oldEnd) (f.newStart - e.newEnd)
      let (body, finish, left) := hunkBody s f rest
      (editLines s e ++ contextAfter s e (e.newEnd + gap) ++ body, finish, left)
    else (editLines s e ++ contextAfter s e (contextEnd s e).2, contextEnd s e, f :: rest)

/-- The range of a hunk on one side: its first line counted from one, unless it is empty, and its
length, unless that is one. -/
def rangeText (start length : Nat) : String :=
  let first := Decimal.text (if 0 < length then start + 1 else start)
  if length = 1 then first else first ++ "," ++ Decimal.text length

/-- A line of a hunk as it is written: an empty line of context loses its mark, and a line without a
break is followed by a remark. -/
def lineText (line : String) : String :=
  if line = " \n" then "\n"
  else if line.toList.getLast? = some '\n' then line
  else line ++ "\n\\ No newline at end of file\n"

/-- The hunks of the given edits. -/
def hunks (s : Sides) : (fuel : Nat) → List Edit → String
  | 0, _ => ""
  | _ + 1, [] => ""
  | fuel + 1, e :: rest =>
    let oldStart := e.oldStart - contextLines
    let newStart := e.newStart - contextLines
    let (body, (oldEnd, newEnd), left) := hunkBody s e rest
    let body := marked " " (slice s.new newStart (e.newStart - newStart)) ++ body
    "@@ -" ++ rangeText oldStart (oldEnd - oldStart) ++
      " +" ++ rangeText newStart (newEnd - newStart) ++ " @@\n" ++
      String.join (body.map lineText) ++ hunks s fuel left

/-- The unified diff from `old` to `new`. -/
def unified (old new : String) : String :=
  let s : Sides := ⟨lines old, lines new⟩
  let es := edits 0 0 none (ranges s.old s.new)
  "--- original\n+++ modified\n" ++ hunks s es.length es

/-- The diff that turns `actual` into `expected`, where nothing stands for a missing file. -/
def text (expected actual : Option String) : String :=
  let head := match expected, actual with
    | some _, none => "file does not exist\n"
    | none, some _ => "file should not exist\n"
    | _, _ => ""
  head ++ unified (actual.getD "") (expected.getD "")

/-- The diff between the canonical texts of two documents. -/
def json (expected actual : Json) : String :=
  text (some expected.canonical) (some actual.canonical)

end Diff

end WorkspaceLint
