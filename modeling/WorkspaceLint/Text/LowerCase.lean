import WorkspaceLint.Text.CaseData

/-!
# Small letters

The small letters of a text.  A capital sigma at the end of a word becomes a final sigma: a cased
letter comes before it and none after it, apart from characters that do not count for case.
-/

namespace WorkspaceLint

namespace Text

/-- Whether the number of a character is in one of the ranges. -/
def inRanges (ranges : List (Nat × Nat)) (c : Char) : Bool :=
  ranges.any fun r => r.1 ≤ c.toNat && c.toNat ≤ r.2

/-- Whether the first character of a text that counts for case is a letter with case. -/
def nextIsCased (cs : List Char) : Bool :=
  match cs.dropWhile (inRanges caseIgnorableRanges) with
  | [] => false
  | c :: _ => inRanges casedRanges c

/-- The run that a capital letter belongs to. -/
def CaseRun.covers (c : Char) (r : CaseRun) : Bool :=
  r.first ≤ c.toNat && c.toNat ≤ r.last && (c.toNat - r.first) % r.step == 0

/-- The small letters of a character that stands between `before`, nearest first, and `after`. -/
def lowerChar (before : List Char) (c : Char) (after : List Char) : List Char :=
  if c.toNat < 128 then [c.toLower]
  else if c = 'Σ' then
    [if nextIsCased before && !nextIsCased after then 'ς' else 'σ']
  else if c = 'İ' then ['i', '\u0307']
  else
    match caseRuns.find? (CaseRun.covers c) with
    | some r => [Char.ofNat ((c.toNat : Int) + r.shift).toNat]
    | none => [c]

/-- The small letters of a text after `before`, nearest first. -/
def lowerFrom (before : List Char) : List Char → List Char
  | [] => []
  | c :: cs => lowerChar before c cs ++ lowerFrom (c :: before) cs

/-- The small letters of a text. -/
def lower (cs : List Char) : List Char := lowerFrom [] cs

end Text

end WorkspaceLint
