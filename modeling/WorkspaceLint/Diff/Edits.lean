/-!
# Edit scripts between two lists of lines

An edit script is a list of ranges: lines that both sides share, lines that only the old side has
and lines that only the new side has.  It is found by following the furthest-reaching paths from
both ends until they meet, splitting both lists there, and going on with the parts.  Afterwards
every edit is moved as far up and then as far down as its text allows, so that edits next to each
other become one.
-/

namespace WorkspaceLint

namespace Diff

/-- What a range of lines is. -/
inductive Kind where
  | equal
  | delete
  | insert
  deriving DecidableEq, Repr, Inhabited

/-- A range of lines: where it starts on both sides and how many lines it has.  Only the side that
has the lines of an edit says where they are. -/
structure Range where
  kind : Kind
  old : Nat
  new : Nat
  length : Nat
  deriving DecidableEq, Repr, Inhabited

/-- The number of equal lines at the start of both lists. -/
def commonStart : List String → List String → Nat
  | a :: as, b :: bs => if a = b then commonStart as bs + 1 else 0
  | _, _ => 0

/-- The number of equal lines at the end of both lists. -/
def commonEnd (a b : List String) : Nat := commonStart a.reverse b.reverse

/-! ### The middle of a shortest path

The paths with `d` edits that reach furthest on each diagonal form a row: entry `i` is the reach on
the diagonal `d - 2 * i`. -/

/-- Where the path with `d` edits to entry `i` stands before it follows equal lines, given the row
of `d - 1` edits. -/
def stepFrom (d : Nat) (row : Array Int) (i : Nat) : Int :=
  let above := row.getD (i - 1) 0
  let here := row.getD i 0
  if i = d then above
  else if i = 0 then here + 1
  else if here < above then above
  else here + 1

/-- The row of `d` edits from the start of both lists, or the point where a path meets one of the
row `back` of paths from the end. -/
def forwardRow (a b : List String) (d : Nat) (row back : Array Int) :
    Except (Nat × Nat) (Array Int) :=
  let n : Int := a.length
  let m : Int := b.length
  let delta := n - m
  (List.range (d + 1)).foldlM (fun (next : Array Int) (i : Nat) =>
    let k : Int := (d : Int) - 2 * i
    let x := stepFrom d row i
    let y := x - k
    let run : Int :=
      if x ≤ n ∧ 0 ≤ y ∧ y ≤ m then commonStart (a.drop x.toNat) (b.drop y.toNat) else 0
    let reach := x + run
    let met :=
      if delta % 2 ≠ 0 ∧ (k - delta).natAbs + 1 ≤ d then
        n ≤ reach + back.getD (((d : Int) - 1 + (k - delta)) / 2).toNat 0
      else false
    if met then .error (x.toNat, y.toNat) else .ok (next.push reach)) #[]

/-- The row of `d` edits from the end of both lists, or the point where a path meets one of the row
`front` of paths from the start. -/
def backwardRow (a b : List String) (d : Nat) (row front : Array Int) :
    Except (Nat × Nat) (Array Int) :=
  let n : Int := a.length
  let m : Int := b.length
  let delta := n - m
  (List.range (d + 1)).foldlM (fun (next : Array Int) (i : Nat) =>
    let k : Int := (d : Int) - 2 * i
    let x := stepFrom d row i
    let y := x - k
    let run : Int :=
      if x < n ∧ 0 ≤ y ∧ y < m then commonEnd (a.take (n - x).toNat) (b.take (m - y).toNat) else 0
    let reach := x + run
    let met :=
      if delta % 2 = 0 ∧ (k - delta).natAbs ≤ d then
        n ≤ reach + front.getD (((d : Int) + (k - delta)) / 2).toNat 0
      else false
    if met then .error ((n - reach).toNat, (m - (y + run)).toNat) else .ok (next.push reach)) #[]

/-- A point in the middle of a shortest path from the start to the end of both lists. -/
def middle (a b : List String) : Option (Nat × Nat) :=
  let rec search : (fuel d : Nat) → (front back : Array Int) → Option (Nat × Nat)
    | 0, _, _, _ => none
    | fuel + 1, d, front, back =>
      match forwardRow a b d front back with
      | .error point => some point
      | .ok front =>
        match backwardRow a b d back front with
        | .error point => some point
        | .ok back => search fuel (d + 1) front back
  search ((a.length + b.length + 1) / 2 + 1) 0 #[] #[]

/-! ### The script -/

/-- The ranges between two lists that start at the lines `i` and `j`. -/
def script : (fuel : Nat) → (a b : List String) → (i j : Nat) → List Range
  | 0, _, _, _, _ => []
  | fuel + 1, a, b, i, j =>
    let p := commonStart a b
    let start := if p = 0 then [] else [⟨.equal, i, j, p⟩]
    let a := a.drop p
    let b := b.drop p
    let i := i + p
    let j := j + p
    let s := commonEnd a b
    let a := a.take (a.length - s)
    let b := b.take (b.length - s)
    let edits :=
      if a.isEmpty && b.isEmpty then []
      else if a.isEmpty then [⟨.insert, i, j, b.length⟩]
      else if b.isEmpty then [⟨.delete, i, j, a.length⟩]
      else
        match middle a b with
        | some (x, y) =>
          script fuel (a.take x) (b.take y) i j ++
            script fuel (a.drop x) (b.drop y) (i + x) (j + y)
        | none => [⟨.delete, i, j, a.length⟩, ⟨.insert, i, j, b.length⟩]
    let finish := if s = 0 then [] else [⟨.equal, i + a.length, j + b.length, s⟩]
    start ++ edits ++ finish

/-! ### Moving edits -/

/-- The lines `start … start + length`. -/
def slice (lines : List String) (start length : Nat) : List String := (lines.drop start).take length

/-- The two lists of lines that an edit script is about. -/
structure Sides where
  old : List String
  new : List String

/-- The lines of an edit. -/
def Sides.own (s : Sides) (r : Range) : List String :=
  match r.kind with
  | .delete => slice s.old r.old r.length
  | _ => slice s.new r.new r.length

/-- The lines of a shared range, taken from the side that the edit does not touch. -/
def Sides.shared (s : Sides) (edit : Kind) (r : Range) : List String :=
  match edit with
  | .delete => slice s.new r.new r.length
  | _ => slice s.old r.old r.length

/-- An edit inside a script: the ranges before it, nearest first, and those after it. -/
structure Focus where
  before : List Range
  edit : Range
  after : List Range

/-- Move an edit up by `n` lines of its own side. -/
def Range.up (n : Nat) (r : Range) : Range :=
  match r.kind with
  | .delete => { r with old := r.old - n }
  | _ => { r with new := r.new - n }

/-- Move an edit down by `n` lines of its own side. -/
def Range.down (n : Nat) (r : Range) : Range :=
  match r.kind with
  | .delete => { r with old := r.old + n }
  | _ => { r with new := r.new + n }

/-- Move an edit up past shared lines that repeat its end, past edits of the other kind, and into an
edit of its own kind. -/
def Focus.moveUp (s : Sides) : (fuel : Nat) → Focus → Focus
  | 0, f => f
  | fuel + 1, f =>
    match f.before with
    | [] => f
    | q :: qs =>
      let t := f.edit
      if q.kind = .equal then
        let n := commonEnd (s.own t) (s.shared t.kind q)
        if 0 < n then
          let fresh : Range :=
            if t.kind = .insert then ⟨.equal, q.old + q.length - n, t.new + t.length - n, n⟩
            else ⟨.equal, t.old + t.length - n, q.new + q.length - n, n⟩
          let after := match f.after with
            | e :: es =>
              if e.kind = .equal then ⟨.equal, e.old - n, e.new - n, e.length + n⟩ :: es
              else fresh :: e :: es
            | [] => [fresh]
          let before := if q.length = n then qs else { q with length := q.length - n } :: qs
          moveUp s fuel ⟨before, t.up n, after⟩
        else if q.length = 0 then moveUp s fuel { f with before := qs }
        else f
      else if q.kind ≠ t.kind then moveUp s fuel ⟨qs, t, q :: f.after⟩
      else moveUp s fuel ⟨qs, { q with length := q.length + t.length }, f.after⟩

/-- Move an edit down past shared lines that repeat its start, past edits of the other kind, and
merge it with an edit of its own kind. -/
def Focus.moveDown (s : Sides) : (fuel : Nat) → Focus → Focus
  | 0, f => f
  | fuel + 1, f =>
    match f.after with
    | [] => f
    | q :: qs =>
      let t := f.edit
      if q.kind = .equal then
        let n := commonStart (s.own t) (s.shared t.kind q)
        if 0 < n then
          let fresh : Range :=
            if t.kind = .insert then ⟨.equal, q.old, t.new, n⟩ else ⟨.equal, t.old, q.new, n⟩
          let before := match f.before with
            | e :: es =>
              if e.kind = .equal then { e with length := e.length + n } :: es
              else fresh :: e :: es
            | [] => [fresh]
          let after :=
            if q.length = n then qs else ⟨.equal, q.old + n, q.new + n, q.length - n⟩ :: qs
          moveDown s fuel ⟨before, t.down n, after⟩
        else if q.length = 0 then moveDown s fuel { f with after := qs }
        else f
      else if q.kind ≠ t.kind then moveDown s fuel ⟨q :: f.before, t, qs⟩
      else moveDown s fuel { f with edit := { t with length := t.length + q.length }, after := qs }

/-- Move every edit of one kind up and then down. -/
def settleKind (s : Sides) (kind : Kind) (steps : Nat) :
    (fuel : Nat) → (before after : List Range) → List Range
  | 0, before, after => before.reverse ++ after
  | _ + 1, before, [] => before.reverse
  | fuel + 1, before, t :: rest =>
    if t.kind = kind then
      let f := (Focus.moveUp s steps ⟨before, t, rest⟩).moveDown s steps
      settleKind s kind steps fuel (f.edit :: f.before) f.after
    else settleKind s kind steps fuel (t :: before) rest

/-- Move the deletions of a script, then its insertions. -/
def settle (s : Sides) (ranges : List Range) : List Range :=
  let steps := 4 * (s.old.length + s.new.length + ranges.length) + 8
  settleKind s .insert steps steps [] (settleKind s .delete steps steps [] ranges)

/-- The edit script from `old` to `new`. -/
def ranges (old new : List String) : List Range :=
  settle ⟨old, new⟩ (script (old.length + new.length + 1) old new 0 0)

end Diff

end WorkspaceLint
