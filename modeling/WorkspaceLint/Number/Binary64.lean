import WorkspaceLint.Number.Decimal

/-!
# Binary floating-point numbers

Finite binary64 numbers held exactly, as a sign, a significand and a power of two.  Every operation
computes the exact rational result and rounds it once, to the nearest number and in a tie to the
even significand, so nothing depends on the machine's arithmetic.

The module also holds the shortest decimal form of a number: the fewest digits that round back to
it, and among those the nearest to it.
-/

namespace WorkspaceLint

/-- A finite binary64 number, of value `± significand · 2 ^ exponent`. -/
structure Binary64 where
  negative : Bool
  significand : Nat
  exponent : Int
  deriving DecidableEq, Repr, Inhabited

namespace Binary64

/-- The least exponent: that of the subnormal numbers. -/
def minExponent : Int := -1074

/-- The greatest exponent of a finite number. -/
def maxExponent : Int := 971

/-- Zero with the given sign. -/
def zero (negative : Bool) : Binary64 := ⟨negative, 0, minExponent⟩

/-- Whether the number is one of the two zeros. -/
def isZero (x : Binary64) : Bool := x.significand == 0

/-- The number with the opposite sign. -/
def neg (x : Binary64) : Binary64 := { x with negative := !x.negative }

/-- The quotient `num / den` rounded to the nearest integer, a half to the even neighbour. -/
def roundDiv (num den : Nat) : Nat :=
  let q := num / den
  let r := num % den
  if 2 * r < den then q
  else if den < 2 * r then q + 1
  else if q % 2 = 0 then q else q + 1

/-- `num · 2 ^ (-e) / den` rounded to an integer. -/
def scaledRound (num den : Nat) (e : Int) : Nat :=
  match e with
  | .ofNat k => roundDiv num (den * Nat.pow 2 k)
  | .negSucc k => roundDiv (num * Nat.pow 2 (k + 1)) den

/-- The binary64 number nearest to `num / den`, or `none` when it is out of range. -/
def ofRatio (negative : Bool) (num den : Nat) : Option Binary64 :=
  if num = 0 then some (zero negative) else
  let guess : Int := (Nat.log2 num : Int) - (Nat.log2 den : Int) - 53
  let first := max guess minExponent
  -- the guess is at most two below the exponent that leaves 53 bits
  let settle (e : Int) : Int := if scaledRound num den e < Nat.pow 2 53 then e else e + 1
  let e := settle (settle first)
  let s := scaledRound num den e
  let (s, e) := if s = Nat.pow 2 53 then (Nat.pow 2 52, e + 1) else (s, e)
  if maxExponent < e then none else some ⟨negative, s, e⟩

/-- The nearest number to a natural number below `2 ^ 64`. -/
def ofNat (n : Nat) : Binary64 := (ofRatio false n 1).getD (zero false)

/-- The product rounded to a binary64 number, or `none` when it is out of range. -/
def mul (x y : Binary64) : Option Binary64 :=
  let s := x.significand * y.significand
  let negative := x.negative != y.negative
  match x.exponent + y.exponent with
  | .ofNat k => ofRatio negative (s * Nat.pow 2 k) 1
  | .negSucc k => ofRatio negative s (Nat.pow 2 (k + 1))

/-- The quotient rounded to a binary64 number, or `none` when it is out of range. -/
def div (x y : Binary64) : Option Binary64 :=
  let negative := x.negative != y.negative
  if y.isZero then none else
  match x.exponent - y.exponent with
  | .ofNat k => ofRatio negative (x.significand * Nat.pow 2 k) y.significand
  | .negSucc k => ofRatio negative x.significand (y.significand * Nat.pow 2 (k + 1))

/-- The number nearest to `10 ^ k`, for `k ≤ 308`. -/
def pow10 (k : Nat) : Binary64 := (ofRatio false (Nat.pow 10 k) 1).getD (zero false)

/-- Divide by `10 ^ 308` until the exponent is within the table of powers or nothing is left. -/
def scaleDown : (fuel : Nat) → Binary64 → (exponent : Nat) → Binary64
  | 0, _, _ => zero false
  | fuel + 1, x, exponent =>
    if exponent ≤ 308 then (x.div (pow10 exponent)).getD (zero false)
    else if x.isZero then x
    else scaleDown fuel ((x.div (pow10 308)).getD (zero false)) (exponent - 308)

/-- The number read from a significand and a power of ten: the significand is rounded first, then
multiplied or divided by a rounded power of ten.  `none` when it is out of range. -/
def ofScientific (significand : Nat) : (exponent : Int) → Option Binary64
  | .ofNat k =>
    let x := ofNat significand
    if k ≤ 308 then x.mul (pow10 k)
    else if x.isZero then some x
    else none
  | .negSucc k => some (scaleDown 4 (ofNat significand) (k + 1))

/-- The binary64 number nearest to `significand · 10 ^ exponent`, or `none` when it is out of
range. -/
def nearestScientific (significand : Nat) : (exponent : Int) → Option Binary64
  | .ofNat k =>
    if significand = 0 then some (zero false) else ofRatio false (significand * Nat.pow 10 k) 1
  | .negSucc k => ofRatio false significand (Nat.pow 10 (k + 1))

/-! ### The shortest decimal form -/

/-- The interval of reals that round to a number, over a common denominator. -/
structure Rounding where
  low : Nat
  mid : Nat
  high : Nat
  den : Nat
  /-- Whether the ends themselves round to the number. -/
  closed : Bool

/-- The reals that round to the absolute value of `x`. -/
def rounding (x : Binary64) : Rounding :=
  let s := x.significand
  let below := if s = Nat.pow 2 52 ∧ minExponent < x.exponent then 1 else 2
  let scaled (k : Nat) (den : Nat) : Rounding :=
    ⟨(4 * s - below) * k, 4 * s * k, (4 * s + 2) * k, den, s % 2 == 0⟩
  match x.exponent - 2 with
  | .ofNat k => scaled (Nat.pow 2 k) 1
  | .negSucc k => scaled 1 (Nat.pow 2 (k + 1))

/-- Whether `num / den` rounds to the number. -/
def Rounding.contains (r : Rounding) (num den : Nat) : Bool :=
  let low := r.low * den
  let high := r.high * den
  let n := num * r.den
  if r.closed then low ≤ n && n ≤ high else low < n && n < high

/-- The decimal exponent of `num / den`: the greatest `e` with `10 ^ e ≤ num / den`. -/
def decimalExponent (num den : Nat) : Int :=
  if den ≤ num then ((Decimal.digits (num / den)).length : Int) - 1
  else
    let rec below : (fuel : Nat) → (j : Nat) → Int
      | 0, j => -(j : Int)
      | fuel + 1, j => if den ≤ num * Nat.pow 10 j then -(j : Int) else below fuel (j + 1)
    below 400 1

/-- Of the two multiples of `10 ^ k` next to the number, the one that rounds to it; the nearer if
both do, the even one in a tie. -/
def onGrid (r : Rounding) (k : Int) : Option Nat :=
  let (num, den) := match k with
    | .ofNat j => (r.mid, r.den * Nat.pow 10 j)
    | .negSucc j => (r.mid * Nat.pow 10 (j + 1), r.den)
  let d := num / den
  let rest := num % den
  let fits (n : Nat) : Bool := match k with
    | .ofNat j => r.contains (n * Nat.pow 10 j) 1
    | .negSucc j => r.contains n (Nat.pow 10 (j + 1))
  match fits d, fits (d + 1) with
  | true, true =>
    if 2 * rest < den then some d
    else if den < 2 * rest then some (d + 1)
    else if d % 2 = 0 then some d else some (d + 1)
  | true, false => some d
  | false, true => some (d + 1)
  | false, false => none

/-- Drop trailing zeros of a decimal significand. -/
def dropZeros : (fuel : Nat) → Nat → Int → Nat × Int
  | 0, n, k => (n, k)
  | fuel + 1, n, k => if n % 10 = 0 ∧ n ≠ 0 then dropZeros fuel (n / 10) (k + 1) else (n, k)

/-- The fewest digits that round back to the absolute value of `x`, as `(digits, exponent)`. -/
def shortest (x : Binary64) : Nat × Int :=
  if x.isZero then (0, 0) else
  let r := x.rounding
  let top := decimalExponent r.mid r.den
  let rec search : (fuel : Nat) → (count : Nat) → Nat × Int
    | 0, _ => (0, 0)
    | fuel + 1, count =>
      let k := top - count
      match onGrid r k with
      | some d => dropZeros 20 d k
      | none => search fuel (count + 1)
  search 18 0

/-! ### The written form -/

/-- The exponent part of a written number, with its sign. -/
def exponentChars (e : Int) : List Char :=
  match e with
  | .ofNat n => 'e' :: '+' :: Decimal.digits n
  | .negSucc n => 'e' :: '-' :: Decimal.digits (n + 1)

/-- The written form of `d · 10 ^ k`: positional from `10 ^ -5` up to `10 ^ 16`, with at least one
digit on both sides of the point, and scientific with a signed exponent elsewhere. -/
def writtenDecimal (d : Nat) (k : Int) : List Char :=
  let ds := Decimal.digits d
  let point := (ds.length : Int) + k
  if d = 0 then ['0', '.', '0']
  else if 0 ≤ k ∧ point ≤ 16 then ds ++ List.replicate k.toNat '0' ++ ['.', '0']
  else if 0 < point ∧ point ≤ 16 then ds.take point.toNat ++ '.' :: ds.drop point.toNat
  else if -5 < point ∧ point ≤ 0 then '0' :: '.' :: (List.replicate (-point).toNat '0' ++ ds)
  else
    let mantissa := match ds with
      | [] => []
      | [c] => [c]
      | c :: cs => c :: '.' :: cs
    mantissa ++ exponentChars (point - 1)

/-- The written form of a number: its shortest decimal form, with a sign when negative. -/
def chars (x : Binary64) : List Char :=
  let (d, k) := x.shortest
  let body := writtenDecimal d k
  if x.negative then '-' :: body else body

end Binary64

end WorkspaceLint
