/-!
# Decimal numerals

The decimal digits of a natural number, the numeral they spell, and the value of a run of digits.
`value_digits` says that reading the digits of a number gives the number back.
-/

namespace WorkspaceLint

namespace Decimal

/-- The character of the digit `d`, for `d < 10`. -/
def digitChar (d : Nat) : Char := Char.ofNat (48 + d)

/-- The value of a decimal digit. -/
def digitValue? (c : Char) : Option Nat :=
  if '0' ≤ c ∧ c ≤ '9' then some (c.toNat - 48) else none

/-- Whether `c` is one of the ten decimal digits. -/
def isDigit (c : Char) : Bool := (digitValue? c).isSome

/-- The digits of `n` in front of `acc`, with `fuel` bounding their number. -/
def digitsOnto : (fuel : Nat) → (n : Nat) → (acc : List Char) → List Char
  | 0, _, acc => acc
  | fuel + 1, n, acc =>
    if n < 10 then digitChar n :: acc
    else digitsOnto fuel (n / 10) (digitChar (n % 10) :: acc)

/-- The decimal digits of `n`, most significant first, without leading zeros. -/
def digits (n : Nat) : List Char := digitsOnto (n + 1) n []

/-- The value of a run of digits read after the value `acc`; other characters count as zero. -/
def valueFrom (acc : Nat) : List Char → Nat
  | [] => acc
  | c :: cs => valueFrom (10 * acc + (digitValue? c).getD 0) cs

/-- The value of a run of digits. -/
def value (cs : List Char) : Nat := valueFrom 0 cs

/-- The numeral of a natural number. -/
def text (n : Nat) : String := String.ofList (digits n)

/-- The numeral of an integer: a minus sign in front of the digits of a negative one. -/
def integerChars : Int → List Char
  | .ofNat n => digits n
  | .negSucc n => '-' :: digits (n + 1)

/-- `n` as a numeral of at least `width` digits, filled up with zeros. -/
def padded (width n : Nat) : List Char :=
  let ds := digits n
  List.replicate (width - ds.length) '0' ++ ds

/-! ### Reading digits back -/

theorem digitValue_digitChar {d : Nat} (h : d < 10) : digitValue? (digitChar d) = some d := by
  revert d
  decide

theorem digitsOnto_eq_append (fuel n : Nat) (acc : List Char) :
    digitsOnto fuel n acc = digitsOnto fuel n [] ++ acc := by
  induction fuel generalizing n acc with
  | zero => rfl
  | succ fuel ih =>
    simp only [digitsOnto]
    split
    · rfl
    · rw [ih _ (_ :: acc), ih _ [_], List.append_assoc, List.singleton_append]

theorem valueFrom_append (acc : Nat) (cs ds : List Char) :
    valueFrom acc (cs ++ ds) = valueFrom (valueFrom acc cs) ds := by
  induction cs generalizing acc with
  | nil => rfl
  | cons c cs ih => exact ih _

theorem value_digitsOnto {fuel n : Nat} (h : n < fuel) : value (digitsOnto fuel n []) = n := by
  induction fuel generalizing n with
  | zero => omega
  | succ fuel ih =>
    rw [digitsOnto]
    split
    · rename_i small
      simp [value, valueFrom, digitValue_digitChar small]
    · have lower : value (digitsOnto fuel (n / 10) []) = n / 10 := ih (by omega)
      rw [value] at lower
      rw [digitsOnto_eq_append, value, valueFrom_append, lower, valueFrom, valueFrom,
        digitValue_digitChar (by omega), Option.getD_some]
      omega

theorem value_digits (n : Nat) : value (digits n) = n := value_digitsOnto (Nat.lt_succ_self n)

end Decimal

end WorkspaceLint
