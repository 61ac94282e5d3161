import DiagnosticServer.Number.Binary

/-!
# The shortest decimal of a binary number

Of the decimals that are rounded to a given binary number, those with the fewest digits are its
shortest, and of two the nearer is taken. The search goes through the lengths; each length has two
decimals that come into question, the neighbours of the number.
-/

namespace DiagnosticServer

/-- The number `digits * 10 ^ power`. -/
structure Decimal where
  /-- The digits. -/
  digits : Nat
  /-- The power of ten. -/
  power : Int
deriving DecidableEq, Repr

namespace Decimal

/-- Compares a decimal with `n * 2 ^ exponent`. -/
def compareBinary (d : Decimal) (n : Nat) (exponent : Int) : Ordering :=
  compare (d.digits * Nat.pow 10 d.power.toNat * Nat.pow 2 (-exponent).toNat)
    (n * Nat.pow 2 exponent.toNat * Nat.pow 10 (-d.power).toNat)

/-- The decimal without the zeros at its end, taking off at most `count`. -/
def trim (d : Decimal) : Nat → Decimal
  | 0 => d
  | count + 1 =>
    if d.digits ≠ 0 ∧ d.digits % 10 = 0 then trim ⟨d.digits / 10, d.power + 1⟩ count else d

end Decimal

namespace Binary

/-- Whether a decimal is rounded to the magnitude of a number: it lies between the middles to the
neighbours, or on one of them if the mantissa is even. Below the least mantissa of a length the
neighbour is half as far away. -/
def isReadFrom (x : Binary) (d : Decimal) : Bool :=
  let narrow := x.mantissa = Nat.pow 2 52 ∧ x.exponent > leastExponent
  let low := if narrow then 4 * x.mantissa - 1 else 4 * x.mantissa - 2
  let belongs (side : Ordering) (order : Ordering) : Bool :=
    order == side || (x.mantissa % 2 == 0 && order == .eq)
  belongs .gt (d.compareBinary low (x.exponent - 2)) &&
    belongs .lt (d.compareBinary (4 * x.mantissa + 2) (x.exponent - 2))

/-- The least power of ten above the magnitude of a number. No number is so small that its first
digit comes after four hundred places. -/
def scale (x : Binary) : Int :=
  (Nat.toDigits 10 (x.numerator * Nat.pow 10 400 / x.denominator)).length - 400

/-- The decimal with that many digits that is rounded to a number, if there is one. -/
def decimalOfLength? (x : Binary) (length : Nat) : Option Decimal :=
  let power := x.scale - length
  let a := x.numerator * Nat.pow 10 (-power).toNat
  let b := x.denominator * Nat.pow 10 power.toNat
  let below : Decimal := ⟨a / b, power⟩
  let above : Decimal := ⟨a / b + 1, power⟩
  match x.isReadFrom below, x.isReadFrom above with
  | true, true => some ⟨divideRounded a b, power⟩
  | true, false => some below
  | false, true => some above
  | false, false => none

/-- The shortest decimal of the magnitude of a number. Seventeen digits are always enough. -/
def shortest (x : Binary) : Decimal :=
  if x.mantissa = 0 then ⟨0, 0⟩
  else
    let found := [1, 2, 3, 4, 5, 6, 7, 8, 9, 10, 11, 12, 13, 14, 15, 16, 17].findSome?
      x.decimalOfLength?
    (found.getD ⟨x.numerator, 0⟩).trim 17

end Binary

end DiagnosticServer
