/-!
# Binary numbers

The finite numbers with a mantissa of 53 binary digits, which JSON texts stand for where they do not
spell an integer. All arithmetic is exact up to one rounding at the end, to the nearest such number
and from the middle between two of them to the even one.
-/

namespace DiagnosticServer

/-- The number `mantissa * 2 ^ exponent`, or its negative. -/
structure Binary where
  /-- Whether the number is negative. There is a negative zero. -/
  negative : Bool
  /-- The mantissa. -/
  mantissa : Nat
  /-- The exponent, as small as the mantissa and `leastExponent` allow. -/
  exponent : Int
  /-- The mantissa is not too long. -/
  mantissa_lt : mantissa < Nat.pow 2 53
deriving DecidableEq, Repr

namespace Binary

/-- The exponent of the smallest numbers. -/
def leastExponent : Int := -1074

/-- The exponent of the largest numbers. -/
def greatestExponent : Int := 971

/-- The magnitude of a number is its numerator divided by its denominator. -/
def numerator (x : Binary) : Nat := x.mantissa * Nat.pow 2 x.exponent.toNat

/-- The denominator that belongs to the numerator. -/
def denominator (x : Binary) : Nat := Nat.pow 2 (-x.exponent).toNat

/-- The natural number nearest to `a / b`, and from the middle between two the even one. -/
def divideRounded (a b : Nat) : Nat :=
  let quotient := a / b
  let twice := 2 * (a % b)
  if twice < b ∨ twice = b ∧ quotient % 2 = 0 then quotient else quotient + 1

/-- The mantissa for `a / b` at an exponent. -/
def mantissaAt (a b : Nat) (exponent : Int) : Nat :=
  divideRounded (a * Nat.pow 2 (-exponent).toNat) (b * Nat.pow 2 exponent.toNat)

/-- The number nearest to `a / b`, unless it is too large. The logarithms give the exponent up to
two, and it is the least at which the mantissa is not too long. -/
def ofRatio? (negative : Bool) (a b : Nat) : Option Binary :=
  let start := max leastExponent ((a.log2 : Int) - (b.log2 : Int) - 53)
  let fitting := [start, start + 1, start + 2].find? fun e =>
    mantissaAt a b e < Nat.pow 2 53
  match found : fitting with
  | some e =>
    if e ≤ greatestExponent then
      some ⟨negative, mantissaAt a b e, e, by simpa using List.find?_some found⟩
    else none
  | none => none

/-- The number nearest to ten to a power. -/
def powerOfTen? (power : Nat) : Option Binary := ofRatio? false (Nat.pow 10 power) 1

/-- The largest power of ten that is a number. -/
def greatestPower : Nat := 308

/-- A number times ten to a power, unless that is too large. -/
def timesTen? (x : Binary) (power : Nat) : Option Binary :=
  if x.mantissa = 0 then some x
  else if power > greatestPower then none
  else do
    let factor ← powerOfTen? power
    ofRatio? x.negative (x.numerator * factor.numerator) (x.denominator * factor.denominator)

/-- A number divided by ten to a power, in steps of the largest power there is. -/
def overTen? (x : Binary) (power : Nat) : Option Binary :=
  if x.mantissa = 0 then some x
  else do
    let factor ← powerOfTen? (min power greatestPower)
    let next ← ofRatio? x.negative (x.numerator * factor.denominator)
      (x.denominator * factor.numerator)
    if power ≤ greatestPower then some next else overTen? next (power - greatestPower)
termination_by power
decreasing_by simp only [greatestPower] at *; omega

/-- The number for `digits * 10 ^ power`: the digits are rounded first, and then their product with
the power. -/
def ofDecimal? (negative : Bool) (digits : Nat) (power : Int) : Option Binary := do
  let x ← ofRatio? negative digits 1
  if 0 ≤ power then x.timesTen? power.toNat else x.overTen? (-power).toNat

end Binary

end DiagnosticServer
