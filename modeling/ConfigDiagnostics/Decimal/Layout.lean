/-!
# Decimal numerals and their layout

A decimal is a whole coefficient times a power of ten. How it is written is a separate decision:
near one it is written out in positions, elsewhere with an exponent. The decision is a value of
its own, so that a format states it once.

## Main definitions

* `Decimal`: a coefficient and a power of ten
* `Decimal.Layout`: how decimals are written
* `Decimal.text`: a decimal in a layout
-/

namespace ConfigDiagnostics

/-- The number `coefficient * 10 ^ power`. -/
structure Decimal where
  coefficient : Nat
  power : Int
  deriving DecidableEq, Repr

namespace Decimal

/-- How decimals are written. A number whose leading digit counts units of `10 ^ e` is positional
for `e` from `leastPositional` to `greatestPositional`, and has an exponent elsewhere. -/
structure Layout where
  leastPositional : Int
  greatestPositional : Int
  /-- What follows the digits of a positional whole number. -/
  wholeEnding : String
  /-- What stands between the digits and a positive or negative exponent. -/
  positiveMark : String
  negativeMark : String
  deriving DecidableEq, Repr

/-- The digits of the coefficient. -/
def digits (number : Decimal) : List Char :=
  Nat.toDigits 10 number.coefficient

/-- The power of ten that the leading digit counts. -/
def magnitude (number : Decimal) : Int :=
  number.power + (number.digits.length - 1)

/-- A number written out in positions. -/
def positional (layout : Layout) (number : Decimal) : String :=
  let digits := number.digits
  if 0 ≤ number.power then
    String.ofList (digits ++ List.replicate number.power.toNat '0') ++ layout.wholeEnding
  else if 0 ≤ number.magnitude then
    let whole := number.magnitude.toNat + 1
    String.ofList (digits.take whole ++ '.' :: digits.drop whole)
  else
    String.ofList ('0' :: '.' :: List.replicate (-number.magnitude - 1).toNat '0' ++ digits)

/-- A number with one digit before the point and an exponent. -/
def scientific (layout : Layout) (number : Decimal) : String :=
  let fraction := number.digits.drop 1
  let significand :=
    number.digits.take 1 ++ if fraction.isEmpty then [] else '.' :: fraction
  let mark := if number.magnitude < 0 then layout.negativeMark else layout.positiveMark
  String.ofList significand ++ mark ++ toString number.magnitude.natAbs

/-- A number as its layout has it: in positions near one, else with an exponent. -/
def text (layout : Layout) (number : Decimal) : String :=
  if layout.leastPositional ≤ number.magnitude ∧ number.magnitude ≤ layout.greatestPositional then
    number.positional layout
  else
    number.scientific layout

end Decimal

end ConfigDiagnostics
