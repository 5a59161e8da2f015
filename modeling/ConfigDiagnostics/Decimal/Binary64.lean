import ConfigDiagnostics.Decimal.Layout

/-!
# Double-precision numbers

A finite double is a whole number of units of `2 ^ -1074`, the least positive double, of which
only the leading 53 binary digits may differ from zero. Products and quotients go to the nearest
such number, and to the one with the even last digit when two are equally near.

A decimal is read in steps: its coefficient as a double, its power of ten as a double, then their
product or quotient. As each step rounds, the result may be a neighbour of the nearest double.

## Main definitions

* `Binary64`: a finite double, by its sign and its number of units
* `Binary64.product`, `Binary64.quotient`: rounded arithmetic on numbers of units
* `Binary64.ofDecimal?`: the double that a decimal is read as
-/

namespace ConfigDiagnostics

/-- A finite double: its sign, which zero has too, and its magnitude in units of `2 ^ -1074`. -/
structure Binary64 where
  negative : Bool
  units : Nat
  deriving DecidableEq, Repr

namespace Binary64

/-- The number of binary digits of a double's significand. -/
def precision : Nat := 53

/-- The exponent of the unit in which magnitudes are counted is `-unitExponent`. -/
def unitExponent : Nat := 1074

/-- Magnitudes stay below this many units: a greater one is not finite. -/
def unitLimit : Nat := Nat.pow 2 (1024 + unitExponent)

/-- The quotient rounded to the nearest whole number, a tie to the even one. -/
def roundedQuotient (numerator denominator : Nat) : Nat :=
  let quotient := numerator / denominator
  let twice := 2 * (numerator % denominator)
  if denominator < twice ∨ (twice = denominator ∧ quotient % 2 = 1) then quotient + 1 else quotient

/-- The units between neighbouring doubles whose magnitude is about `units`. -/
def spacing (units : Nat) : Nat :=
  Nat.pow 2 (units.log2 + 1 - precision)

/-- The double nearest to `numerator / denominator` units, as its number of units. -/
def nearestUnits (numerator denominator : Nat) : Nat :=
  let step := spacing (numerator / denominator)
  roundedQuotient numerator (denominator * step) * step

/-- The units of the double nearest to a whole number. -/
def unitsOf (value : Nat) : Nat :=
  nearestUnits (value * Nat.pow 2 unitExponent) 1

/-- The units of the double nearest to a product, with no bound above. -/
def product (left right : Nat) : Nat :=
  nearestUnits (left * right) (Nat.pow 2 unitExponent)

/-- The units of the double nearest to a quotient. -/
def quotient (left right : Nat) : Nat :=
  nearestUnits (left * Nat.pow 2 unitExponent) right

/-- The exponent of the greatest power of ten that is finite as a double. -/
def greatestPower : Nat := 308

/-- The units of the double nearest to `10 ^ power`. -/
def powerOfTen (power : Nat) : Nat :=
  unitsOf (Nat.pow 10 power)

/-- The units of a double times `10 ^ power`; none if that power is not finite, unless the double
is zero. -/
def raised? (units power : Nat) : Option Nat :=
  if power ≤ greatestPower then some (product units (powerOfTen power))
  else if units = 0 then some 0
  else none

/-- The units of a double divided by `10 ^ power`, in steps that are finite powers of ten. -/
def lowered (units power : Nat) : Nat :=
  if power ≤ greatestPower then quotient units (powerOfTen power)
  else if units = 0 then 0
  else lowered (quotient units (powerOfTen greatestPower)) (power - greatestPower)
termination_by power
decreasing_by
  have : 0 < greatestPower := by decide
  omega

/-- The units of the double that a decimal is read as, with no bound above. -/
def unitsOfDecimal? (number : Decimal) : Option Nat :=
  if 0 ≤ number.power then raised? (unitsOf number.coefficient) number.power.toNat
  else some (lowered (unitsOf number.coefficient) (-number.power).toNat)

/-- The double that a decimal with the given sign is read as; none if it is not finite. -/
def ofDecimal? (negative : Bool) (number : Decimal) : Option Binary64 :=
  match unitsOfDecimal? number with
  | some units => if units < unitLimit then some ⟨negative, units⟩ else none
  | none => none

end Binary64

end ConfigDiagnostics
