import ConfigDiagnostics.Decimal.Binary64

/-!
# The shortest decimal of a double

Many decimals have the same double as the nearest one: those between the midpoints to its two
neighbours, the midpoints too when the double's last binary digit is even. Of these, the shortest
is a multiple of the greatest possible power of ten, and of two such the one nearer to the double.

All comparisons are between whole numbers of quarter units, a quarter of `2 ^ -1074`, because a
midpoint may fall on a quarter.

## Main definitions

* `Binary64.roundingRange`: the quarter units that round to a double
* `Binary64.shortest`: the shortest decimal that rounds to a double
* `Binary64.text`: a double in a decimal layout
-/

namespace ConfigDiagnostics.Binary64

/-- The double's last binary digit is zero, so that ties go to it. -/
def isEven (number : Binary64) : Bool :=
  number.units / spacing number.units % 2 == 0

/-- The least and the greatest quarter unit that round to the double, its midpoints. The gap
below a power of two is half the gap above, unless it is already the least possible. -/
def roundingRange (number : Binary64) : Nat × Nat :=
  let step := spacing number.units
  let isPower := number.units = step * Nat.pow 2 (precision - 1)
  let below := if isPower ∧ 1 < step then step else 2 * step
  (4 * number.units - below, 4 * number.units + 2 * step)

/-- The point with the given index on the grid of multiples of `10 ^ power`, and a magnitude of
some quarter units, as whole numbers on one scale. -/
def onGrid (power : Int) (index : Nat) : Nat :=
  index * Nat.pow 10 power.toNat * Nat.pow 2 (unitExponent + 2)

/-- See `onGrid`. -/
def ofQuarters (power : Int) (quarters : Nat) : Nat :=
  quarters * Nat.pow 10 (-power).toNat

/-- The multiple of `10 ^ power` that rounds to the double and is nearest to it, by its index; of
two equally near, the even one. -/
def gridIndex? (number : Binary64) (power : Int) : Option Nat :=
  let exact := ofQuarters power (4 * number.units)
  let least := ofQuarters power number.roundingRange.1
  let greatest := ofQuarters power number.roundingRange.2
  let roundsBack (index : Nat) : Bool :=
    let point := onGrid power index
    if number.isEven then least ≤ point && point ≤ greatest
    else least < point && point < greatest
  let below := exact / onGrid power 1
  let above := below + 1
  match roundsBack below, roundsBack above with
  | true, true =>
    let down := exact - onGrid power below
    let up := onGrid power above - exact
    some (if down < up ∨ (down = up ∧ below % 2 = 0) then below else above)
  | true, false => some below
  | false, true => some above
  | false, false => none

/-- The point that rounds to the double on the first grid that has one, going down from the powers
of ten at `start`. -/
def coarsest (number : Binary64) (start : Int) : Nat → Decimal
  | 0 => ⟨0, 0⟩
  | steps + 1 =>
    match number.gridIndex? start with
    | some index => ⟨index, start⟩
    | none => number.coarsest (start - 1) steps

/-- A power of ten that is greater than the double and all that rounds to it: `2 ^ k` is less
than `10 ^ (k * 0.30103 + 1)` for every `k` that occurs. -/
def greaterPower (number : Binary64) : Int :=
  ((number.units.log2 + 1 : Nat) - unitExponent : Int) * 30103 / 100000 + 2

/-- The shortest decimal that rounds to the double's magnitude. As 17 digits always suffice,
the search ends within twenty powers of ten below the double. -/
def shortest (number : Binary64) : Decimal :=
  if number.units = 0 then ⟨0, 0⟩ else number.coarsest number.greaterPower 24

/-- The double as its shortest decimal in a layout, with a minus sign where it has one. -/
def text (layout : Decimal.Layout) (number : Binary64) : String :=
  (if number.negative then "-" else "") ++ number.shortest.text layout

end ConfigDiagnostics.Binary64
