/-
  The shortest decimal that reads back as a given finite value.

  Decimals are numbers of units of `10 ^ -scale`; every value of the format is a whole number of
  them, since `1 / 2 ^ scale = 5 ^ scale / 10 ^ scale`. The grids of one, two, three, … significant
  digits are tried in turn, and on each the value's two neighbours: if any decimal of that grid
  reads back, one of the neighbours does. Of two that do, the nearer is taken, and the upper one
  when they are equally near.
-/
import InfixArithmetic.Real.BinaryFormat

namespace InfixArithmetic

namespace BinaryFormat

/-- Whether a decimal rounds to the value with the given encoding. -/
def readsBack (format : BinaryFormat) (bits decimal : Nat) : Bool :=
  format.nearest decimal (Nat.pow 10 format.scale) == bits

/-- The value of a finite encoding as a decimal, exactly. -/
def exactDecimal (format : BinaryFormat) (bits : Nat) : Nat :=
  format.magnitude bits * Nat.pow 5 format.scale

/-- The multiple of `step` that reads back, out of the two around the value. -/
def onGrid? (format : BinaryFormat) (bits step : Nat) : Option Nat :=
  let exact := format.exactDecimal bits
  let low := exact / step * step
  let high := low + step
  match format.readsBack bits low, format.readsBack bits high with
  | true, true => some (if exact - low < high - exact then low else high)
  | true, false => some low
  | false, true => some high
  | false, false => none

/-- The decimal of fewest significant digits that reads back. -/
def shortestDecimal (format : BinaryFormat) (bits : Nat) : Nat :=
  let exact := format.exactDecimal bits
  let digits := (Nat.toDigits 10 exact).length
  ((List.range digits).findSome? fun n =>
    format.onGrid? bits (Nat.pow 10 (digits - 1 - n))).getD exact

end BinaryFormat

end InfixArithmetic
