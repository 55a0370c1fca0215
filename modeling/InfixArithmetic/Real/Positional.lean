/-
  The text of a floating-point value.

  Always positional, whatever the size: the whole part, and after a point the digits of the
  fraction down to the last one that is not zero. There is no point without a fraction and never an
  exponent. A minus sign stands before negative values, zero included; the infinities are `inf`
  and `-inf`, and what is not a number is `NaN`, without a sign.
-/
import InfixArithmetic.Real.Shortest

namespace InfixArithmetic

/-- The digits of `fraction / 10 ^ places` after the point, down to the last one that is not
zero. -/
def fractionDigits : Nat → Nat → List Char
  | 0, _ => []
  | places + 1, fraction =>
    if fraction = 0 then []
    else
      Nat.digitChar (fraction / Nat.pow 10 places) ::
        fractionDigits places (fraction % Nat.pow 10 places)

/-- The characters of `decimal / 10 ^ places`. -/
def positional (places decimal : Nat) : List Char :=
  let fraction := decimal % Nat.pow 10 places
  Nat.toDigits 10 (decimal / Nat.pow 10 places) ++
    if fraction = 0 then [] else '.' :: fractionDigits places fraction

namespace BinaryFormat

/-- The encoding of a negative value is that of its opposite and this bit. -/
def signBit (format : BinaryFormat) : Nat := format.infinity + Nat.pow 2 (format.precision - 1)

/-- The text of a value without its sign. -/
def unsignedText (format : BinaryFormat) (bits : Nat) : String :=
  if bits < format.infinity then
    String.ofList (positional format.scale (format.shortestDecimal bits))
  else "inf"

/-- The text of a value given by its encoding. -/
def text (format : BinaryFormat) (bits : Nat) : String :=
  let unsigned := bits % format.signBit
  if format.infinity < unsigned then "NaN"
  else if bits < format.signBit then format.unsignedText unsigned
  else "-" ++ format.unsignedText unsigned

end BinaryFormat

/-- The text of a number of 64 bits: the fewest digits that read back as it. -/
def realText (x : Float) : String := BinaryFormat.binary64.text x.toBits.toNat

end InfixArithmetic
