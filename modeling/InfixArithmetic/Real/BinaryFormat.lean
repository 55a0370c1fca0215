/-
  Binary floating-point formats, and rounding of a quotient into one.

  A format with precision `p` and scale `s` has the finite non-negative values `k / 2 ^ s`, where
  `k` (the magnitude) is below `2 ^ p` or a multiple of the power of two that leaves `p` significant
  bits. The encodings of these values are `0, 1, 2, …` in increasing order, which is what makes
  `nearest` short: an exponent step and a rounded significand are added, a significand that rounds
  up to the next power of two carries into the exponent, and the first encoding past the last
  finite value is infinity. `magnitude` decodes, `nearest` encodes.
-/
namespace InfixArithmetic

/-- A binary interchange format, by its non-negative encodings. -/
structure BinaryFormat where
  /-- Significant bits of a normal value, the leading one included. -/
  precision : Nat
  /-- The least positive value is `2 ^ -scale`. -/
  scale : Nat
  /-- The encoding of infinity; those below it are the finite values. -/
  infinity : Nat
  deriving DecidableEq, Repr

namespace BinaryFormat

/-- The format of 64 bits: 53 significant bits, eleven for the exponent. -/
def binary64 : BinaryFormat := ⟨53, 1074, 0x7ff0000000000000⟩

/-- The format of 32 bits: 24 significant bits, eight for the exponent. -/
def binary32 : BinaryFormat := ⟨24, 149, 0x7f800000⟩

/-- The quotient to the nearest integer, a tie to the even one. -/
def roundHalfEven (num den : Nat) : Nat :=
  let q := num / den
  let r := num % den
  if den < 2 * r ∨ (den = 2 * r ∧ q % 2 = 1) then q + 1 else q

/-- How many low bits of the quotient, in units of the least positive value, are beyond the
precision. -/
def excess (format : BinaryFormat) (num den : Nat) : Nat :=
  (num * Nat.pow 2 format.scale / den).log2 + 1 - format.precision

/-- The encoding nearest to `num / den`, a tie to the even significand; what is too large becomes
infinity, what is too small zero. -/
def nearest (format : BinaryFormat) (num den : Nat) : Nat :=
  let j := format.excess num den
  min format.infinity
    (j * Nat.pow 2 (format.precision - 1) +
      roundHalfEven (num * Nat.pow 2 format.scale) (den * Nat.pow 2 j))

/-- The value of a finite encoding, in units of the least positive value. -/
def magnitude (format : BinaryFormat) (bits : Nat) : Nat :=
  let hidden := Nat.pow 2 (format.precision - 1)
  let exponent := bits / hidden
  let fraction := bits % hidden
  if exponent = 0 then fraction else (hidden + fraction) * Nat.pow 2 (exponent - 1)

end BinaryFormat

end InfixArithmetic
