/-
  Decimal numerals: the value of a run of digits, and the numerals that settings and options accept.

  A numeral is an optional single plus sign and at least one ASCII digit; leading zeros are free,
  blanks and a minus sign are not. `readLength?` also refuses what does not fit a 64-bit word.
-/
namespace InfixArithmetic.Text

/-- The value of one digit. -/
def digitValue (c : Char) : Nat := c.toNat - '0'.toNat

/-- The value of a run of digits, most significant first. -/
def digitsValue (digits : List Char) : Nat :=
  digits.foldl (fun n c => 10 * n + digitValue c) 0

/-- The value of a non-empty run of digits and nothing else. -/
def readDigits? (cs : List Char) : Option Nat :=
  if cs ≠ [] ∧ cs.all Char.isDigit then some (digitsValue cs) else none

/-- The value of a numeral, with or without its plus sign. -/
def readNumeral? : List Char → Option Nat
  | '+' :: cs => readDigits? cs
  | cs => readDigits? cs

/-- The largest length: a 64-bit word of ones. -/
def maxLength : Nat := Nat.pow 2 64 - 1

/-- The value of a numeral that fits a 64-bit word. -/
def readLength? (cs : List Char) : Option Nat :=
  (readNumeral? cs).filter (· ≤ maxLength)

end InfixArithmetic.Text
