/-
  Validation of a raw text: its length in bytes, its alphabet, and the removal of blanks.

  The length is looked at first. Then the first character that is neither blank nor in the alphabet
  is reported with its index among all characters of the raw text, blanks included.
-/
import InfixArithmetic.Config
import InfixArithmetic.EvalError
import InfixArithmetic.Text.Blank

namespace InfixArithmetic

/-- The characters of expressions; the point only with decimals. -/
def isAllowed (decimals : Bool) (c : Char) : Bool :=
  c.isDigit || c ∈ ['+', '-', '*', '/', '(', ')'] || (decimals && c == '.')

/-- The characters that are not blank, if all of them are allowed; `position` is the index of the
first one. -/
def strip (decimals : Bool) : Nat → List Char → Except EvalError (List Char)
  | _, [] => .ok []
  | position, c :: cs =>
    if Text.isBlank c then strip decimals (position + 1) cs
    else if isAllowed decimals c then do
      let rest ← strip decimals (position + 1) cs
      .ok (c :: rest)
    else .error (.invalidCharacter c position)

/-- The raw text without its blanks, or what is wrong with it. -/
def validate (config : Config) (text : String) : Except EvalError String :=
  if config.maxInputLen < text.utf8ByteSize then
    .error (.inputTooLong text.utf8ByteSize config.maxInputLen)
  else do
    let stripped ← strip config.decimals 0 text.toList
    .ok (String.ofList stripped)

end InfixArithmetic
