/-
  Rows of lexemes as they stand in a text, and the runs of digits and points in it.

  A row is written by putting the characters of its lexemes one behind the other, and it can be read
  again if each lexeme is one of the language and no two numbers are neighbours. A run is a stretch
  of digits and points that cannot be made longer; it is a number if it has a digit and no two
  points.
-/
import InfixArithmetic.Lexeme

namespace InfixArithmetic

namespace Lexeme

/-! ## Rows -/

/-- Whether a lexeme is one of the language. -/
def IsValid : Lexeme → Prop
  | number literal => IsLiteral literal
  | operator symbol => isOperatorSymbol symbol
  | openParen | closeParen => True

/-- Whether a lexeme is a number. -/
def isNumber : Lexeme → Bool
  | number _ => true
  | _ => false

/-- Whether no two numbers are neighbours. -/
def Separated : List Lexeme → Prop
  | l :: l' :: ls => ¬(l.isNumber ∧ l'.isNumber) ∧ Separated (l' :: ls)
  | _ => True

/-- The characters of a row. -/
def textOf (ls : List Lexeme) : List Char := ls.flatMap text

/-- Whether an operand is due right after a lexeme. -/
def expectsOperand : Lexeme → Bool
  | operator _ | openParen => true
  | number _ | closeParen => false

/-- Whether an operand is due at an index of a row: at the start, after an operator, or after an
opening parenthesis. -/
def OperandDue (ls : List Lexeme) (i : Nat) : Prop :=
  i = 0 ∨ ∃ l, ls[i - 1]? = some l ∧ l.expectsOperand

/-! ## Runs -/

/-- The characters of numbers. -/
def isNumberChar (c : Char) : Bool := c.isDigit || c == '.'

end Lexeme

end InfixArithmetic
