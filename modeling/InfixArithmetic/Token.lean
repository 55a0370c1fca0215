/-
  Tokens: numbers, operators and parentheses.
-/
import InfixArithmetic.Operator

namespace InfixArithmetic

/-- One unit of an expression. -/
inductive Token (α : Type) where
  /-- A literal; a negative number arises only by negation. -/
  | number (value : α)
  | operator (op : Operator)
  | openParen
  | closeParen
  deriving DecidableEq, Repr

/-- The token with a function applied to its number. -/
def Token.map {α β : Type} (f : α → β) : Token α → Token β
  | number value => number (f value)
  | operator op => operator op
  | openParen => openParen
  | closeParen => closeParen

/-- What is left of a token without its number. -/
def Token.shape {α : Type} (token : Token α) : Token Unit := token.map fun _ => ()

/-- Whether an operand is due right after the token. -/
def Token.expectsOperand {α : Type} : Token α → Bool
  | number _ => false
  | operator _ => true
  | openParen => true
  | closeParen => false

end InfixArithmetic
