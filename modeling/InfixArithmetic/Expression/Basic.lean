/-
  Syntax trees of infix expressions, and four readings of a tree: its characters, its tokens, its
  value, and the applications that a postorder walk meets.

  The leaves are of any type: the characters of literals for a tree over a text, numbers for a tree
  over tokens. A tree keeps its parentheses, so its characters and tokens are determined.
  `Expression.Grammar` says which trees precedence allows.
-/
import InfixArithmetic.Token
import InfixArithmetic.Traced

namespace InfixArithmetic

/-- A syntax tree with leaves in `ν`. -/
inductive Expression (ν : Type) where
  | number (leaf : ν)
  | negation (operand : Expression ν)
  | binary (op : Operator) (lhs rhs : Expression ν)
  /-- An expression in parentheses. -/
  | group (inner : Expression ν)
  deriving DecidableEq, Repr

namespace Expression

variable {ν : Type}

/-- The leaves from left to right. -/
def leaves : Expression ν → List ν
  | number leaf => [leaf]
  | negation operand => operand.leaves
  | binary _ lhs rhs => lhs.leaves ++ rhs.leaves
  | group inner => inner.leaves

/-- How deep parentheses are nested. -/
def nesting : Expression ν → Nat
  | number _ => 0
  | negation operand => operand.nesting
  | binary _ lhs rhs => max lhs.nesting rhs.nesting
  | group inner => inner.nesting + 1

/-! ## Writing -/

/-- The characters of a tree over literals. -/
def text : Expression (List Char) → List Char
  | number literal => literal
  | negation operand => '-' :: operand.text
  | binary op lhs rhs => lhs.text ++ op.symbol :: rhs.text
  | group inner => '(' :: (inner.text ++ [')'])

/-- The tokens of a tree over numbers. -/
def tokens : Expression ν → List (Token ν)
  | number value => [.number value]
  | negation operand => .operator .neg :: operand.tokens
  | binary op lhs rhs => lhs.tokens ++ .operator op :: rhs.tokens
  | group inner => .openParen :: (inner.tokens ++ [.closeParen])

/-! ## Meaning -/

/-- The tree with its literals read, if all of them can be. -/
def read? {α : Type} [Arithmetic α] : Expression (List Char) → Option (Expression α)
  | number literal => (Arithmetic.readLiteral? literal).map number
  | negation operand => operand.read?.map negation
  | binary op lhs rhs => lhs.read?.bind fun lhs => rhs.read?.map (binary op lhs)
  | group inner => inner.read?.map group

/-- The value: each operation on the values of its operands, the left one first. -/
def value {α : Type} [Arithmetic α] : Expression α → α
  | number value => value
  | negation operand => -operand.value
  | binary .add lhs rhs => lhs.value + rhs.value
  | binary .sub lhs rhs => lhs.value - rhs.value
  | binary .mul lhs rhs => lhs.value * rhs.value
  | binary .div lhs rhs => lhs.value / rhs.value
  -- no tree of the grammar has a negation between two operands
  | binary .neg _ rhs => -rhs.value
  | group inner => inner.value

/-- An operator is applied to the values of its operands. -/
theorem value_binary {α : Type} [Arithmetic α] (op : Operator) (lhs rhs : Expression α) :
    (binary op lhs rhs).value = op.applyBinary lhs.value rhs.value := by
  cases op <;> rfl

/-- The applications of a walk over left operand, right operand and operator, while `waiting`
left operands of enclosing operators wait. -/
def applications (waiting : Nat) : Expression ν → List Applied
  | number _ => []
  | negation operand => operand.applications waiting ++ [⟨.neg, waiting + 1⟩]
  | binary op lhs rhs =>
    lhs.applications waiting ++ rhs.applications (waiting + 1) ++ [⟨op, waiting + 1⟩]
  | group inner => inner.applications waiting

end Expression

end InfixArithmetic
