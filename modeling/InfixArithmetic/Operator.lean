/-
  The operators of infix arithmetic: four binary ones on two levels, and a negation that stands
  before its operand and binds tightest.

  `resolvesBefore` is the whole precedence rule: it says when an operator that waits must be
  applied because another one arrives. Everything a reduction does with precedence goes through it.
  A minus sign writes both subtraction and negation (`symbol`), and reading a symbol gives the
  binary operator (`ofSymbol?_symbol`); which of the two is meant is decided by position, in
  `InfixArithmetic.Token`.
-/
import InfixArithmetic.Arithmetic

namespace InfixArithmetic

/-- An operator of the language. -/
inductive Operator where
  | add
  | sub
  | mul
  | div
  /-- Negation, written before its operand. -/
  | neg
  deriving DecidableEq, Repr

namespace Operator

/-! ## Symbols -/

/-- The character that writes the operator. -/
def symbol : Operator → Char
  | add => '+'
  | sub => '-'
  | mul => '*'
  | div => '/'
  | neg => '-'

/-- The binary operator that a character writes. -/
def ofSymbol? : Char → Option Operator
  | '+' => some add
  | '-' => some sub
  | '*' => some mul
  | '/' => some div
  | _ => none

/-- The binary operator that a text writes: its symbol and nothing else. -/
def ofText? (text : String) : Option Operator :=
  match text.toList with
  | [c] => ofSymbol? c
  | _ => none

/-! ## Precedence and arity -/

/-- Binding strength; the higher binds tighter. -/
def precedence : Operator → Nat
  | add | sub => 1
  | mul | div => 2
  | neg => 3

/-- The number of operands that an application consumes. -/
def arity : Operator → Nat
  | neg => 1
  | _ => 2

/-- Whether one operand is enough. -/
def isUnary (op : Operator) : Bool := op.arity == 1

/-- Whether `op`, waiting for its right operand, is applied before `incoming` starts to wait.
A unary operator has no left operand, so it resolves nothing; among equals the left one is
applied first. -/
def resolvesBefore (op incoming : Operator) : Bool :=
  !incoming.isUnary && incoming.precedence ≤ op.precedence

/-! ## Application -/

section Application

variable {α : Type} [Arithmetic α]

/-- The value of `lhs op rhs`. Negation has no left operand and ignores `lhs`. -/
def applyBinary (op : Operator) (lhs rhs : α) : α :=
  match op with
  | add => lhs + rhs
  | sub => lhs - rhs
  | mul => lhs * rhs
  | div => lhs / rhs
  | neg => -rhs

/-- The value of `op x`. A binary operator leaves a lone operand as it is. -/
def applyUnary (op : Operator) (x : α) : α :=
  match op with
  | neg => -x
  | _ => x

/-- The value of `op` on arguments in reading order, if there are as many as it takes. -/
def applyTo? (op : Operator) : List α → Option α
  | [x] => if op.isUnary then some (op.applyUnary x) else none
  | [x, y] => some (op.applyBinary x y)
  | _ => none

end Application

/-! ## Laws -/

theorem ofSymbol?_symbol {op : Operator} (h : op.isUnary = false) :
    ofSymbol? op.symbol = some op := by
  cases op with
  | neg => cases h
  | _ => rfl

theorem isUnary_of_ofSymbol? {c : Char} {op : Operator} (h : ofSymbol? c = some op) :
    op.isUnary = false := by
  unfold ofSymbol? at h
  split at h <;> cases h <;> rfl

theorem symbol_of_ofSymbol? {c : Char} {op : Operator} (h : ofSymbol? c = some op) :
    op.symbol = c := by
  unfold ofSymbol? at h
  split at h <;> cases h <;> rfl

theorem isUnary_eq_true_iff {op : Operator} : op.isUnary = true ↔ op = neg := by
  cases op <;> decide

theorem arity_of_isUnary_eq_false {op : Operator} (h : op.isUnary = false) : op.arity = 2 := by
  cases op with
  | neg => cases h
  | _ => rfl

/-- A stack has too few operands for an operator, or it shows the ones that are consumed. -/
theorem arity_cases {α : Type} (op : Operator) (operands : List α) :
    operands.length < op.arity ∨ (op = neg ∧ ∃ x rest, operands = x :: rest) ∨
      (op.isUnary = false ∧ ∃ y x rest, operands = y :: x :: rest) := by
  cases hop : op.isUnary with
  | true =>
    obtain rfl := isUnary_eq_true_iff.1 hop
    cases operands with
    | nil => exact Or.inl Nat.zero_lt_one
    | cons x rest => exact Or.inr (Or.inl ⟨rfl, x, rest, rfl⟩)
  | false =>
    match operands with
    | [] | [_] => exact Or.inl (by rw [arity_of_isUnary_eq_false hop]; simp)
    | y :: x :: rest => exact Or.inr (Or.inr ⟨rfl, y, x, rest, rfl⟩)

theorem resolvesBefore_neg (op : Operator) : op.resolvesBefore neg = false := by
  cases op <;> rfl

end Operator

end InfixArithmetic
