/-
  The nodes of a syntax tree, each by the way that leads to it from the root.

  A binary operator has a left and a right branch; a negation and a pair of parentheses have one
  inside. So a way goes right at exactly those binary operators above its end that have it in their
  right operand. `postorder` lists the ways to the operators of a tree: those in the left operand,
  those in the right operand, and the one of the node itself.
-/
import InfixArithmetic.Expression.Basic

namespace InfixArithmetic

/-- A step from a node to one right below it. -/
inductive Branch where
  | left
  | right
  | inside
  deriving DecidableEq, Repr

namespace Expression

variable {ν : Type}

/-- The subtree that a way leads to, if it leads anywhere. -/
def subtree? : Expression ν → List Branch → Option (Expression ν)
  | e, [] => some e
  | binary _ lhs _, .left :: way => lhs.subtree? way
  | binary _ _ rhs, .right :: way => rhs.subtree? way
  | negation operand, .inside :: way => operand.subtree? way
  | group inner, .inside :: way => inner.subtree? way
  | _, _ :: _ => none

/-- The operator at the root. -/
def operator? : Expression ν → Option Operator
  | negation _ => some .neg
  | binary op _ _ => some op
  | number _ | group _ => none

/-- The operator that a way leads to. -/
def operatorAt? (e : Expression ν) (way : List Branch) : Option Operator :=
  (e.subtree? way).bind operator?

/-- The ways to the operators, in postorder. -/
def postorder : Expression ν → List (List Branch)
  | number _ => []
  | negation operand => operand.postorder.map (.inside :: ·) ++ [[]]
  | binary _ lhs rhs =>
    lhs.postorder.map (.left :: ·) ++ rhs.postorder.map (.right :: ·) ++ [[]]
  | group inner => inner.postorder.map (.inside :: ·)

end Expression

end InfixArithmetic
