/-
  The infix grammar: which trees are derivations.

  Sums and differences are made of products, products and quotients of factors, both from the left;
  a factor is a row of minus signs before a primary, if negation is in use; a primary is a number or
  an expression in parentheses. A text or a token list is derivable if it is what some derivation
  writes.
-/
import InfixArithmetic.Expression.Basic

namespace InfixArithmetic

/-- The symbols of the grammar. -/
inductive Category where
  | expression
  | term
  | factor
  | primary
  deriving DecidableEq, Repr

namespace Expression

variable {ν : Type}

/-- The rules of the grammar, with negation only if `unaryMinus` is set. -/
inductive Derives (unaryMinus : Bool) : Category → Expression ν → Prop where
  | sum {op lhs rhs} (isSum : op = .add ∨ op = .sub) :
      Derives unaryMinus .expression lhs → Derives unaryMinus .term rhs →
      Derives unaryMinus .expression (binary op lhs rhs)
  | ofTerm {e} : Derives unaryMinus .term e → Derives unaryMinus .expression e
  | product {op lhs rhs} (isProduct : op = .mul ∨ op = .div) :
      Derives unaryMinus .term lhs → Derives unaryMinus .factor rhs →
      Derives unaryMinus .term (binary op lhs rhs)
  | ofFactor {e} : Derives unaryMinus .factor e → Derives unaryMinus .term e
  | minus {e} (isNegation : unaryMinus = true) :
      Derives unaryMinus .factor e → Derives unaryMinus .factor (negation e)
  | ofPrimary {e} : Derives unaryMinus .primary e → Derives unaryMinus .factor e
  | literal (leaf : ν) : Derives unaryMinus .primary (number leaf)
  | parentheses {e} : Derives unaryMinus .expression e → Derives unaryMinus .primary (group e)

end Expression

/-- The literals of a configuration: without a point if decimals are off. -/
def IsLiteralOf (decimals : Bool) (text : List Char) : Prop :=
  IsLiteral text ∧ (decimals = false → '.' ∉ text)

/-- Whether a tree writes a text, with the literals and operators of a configuration. -/
def Expression.Writes (unaryMinus decimals : Bool) (text : List Char)
    (e : Expression (List Char)) : Prop :=
  e.Derives unaryMinus .expression ∧ (∀ literal ∈ e.leaves, IsLiteralOf decimals literal) ∧
    e.text = text

/-- Whether the grammar derives a text. -/
def IsDerivable (unaryMinus decimals : Bool) (text : List Char) : Prop :=
  ∃ e : Expression (List Char), e.Writes unaryMinus decimals text

/-- Whether two operands stand side by side somewhere in a text: a number or a closing parenthesis
before an opening one, or a closing parenthesis before a number. -/
def IsJuxtaposed (text : List Char) : Prop :=
  ∃ (before after : List Char) (a b : Char), text = before ++ a :: b :: after ∧
    (((a.isDigit ∨ a = '.' ∨ a = ')') ∧ b = '(') ∨ (a = ')' ∧ (b.isDigit ∨ b = '.')))

end InfixArithmetic
