/-
  What a reduction needs of its numbers: the four operations, negation, and a reader of unsigned
  decimal literals.

  Nothing is assumed of the operations. `ReadsLiterals` is the one law, needed where a text has to
  be read: every literal of the language denotes a number.
-/
namespace InfixArithmetic

/-- Numbers with the operations of infix arithmetic and a reader for literals. -/
class Arithmetic (α : Type) extends Add α, Sub α, Mul α, Div α, Neg α where
  /-- The number that the characters of a literal denote. -/
  readLiteral? : List Char → Option α

/-- A literal: digits, at most one point, and at least one digit around it. -/
def IsLiteral (text : List Char) : Prop :=
  ∃ whole fraction : List Char,
    (∀ c ∈ whole ++ fraction, c.isDigit) ∧ whole ++ fraction ≠ [] ∧
      ((text = whole ∧ fraction = []) ∨ text = whole ++ '.' :: fraction)

/-- Every literal is read. -/
class ReadsLiterals (α : Type) [Arithmetic α] : Prop where
  isSome_readLiteral? {text : List Char} :
    IsLiteral text → (Arithmetic.readLiteral? (α := α) text).isSome

end InfixArithmetic
