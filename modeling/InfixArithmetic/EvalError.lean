/-
  The ways an evaluation can fail, by cause, and the one text of each.

  All but `unknownOperator` describe a fault of the caller's text. Every message is one line: the
  parts that come from the text are quoted (`InfixArithmetic.Text.Quoted`).
-/
import InfixArithmetic.Operator
import InfixArithmetic.Text.Quoted

namespace InfixArithmetic

/-- Why an evaluation has no value. -/
inductive EvalError where
  /-- The raw text has more bytes than allowed. -/
  | inputTooLong (length limit : Nat)
  /-- A character outside the alphabet, by its index in the raw text. -/
  | invalidCharacter (character : Char) (position : Nat)
  /-- No token can be read at this byte of the stripped text. -/
  | tokenizationFailed (position : Nat) (message : String)
  /-- A number token that denotes no number. -/
  | invalidNumber (literal : String)
  /-- A closing parenthesis that closes nothing. -/
  | unbalancedParentheses
  /-- An operator that finds too few operands. -/
  | stackUnderflow (operator : Operator) (needed available : Nat)
  /-- At the end, not exactly one operand with nothing left waiting. -/
  | malformedExpression (operands pending : Nat)
  /-- An operator token that is no operator. -/
  | unknownOperator (symbol : String)
  deriving DecidableEq, Repr

namespace EvalError

/-- Whether the fault lies in the evaluator and not in the text. -/
def isInternal : EvalError → Bool
  | unknownOperator _ => true
  | _ => false

/-- The text shown to the user. -/
def message : EvalError → String
  | inputTooLong length limit =>
    s!"expression is {length} bytes long; the limit is {limit}"
  | invalidCharacter character position =>
    s!"invalid character {Text.quoteChar character} at position {position}"
  | tokenizationFailed position message =>
    s!"could not read a token at position {position}: {message}"
  | invalidNumber literal =>
    s!"{Text.quoteString literal} is not a valid number"
  | unbalancedParentheses =>
    "closing parenthesis has no matching opener"
  | stackUnderflow operator needed available =>
    s!"operator `{operator.symbol}` needs {needed} operand(s) but only {available} available"
  | malformedExpression operands pending =>
    s!"expression did not reduce to a single value ({operands} operand(s), {pending} pending " ++
      "operator(s) or parentheses)"
  | unknownOperator symbol =>
    s!"unknown operator `{symbol}`"

end EvalError

/-- Two steps succeed exactly if the first one does, and the second one with its value. -/
theorem bind_eq_ok_iff {ε α β : Type} {x : Except ε α} {f : α → Except ε β} {b : β} :
    x >>= f = .ok b ↔ ∃ a, x = .ok a ∧ f a = .ok b := by
  cases x with
  | error e => exact ⟨fun h => (nomatch h), fun ⟨_, h, _⟩ => (nomatch h)⟩
  | ok a => exact ⟨fun h => ⟨a, rfl, h⟩, fun ⟨_, h, hf⟩ => Except.ok.inj h ▸ hf⟩

/-- Two steps fail exactly if the first one does, or the second one with its value. -/
theorem bind_eq_error_iff {ε α β : Type} {x : Except ε α} {f : α → Except ε β} {e : ε} :
    x >>= f = .error e ↔ x = .error e ∨ ∃ a, x = .ok a ∧ f a = .error e := by
  cases x with
  | error e' => simp [bind, Except.bind]
  | ok a => simp [bind, Except.bind]

end InfixArithmetic
