/-
  From a raw text to its tokens.

  A text is validated, scanned into lexemes, and each lexeme becomes one token. The one choice is
  the minus sign: where an operand is due (at the start, after an operator, after an opening
  parenthesis) it is a negation, if the configuration wants that, and a subtraction otherwise.
  A scan that succeeds leaves nothing for the later steps to refuse, as long as every literal is
  read; the refusals are there all the same.
-/
import InfixArithmetic.Validation
import InfixArithmetic.Lexeme
import InfixArithmetic.Token

namespace InfixArithmetic

/-- The failure to read the token that starts at `position`. -/
def unreadable (position : Nat) : EvalError :=
  .tokenizationFailed position <|
    if position = 0 then "expected tokens"
    else "expected EOI, number, operator, left_paren, or right_paren"

/-- The operator of a symbol: a minus sign is a negation if `atOperand` holds. -/
def operatorOfSymbol (atOperand : Bool) (symbol : Char) : Except EvalError Operator :=
  match Operator.ofSymbol? symbol with
  | none => .error (.unknownOperator (String.singleton symbol))
  | some .sub => .ok (if atOperand then .neg else .sub)
  | some op => .ok op

namespace Token

variable {α : Type} [Arithmetic α]

/-- The token of a lexeme; `atOperand` says whether a minus sign is a negation here. -/
def ofLexeme (atOperand : Bool) : Lexeme → Except EvalError (Token α)
  | .number literal =>
    match Arithmetic.readLiteral? literal with
    | none => .error (.invalidNumber (String.ofList literal))
    | some value => .ok (.number value)
  | .operator symbol => do
    let op ← operatorOfSymbol atOperand symbol
    .ok (.operator op)
  | .openParen => .ok .openParen
  | .closeParen => .ok .closeParen

/-- The tokens of a row of lexemes; `operandDue` says whether an operand is due before the first. -/
def ofLexemes (unaryMinus operandDue : Bool) : List Lexeme → Except EvalError (List (Token α))
  | [] => .ok []
  | l :: ls => do
    let token ← ofLexeme (unaryMinus && operandDue) l
    let tokens ← ofLexemes unaryMinus token.expectsOperand ls
    .ok (token :: tokens)

/-- The tokens of a stripped text. -/
def ofStripped (unaryMinus : Bool) (stripped : List Char) : Except EvalError (List (Token α)) :=
  match Lexeme.scan stripped with
  | .error position => .error (unreadable position)
  | .ok lexemes => do
    let tokens ← ofLexemes unaryMinus true lexemes
    if tokens.isEmpty then .error (.tokenizationFailed 0 "no tokens found") else .ok tokens

end Token

/-- The tokens of a raw text. -/
def tokenize {α : Type} [Arithmetic α] (config : Config) (text : String) :
    Except EvalError (List (Token α)) := do
  let stripped ← validate config text
  Token.ofStripped config.unaryMinus stripped.toList

end InfixArithmetic
