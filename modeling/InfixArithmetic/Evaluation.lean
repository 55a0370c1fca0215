/-
  Evaluation of raw texts: tokens, then their reduction, with a log.
-/
import InfixArithmetic.Log
import InfixArithmetic.Tokenization
import InfixArithmetic.Reduction.Basic

namespace InfixArithmetic

/-- The outcome of an evaluation and what was logged on the way. -/
structure Evaluation (α : Type) where
  log : List Event
  result : Except EvalError α

/-- The entry that closes the log of an evaluation: none after a value. -/
def closing {α : Type} : Except EvalError α → List Event
  | .ok _ => []
  | .error e => [.failed e]

section

variable {α : Type} [Arithmetic α]

/-- The evaluation of one text. -/
def evaluation (config : Config) (text : String) : Evaluation α :=
  match tokenize config text with
  | .error e => ⟨closing (.error e : Except EvalError α), .error e⟩
  | .ok tokens =>
    let reduction : Traced α := reduce tokens
    ⟨.reducing tokens.length text.utf8ByteSize ::
        (reduction.trace.map Event.applied ++ closing reduction.result),
      reduction.result⟩

/-- The value of one text. -/
def evaluate (config : Config) (text : String) : Except EvalError α :=
  (evaluation config text).result

/-- The values of several texts, each on its own. -/
def evaluateBatch (config : Config) (texts : List String) : List (Except EvalError α) :=
  texts.map (evaluate config)

end

end InfixArithmetic
