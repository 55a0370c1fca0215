/-
  What is logged, as data, and the line of each entry.
-/
import InfixArithmetic.Config
import InfixArithmetic.Traced

namespace InfixArithmetic

/-- An entry of the log. -/
inductive Event where
  /-- The configuration of a run is settled. -/
  | configured (config : Config)
  /-- A text was read, and its tokens are about to be reduced. -/
  | reducing (tokens bytes : Nat)
  /-- An operator was applied. -/
  | applied (application : Applied)
  /-- The evaluation ended with an error. -/
  | failed (error : EvalError)
  /-- A variable of the environment is set to what cannot be read. -/
  | ignored (setting : Setting) (value : String)
  deriving DecidableEq, Repr

namespace Event

/-- How much an event matters. -/
def level : Event → String
  | configured _ | reducing .. | failed _ => "DEBUG"
  | applied _ => "TRACE"
  | ignored .. => "WARN"

/-- What an event says. -/
def text : Event → String
  | configured config => s!"Using {config.text}"
  | reducing tokens bytes => s!"Reducing {tokens} token(s) from {bytes} byte expression"
  | applied application =>
    s!"Applied `{application.operator.symbol}`, {application.operands} operand(s) on stack"
  | failed error => s!"Evaluation failed: {error.message}"
  | ignored setting value =>
    s!"Ignoring {setting.variable}={Text.quoteString value}: not {setting.expected}"

/-- The line of an event. -/
def line (event : Event) : String := event.level ++ " " ++ event.text

/-! ## Lines -/

theorem line_reducing (tokens bytes : Nat) :
    line (reducing tokens bytes) = "DEBUG Reducing " ++ toString tokens ++ " token(s) from " ++
      toString bytes ++ " byte expression" := by
  have hstart : "DEBUG Reducing " = "DEBUG" ++ " " ++ "Reducing " := by decide
  unfold line level text
  rw [hstart]
  simp only [String.append_assoc]
  rfl

theorem line_applied (op : Operator) (operands : Nat) :
    line (applied ⟨op, operands⟩) = "TRACE Applied `" ++ toString op.symbol ++ "`, " ++
      toString operands ++ " operand(s) on stack" := by
  have hstart : "TRACE Applied `" = "TRACE" ++ " " ++ "Applied `" := by decide
  unfold line level text
  rw [hstart]
  simp only [String.append_assoc]
  rfl

theorem line_failed (e : EvalError) :
    line (failed e) = "DEBUG Evaluation failed: " ++ e.message := by
  have hstart : "DEBUG Evaluation failed: " = "DEBUG" ++ " " ++ "Evaluation failed: " := by decide
  unfold line level text
  rw [hstart, String.append_assoc]
  rfl

theorem line_ignored (setting : Setting) (value : String) :
    line (ignored setting value) = "WARN Ignoring " ++ setting.variable ++ "=" ++
      Text.quoteString value ++ (": not " ++ setting.expected) := by
  have hstart : "WARN Ignoring " = "WARN" ++ " " ++ "Ignoring " := by decide
  unfold line level text
  rw [hstart]
  simp only [String.append_assoc]
  rfl

end Event

end InfixArithmetic
