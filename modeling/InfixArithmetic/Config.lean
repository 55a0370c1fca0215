/-
  What can be set about an evaluation. The settings concern the reading of a text; a token list is
  reduced in one way only.
-/
namespace InfixArithmetic

/-- A configuration; without further word, the default one. -/
structure Config where
  /-- Texts of more bytes than this are refused unread. -/
  maxInputLen : Nat := 4096
  /-- Whether literals may have a decimal point. -/
  decimals : Bool := true
  /-- Whether a minus sign where an operand is due is a negation. -/
  unaryMinus : Bool := true
  deriving DecidableEq, Repr

/-- The configuration with the names of its fields, as the log shows it. -/
def Config.text (config : Config) : String :=
  s!"EvaluatorConfig \x7b max_input_len: {config.maxInputLen}, decimals: {config.decimals}, " ++
    s!"unary_minus: {config.unaryMinus} \x7d"

/-- The fields of a configuration, as they are set from outside. -/
inductive Setting where
  | maxInputLen
  | decimals
  | unaryMinus
  deriving DecidableEq, Repr

/-- The environment variable that sets the field. -/
def Setting.variable : Setting → String
  | maxInputLen => "INFIX_MAX_INPUT_LEN"
  | decimals => "INFIX_DECIMALS"
  | unaryMinus => "INFIX_UNARY_MINUS"

/-- What a value must be for the field. -/
def Setting.expected : Setting → String
  | maxInputLen => "an integer"
  | decimals | unaryMinus => "a boolean"

end InfixArithmetic
