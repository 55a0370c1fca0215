/-
  Options as a user chooses them, the words that write them, and the variables that say the same.
-/
import InfixArithmetic.Calculator.Options

namespace InfixArithmetic.Calculator

/-- One option with its value. -/
inductive Choice where
  /-- A limit on the length; the numeral is a word of its own or joined to the option. -/
  | maxInputLen (numeral : String) (joined : Bool)
  | integersOnly
  | noUnaryMinus
  deriving DecidableEq, Repr

namespace Choice

/-- The words of an option. -/
def words : Choice → List String
  | maxInputLen numeral true => ["--max-input-len=" ++ numeral]
  | maxInputLen numeral false => ["--max-input-len", numeral]
  | integersOnly => ["--integers-only"]
  | noUnaryMinus => ["--no-unary-minus"]

/-- The options with one more chosen, if it can be. -/
def addTo? (options : Options) : Choice → Option Options
  | maxInputLen numeral _ => options.withMaxInputLen? numeral
  | integersOnly => options.withIntegersOnly?
  | noUnaryMinus => options.withNoUnaryMinus?

/-- The field of the configuration that an option sets. -/
def setting : Choice → Setting
  | maxInputLen _ _ => .maxInputLen
  | integersOnly => .decimals
  | noUnaryMinus => .unaryMinus

/-- The value of the field's variable that says what the option says. -/
def value : Choice → String
  | maxInputLen numeral _ => numeral
  | integersOnly | noUnaryMinus => "0"

end Choice

/-- Whether an option may stand right behind the words: options are read up to there, and none waits
for its value. With `awaitsLimit` the word before was the option for the limit. -/
def Request.optionDue (awaitsLimit : Bool) : List String → Bool
  | [] => !awaitsLimit
  | word :: words =>
    if awaitsLimit then optionDue false words
    else
      match Mark.ofWord word with
      | .separator | .expression => false
      | .maxInputLen => optionDue true words
      | _ => optionDue false words

end InfixArithmetic.Calculator
