/-
  The calculator: arguments, environment and standard input to a transcript and a log.

  Words are one expression, joined with spaces; standard input is then not read. Without words
  every line of standard input is an expression, blank lines apart, and is answered on its own. A
  line that is no text ends the run; the lines before it are answered.

  The logger is taken to be silent, as it is while its own variable of the environment is unset: no
  entry of the log shows in a transcript. The entries are data beside it (`log`). Of a run with
  options that cannot be used only the code is modelled (`misuseText`).
-/
import InfixArithmetic.Calculator.Options
import InfixArithmetic.Calculator.Transcript
import InfixArithmetic.Environment
import InfixArithmetic.Evaluation
import InfixArithmetic.Real.Literal
import InfixArithmetic.Real.Positional

namespace InfixArithmetic.Calculator

/-! ## Texts -/

/-- What `--version` prints. -/
def versionText : String := "infix-expr 0.1.0\n"

/-- What `--help` prints. -/
def helpText : String :=
"Infix arithmetic expression tokenizer and evaluator

Usage: infix-calc [OPTIONS] [EXPRESSION]...

Arguments:
  [EXPRESSION]...  Words are joined with spaces into a single expression

Options:
      --max-input-len <MAX_INPUT_LEN>  Reject inputs longer than this many bytes
      --integers-only                  Reject decimal points
      --no-unary-minus                 Treat every `-` as subtraction
  -h, --help                           Print help
  -V, --version                        Print version
"

/-- What is printed when the options cannot be used. It stands in for the text of the option parser
about the fault, which is not modelled. -/
def misuseText : String := "error: the options cannot be used as given, see --help\n"

/-- What is printed when a line is no text. -/
def readFailureText : String :=
  "Failed to read standard input: stream did not contain valid UTF-8\n"

/-! ## Answers -/

/-- The answer to one expression: its value, or what is wrong with it. -/
def answer (config : Config) (text : String) : Transcript :=
  match (evaluate config text : Except EvalError Float) with
  | .ok value => { stdout := s!"The result is {realText value}\n" }
  | .error e => { stderr := s!"Error calculating the expression: {e.message}\n", code := 1 }

/-- The answer to a line: nothing for a blank one. -/
def answerLine (config : Config) (text : String) : Transcript :=
  if Text.isBlankText text then .empty else answer config text

/-- The end of a run at a line that cannot be read. -/
def readFailure : Transcript := { stderr := readFailureText, code := 1 }

/-- The answers to lines, up to one that is no text. -/
def answerLines (config : Config) : List Text.Bytes → Transcript
  | [] => .empty
  | line :: lines =>
    match Text.decode? line with
    | none => readFailure
    | some text => answerLine config text ++ answerLines config lines

/-! ## Runs -/

/-- The configuration of a run. -/
def configOf (environment : Environment) (options : Options) : Config :=
  options.applyTo (Config.ofEnvironment environment).1

/-- The transcript of a run. -/
def run (environment : Environment) (arguments : List String) (stdin : Text.Bytes) : Transcript :=
  match Request.ofWords arguments with
  | .help => { stdout := helpText }
  | .version => { stdout := versionText }
  | .misuse => { stderr := misuseText, code := 2 }
  | .calculate options [] => answerLines (configOf environment options) (Text.lines stdin)
  | .calculate options words =>
    answer (configOf environment options) (" ".intercalate words)

/-! ## Logs -/

/-- What the answer to one expression leaves in the log. -/
def logAnswer (config : Config) (text : String) : List Event :=
  (evaluation config text : Evaluation Float).log

/-- What the answer to a line leaves in the log. -/
def logLine (config : Config) (text : String) : List Event :=
  if Text.isBlankText text then [] else logAnswer config text

/-- What the answers to lines leave in the log, up to one that is no text. -/
def logLines (config : Config) : List Text.Bytes → List Event
  | [] => []
  | line :: lines =>
    match Text.decode? line with
    | none => []
    | some text => logLine config text ++ logLines config lines

/-- The log of a run: the warnings of the environment, the configuration, then the answers. -/
def log (environment : Environment) (arguments : List String) (stdin : Text.Bytes) : List Event :=
  match Request.ofWords arguments with
  | .help | .version | .misuse => []
  | .calculate options words =>
    let config := configOf environment options
    (Config.ofEnvironment environment).2 ++ .configured config ::
      match words with
      | [] => logLines config (Text.lines stdin)
      | words => logAnswer config (" ".intercalate words)

end InfixArithmetic.Calculator
