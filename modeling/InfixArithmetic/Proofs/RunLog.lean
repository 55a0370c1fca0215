/-
  The log of a run beside what the run prints.

  With a silent logger the log and standard error are apart, but they tell of the same errors. The
  log of an answer holds a failure exactly if the answer is an error (`printed_logAnswer`), and what
  comes before the answers, warnings and the configuration, is no failure. So the errors on standard
  error are the failures of the log, one line each and in the same order; a line that is no text is
  all that is told beside them (`stderr_run`).
-/
import InfixArithmetic.Proofs.Framing

namespace InfixArithmetic.Calculator

/-! ## Entries -/

/-- The line on standard error that goes with an entry of the log. -/
def printedLine? : Event → Option String
  | .failed e => errorLine? (.error e)
  | _ => none

theorem printed_applied (trace : List Applied) :
    (trace.map Event.applied).filterMap printedLine? = [] := by
  rw [List.filterMap_map]
  exact List.filterMap_eq_nil_iff.mpr fun _ _ => rfl

theorem printed_closing (result : Except EvalError Float) :
    (closing result).filterMap printedLine? = [result].filterMap errorLine? := by
  cases result <;> rfl

/-- A variable leaves a warning at most. -/
theorem printed_overlay (config : Config) (setting : Setting) (value : Option Text.Bytes) :
    (config.overlay setting value).2.filterMap printedLine? = [] := by
  unfold Config.overlay
  split
  · rfl
  · split <;> rfl

theorem printed_ofEnvironment (environment : Environment) :
    (Config.ofEnvironment environment).2.filterMap printedLine? = [] := by
  simp only [Config.ofEnvironment, Setting.all, List.foldl_cons, List.foldl_nil,
    List.filterMap_append, printed_overlay, List.filterMap_nil, List.append_nil]

/-! ## Answers -/

variable {config : Config}

/-- The failure in the log of an answer is the error that it prints. -/
theorem printed_logAnswer (text : String) :
    (logAnswer config text).filterMap printedLine? =
      [evaluate config text].filterMap errorLine? := by
  unfold logAnswer evaluate evaluation
  cases htokens : (tokenize config text : Except EvalError (List (Token Float))) with
  | error e => rfl
  | ok tokens =>
    dsimp only
    rw [List.filterMap_cons_none rfl, List.filterMap_append, printed_applied, printed_closing]
    rfl

theorem stderr_answer (text : String) :
    (answer config text).stderr =
      Text.ofLines ((logAnswer config text).filterMap printedLine?) := by
  rw [answer_eq_framed, printed_logAnswer]
  rfl

theorem stderr_answerLine (text : String) :
    (answerLine config text).stderr =
      Text.ofLines ((logLine config text).filterMap printedLine?) := by
  unfold answerLine logLine
  cases Text.isBlankText text with
  | true => rfl
  | false => exact stderr_answer text

/-- What is printed about lines that are not all texts. -/
def unreadableText (lines : List Text.Bytes) : String :=
  if lines.all fun line => (Text.decode? line).isSome then "" else readFailureText

/-- The log ends where reading ends, so the last thing that is printed is that a line is no text. -/
theorem stderr_answerLines (lines : List Text.Bytes) :
    (answerLines config lines).stderr =
      Text.ofLines ((logLines config lines).filterMap printedLine?) ++ unreadableText lines := by
  induction lines with
  | nil => rfl
  | cons line lines ih =>
    cases hline : Text.decode? line with
    | none =>
      have htext : unreadableText (line :: lines) = readFailureText := by
        rw [unreadableText, List.all_cons, hline]
        rfl
      rw [answerLines_cons_of_none hline, logLines, hline, htext]
      rfl
    | some text =>
      have htext : unreadableText (line :: lines) = unreadableText lines := by
        rw [unreadableText, List.all_cons, hline]
        rfl
      rw [answerLines_cons line lines hline, logLines, hline, Transcript.stderr_append, ih, htext,
        stderr_answerLine, List.filterMap_append, Text.ofLines_append, String.append_assoc]

/-! ## Runs -/

/-- Standard error shows the failures of the log, one line each and in order, and behind them that
a line is no text, if standard input is read and has such a line. -/
theorem stderr_run (environment : Environment) {arguments words : List String} {options : Options}
    (h : Request.ofWords arguments = .calculate options words) (stdin : Text.Bytes) :
    (run environment arguments stdin).stderr =
      Text.ofLines ((log environment arguments stdin).filterMap printedLine?) ++
        if words = [] then unreadableText (Text.lines stdin) else "" := by
  have hprinted := printed_ofEnvironment environment
  unfold run log
  rw [h]
  dsimp only
  rw [List.filterMap_append, hprinted, List.nil_append, List.filterMap_cons_none rfl]
  cases words with
  | nil => exact stderr_answerLines _
  | cons word words => exact (stderr_answer _).trans String.append_empty.symm

-- the option has its effect on the configuration that is logged
example : (log (fun _ => none) ["--integers-only", "2 +"] []).map Event.line =
    ["DEBUG Using EvaluatorConfig \x7b max_input_len: 4096, decimals: false, " ++
        "unary_minus: true \x7d",
      "DEBUG Reducing 2 token(s) from 3 byte expression",
      "DEBUG Evaluation failed: operator `+` needs 2 operand(s) but only 1 available"] := by
  decide +kernel

end InfixArithmetic.Calculator
