/-
  One line of input is answered by one line of output.

  The texts that standard input holds are answered one below the other (`framed`): a value on its
  own line of standard output, an error on its own line of standard error, and a blank line not at
  all. An error shows nothing of the text but what is quoted (`isPlain_message_of_evaluate`), so no
  answer takes more than its line, whatever characters the text holds.
-/
import InfixArithmetic.Proofs.Blame
import InfixArithmetic.Proofs.Messages
import InfixArithmetic.Proofs.StandardInput

namespace InfixArithmetic

open Text (isPlain isPlain_append)

/-! ## Messages -/

section

variable {α : Type} [Arithmetic α]

theorem isPlain_verbatim_unreadable (position : Nat) :
    isPlain (unreadable position).verbatim = true := by
  unfold unreadable EvalError.verbatim
  dsimp only
  split <;> decide

/-- What stops the reading of a text is a character, which is quoted, or a place in the text. -/
theorem isPlain_verbatim_of_tokenize {config : Config} {text : String} {e : EvalError}
    (h : tokenize (α := α) config text = .error e) : isPlain e.verbatim = true := by
  rcases bind_eq_error_iff.mp h with hvalidate | ⟨stripped, -, hstripped⟩
  · rcases validate_eq_error_iff.mp hvalidate with ⟨-, rfl⟩ | ⟨-, before, c, after, -, rfl⟩ <;> rfl
  · rcases Token.error_of_ofStripped hstripped with ⟨position, rfl⟩ | ⟨literal, -, -, rfl⟩
    · exact isPlain_verbatim_unreadable position
    · rfl

theorem isPlain_verbatim_of_reduce {tokens : List (Token α)} {e : EvalError}
    (h : (reduce tokens).result = .error e) : isPlain e.verbatim = true := by
  rcases error_of_reduce h with ⟨op, available, -, rfl⟩ | rfl | ⟨operands, pending, rfl⟩ <;> rfl

theorem isPlain_message_of_evaluate {config : Config} {text : String} {e : EvalError}
    (h : evaluate (α := α) config text = .error e) : isPlain e.message = true := by
  rw [EvalError.isPlain_message]
  cases htokens : tokenize (α := α) config text with
  | error e' =>
    rw [evaluate_of_tokenize_error htokens] at h
    cases h
    exact isPlain_verbatim_of_tokenize htokens
  | ok tokens =>
    rw [evaluate_of_tokenize htokens] at h
    exact isPlain_verbatim_of_reduce h

end

/-- Whatever is plain stands on one line. -/
theorem Text.isLine_of_isPlain {text : String} (h : isPlain text = true) : IsLine text where
  lineFeed_not_mem := not_mem_of_isPlain h rfl
  getLast?_ne := fun hlast => not_mem_of_isPlain h rfl (List.mem_of_getLast? hlast)

namespace Calculator

/-! ## Answers -/

/-- The texts that lines hold, blank ones apart. -/
def expressions (lines : List Text.Bytes) : List String :=
  (lines.filterMap Text.decode?).filter fun text => !Text.isBlankText text

theorem expressions_cons {line : Text.Bytes} {text : String} (h : Text.decode? line = some text)
    (lines : List Text.Bytes) :
    expressions (line :: lines) =
      if Text.isBlankText text then expressions lines else text :: expressions lines := by
  unfold expressions
  rw [List.filterMap_cons_some h, List.filter_cons]
  cases Text.isBlankText text <;> rfl

/-- The line that a value is printed on. -/
def valueLine? : Except EvalError Float → Option String
  | .ok value => some s!"The result is {realText value}"
  | .error _ => none

/-- The line that an error is printed on. -/
def errorLine? : Except EvalError Float → Option String
  | .ok _ => none
  | .error e => some s!"Error calculating the expression: {e.message}"

/-- Results printed one below the other; the code says whether there is an error. -/
def framed (results : List (Except EvalError Float)) : Transcript where
  stdout := Text.ofLines (results.filterMap valueLine?)
  stderr := Text.ofLines (results.filterMap errorLine?)
  code := if results.filterMap errorLine? = [] then 0 else 1

theorem framed_append (front back : List (Except EvalError Float)) :
    framed (front ++ back) = framed front ++ framed back := by
  unfold framed
  simp only [List.filterMap_append, Text.ofLines_append, List.append_eq_nil_iff]
  ext1
  · rfl
  · rfl
  · rw [Transcript.code_append]
    by_cases hfront : front.filterMap errorLine? = [] <;>
      by_cases hback : back.filterMap errorLine? = [] <;> simp [hfront, hback]

variable {config : Config}

theorem answer_eq_framed (text : String) : answer config text = framed [evaluate config text] := by
  unfold answer
  cases (evaluate config text : Except EvalError Float) with
  | ok value =>
    ext1
    · exact (Text.ofLines_singleton s!"The result is {realText value}").symm
    · rfl
    · rfl
  | error e =>
    ext1
    · rfl
    · exact (Text.ofLines_singleton s!"Error calculating the expression: {e.message}").symm
    · rfl

/-- Lines that are texts are answered by the framed results of those that are not blank. -/
theorem answerLines_eq_framed {lines : List Text.Bytes}
    (h : ∀ line ∈ lines, (Text.decode? line).isSome) :
    answerLines config lines = framed (evaluateBatch config (expressions lines)) := by
  induction lines with
  | nil => rfl
  | cons line lines ih =>
    obtain ⟨hline, hlines⟩ := List.forall_mem_cons.mp h
    obtain ⟨text, htext⟩ := Option.isSome_iff_exists.mp hline
    rw [answerLines_cons line lines htext, ih hlines, expressions_cons htext, answerLine]
    by_cases hblank : Text.isBlankText text = true
    · rw [if_pos hblank, if_pos hblank]
      exact Transcript.empty_append _
    · rw [if_neg hblank, if_neg hblank, answer_eq_framed]
      exact (framed_append _ _).symm

/-! ## Lines -/

theorem isLine_of_mem_values {results : List (Except EvalError Float)} {line : String}
    (h : line ∈ results.filterMap valueLine?) : Text.IsLine line := by
  obtain ⟨result, -, hresult⟩ := List.mem_filterMap.mp h
  cases result with
  | error e => cases hresult
  | ok value =>
    cases hresult
    apply Text.isLine_of_isPlain
    simp only [toString, isPlain_append, isPlain_realText, Bool.and_true]
    decide

theorem isLine_of_mem_errors {texts : List String} {line : String}
    (h : line ∈ (evaluateBatch config texts).filterMap errorLine?) : Text.IsLine line := by
  obtain ⟨result, hmem, hresult⟩ := List.mem_filterMap.mp h
  obtain ⟨text, -, htext⟩ := List.mem_map.mp hmem
  cases result with
  | ok value => cases hresult
  | error e =>
    cases hresult
    apply Text.isLine_of_isPlain
    simp only [toString, isPlain_append, isPlain_message_of_evaluate htext, Bool.and_true]
    decide

theorem code_framed_eq_zero_iff (results : List (Except EvalError Float)) :
    (framed results).code = 0 ↔ (framed results).stderr = "" := by
  unfold framed
  rw [Text.ofLines_eq_empty_iff]
  by_cases herrors : results.filterMap errorLine? = []
  · exact iff_of_true (if_pos herrors) herrors
  · rw [if_neg herrors]
    exact iff_of_false Nat.one_ne_zero herrors

/-- One line of answer to one line of input. No error that an evaluation ends with shows a control
character. So if the lines of standard input are texts, each that is not blank is answered by one
line, in the order of the input: a value on standard output, an error on standard error. The code is
that of success exactly if nothing stands on standard error. -/
theorem run_answers_line_by_line :
    (∀ (α : Type) [Arithmetic α] (config : Config) (text : String) (e : EvalError),
        evaluate (α := α) config text = .error e → isPlain e.message = true) ∧
      ∀ (environment : Environment) (arguments : List String) (options : Options)
        (stdin : Text.Bytes),
        Request.ofWords arguments = .calculate options [] →
        (∀ line ∈ Text.lines stdin, (Text.decode? line).isSome) →
        let results := evaluateBatch (configOf environment options)
          (expressions (Text.lines stdin))
        let whole := run environment arguments stdin
        whole.stdout = Text.ofLines (results.filterMap valueLine?) ∧
          whole.stderr = Text.ofLines (results.filterMap errorLine?) ∧
          Text.lines (Text.encode whole.stdout) =
            (results.filterMap valueLine?).map Text.encode ∧
          Text.lines (Text.encode whole.stderr) =
            (results.filterMap errorLine?).map Text.encode ∧
          (whole.code = 0 ↔ whole.stderr = "") := by
  constructor
  · intro α _ config text e h
    exact isPlain_message_of_evaluate h
  · intro environment arguments options stdin hoptions hvalid results whole
    have hwhole : whole = framed results := by
      rw [← answerLines_eq_framed hvalid]
      exact run_of_no_words hoptions stdin
    rw [hwhole]
    refine ⟨rfl, rfl, ?_, ?_, code_framed_eq_zero_iff results⟩
    · exact Text.lines_encode_ofLines fun line => isLine_of_mem_values
    · exact Text.lines_encode_ofLines fun line => isLine_of_mem_errors

/-- A zero-width space, a blank line with a line separator, and a point where none is allowed. -/
theorem run_answers_line_by_line_zero_width_space :
    let stdin := Text.encode "1\u200b2\r\n \u2028\t\n2.5"
    let run := run (fun _ => none) ["--integers-only"] stdin
    let config : Config := { decimals := false }
    let results : List (Except EvalError Float) :=
      [.error (.invalidCharacter '\u200b' 1), .error (.invalidCharacter '.' 1)]
    evaluate (α := Float) config "1\u200b2" = .error (.invalidCharacter '\u200b' 1) ∧
      isPlain (EvalError.invalidCharacter '\u200b' 1).message = true ∧
      Request.ofWords ["--integers-only"] = .calculate ⟨none, true, false⟩ [] ∧
      (∀ line ∈ Text.lines stdin, (Text.decode? line).isSome) ∧
      evaluateBatch config (expressions (Text.lines stdin)) = results ∧
      run.stdout = "" ∧
      Text.lines (Text.encode run.stderr) = (results.filterMap errorLine?).map Text.encode ∧
      (run.code = 0 ↔ run.stderr = "") := by
  intro stdin run config results
  have herror : evaluate (α := Float) { decimals := false } "1\u200b2" =
      .error (.invalidCharacter '\u200b' 1) := rfl
  have hoptions : Request.ofWords ["--integers-only"] = .calculate ⟨none, true, false⟩ [] := by
    decide
  have hvalid : ∀ line ∈ Text.lines stdin, (Text.decode? line).isSome :=
    List.all_eq_true.mp (by decide)
  have hconfig : configOf (fun _ => none) ⟨none, true, false⟩ = { decimals := false } := rfl
  have htexts : expressions (Text.lines stdin) = ["1\u200b2", "2.5"] := by decide
  have hresults : evaluateBatch { decimals := false } ["1\u200b2", "2.5"] = results := rfl
  obtain ⟨hplain, hrun⟩ := run_answers_line_by_line
  obtain ⟨hstdout, -, -, hlines, hcode⟩ := hrun (fun _ => none) _ _ stdin hoptions hvalid
  rw [hconfig, htexts, hresults] at hstdout hlines
  exact ⟨herror, hplain Float _ _ _ herror, hoptions, hvalid, htexts ▸ hresults, hstdout, hlines,
    hcode⟩

end Calculator

end InfixArithmetic
