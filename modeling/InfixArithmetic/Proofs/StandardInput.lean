/-
  Lines of standard input are answered one by one, and like the words of a command line.

  Bytes that end in a line feed can be answered apart from what follows them, and the answers put one
  behind the other (`answerLines_append`); a line that is no text ends the run where it stands
  (`run_append_lines`). A line that is not blank is answered as the expression that it is, so words
  behind the separator are answered as the line that they make (`run_words_eq_run_line`).
-/
import InfixArithmetic.Calculator.Run
import InfixArithmetic.Proofs.Lines
import InfixArithmetic.Proofs.Words

namespace InfixArithmetic.Calculator

open Text (lineFeed)

/-! ## Answers -/

variable {config : Config}

theorem answerLines_cons (line : Text.Bytes) (lines : List Text.Bytes) {text : String}
    (h : Text.decode? line = some text) :
    answerLines config (line :: lines) = answerLine config text ++ answerLines config lines := by
  rw [answerLines, h]

theorem answerLines_cons_of_none {line : Text.Bytes} (h : Text.decode? line = none)
    (lines : List Text.Bytes) : answerLines config (line :: lines) = readFailure := by
  rw [answerLines, h]

variable {environment : Environment} {arguments : List String} {options : Options}

theorem run_of_no_words (h : Request.ofWords arguments = .calculate options [])
    (stdin : Text.Bytes) :
    run environment arguments stdin =
      answerLines (configOf environment options) (Text.lines stdin) := by
  rw [run, h]

theorem run_of_words {words : List String} (h : Request.ofWords arguments = .calculate options words)
    (hne : words ≠ []) (stdin : Text.Bytes) :
    run environment arguments stdin =
      answer (configOf environment options) (" ".intercalate words) := by
  obtain ⟨word, words, rfl⟩ := List.exists_cons_of_ne_nil hne
  rw [run, h]

/-- Words behind the separator are answered as the line that they make, if they make one line and it
is not blank. Standard input is then not looked at, and the words are text even where they look like
options. -/
theorem run_words_eq_run_line (environment : Environment) {arguments words : List String}
    {options : Options} (stdin : Text.Bytes)
    (hoptions : Request.ofWords arguments = .calculate options []) (hseparator : "--" ∉ arguments)
    (hwords : words ≠ []) (hfeed : '\n' ∉ (" ".intercalate words).toList)
    (hreturn : (" ".intercalate words).toList.getLast? ≠ some '\r')
    (hblank : Text.isBlankText (" ".intercalate words) = false) :
    run environment (arguments ++ "--" :: words) stdin =
      run environment arguments (Text.encode (" ".intercalate words ++ "\n")) := by
  have hrequest := Request.ofWords_append_separator hoptions hseparator words
  rw [run_of_words hrequest hwords, run_of_no_words hoptions,
    Text.lines_encode_append_newline hfeed hreturn,
    answerLines_cons _ _ (Text.decode?_encode _), answerLine, hblank]
  exact (Transcript.append_empty _).symm

/-- Two hyphens, what resembles an option, an empty word and a numeral, with a line on standard input
that is no text. -/
theorem run_words_eq_run_line_hyphens :
    let arguments := ["--max-input-len=+12", "--no-unary-minus"]
    let words := ["--", "-h5", "", "2"]
    let text := " ".intercalate words
    Request.ofWords arguments = .calculate ⟨some 12, false, true⟩ [] ∧ "--" ∉ arguments ∧
      words ≠ [] ∧ '\n' ∉ text.toList ∧ text.toList.getLast? ≠ some '\r' ∧
      Text.isBlankText text = false ∧
      run (fun _ => none) (arguments ++ "--" :: words) [0xff, lineFeed] =
        run (fun _ => none) arguments (Text.encode "-- -h5  2\n") := by
  intro arguments words text
  have hoptions : Request.ofWords arguments = .calculate ⟨some 12, false, true⟩ [] := by decide
  have hseparator : "--" ∉ arguments := by decide
  have hwords : words ≠ [] := List.cons_ne_nil _ _
  have hfeed : '\n' ∉ text.toList := by decide
  have hreturn : text.toList.getLast? ≠ some '\r' := by decide
  have hblank : Text.isBlankText text = false := by decide
  have hline : text ++ "\n" = "-- -h5  2\n" := by decide
  refine ⟨hoptions, hseparator, hwords, hfeed, hreturn, hblank, ?_⟩
  rw [← hline]
  exact run_words_eq_run_line _ _ hoptions hseparator hwords hfeed hreturn hblank

end InfixArithmetic.Calculator
