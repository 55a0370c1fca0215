/-
  What is printed for an error or a number is plain, so it is one line.

  A quotation shows a control by its escape or by its code point, for no control is printable
  (`Text.isControl_of_isPrintable`); so it is plain, whatever is quoted. A message is plain except
  for what it shows of an error as it is (`EvalError.isPlain_message`), and a number is written with
  digits and a few letters and marks (`isPlain_realText`).
-/
import InfixArithmetic.EvalError
import InfixArithmetic.Real.Positional
import InfixArithmetic.Text.Plain

namespace InfixArithmetic

/-! ## Quotations -/

namespace Text

theorem isControl_of_isPrintable {c : Char} (h : isPrintable c = true) : isControl c = false := by
  by_contra hcontrol
  simp only [isControl, Bool.not_eq_false, Bool.or_eq_true, Bool.and_eq_true, decide_eq_true_eq]
    at hcontrol
  -- both ranges of controls lie in the first two ranges of the table
  have hlow : inRanges unprintableLow c.toNat = true := by
    unfold inRanges
    rw [List.any_eq_true]
    rcases hcontrol with hzero | ⟨hdelete, hhigh⟩
    · refine ⟨(0x0, 0x1f), List.mem_cons_self, ?_⟩
      simp
      omega
    · refine ⟨(0x7f, 0xa0), List.mem_cons_of_mem _ List.mem_cons_self, ?_⟩
      simp
      omega
  simp [isPrintable, hlow] at h

theorem isPlain_escapeCodePoint (c : Char) : isPlain (escapeCodePoint c) = true := by
  unfold escapeCodePoint
  rw [isPlain_append, isPlain_append, isPlain_ofList_toDigits (by decide)]
  rfl

theorem isPlain_escape {mark : Char} (hmark : isControl mark = false) (c : Char) :
    isPlain (escape mark c) = true := by
  unfold escape
  split_ifs with hnull htab hreturn hfeed hslash hc hhidden
  · rfl
  · rfl
  · rfl
  · rfl
  · rfl
  · rw [hc, isPlain_ofList, List.all_cons, List.all_cons, hmark]
    rfl
  · exact isPlain_escapeCodePoint c
  · simp only [Bool.or_eq_true, Bool.not_eq_true', not_or, Bool.not_eq_false] at hhidden
    rw [isPlain_singleton, isControl_of_isPrintable hhidden.2]
    rfl

theorem isPlain_quoteChar (c : Char) : isPlain (quoteChar c) = true := by
  unfold quoteChar
  rw [isPlain_append, isPlain_append, isPlain_escape rfl]
  rfl

theorem isPlain_quoteString (text : String) : isPlain (quoteString text) = true := by
  have hescapes : (text.toList.map (escape '"')).all isPlain = true := by
    rw [List.all_map, List.all_eq_true]
    intro c _
    exact isPlain_escape rfl c
  unfold quoteString
  rw [isPlain_append, isPlain_append, isPlain_join, hescapes]
  rfl

end Text

open Text (isPlain isPlain_append isPlain_repr isPlain_quoteChar isPlain_quoteString)

/-! ## Messages -/

theorem Operator.isPlain_symbol (op : Operator) : isPlain op.symbol.toString = true := by
  cases op <;> rfl

namespace EvalError

/-- What the message of an error shows as it is, without quoting it. -/
def verbatim : EvalError → String
  | tokenizationFailed _ message => message
  | unknownOperator symbol => symbol
  | _ => ""

theorem isPlain_message (e : EvalError) : isPlain e.message = isPlain e.verbatim := by
  unfold message verbatim
  cases e with
  | inputTooLong length limit =>
    simp only [toString, isPlain_append, isPlain_repr, Bool.and_true]
    decide
  | invalidCharacter character position =>
    simp only [toString, isPlain_append, isPlain_repr, isPlain_quoteChar, Bool.and_true]
    decide
  | tokenizationFailed position message =>
    have hstart : isPlain "could not read a token at position " = true := by decide
    have hcolon : isPlain ": " = true := by decide
    simp only [toString, isPlain_append, isPlain_repr, hstart, hcolon, Bool.true_and]
  | invalidNumber literal =>
    simp only [toString, isPlain_append, isPlain_quoteString, Bool.true_and]
    decide
  | unbalancedParentheses => decide
  | stackUnderflow op needed available =>
    have hsymbol : isPlain op.symbol.toString = true := op.isPlain_symbol
    simp only [toString, isPlain_append, isPlain_repr, hsymbol, Bool.and_true]
    decide
  | malformedExpression operands pending =>
    simp only [toString, isPlain_append, isPlain_repr, Bool.and_true]
    decide
  | unknownOperator symbol =>
    have hstart : isPlain "unknown operator `" = true := by decide
    have hend : isPlain "`" = true := by decide
    simp only [toString, isPlain_append, hstart, hend, Bool.true_and, Bool.and_true]

end EvalError

/-! ## Numbers -/

theorem isControl_of_mem_fractionDigits {places fraction : Nat} {c : Char}
    (h : c ∈ fractionDigits places fraction) : Text.isControl c = false := by
  induction places generalizing fraction with
  | zero => cases h
  | succ places ih =>
    unfold fractionDigits at h
    split at h
    · cases h
    · rcases List.mem_cons.mp h with rfl | h
      · exact Text.isControl_digitChar _
      · exact ih h

theorem isControl_of_mem_positional {places decimal : Nat} {c : Char}
    (h : c ∈ positional places decimal) : Text.isControl c = false := by
  unfold positional at h
  rcases List.mem_append.mp h with hwhole | hrest
  · exact Text.isControl_of_mem_toDigits (by decide) hwhole
  · split at hrest
    · cases hrest
    · rcases List.mem_cons.mp hrest with rfl | hfraction
      · rfl
      · exact isControl_of_mem_fractionDigits hfraction

theorem BinaryFormat.isPlain_unsignedText (format : BinaryFormat) (bits : Nat) :
    isPlain (format.unsignedText bits) = true := by
  unfold unsignedText
  split
  · rw [Text.isPlain_ofList, List.all_eq_true]
    intro c hc
    rw [isControl_of_mem_positional hc]
    rfl
  · decide

theorem isPlain_realText (x : Float) : isPlain (realText x) = true := by
  unfold realText BinaryFormat.text
  dsimp only
  split
  · decide
  · split
    · exact BinaryFormat.isPlain_unsignedText _ _
    · rw [isPlain_append, BinaryFormat.isPlain_unsignedText]
      rfl

end InfixArithmetic
