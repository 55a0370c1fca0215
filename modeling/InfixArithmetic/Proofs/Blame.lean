/-
  Every error is a fault of the text.

  Three errors would be faults of the evaluator: a number token that is no number, an operator token
  that is no operator, and a text that is read but has no tokens (`EvalError.IsDefect`). The scan
  lets through literals and operator symbols only, so behind it nothing is refused
  (`Token.exists_unreadable_of_ofStripped`), and a reduction fails for its operands and parentheses
  only (`error_of_reduce`). Hence none of the three is ever returned; nor do the pairs that the
  grammar leaves of a text have a rule that stands for no token
  (`evaluate_never_defect`).
-/
import InfixArithmetic.Proofs.Counting
import InfixArithmetic.Proofs.Pairs
import InfixArithmetic.Proofs.Stripping
import InfixArithmetic.Proofs.TokenRow

namespace InfixArithmetic

namespace EvalError

/-- Whether an error can only be a fault of the evaluator. -/
def IsDefect : EvalError → Prop
  | invalidNumber _ | unknownOperator _ => True
  | tokenizationFailed _ message => message = "no tokens found"
  | _ => False

theorem IsDefect.of_isInternal {e : EvalError} (h : e.isInternal = true) : e.IsDefect := by
  cases e with
  | unknownOperator symbol => trivial
  | _ => cases h

end EvalError

/-! ## Validation -/

theorem not_isDefect_of_validate {config : Config} {text : String} {e : EvalError}
    (h : validate config text = .error e) : ¬e.IsDefect := by
  rcases validate_eq_error_iff.mp h with ⟨-, rfl⟩ | ⟨-, before, c, after, -, rfl⟩ <;>
    exact not_false

/-! ## Tokens -/

variable {α : Type} [Arithmetic α]

theorem not_isDefect_unreadable (position : Nat) : ¬(unreadable position).IsDefect := by
  show ¬(if position = 0 then _ else _) = _
  split <;> decide

namespace Token

/-- A lexeme of the language is refused if it is a literal that is not read. -/
theorem error_of_ofLexeme {l : Lexeme} (hl : l.IsValid) {atOperand : Bool} {e : EvalError}
    (h : ofLexeme (α := α) atOperand l = .error e) :
    ∃ literal, IsLiteral literal ∧ Arithmetic.readLiteral? (α := α) literal = none ∧
      e = .invalidNumber (String.ofList literal) := by
  cases l with
  | number literal =>
    rw [ofLexeme] at h
    cases hread : Arithmetic.readLiteral? (α := α) literal with
    | none =>
      rw [hread] at h
      cases h
      exact ⟨literal, hl, hread, rfl⟩
    | some value =>
      rw [hread] at h
      cases h
  | operator symbol =>
    -- each of the four symbols is that of an operator
    rcases Lexeme.isOperatorSymbol_iff.mp hl with rfl | rfl | rfl | rfl <;> cases h
  | openParen => cases h
  | closeParen => cases h

theorem error_of_ofLexemes {ls : List Lexeme} (hls : ∀ l ∈ ls, l.IsValid)
    {unaryMinus operandDue : Bool} {e : EvalError}
    (h : ofLexemes (α := α) unaryMinus operandDue ls = .error e) :
    ∃ literal, IsLiteral literal ∧ Arithmetic.readLiteral? (α := α) literal = none ∧
      e = .invalidNumber (String.ofList literal) := by
  induction ls generalizing operandDue with
  | nil => cases h
  | cons l ls ih =>
    obtain ⟨hl, hls⟩ := List.forall_mem_cons.mp hls
    rw [ofLexemes] at h
    rcases bind_eq_error_iff.mp h with h | ⟨token, -, h⟩
    · exact error_of_ofLexeme hl h
    · rcases bind_eq_error_iff.mp h with h | ⟨tokens, -, h⟩
      · exact ih hls h
      · cases h

/-- A stripped text has no tokens because the scan blames a position of it, or because a literal in
it is not read. -/
theorem error_of_ofStripped {unaryMinus : Bool} {stripped : List Char} {e : EvalError}
    (h : ofStripped (α := α) unaryMinus stripped = .error e) :
    (∃ position, e = unreadable position) ∨
      ∃ literal, IsLiteral literal ∧ Arithmetic.readLiteral? (α := α) literal = none ∧
        e = .invalidNumber (String.ofList literal) := by
  cases hscan : Lexeme.scan stripped with
  | error position =>
    rw [ofStripped, hscan] at h
    cases h
    exact .inl ⟨position, rfl⟩
  | ok ls =>
    obtain ⟨hrow, hne, rfl⟩ := Lexeme.scan_eq_ok_iff.mp hscan
    rw [ofStripped, hscan] at h
    rcases bind_eq_error_iff.mp h with h | ⟨tokens, htokens, h⟩
    · exact .inr (error_of_ofLexemes hrow.isValid h)
    · have hok := ofStripped_eq_ok_iff.mpr ⟨ls, hrow, hne, rfl, htokens⟩
      rw [ofStripped, hscan] at hok
      cases (bind_eq_error_iff.mpr (.inr ⟨tokens, htokens, h⟩)).symm.trans hok

/-- Tokens are refused where the scan blames the text, or not at all. -/
theorem exists_unreadable_of_ofStripped [ReadsLiterals α] {unaryMinus : Bool}
    {stripped : List Char} {e : EvalError}
    (h : ofStripped (α := α) unaryMinus stripped = .error e) :
    ∃ position, e = unreadable position := by
  rcases error_of_ofStripped h with hposition | ⟨literal, hliteral, hnone, -⟩
  · exact hposition
  · have hread := ReadsLiterals.isSome_readLiteral? (α := α) hliteral
    rw [hnone] at hread
    cases hread

end Token

theorem not_isDefect_of_tokenize [ReadsLiterals α] {config : Config} {text : String}
    {e : EvalError} (h : tokenize (α := α) config text = .error e) : ¬e.IsDefect := by
  rcases bind_eq_error_iff.mp h with h | ⟨stripped, -, h⟩
  · exact not_isDefect_of_validate h
  · obtain ⟨position, rfl⟩ := Token.exists_unreadable_of_ofStripped h
    exact not_isDefect_unreadable position

/-! ## Reduction -/

/-- A reduction fails for an operator that lacks operands, for a parenthesis that closes nothing, or
for what is left at the end. -/
theorem error_of_reduce {tokens : List (Token α)} {e : EvalError}
    (h : (reduce tokens).result = .error e) :
    (∃ op available, available < op.arity ∧ e = .stackUnderflow op op.arity available) ∨
      e = .unbalancedParentheses ∨
        ∃ operands pending, e = .malformedExpression operands pending := by
  rw [result_reduce] at h
  rcases bind_eq_error_iff.mp h with h | ⟨state, -, h⟩
  · rcases bind_eq_error_iff.mp h with h | ⟨operands, -, h⟩
    · obtain ⟨op, available, -, hlt, he⟩ := error_of_runPostfix h
      exact .inl ⟨op, available, hlt, he⟩
    · split at h
      · cases h
        exact .inr (.inl rfl)
      · cases h
  · unfold Stacks.single at h
    split at h
    · cases h
    · cases h
      exact .inr (.inr ⟨_, _, rfl⟩)

theorem not_isDefect_of_reduce {tokens : List (Token α)} {e : EvalError}
    (h : (reduce tokens).result = .error e) : ¬e.IsDefect := by
  rcases error_of_reduce h with ⟨op, available, -, rfl⟩ | rfl | ⟨operands, pending, rfl⟩ <;>
    exact not_false

theorem not_isDefect_of_evaluate [ReadsLiterals α] {config : Config} {text : String}
    {e : EvalError} (h : evaluate (α := α) config text = .error e) : ¬e.IsDefect := by
  cases htokens : tokenize (α := α) config text with
  | error e' =>
    rw [evaluate_of_tokenize_error htokens] at h
    cases h
    exact not_isDefect_of_tokenize htokens
  | ok tokens =>
    rw [evaluate_of_tokenize htokens] at h
    exact not_isDefect_of_reduce h

/-! ## Both -/

/-- No text makes the evaluator fail by its own fault: the errors of reading a text and of evaluating
it are faults of the text. The pairs that the grammar leaves of a text become its tokens, or the
error of reading it, and none of them has a rule that stands for no token. -/
theorem evaluate_never_defect [ReadsLiterals α] (config : Config) (text : String) :
    (∀ e : EvalError,
        tokenize (α := α) config text = .error e ∨ evaluate (α := α) config text = .error e →
        ¬e.IsDefect ∧ e.isInternal = false) ∧
      ∀ stripped, validate config text = .ok stripped →
        Token.ofGrammar config.unaryMinus stripped.toList =
            (tokenize (α := α) config text).mapError .error ∧
          ∀ rule, Token.ofGrammar (α := α) config.unaryMinus stripped.toList ≠
            .error (.stray rule) := by
  constructor
  · intro e h
    have hdefect : ¬e.IsDefect := h.elim not_isDefect_of_tokenize not_isDefect_of_evaluate
    exact ⟨hdefect, Bool.eq_false_iff.mpr fun hinternal => hdefect (.of_isInternal hinternal)⟩
  · intro stripped hvalid
    have htokens : tokenize (α := α) config text =
        Token.ofStripped config.unaryMinus stripped.toList := by
      rw [tokenize, hvalid]
      rfl
    rw [htokens, Token.ofGrammar_eq]
    refine ⟨rfl, fun rule hstray => ?_⟩
    cases hof : Token.ofStripped (α := α) config.unaryMinus stripped.toList with
    | error e =>
      rw [hof] at hstray
      cases hstray
    | ok tokens =>
      rw [hof] at hstray
      cases hstray

/-- A literal that ends in its point, and a minus sign behind it. -/
theorem evaluate_never_defect_trailing_minus :
    ∃ x : Float, ReadsLiterals Float ∧ Arithmetic.readLiteral? ['5', '.'] = some x ∧
      evaluate (α := Float) {} "5. -" = .error (.stackUnderflow .sub 2 1) ∧
      ¬(EvalError.stackUnderflow .sub 2 1).IsDefect ∧
      (EvalError.stackUnderflow .sub 2 1).isInternal = false ∧
      validate {} "5. -" = .ok "5.-" ∧
      Token.ofGrammar true "5.-".toList = .ok [.number x, .operator .sub] ∧
      ∀ rule, Token.ofGrammar (α := Float) true "5.-".toList ≠ .error (.stray rule) := by
  have hliteral : IsLiteral ['5', '.'] :=
    ⟨['5'], [], List.all_eq_true.mp rfl, List.cons_ne_nil _ _, .inr rfl⟩
  obtain ⟨x, hx⟩ := Option.isSome_iff_exists.mp
    (ReadsLiterals.isSome_readLiteral? (α := Float) hliteral)
  have hrow : Lexeme.IsRow [.number ['5', '.'], .operator '-'] := by
    constructor
    · simp [Lexeme.IsValid, Lexeme.isOperatorSymbol, hliteral]
    · simp [Lexeme.Separated, Lexeme.isNumber]
  have hlen : "5. -".utf8ByteSize ≤ ({} : Config).maxInputLen := by decide
  have hallowed : ∀ c ∈ nonBlanks "5. -", isAllowed true c = true :=
    List.all_eq_true.mp (by decide)
  have hvalid : validate {} "5. -" = .ok "5.-" :=
    validate_eq_ok_iff.mpr ⟨hlen, hallowed, by decide⟩
  have htokens : tokenize {} "5. -" = .ok [.number x, .operator .sub] := by
    refine tokenize_eq_ok_iff.mpr
      ⟨hlen, hallowed, _, hrow, List.cons_ne_nil _ _, by decide, ?_⟩
    simp only [Token.ofLexemes, Token.ofLexeme, hx]
    rfl
  have herror : evaluate (α := Float) {} "5. -" = .error (.stackUnderflow .sub 2 1) :=
    evaluate_of_tokenize htokens
  obtain ⟨herrors, hpairs⟩ := evaluate_never_defect (α := Float) {} "5. -"
  obtain ⟨hdefect, hinternal⟩ := herrors _ (.inr herror)
  obtain ⟨hgrammar, hstray⟩ := hpairs _ hvalid
  rw [htokens] at hgrammar
  exact ⟨x, inferInstance, hx, herror, hdefect, hinternal, hvalid, hgrammar, hstray⟩

end InfixArithmetic
