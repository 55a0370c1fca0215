/-
  What the configuration of the minus sign can change: whether a text has a value, and not which.

  Without negations the tokens of a text are the same, but for subtractions in place of negations
  (`Token.withoutNegation`, `tokenize_without_negation`). The numbers of both lists are then the
  same, and the binary operators of the second exceed those of the first by the negations of the
  first (`Token.countP_isBinary_map_withoutNegation`). A value needs one number more than binary
  operators, so if both lists have one there is no negation (`not_isUnary_of_reduce`), and the lists
  are equal. In other words, a text with a minus sign where an operand is due has a value in one of
  the two modes at most.
-/
import InfixArithmetic.Proofs.Counting
import InfixArithmetic.Proofs.TokenRow

namespace InfixArithmetic

namespace Token

/-! ## Subtractions in place of negations -/

section

variable {α : Type}

/-- The token, or a subtraction if it is a negation. -/
def withoutNegation : Token α → Token α
  | operator .neg => operator .sub
  | token => token

theorem withoutNegation_of_not_isUnary {token : Token α}
    (h : token.isOperator Operator.isUnary = false) : token.withoutNegation = token := by
  cases token with
  | operator op =>
    cases op with
    | neg => cases h
    | _ => rfl
  | _ => rfl

theorem isNumber_withoutNegation (token : Token α) :
    token.withoutNegation.isNumber = token.isNumber := by
  cases token with
  | operator op => cases op <;> rfl
  | _ => rfl

theorem isBinary_withoutNegation (token : Token α) :
    (token.withoutNegation.isOperator Operator.isBinary).toNat =
      (token.isOperator Operator.isBinary).toNat + (token.isOperator Operator.isUnary).toNat := by
  cases token with
  | operator op => cases op <;> rfl
  | _ => rfl

theorem countP_isNumber_map_withoutNegation (tokens : List (Token α)) :
    (tokens.map withoutNegation).countP isNumber = tokens.countP isNumber := by
  rw [List.countP_map]
  refine List.countP_congr fun token _ => ?_
  rw [Function.comp_apply, isNumber_withoutNegation]

theorem countP_isBinary_map_withoutNegation (tokens : List (Token α)) :
    (tokens.map withoutNegation).countP (isOperator Operator.isBinary) =
      tokens.countP (isOperator Operator.isBinary) +
        tokens.countP (isOperator Operator.isUnary) := by
  induction tokens with
  | nil => rfl
  | cons token tokens ih =>
    have htoken := isBinary_withoutNegation token
    rw [List.map_cons, countP_cons_eq, countP_cons_eq, countP_cons_eq]
    omega

end

/-! ## Tokens in both modes -/

section

variable {α : Type} [Arithmetic α]

theorem ofLexeme_without_negation {atOperand : Bool} {l : Lexeme} {token : Token α}
    (h : ofLexeme atOperand l = .ok token) : ofLexeme false l = .ok token.withoutNegation := by
  cases l with
  | openParen =>
    cases h
    rfl
  | closeParen =>
    cases h
    rfl
  | number literal =>
    obtain ⟨value, rfl⟩ := exists_of_ofLexeme_number h
    exact h
  | operator symbol =>
    obtain ⟨op, hop, htoken⟩ := bind_eq_ok_iff.mp h
    cases htoken
    rw [operatorOfSymbol] at hop
    cases hsymbol : Operator.ofSymbol? symbol with
    | none =>
      rw [hsymbol] at hop
      cases hop
    | some binary =>
      have hbinary := Operator.isUnary_of_ofSymbol? hsymbol
      rw [hsymbol] at hop
      rw [ofLexeme, operatorOfSymbol, hsymbol]
      cases binary with
      | neg => cases hbinary
      | sub => cases atOperand <;> cases hop <;> rfl
      | _ => cases hop; rfl

theorem ofLexemes_without_negation {unaryMinus operandDue operandDue' : Bool} {ls : List Lexeme}
    {tokens : List (Token α)} (h : ofLexemes unaryMinus operandDue ls = .ok tokens) :
    ofLexemes false operandDue' ls = .ok (tokens.map withoutNegation) := by
  induction ls generalizing operandDue operandDue' tokens with
  | nil =>
    cases h
    rfl
  | cons l ls ih =>
    obtain ⟨token, rest, htoken, hrest, rfl⟩ := ofLexemes_cons_eq_ok_iff.mp h
    exact ofLexemes_cons_eq_ok_iff.mpr
      ⟨_, _, ofLexeme_without_negation htoken, ih hrest, rfl⟩

end

end Token

variable {α : Type} [Arithmetic α]

/-- A text has tokens in both modes if it has some in one. -/
theorem tokenize_without_negation {config : Config} {text : String} {tokens : List (Token α)}
    (h : tokenize { config with unaryMinus := true } text = .ok tokens) :
    tokenize { config with unaryMinus := false } text =
      .ok (tokens.map Token.withoutNegation) := by
  obtain ⟨hlen, hallowed, ls, hrow, hne, htext, htokens⟩ := tokenize_eq_ok_iff.mp h
  exact tokenize_eq_ok_iff.mpr
    ⟨hlen, hallowed, ls, hrow, hne, htext, Token.ofLexemes_without_negation htokens⟩

/-- If there is a value with negations and with subtractions in their place, there are none. -/
theorem not_isUnary_of_reduce {tokens : List (Token α)} {value value' : α}
    (h : (reduce tokens).result = .ok value)
    (h' : (reduce (tokens.map Token.withoutNegation)).result = .ok value') :
    ∀ token ∈ tokens, token.isOperator Operator.isUnary = false := by
  obtain ⟨-, hcount, -⟩ := reduce_isOk_iff.mp ⟨value, h⟩
  obtain ⟨-, hcount', -⟩ := reduce_isOk_iff.mp ⟨value', h'⟩
  rw [Token.countP_isNumber_map_withoutNegation,
    Token.countP_isBinary_map_withoutNegation] at hcount'
  have hnone : tokens.countP (Token.isOperator Operator.isUnary) = 0 := by omega
  intro token hmem
  exact Bool.eq_false_iff.mpr (List.countP_eq_zero.mp hnone token hmem)

/-- A minus sign in front of a literal, as the modes have it. -/
theorem tokenize_minus_literal (config : Config) {text : String} {literal : List Char} {x : α}
    (hlen : text.utf8ByteSize ≤ config.maxInputLen)
    (hliteral : IsLiteralOf config.decimals literal) (htext : nonBlanks text = '-' :: literal)
    (hread : Arithmetic.readLiteral? literal = some x) :
    tokenize config text =
      .ok [.operator (if config.unaryMinus then .neg else .sub), .number x] := by
  have hleaves : ∀ leaf ∈ (Expression.negation (.number literal)).leaves,
      IsLiteralOf config.decimals leaf := List.forall_mem_singleton.mpr hliteral
  have hrow : Lexeme.IsRow [.operator '-', .number literal] :=
    Expression.isRow_lexemes fun leaf hmem => (hleaves leaf hmem).1
  refine tokenize_eq_ok_iff.mpr ⟨hlen, ?_, _, hrow, List.cons_ne_nil _ _, ?_, ?_⟩
  · rw [htext]
    exact Expression.isAllowed_of_mem_text hleaves
  · rw [htext, Lexeme.textOf_cons, Lexeme.textOf_cons]
    exact congrArg ('-' :: ·) (List.append_nil literal)
  · simp only [Token.ofLexemes, Token.ofLexeme, hread]
    cases config.unaryMinus <;> rfl

/-- The mode decides whether a text has a value: a minus sign in front of a literal has one only if
it is a negation. It does not decide which: if a text has a value in both modes, no minus sign stands
where an operand is due, the tokens are the same, and so are the values. -/
theorem evaluate_minus_modes (config : Config) :
    (∀ (text : String) (literal : List Char) (x : α),
        text.utf8ByteSize ≤ config.maxInputLen → IsLiteralOf config.decimals literal →
        nonBlanks text = '-' :: literal → Arithmetic.readLiteral? literal = some x →
        evaluate { config with unaryMinus := true } text = .ok (-x) ∧
          evaluate (α := α) { config with unaryMinus := false } text =
            .error (.stackUnderflow .sub 2 1)) ∧
      ∀ (text : String) (value value' : α),
        evaluate { config with unaryMinus := true } text = .ok value →
        evaluate { config with unaryMinus := false } text = .ok value' →
        ∃ (ls : List Lexeme) (tokens : List (Token α)),
          Lexeme.IsRow ls ∧ Lexeme.textOf ls = nonBlanks text ∧
          (∀ i, ls[i]? = some (.operator '-') → ¬Lexeme.OperandDue ls i) ∧
          tokenize { config with unaryMinus := true } text = .ok tokens ∧
          tokenize { config with unaryMinus := false } text = .ok tokens ∧ value = value' := by
  constructor
  · intro text literal x hlen hliteral htext hread
    have htokens : ∀ mode, tokenize { config with unaryMinus := mode } text =
        .ok [.operator (if mode then .neg else .sub), .number x] := fun mode =>
      tokenize_minus_literal { config with unaryMinus := mode } hlen hliteral htext hread
    exact ⟨evaluate_of_tokenize (htokens true), evaluate_of_tokenize (htokens false)⟩
  · intro text value value' h h'
    obtain ⟨tokens, htokens, hvalue⟩ := evaluate_eq_ok_iff.mp h
    obtain ⟨tokens', htokens', hvalue'⟩ := evaluate_eq_ok_iff.mp h'
    obtain rfl : tokens' = tokens.map Token.withoutNegation :=
      Except.ok.inj (htokens'.symm.trans (tokenize_without_negation htokens))
    have hnone := not_isUnary_of_reduce hvalue hvalue'
    have hsame : tokens.map Token.withoutNegation = tokens :=
      (List.map_congr_left fun token hmem =>
        Token.withoutNegation_of_not_isUnary (hnone token hmem)).trans (List.map_id tokens)
    rw [hsame] at htokens' hvalue'
    obtain ⟨-, -, ls, hrow, -, htext, hof⟩ := tokenize_eq_ok_iff.mp htokens
    refine ⟨ls, tokens, hrow, htext, ?_, htokens, htokens',
      Except.ok.inj (hvalue.symm.trans hvalue')⟩
    intro i hl hdue
    obtain ⟨token, htoken, hreading⟩ := Token.exists_isReading hof hl
    have hunary := hnone token (List.mem_of_getElem? htoken)
    rcases hreading.of_minus with ⟨rfl, -⟩ | ⟨-, hnot⟩
    · cases hunary
    · exact hnot ⟨rfl, hdue⟩

/-- A negated literal; and operands that meet before an operator without a right operand, a minus
sign behind one of them. -/
theorem evaluate_minus_modes_trailing_minus :
    ∃ x y z : Float, Arithmetic.readLiteral? ['8'] = some x ∧
      Arithmetic.readLiteral? ['3'] = some y ∧ Arithmetic.readLiteral? ['2'] = some z ∧
      evaluate { unaryMinus := true } " - 8" = .ok (-x) ∧
      evaluate { unaryMinus := true } "(8-3)2-" = .ok (x - y - z) ∧
      evaluate { unaryMinus := false } "(8-3)2-" = .ok (x - y - z) ∧
      ∃ tokens : List (Token Float), tokenize { unaryMinus := true } "(8-3)2-" = .ok tokens ∧
        tokenize { unaryMinus := false } "(8-3)2-" = .ok tokens := by
  have hliteral : ∀ c : Char, c.isDigit = true → IsLiteral [c] := fun c hc =>
    Lexeme.isLiteral_of_all_isDigit (List.all_eq_true.mpr (List.forall_mem_singleton.mpr hc))
      (List.cons_ne_nil _ _)
  have hread : ∀ c : Char, c.isDigit = true →
      ∃ x : Float, Arithmetic.readLiteral? [c] = some x := fun c hc =>
    Option.isSome_iff_exists.mp (ReadsLiterals.isSome_readLiteral? (hliteral c hc))
  obtain ⟨x, hx⟩ := hread '8' rfl
  obtain ⟨y, hy⟩ := hread '3' rfl
  obtain ⟨z, hz⟩ := hread '2' rfl
  have hrow : Lexeme.IsRow [.openParen, .number ['8'], .operator '-', .number ['3'], .closeParen,
      .number ['2'], .operator '-'] := by
    constructor
    · simp [Lexeme.IsValid, Lexeme.isOperatorSymbol, hliteral]
    · simp [Lexeme.Separated, Lexeme.isNumber]
  have hlen : "(8-3)2-".utf8ByteSize ≤ ({} : Config).maxInputLen := by decide
  have hallowed : ∀ c ∈ nonBlanks "(8-3)2-", isAllowed true c = true :=
    List.all_eq_true.mp (by decide)
  have hvalue : ∀ mode, evaluate { unaryMinus := mode } "(8-3)2-" = .ok (x - y - z) := by
    intro mode
    refine evaluate_eq_ok_iff.mpr ⟨[.openParen, .number x, .operator .sub, .number y, .closeParen,
      .number z, .operator .sub], ?_, rfl⟩
    refine tokenize_eq_ok_iff.mpr ⟨hlen, hallowed, _, hrow, by decide, by decide, ?_⟩
    simp only [Token.ofLexemes, Token.ofLexeme, hx, hy, hz]
    cases mode <;> rfl
  obtain ⟨hmode, hvalues⟩ := evaluate_minus_modes (α := Float) {}
  obtain ⟨ls, tokens, -, -, -, htokens, htokens', -⟩ :=
    hvalues "(8-3)2-" _ _ (hvalue true) (hvalue false)
  have hnegated := (hmode " - 8" ['8'] x (by decide) ⟨hliteral '8' rfl, fun h => Bool.noConfusion h⟩
    (by decide) hx).1
  exact ⟨x, y, z, hx, hy, hz, hnegated, hvalue true, hvalue false, tokens, htokens, htokens'⟩

end InfixArithmetic
