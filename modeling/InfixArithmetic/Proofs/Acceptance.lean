/-
  Which texts have a value, with no look at the order of their operands.

  A text whose operands never meet and never miss is derivable, as long as its parentheses are
  balanced (`isDerivable_of_places`). Operands that meet are not noticed by themselves: what they
  leave over is taken by operators that lack an operand somewhere else, so such a text is refused
  unless the two make up for each other (`evaluate_isOk_iff_of_tokenize`). Where none meet, every
  missing operand is noticed: there are too few numbers.
-/
import InfixArithmetic.Proofs.Derivability
import InfixArithmetic.Proofs.Operands
import InfixArithmetic.Real.Literal

namespace InfixArithmetic

/-! ## Derivable texts -/

theorem places_cons_eq_zero_iff {r : Option Char → Option Char → Bool} {before : Option Char}
    {c : Char} {cs : List Char} :
    places r before (c :: cs) = 0 ↔ r before (some c) = false ∧ places r (some c) cs = 0 := by
  rw [places, Nat.add_eq_zero_iff, Bool.toNat_eq_zero]

/-- A row in which operands neither meet nor miss can be read with one bit and one counter. -/
theorem Follows.completes {α : Type} {unaryMinus : Bool} {before : Option Char} {ls : List Lexeme}
    {tokens : List (Token α)} (h : Follows unaryMinus before ls tokens)
    (hvacancies : places (isVacancy unaryMinus) before (Lexeme.textOf ls) = 0)
    (hmeet : places isJuxtaposition before (Lexeme.textOf ls) = 0) {depth : Nat}
    (hcloses : Closes Token.isOpen Token.isClose depth tokens) :
    Expression.Completes unaryMinus (!endsOperand before) depth ls := by
  induction h generalizing depth with
  | @nil before =>
    have hplace : isVacancy unaryMinus before none = false := Bool.toNat_eq_zero.mp hvacancies
    rw [isVacancy_none] at hplace
    rw [hplace, closes_nil_iff.mp hcloses]
    exact .nil
  | @openParen before ls tokens h ih =>
    obtain ⟨hplace, hmeet⟩ := places_cons_eq_zero_iff.mp hmeet
    obtain ⟨-, hvacancies⟩ := places_cons_eq_zero_iff.mp hvacancies
    rw [isJuxtaposition_openParen] at hplace
    rw [hplace]
    exact .openParen (ih hvacancies hmeet ((closes_cons_of_open rfl rfl).mp hcloses))
  | @closeParen before ls tokens h ih =>
    obtain ⟨-, hmeet⟩ := places_cons_eq_zero_iff.mp hmeet
    obtain ⟨hplace, hvacancies⟩ := places_cons_eq_zero_iff.mp hvacancies
    obtain ⟨outer, rfl, houter⟩ := (closes_cons_of_close rfl rfl).mp hcloses
    rw [isVacancy_closeParen] at hplace
    rw [hplace]
    exact .closeParen (ih hvacancies hmeet houter)
  | @number before c cs value ls tokens hliteral hbefore h ih =>
    obtain ⟨hc, hcs⟩ := List.forall_mem_cons.mp hliteral
    have hlast := hliteral _ (List.getLast_mem (List.cons_ne_nil c cs))
    have htext : Lexeme.textOf (.number (c :: cs) :: ls) = c :: (cs ++ Lexeme.textOf ls) := rfl
    rw [htext] at hvacancies hmeet
    obtain ⟨hplace, hmeet⟩ := places_cons_eq_zero_iff.mp hmeet
    obtain ⟨-, hvacancies⟩ := places_cons_eq_zero_iff.mp hvacancies
    rw [places_append_number (fun _ _ => isJuxtaposition_number) hc hcs] at hmeet
    rw [places_append_number (fun _ _ ha _ => isVacancy_of_endsOperand (endsOperand_number ha) _) hc
      hcs] at hvacancies
    rw [isJuxtaposition_of_number hc hbefore] at hplace
    have hrest := ih hvacancies hmeet ((closes_cons_of_neither rfl rfl).mp hcloses)
    rw [endsOperand_number hlast] at hrest
    rw [hplace]
    exact .number hrest
  | @operator before ls tokens op hunary h ih =>
    have hsymbol : Lexeme.isOperatorSymbol op.symbol = true := Lexeme.isValid_operator op
    obtain ⟨-, hmeet⟩ := places_cons_eq_zero_iff.mp hmeet
    obtain ⟨hplace, hvacancies⟩ := places_cons_eq_zero_iff.mp hvacancies
    have hrest := ih hvacancies hmeet ((closes_cons_of_neither rfl rfl).mp hcloses)
    rw [endsOperand_symbol] at hrest
    rw [isVacancy_operator hsymbol] at hplace
    cases hends : endsOperand before with
    | true => exact .operator hsymbol hrest
    | false =>
      -- no operand ends here, so the symbol starts one
      rw [hends, Bool.not_false, Bool.true_and, Bool.not_eq_false', Bool.and_eq_true,
        beq_iff_eq] at hplace
      obtain ⟨hnegation, hminus⟩ := hplace
      rw [hminus]
      exact .minus hnegation hrest

/-- Characters and tokens are nothing but parentheses alike. -/
theorem Follows.forall_paren_iff {α : Type} {unaryMinus : Bool} {before : Option Char}
    {ls : List Lexeme} {tokens : List (Token α)} (h : Follows unaryMinus before ls tokens) :
    (∀ c ∈ Lexeme.textOf ls, c = '(' ∨ c = ')') ↔
      ∀ token ∈ tokens, token.isOpen = true ∨ token.isClose = true := by
  induction h with
  | nil => exact ⟨fun _ _ ht => (nomatch ht), fun _ _ hc => (nomatch hc)⟩
  | openParen h ih =>
    rw [Lexeme.textOf_cons, List.forall_mem_cons, ← ih]
    exact List.forall_mem_cons.trans (and_congr_left fun _ => iff_of_true (.inl rfl) (.inl rfl))
  | closeParen h ih =>
    rw [Lexeme.textOf_cons, List.forall_mem_cons, ← ih]
    exact List.forall_mem_cons.trans (and_congr_left fun _ => iff_of_true (.inr rfl) (.inr rfl))
  | @number before c cs value ls tokens hliteral hbefore h ih =>
    obtain ⟨hopen, hclose⟩ := ne_paren_of_isNumberChar (hliteral c List.mem_cons_self)
    refine iff_of_false (fun hall => ?_) (fun hall => ?_)
    · rcases hall c List.mem_cons_self with rfl | rfl
      · cases hopen
      · cases hclose
    · rcases hall _ List.mem_cons_self with ht | ht <;> cases ht
  | @operator before ls tokens op hunary h ih =>
    obtain ⟨hopen, hclose⟩ := ne_paren_of_isOperatorSymbol (Lexeme.isValid_operator op)
    refine iff_of_false (fun hall => ?_) (fun hall => ?_)
    · rcases hall op.symbol List.mem_cons_self with heq | heq
      · rw [heq] at hopen
        cases hopen
      · rw [heq] at hclose
        cases hclose
    · rcases hall _ List.mem_cons_self with ht | ht <;> cases ht

section

variable {α : Type} [Arithmetic α] {config : Config} {text : String} {tokens : List (Token α)}

/-- What the tokens of a text say about its characters. -/
theorem exists_follows_of_tokenize (h : tokenize config text = .ok tokens) :
    ∃ ls, Lexeme.IsRow ls ∧ Lexeme.textOf ls = nonBlanks text ∧
      Follows config.unaryMinus none ls tokens ∧
      (HasBalancedParentheses (nonBlanks text) ↔ IsBalanced Token.isOpen Token.isClose tokens) := by
  obtain ⟨-, -, ls, hrow, -, htext, htokens⟩ := tokenize_eq_ok_iff.mp h
  refine ⟨ls, hrow, htext, follows_of_ofLexemes hrow (fun _ _ _ _ ha => nomatch ha) htokens, ?_⟩
  rw [HasBalancedParentheses, isBalanced_iff, isBalanced_iff, ← htext]
  exact closes_textOf_iff hrow.isValid htokens

theorem isDerivable_of_places (h : tokenize config text = .ok tokens)
    (hmeet : juxtapositions (nonBlanks text) = 0)
    (hvacancies : vacancies config.unaryMinus (nonBlanks text) = 0)
    (hbalanced : HasBalancedParentheses (nonBlanks text)) :
    IsDerivable config.unaryMinus config.decimals (nonBlanks text) := by
  obtain ⟨ls, hrow, htext, hfollows, hiff⟩ := exists_follows_of_tokenize h
  obtain ⟨-, hallowed, -⟩ := tokenize_eq_ok_iff.mp h
  rw [← htext] at hmeet hvacancies hallowed ⊢
  refine (isDerivable_textOf_iff hrow fun hdecimals hpoint => ?_).mpr ?_
  · have hallowed' := hallowed '.' hpoint
    rw [hdecimals] at hallowed'
    cases hallowed'
  · exact hfollows.completes hvacancies hmeet (isBalanced_iff.mp (hiff.mp hbalanced))

/-- A text that has tokens has a value exactly if its parentheses are balanced, it misses an operand
as often as two meet, and each operator of the postfix program finds its operands. -/
theorem evaluate_isOk_iff_of_tokenize (h : tokenize config text = .ok tokens) :
    (∃ value : α, evaluate config text = .ok value) ↔
      HasBalancedParentheses (nonBlanks text) ∧
        vacancies config.unaryMinus (nonBlanks text) = juxtapositions (nonBlanks text) ∧
        FindsOperands 0 (Conversion.ofTokens tokens).queue := by
  obtain ⟨ls, -, htext, hfollows, hbalanced⟩ := exists_follows_of_tokenize h
  have hlaw := vacancies_add_numbers hfollows
  rw [htext] at hlaw
  have hcount : tokens.countP Token.isNumber =
      tokens.countP (Token.isOperator Operator.isBinary) + 1 ↔
        vacancies config.unaryMinus (nonBlanks text) = juxtapositions (nonBlanks text) := by
    omega
  rw [evaluate_of_tokenize h, reduce_isOk_iff, hcount, hbalanced]

/-! ## Operands that meet -/

/-- A text with operands that meet is refused, unless it has tokens and balanced parentheses, misses
operands elsewhere, as many as meet, and each operator of the postfix program finds its operands
among those that are left over. -/
theorem evaluate_error_iff_of_isJuxtaposed (config : Config) (text : String)
    (h : IsJuxtaposed (nonBlanks text)) :
    (∃ e, evaluate (α := α) config text = .error e) ↔
      ¬∃ tokens : List (Token α), tokenize config text = .ok tokens ∧
        HasBalancedParentheses (nonBlanks text) ∧
        0 < vacancies config.unaryMinus (nonBlanks text) ∧
        vacancies config.unaryMinus (nonBlanks text) = juxtapositions (nonBlanks text) ∧
        FindsOperands 0 (Conversion.ofTokens tokens).queue := by
  have hmeet := isJuxtaposed_iff.mp h
  cases htokens : tokenize (α := α) config text with
  | error e =>
    refine iff_of_true ⟨e, evaluate_of_tokenize_error htokens⟩ ?_
    intro ⟨tokens, hok, _⟩
    cases hok
  | ok tokens =>
    have hiff := evaluate_isOk_iff_of_tokenize htokens
    constructor
    · rintro ⟨e, he⟩ ⟨tokens', hok, hbalanced, -, hcount, hfinds⟩
      cases hok
      obtain ⟨value, hvalue⟩ := hiff.mpr ⟨hbalanced, hcount, hfinds⟩
      rw [he] at hvalue
      cases hvalue
    · intro hnone
      cases hresult : evaluate (α := α) config text with
      | error e => exact ⟨e, rfl⟩
      | ok value =>
        obtain ⟨hbalanced, hcount, hfinds⟩ := hiff.mp ⟨value, hresult⟩
        exact absurd ⟨tokens, rfl, hbalanced, by omega, hcount, hfinds⟩ hnone

/-- A number that meets a group, and no operator that lacks an operand. -/
theorem evaluate_error_number_group :
    IsJuxtaposed (nonBlanks "2(3)") ∧ ∃ e, evaluate (α := Float) {} "2(3)" = .error e := by
  have hmeet : IsJuxtaposed (nonBlanks "2(3)") := isJuxtaposed_iff.mpr (by decide)
  refine ⟨hmeet, (evaluate_error_iff_of_isJuxtaposed {} "2(3)" hmeet).mpr ?_⟩
  intro ⟨tokens, _, _, hvacancies, _⟩
  exact absurd hvacancies (by decide)

/-- A number that meets a group is not noticed if a sum lacks an operand behind them. -/
theorem evaluate_number_group_sum :
    IsJuxtaposed (nonBlanks "2(3)+") ∧ ∃ x y : Float,
      Arithmetic.readLiteral? ['2'] = some x ∧ Arithmetic.readLiteral? ['3'] = some y ∧
        evaluate {} "2(3)+" = .ok (x + y) := by
  have htwo : IsLiteral ['2'] := Lexeme.isLiteral_of_all_isDigit rfl (by decide)
  have hthree : IsLiteral ['3'] := Lexeme.isLiteral_of_all_isDigit rfl (by decide)
  obtain ⟨x, hx⟩ := Option.isSome_iff_exists.mp
    (ReadsLiterals.isSome_readLiteral? (α := Float) htwo)
  obtain ⟨y, hy⟩ := Option.isSome_iff_exists.mp
    (ReadsLiterals.isSome_readLiteral? (α := Float) hthree)
  have hclose : Lexeme.IsRow [.closeParen, .operator '+'] :=
    (Lexeme.isRow_singleton (Lexeme.isValid_operator .add)).cons trivial (by decide)
  have hnumber : Lexeme.IsRow [.number ['3'], .closeParen, .operator '+'] :=
    hclose.cons hthree (by decide)
  have hgroup : Lexeme.IsRow [.openParen, .number ['3'], .closeParen, .operator '+'] :=
    hnumber.cons trivial (by decide)
  have hrow : Lexeme.IsRow
      [.number ['2'], .openParen, .number ['3'], .closeParen, .operator '+'] :=
    hgroup.cons htwo (by decide)
  have htokens : tokenize {} "2(3)+" =
      .ok [.number x, .openParen, .number y, .closeParen, .operator .add] := by
    refine tokenize_eq_ok_iff.mpr
      ⟨by decide, List.all_eq_true.mp (by decide), _, hrow, by decide, by decide, ?_⟩
    simp only [Token.ofLexemes, Token.ofLexeme, hx, hy]
    rfl
  refine ⟨isJuxtaposed_iff.mpr (by decide), x, y, hx, hy, ?_⟩
  rw [evaluate_of_tokenize htokens]
  rfl

/-! ## Operands that are missing -/

/-- If no operands meet, a text that the grammar does not derive is refused. With balanced
parentheses it misses an operand, and the error says so: an operator finds too few, or nothing is
left of nothing but parentheses. -/
theorem evaluate_of_not_isDerivable (h : tokenize config text = .ok tokens)
    (hmeet : ¬IsJuxtaposed (nonBlanks text))
    (hderivable : ¬IsDerivable config.unaryMinus config.decimals (nonBlanks text)) :
    ∃ e, evaluate (α := α) config text = .error e ∧
      (HasBalancedParentheses (nonBlanks text) →
        ((∀ c ∈ nonBlanks text, c = '(' ∨ c = ')') → e = .malformedExpression 0 0) ∧
        ((¬∀ c ∈ nonBlanks text, c = '(' ∨ c = ')') →
          ∃ op available, available < op.arity ∧ e = .stackUnderflow op op.arity available)) := by
  obtain ⟨ls, -, htext, hfollows, hbalanced⟩ := exists_follows_of_tokenize h
  have hnone : juxtapositions (nonBlanks text) = 0 := by
    rw [isJuxtaposed_iff] at hmeet
    omega
  by_cases hparen : HasBalancedParentheses (nonBlanks text)
  · have htokens := hbalanced.mp hparen
    have hvacancies : vacancies config.unaryMinus (nonBlanks text) ≠ 0 := fun hzero =>
      hderivable (isDerivable_of_places h hnone hzero hparen)
    have hlaw := vacancies_add_numbers hfollows
    rw [htext] at hlaw
    rw [evaluate_of_tokenize h]
    by_cases hall : ∀ c ∈ nonBlanks text, c = '(' ∨ c = ')'
    · have hall' := hall
      rw [← htext, hfollows.forall_paren_iff] at hall'
      refine ⟨_, result_reduce_of_forall_paren htokens hall', fun _ => ⟨fun _ => rfl, ?_⟩⟩
      exact fun hsome => absurd hall hsome
    · have hsome := hall
      rw [← htext, hfollows.forall_paren_iff] at hsome
      have hcount : tokens.countP Token.isNumber ≤
          tokens.countP (Token.isOperator Operator.isBinary) := by omega
      obtain ⟨op, available, hlt, herror⟩ := result_reduce_of_countP_le htokens hcount hsome
      refine ⟨_, herror, fun _ => ⟨fun h => absurd h hall, fun _ => ?_⟩⟩
      exact ⟨op, available, hlt, rfl⟩
  · cases hresult : evaluate (α := α) config text with
    | error e => exact ⟨e, rfl, fun h => absurd h hparen⟩
    | ok value =>
      exact absurd ((evaluate_isOk_iff_of_tokenize h).mp ⟨value, hresult⟩).1 hparen

end

/-- A sum without its right operand. -/
theorem evaluate_trailing_sum :
    ∃ tokens : List (Token Float), tokenize {} "2+" = .ok tokens ∧
      ¬IsJuxtaposed (nonBlanks "2+") ∧ ¬IsDerivable true true (nonBlanks "2+") ∧
      ∃ op available, available < op.arity ∧
        evaluate (α := Float) {} "2+" = .error (.stackUnderflow op op.arity available) := by
  have hliteral : IsLiteral ['2'] := Lexeme.isLiteral_of_all_isDigit rfl (by decide)
  obtain ⟨x, hx⟩ := Option.isSome_iff_exists.mp
    (ReadsLiterals.isSome_readLiteral? (α := Float) hliteral)
  have hrow : Lexeme.IsRow [.number ['2'], .operator '+'] :=
    (Lexeme.isRow_singleton (Lexeme.isValid_operator .add)).cons hliteral (by decide)
  have htokens : tokenize {} "2+" = .ok [.number x, .operator .add] := by
    refine tokenize_eq_ok_iff.mpr
      ⟨by decide, List.all_eq_true.mp (by decide), _, hrow, by decide, by decide, ?_⟩
    simp only [Token.ofLexemes, Token.ofLexeme, hx]
    rfl
  have hmeet : ¬IsJuxtaposed (nonBlanks "2+") := fun h =>
    absurd (isJuxtaposed_iff.mp h) (by decide)
  have hderivable : ¬IsDerivable true true (nonBlanks "2+") := by
    have htext : nonBlanks "2+" = Lexeme.textOf [.number ['2'], .operator '+'] := by decide
    rw [htext]
    intro h
    have hpoint : true = false → '.' ∉ Lexeme.textOf [.number ['2'], .operator '+'] := by decide
    cases (isDerivable_textOf_iff hrow hpoint).mp h with
    | number h =>
      cases h with
      | operator isSymbol h => cases h
  obtain ⟨e, he, hparen⟩ := evaluate_of_not_isDerivable htokens hmeet hderivable
  have hneither : ∀ c ∈ ['2', '+'], (c == '(') = false ∧ (c == ')') = false := by simp
  have hbalanced : HasBalancedParentheses (nonBlanks "2+") :=
    isBalanced_iff.mpr ((closes_append_of_neither hneither).mpr (closes_nil_iff.mpr rfl))
  obtain ⟨op, available, hlt, rfl⟩ := (hparen hbalanced).2 fun hall =>
    absurd (hall '2' (by decide)) (by decide)
  exact ⟨_, htokens, hmeet, hderivable, op, available, hlt, he⟩

end InfixArithmetic
