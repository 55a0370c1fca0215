/-
  Which raw texts have tokens, and which tokens they have.

  Validation takes the blanks out and lets the rest pass if it is short enough and of the alphabet
  (`validate_eq_ok_iff`). The rest has tokens if it is what a non-empty row of lexemes writes and
  every number in the row is read (`tokenize_eq_ok_iff`); there is one token for each lexeme.
-/
import InfixArithmetic.Evaluation
import InfixArithmetic.Proofs.LexemeRow

namespace InfixArithmetic

/-! ## Validation -/

/-- The characters of a text that are not blank. -/
def nonBlanks (text : String) : List Char := text.toList.filter fun c => !Text.isBlank c

theorem isBlank_eq_false_of_isAllowed {decimals : Bool} {c : Char}
    (h : isAllowed decimals c = true) : Text.isBlank c = false := by
  simp only [isAllowed, List.mem_cons, List.not_mem_nil, or_false, Bool.or_eq_true,
    Bool.and_eq_true, decide_eq_true_eq, beq_iff_eq] at h
  rcases h with (hdigit | hsymbol) | ⟨-, rfl⟩
  · exact Text.isBlank_eq_false_of_isDigit hdigit
  · rcases hsymbol with rfl | rfl | rfl | rfl | rfl | rfl <;> rfl
  · rfl

/-- What is of the alphabet has no blanks. -/
theorem nonBlanks_ofList {decimals : Bool} {cs : List Char}
    (h : ∀ c ∈ cs, isAllowed decimals c = true) : nonBlanks (String.ofList cs) = cs := by
  unfold nonBlanks
  rw [String.toList_ofList, List.filter_eq_self]
  intro c hc
  rw [isBlank_eq_false_of_isAllowed (h c hc)]
  rfl

theorem strip_eq_ok_iff {decimals : Bool} {position : Nat} {cs stripped : List Char} :
    strip decimals position cs = .ok stripped ↔
      stripped = cs.filter (fun c => !Text.isBlank c) ∧
        ∀ c ∈ stripped, isAllowed decimals c = true := by
  induction cs generalizing position stripped with
  | nil =>
    rw [strip, List.filter_nil]
    constructor
    · intro h
      cases h
      exact ⟨rfl, fun _ hc => (nomatch hc)⟩
    · intro hexists
      obtain ⟨rfl, -⟩ := hexists
      rfl
  | cons c cs ih =>
    rw [strip]
    by_cases hblank : Text.isBlank c = true
    · rw [if_pos hblank, ih, List.filter_cons_of_neg (by simp [hblank])]
    · have hkeep : (!Text.isBlank c) = true := by simpa using hblank
      rw [if_neg hblank, List.filter_cons, if_pos hkeep]
      by_cases hallowed : isAllowed decimals c = true
      · rw [if_pos hallowed, bind_eq_ok_iff]
        constructor
        · intro ⟨rest, hrest, hcons⟩
          cases hcons
          obtain ⟨rfl, hall⟩ := ih.mp hrest
          exact ⟨rfl, List.forall_mem_cons.mpr ⟨hallowed, hall⟩⟩
        · intro hexists
          obtain ⟨rfl, hall⟩ := hexists
          exact ⟨_, ih.mpr ⟨rfl, (List.forall_mem_cons.mp hall).2⟩, rfl⟩
      · rw [if_neg hallowed]
        constructor
        · intro h
          cases h
        · intro hexists
          obtain ⟨rfl, hall⟩ := hexists
          exact absurd (hall c List.mem_cons_self) hallowed

theorem validate_eq_ok_iff {config : Config} {text stripped : String} :
    validate config text = .ok stripped ↔
      text.utf8ByteSize ≤ config.maxInputLen ∧
        (∀ c ∈ nonBlanks text, isAllowed config.decimals c = true) ∧
        stripped = String.ofList (nonBlanks text) := by
  rw [validate]
  by_cases hlen : config.maxInputLen < text.utf8ByteSize
  · rw [if_pos hlen]
    constructor
    · intro h
      cases h
    · intro ⟨hle, _⟩
      omega
  · rw [if_neg hlen, bind_eq_ok_iff]
    constructor
    · intro ⟨cs, hcs, hof⟩
      cases hof
      obtain ⟨rfl, hall⟩ := strip_eq_ok_iff.mp hcs
      exact ⟨Nat.le_of_not_lt hlen, hall, rfl⟩
    · intro hexists
      obtain ⟨-, hall, rfl⟩ := hexists
      exact ⟨_, strip_eq_ok_iff.mpr ⟨rfl, hall⟩, rfl⟩

/-! ## Tokens of a row -/

namespace Token

variable {α : Type} [Arithmetic α]

theorem exists_of_ofLexeme_number {atOperand : Bool} {literal : List Char} {token : Token α}
    (h : ofLexeme atOperand (.number literal) = .ok token) : ∃ value, token = .number value := by
  rw [ofLexeme] at h
  cases hread : Arithmetic.readLiteral? (α := α) literal with
  | none =>
    rw [hread] at h
    cases h
  | some value =>
    rw [hread] at h
    cases h
    exact ⟨value, rfl⟩

/-- An operator token has the symbol of its lexeme, and is a negation if that is a minus sign where
an operand is due. -/
theorem exists_of_ofLexeme_operator {atOperand : Bool} {symbol : Char} {token : Token α}
    (h : ofLexeme atOperand (.operator symbol) = .ok token) :
    ∃ op : Operator, token = .operator op ∧ op.symbol = symbol ∧
      op.isUnary = (atOperand && symbol == '-') := by
  obtain ⟨op, hop, htoken⟩ := bind_eq_ok_iff.mp h
  cases htoken
  refine ⟨op, rfl, ?_⟩
  rw [operatorOfSymbol] at hop
  cases hsymbol : Operator.ofSymbol? symbol with
  | none =>
    rw [hsymbol] at hop
    cases hop
  | some binary =>
    have heq := Operator.symbol_of_ofSymbol? hsymbol
    have hbinary := Operator.isUnary_of_ofSymbol? hsymbol
    rw [hsymbol] at hop
    subst heq
    cases binary with
    | neg => cases hbinary
    | sub => cases atOperand <;> cases hop <;> exact ⟨rfl, rfl⟩
    | _ => cases hop; exact ⟨rfl, by cases atOperand <;> rfl⟩

theorem ofLexemes_cons_eq_ok_iff {unaryMinus operandDue : Bool} {l : Lexeme} {ls : List Lexeme}
    {tokens : List (Token α)} :
    ofLexemes unaryMinus operandDue (l :: ls) = .ok tokens ↔
      ∃ token rest, ofLexeme (unaryMinus && operandDue) l = .ok token ∧
        ofLexemes unaryMinus token.expectsOperand ls = .ok rest ∧ tokens = token :: rest := by
  rw [ofLexemes, bind_eq_ok_iff]
  constructor
  · intro ⟨token, htoken, hbind⟩
    obtain ⟨rest, hrest, hcons⟩ := bind_eq_ok_iff.mp hbind
    exact ⟨token, rest, htoken, hrest, (Except.ok.inj hcons).symm⟩
  · intro hexists
    obtain ⟨token, rest, htoken, hrest, rfl⟩ := hexists
    exact ⟨token, htoken, bind_eq_ok_iff.mpr ⟨rest, hrest, rfl⟩⟩

theorem ofStripped_eq_ok_iff {unaryMinus : Bool} {stripped : List Char}
    {tokens : List (Token α)} :
    ofStripped unaryMinus stripped = .ok tokens ↔
      ∃ ls, Lexeme.IsRow ls ∧ ls ≠ [] ∧ Lexeme.textOf ls = stripped ∧
        ofLexemes unaryMinus true ls = .ok tokens := by
  rw [ofStripped]
  cases hscan : Lexeme.scan stripped with
  | error position =>
    constructor
    · intro h
      cases h
    · intro ⟨ls, hrow, hne, htext, _⟩
      rw [Lexeme.scan_eq_ok_iff.mpr ⟨hrow, hne, htext⟩] at hscan
      cases hscan
  | ok ls =>
    obtain ⟨hrow, hne, htext⟩ := Lexeme.scan_eq_ok_iff.mp hscan
    -- a row has as many tokens as lexemes, so the last check always passes
    have hnonempty : ∀ tokens : List (Token α), ofLexemes unaryMinus true ls = .ok tokens →
        ¬tokens.isEmpty = true := by
      obtain ⟨l, ls, rfl⟩ := List.exists_cons_of_ne_nil hne
      intro tokens htokens
      obtain ⟨token, rest, -, -, rfl⟩ := ofLexemes_cons_eq_ok_iff.mp htokens
      exact Bool.false_ne_true
    constructor
    · intro h
      obtain ⟨tokens', htokens', hif⟩ := bind_eq_ok_iff.mp h
      rw [if_neg (hnonempty tokens' htokens')] at hif
      cases hif
      exact ⟨ls, hrow, hne, htext, htokens'⟩
    · intro ⟨ls', hrow', hne', htext', htokens⟩
      obtain rfl : ls' = ls := hrow'.eq_of_textOf_eq hrow (htext'.trans htext.symm)
      exact bind_eq_ok_iff.mpr ⟨tokens, htokens, if_neg (hnonempty tokens htokens)⟩

end Token

section

variable {α : Type} [Arithmetic α]

theorem tokenize_eq_ok_iff {config : Config} {text : String} {tokens : List (Token α)} :
    tokenize config text = .ok tokens ↔
      text.utf8ByteSize ≤ config.maxInputLen ∧
        (∀ c ∈ nonBlanks text, isAllowed config.decimals c = true) ∧
        ∃ ls, Lexeme.IsRow ls ∧ ls ≠ [] ∧ Lexeme.textOf ls = nonBlanks text ∧
          Token.ofLexemes config.unaryMinus true ls = .ok tokens := by
  rw [tokenize, bind_eq_ok_iff]
  constructor
  · intro ⟨stripped, hvalid, htokens⟩
    obtain ⟨hlen, hall, rfl⟩ := validate_eq_ok_iff.mp hvalid
    rw [String.toList_ofList] at htokens
    exact ⟨hlen, hall, Token.ofStripped_eq_ok_iff.mp htokens⟩
  · intro ⟨hlen, hall, hrow⟩
    refine ⟨_, validate_eq_ok_iff.mpr ⟨hlen, hall, rfl⟩, ?_⟩
    rw [String.toList_ofList]
    exact Token.ofStripped_eq_ok_iff.mpr hrow

theorem evaluate_of_tokenize {config : Config} {text : String} {tokens : List (Token α)}
    (h : tokenize config text = .ok tokens) : evaluate config text = (reduce tokens).result := by
  rw [evaluate, evaluation, h]

theorem evaluate_of_tokenize_error {config : Config} {text : String} {e : EvalError}
    (h : tokenize (α := α) config text = .error e) :
    evaluate (α := α) config text = .error e := by
  rw [evaluate, evaluation, h]

theorem evaluate_eq_ok_iff {config : Config} {text : String} {value : α} :
    evaluate config text = .ok value ↔
      ∃ tokens : List (Token α), tokenize config text = .ok tokens ∧
        (reduce tokens).result = .ok value := by
  cases htokens : tokenize (α := α) config text with
  | error e =>
    rw [evaluate_of_tokenize_error htokens]
    exact ⟨fun h => (nomatch h), fun ⟨_, h, _⟩ => (nomatch h)⟩
  | ok tokens =>
    rw [evaluate_of_tokenize htokens]
    refine ⟨fun h => ⟨tokens, rfl, h⟩, fun hexists => ?_⟩
    obtain ⟨tokens', htokens', h⟩ := hexists
    cases htokens'
    exact h

end

end InfixArithmetic
