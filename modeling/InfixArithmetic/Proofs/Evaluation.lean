/-
  Evaluation of a derivable text: its value is that of the derivation.

  Where the grammar allows a negation an operand is due, and where it puts a binary operator none is,
  so each minus sign gets the meaning it has in the tree, and the lexemes of a tree become its tokens
  with the literals read (`BecomesTokens`). Reduction then gives the value of that tree
  (`Derives.reduce_tokens`).
-/
import InfixArithmetic.Proofs.Derivation
import InfixArithmetic.Proofs.Reading
import InfixArithmetic.Proofs.Writing
import InfixArithmetic.Real.Literal

namespace InfixArithmetic

namespace Expression

/-! ## The tokens of a tree -/

section

variable {α : Type} [Arithmetic α]

theorem read?_number {literal : List Char} {value : α}
    (h : Arithmetic.readLiteral? literal = some value) :
    (number literal).read? = some (number value) := by
  rw [read?, h]; rfl

theorem read?_negation {operand : Expression (List Char)} {operand' : Expression α}
    (h : operand.read? = some operand') :
    (negation operand).read? = some (negation operand') := by
  rw [read?, h]; rfl

theorem read?_binary (op : Operator) {lhs rhs : Expression (List Char)} {lhs' rhs' : Expression α}
    (hl : lhs.read? = some lhs') (hr : rhs.read? = some rhs') :
    (binary op lhs rhs).read? = some (binary op lhs' rhs') := by
  rw [read?, hl, hr]; rfl

theorem read?_group {inner : Expression (List Char)} {inner' : Expression α}
    (h : inner.read? = some inner') : (group inner).read? = some (group inner') := by
  rw [read?, h]; rfl

/-- Whether the lexemes of one tree, standing where an operand is due, become the tokens of the
other, so that no operand is due after them. -/
def BecomesTokens (unaryMinus : Bool) (e : Expression (List Char)) (e' : Expression α) : Prop :=
  ∀ rest tokens, Token.ofLexemes unaryMinus false rest = .ok tokens →
    Token.ofLexemes unaryMinus true (e.lexemes ++ rest) = .ok (e'.tokens ++ tokens)

theorem becomesTokens_number (unaryMinus : Bool) {literal : List Char} {value : α}
    (h : Arithmetic.readLiteral? literal = some value) :
    BecomesTokens unaryMinus (number literal) (number value) := by
  intro rest tokens hrest
  refine Token.ofLexemes_cons_eq_ok_iff.mpr ⟨.number value, tokens, ?_, hrest, rfl⟩
  rw [Token.ofLexeme, h]

theorem becomesTokens_negation {operand : Expression (List Char)} {operand' : Expression α}
    (h : BecomesTokens true operand operand') :
    BecomesTokens true (negation operand) (negation operand') := by
  intro rest tokens hrest
  exact Token.ofLexemes_cons_eq_ok_iff.mpr
    ⟨.operator .neg, operand'.tokens ++ tokens, rfl, h rest tokens hrest, rfl⟩

/-- No operand is due after a left operand, so the symbol between the operands is that of the
binary operator. -/
theorem becomesTokens_binary {unaryMinus : Bool} {op : Operator} (hop : op.isUnary = false)
    {lhs rhs : Expression (List Char)} {lhs' rhs' : Expression α}
    (hl : BecomesTokens unaryMinus lhs lhs') (hr : BecomesTokens unaryMinus rhs rhs') :
    BecomesTokens unaryMinus (binary op lhs rhs) (binary op lhs' rhs') := by
  intro rest tokens hrest
  have hsymbol : operatorOfSymbol (unaryMinus && false) op.symbol = .ok op := by
    rw [Bool.and_false, operatorOfSymbol, Operator.ofSymbol?_symbol hop]
    cases op <;> rfl
  have hmiddle : Token.ofLexemes unaryMinus false (.operator op.symbol :: (rhs.lexemes ++ rest)) =
      .ok (.operator op :: (rhs'.tokens ++ tokens)) := by
    refine Token.ofLexemes_cons_eq_ok_iff.mpr
      ⟨.operator op, rhs'.tokens ++ tokens, ?_, hr rest tokens hrest, rfl⟩
    rw [Token.ofLexeme, hsymbol]
    rfl
  have hall := hl _ _ hmiddle
  rw [lexemes, Expression.tokens, List.append_assoc, List.append_assoc]
  exact hall

theorem becomesTokens_group {unaryMinus : Bool} {inner : Expression (List Char)}
    {inner' : Expression α} (h : BecomesTokens unaryMinus inner inner') :
    BecomesTokens unaryMinus (group inner) (group inner') := by
  intro rest tokens hrest
  have hclose : Token.ofLexemes (α := α) unaryMinus false (.closeParen :: rest) =
      .ok (.closeParen :: tokens) :=
    Token.ofLexemes_cons_eq_ok_iff.mpr ⟨.closeParen, tokens, rfl, hrest, rfl⟩
  have hinner := h _ _ hclose
  have hlexemes : (group inner).lexemes ++ rest =
      .openParen :: (inner.lexemes ++ .closeParen :: rest) := by simp [lexemes]
  have htokens : (group inner').tokens ++ tokens =
      .openParen :: (inner'.tokens ++ .closeParen :: tokens) := by simp [Expression.tokens]
  rw [hlexemes, htokens]
  exact Token.ofLexemes_cons_eq_ok_iff.mpr ⟨.openParen, _, rfl, hinner, rfl⟩

/-- A derivation over literals is read as a derivation over numbers, and its lexemes become the
tokens of that. -/
theorem Derives.exists_read? [ReadsLiterals α] {unaryMinus : Bool} {category : Category}
    {e : Expression (List Char)} (h : e.Derives unaryMinus category)
    (hleaves : ∀ literal ∈ e.leaves, IsLiteral literal) :
    ∃ e' : Expression α, e.read? = some e' ∧ e'.Derives unaryMinus category ∧
      BecomesTokens unaryMinus e e' := by
  induction h with
  | sum hop _ _ ihl ihr =>
    obtain ⟨l, hl, hlder, hltok⟩ := ihl fun literal hmem =>
      hleaves literal (List.mem_append_left _ hmem)
    obtain ⟨r, hr, hrder, hrtok⟩ := ihr fun literal hmem =>
      hleaves literal (List.mem_append_right _ hmem)
    refine ⟨_, read?_binary _ hl hr, .sum hop hlder hrder, becomesTokens_binary ?_ hltok hrtok⟩
    rcases hop with rfl | rfl <;> rfl
  | product hop _ _ ihl ihr =>
    obtain ⟨l, hl, hlder, hltok⟩ := ihl fun literal hmem =>
      hleaves literal (List.mem_append_left _ hmem)
    obtain ⟨r, hr, hrder, hrtok⟩ := ihr fun literal hmem =>
      hleaves literal (List.mem_append_right _ hmem)
    refine ⟨_, read?_binary _ hl hr, .product hop hlder hrder,
      becomesTokens_binary ?_ hltok hrtok⟩
    rcases hop with rfl | rfl <;> rfl
  | minus hunary _ ih =>
    obtain ⟨e', hread, hder, htok⟩ := ih hleaves
    subst hunary
    exact ⟨_, read?_negation hread, .minus rfl hder, becomesTokens_negation htok⟩
  | literal leaf =>
    obtain ⟨value, hvalue⟩ := Option.isSome_iff_exists.mp
      (ReadsLiterals.isSome_readLiteral? (α := α) (hleaves leaf List.mem_cons_self))
    exact ⟨.number value, read?_number hvalue, .literal value,
      becomesTokens_number unaryMinus hvalue⟩
  | parentheses _ ih =>
    obtain ⟨e', hread, hder, htok⟩ := ih hleaves
    exact ⟨_, read?_group hread, .parentheses hder, becomesTokens_group htok⟩
  | ofTerm _ ih =>
    obtain ⟨e', hread, hder, htok⟩ := ih hleaves
    exact ⟨e', hread, .ofTerm hder, htok⟩
  | ofFactor _ ih =>
    obtain ⟨e', hread, hder, htok⟩ := ih hleaves
    exact ⟨e', hread, .ofFactor hder, htok⟩
  | ofPrimary _ ih =>
    obtain ⟨e', hread, hder, htok⟩ := ih hleaves
    exact ⟨e', hread, .ofPrimary hder, htok⟩

end

end Expression

/-! ## Evaluation -/

section

variable {α : Type} [Arithmetic α] [ReadsLiterals α]

/-- A text that a derivation writes has the tokens of the derivation, with its literals read. -/
theorem Expression.Writes.tokenize {config : Config} {text : String}
    {e : Expression (List Char)} (hlen : text.utf8ByteSize ≤ config.maxInputLen)
    (h : e.Writes config.unaryMinus config.decimals (nonBlanks text)) :
    ∃ e' : Expression α, e.read? = some e' ∧ e'.Derives config.unaryMinus .expression ∧
      InfixArithmetic.tokenize config text = .ok e'.tokens := by
  obtain ⟨hderives, hleaves, htext⟩ := h
  have hliterals : ∀ literal ∈ e.leaves, IsLiteral literal := fun literal hmem =>
    (hleaves literal hmem).1
  obtain ⟨e', hread, hderives', htokens⟩ := hderives.exists_read? (α := α) hliterals
  have hrow := htokens [] [] rfl
  rw [List.append_nil, List.append_nil] at hrow
  refine ⟨e', hread, hderives', tokenize_eq_ok_iff.mpr ⟨hlen, ?_, e.lexemes, ?_, ?_, ?_, hrow⟩⟩
  · rw [← htext]
    exact Expression.isAllowed_of_mem_text hleaves
  · exact Expression.isRow_lexemes hliterals
  · exact e.lexemes_ne_nil
  · rw [Expression.textOf_lexemes, htext]

theorem Expression.Writes.evaluate_of_read? {config : Config} {text : String}
    {e : Expression (List Char)} {e' : Expression α}
    (hlen : text.utf8ByteSize ≤ config.maxInputLen)
    (h : e.Writes config.unaryMinus config.decimals (nonBlanks text))
    (hread : e.read? = some e') : evaluate config text = .ok e'.value := by
  obtain ⟨tree, htree, hderives, htokens⟩ := h.tokenize (α := α) hlen
  obtain rfl : tree = e' := Option.some.inj (htree.symm.trans hread)
  rw [evaluate_of_tokenize htokens, hderives.reduce_tokens]
  rfl

/-- A derivation over the literals of a configuration writes the text of its characters. -/
theorem Expression.Derives.writes_ofList {unaryMinus decimals : Bool}
    {e : Expression (List Char)} (h : e.Derives unaryMinus .expression)
    (hleaves : ∀ literal ∈ e.leaves, IsLiteralOf decimals literal) :
    e.Writes unaryMinus decimals (nonBlanks (String.ofList e.text)) :=
  ⟨h, hleaves, (nonBlanks_ofList (isAllowed_of_mem_text hleaves)).symm⟩

/-- A text that the grammar derives, blanks apart, has the value of its derivation: literals as
they are read, a minus sign in front as negation, and each operation on its left and its right
value. -/
theorem evaluate_writes (config : Config) (text : String) (e : Expression (List Char))
    (hlen : text.utf8ByteSize ≤ config.maxInputLen)
    (h : e.Writes config.unaryMinus config.decimals (nonBlanks text)) :
    ∃ e' : Expression α, e.read? = some e' ∧ evaluate config text = .ok e'.value := by
  obtain ⟨e', hread, hderives, htokens⟩ := h.tokenize (α := α) hlen
  refine ⟨e', hread, ?_⟩
  rw [evaluate_of_tokenize htokens, hderives.reduce_tokens]
  rfl

end

/-- Blanks, a negated group, a point and two levels of precedence. -/
theorem evaluate_writes_negated_group :
    let text := "-(2 + 3) * .5 "
    let e : Expression (List Char) :=
      .binary .mul (.negation (.group (.binary .add (.number ['2']) (.number ['3']))))
        (.number ['.', '5'])
    text.utf8ByteSize ≤ ({} : Config).maxInputLen ∧ e.Writes true true (nonBlanks text) ∧
      ∃ e' : Expression Float, e.read? = some e' ∧ evaluate {} text = .ok e'.value ∧
        e'.value = -2.5 := by
  intro text e
  have hlen : text.utf8ByteSize ≤ ({} : Config).maxInputLen := by decide
  have hderives : e.Derives true .expression :=
    .ofTerm <| .product (.inl rfl)
      (.ofFactor <| .minus rfl <| .ofPrimary <| .parentheses <|
        .sum (.inl rfl) (.ofTerm <| .ofFactor <| .ofPrimary <| .literal _)
          (.ofFactor <| .ofPrimary <| .literal _))
      (.ofPrimary <| .literal _)
  have hleaves : ∀ literal ∈ e.leaves, IsLiteralOf true literal := by
    intro literal hmem
    refine ⟨?_, fun h => nomatch h⟩
    obtain rfl | rfl | rfl : literal = ['2'] ∨ literal = ['3'] ∨ literal = ['.', '5'] := by
      simpa [e, Expression.leaves] using hmem
    · exact Lexeme.isLiteral_of_all_isDigit rfl (List.cons_ne_nil _ _)
    · exact Lexeme.isLiteral_of_all_isDigit rfl (List.cons_ne_nil _ _)
    · exact ⟨[], ['5'], List.forall_mem_singleton.mpr rfl, List.cons_ne_nil _ _, .inr rfl⟩
  have hwrites : e.Writes true true (nonBlanks text) := ⟨hderives, hleaves, by decide⟩
  have hvalue : e.read?.map Expression.value = some (-2.5 : Float) := by decide +kernel
  obtain ⟨e', hread, heval⟩ := evaluate_writes (α := Float) {} text e hlen hwrites
  rw [hread] at hvalue
  exact ⟨hlen, hwrites, e', hread, heval, Option.some.inj hvalue⟩

end InfixArithmetic
