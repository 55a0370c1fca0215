/-
  The infix grammar from left to right.

  A row of lexemes is derivable if it can be read with one bit and one counter: whether an operand
  is due, and how many parentheses are open (`Completes`). What has been read at any moment is the
  beginning of a derivation (`Viable`): sums, products and minus signs that wait for the next factor,
  level by level of parentheses. A lexeme lengthens that beginning (`Reached`), so when the row ends
  the derivation is there; and a derivation can be read in this way (`completes_iff`,
  `isDerivable_textOf_iff`).
-/
import InfixArithmetic.Proofs.Writing

namespace InfixArithmetic

namespace Expression

/-! ## Beginnings of derivations -/

/-- What can stand before a symbol of the grammar, with so many parentheses open. -/
inductive Viable (unaryMinus : Bool) : Category → Nat → List Lexeme → Prop where
  | start : Viable unaryMinus .expression 0 []
  | openParen {depth front} : Viable unaryMinus .factor depth front →
      Viable unaryMinus .expression (depth + 1) (front ++ [.openParen])
  | ofExpression {depth front} : Viable unaryMinus .expression depth front →
      Viable unaryMinus .term depth front
  | sum {depth front lhs} {op : Operator} (isSum : op = .add ∨ op = .sub) :
      Viable unaryMinus .expression depth front → Derives unaryMinus .expression lhs →
      Viable unaryMinus .term depth (front ++ lhs.lexemes ++ [.operator op.symbol])
  | ofTerm {depth front} : Viable unaryMinus .term depth front →
      Viable unaryMinus .factor depth front
  | product {depth front lhs} {op : Operator} (isProduct : op = .mul ∨ op = .div) :
      Viable unaryMinus .term depth front → Derives unaryMinus .term lhs →
      Viable unaryMinus .factor depth (front ++ lhs.lexemes ++ [.operator op.symbol])
  | minus {depth front} (isNegation : unaryMinus = true) : Viable unaryMinus .factor depth front →
      Viable unaryMinus .factor depth (front ++ [.operator '-'])

variable {unaryMinus : Bool}

/-- A symbol after a beginning ends a whole term, if it is no expression. -/
theorem Viable.exists_term {category : Category} {depth : Nat} {front : List Lexeme}
    (h : Viable unaryMinus category depth front) (hcategory : category ≠ .expression)
    {e : Expression (List Char)} (he : e.Derives unaryMinus category) :
    ∃ front' t, Viable unaryMinus .term depth front' ∧ Derives unaryMinus .term t ∧
      front' ++ t.lexemes = front ++ e.lexemes := by
  induction h generalizing e with
  | start | openParen => exact absurd rfl hcategory
  | ofExpression h => exact ⟨_, e, .ofExpression h, he, rfl⟩
  | sum isSum h hlhs => exact ⟨_, e, .sum isSum h hlhs, he, rfl⟩
  | ofTerm h ih => exact ⟨_, e, h, .ofFactor he, rfl⟩
  | @product depth front lhs op isProduct h hlhs ih =>
    refine ⟨front, binary op lhs e, h, .product isProduct hlhs he, ?_⟩
    rw [lexemes, List.append_assoc, List.append_assoc]
    rfl
  | @minus depth front isNegation h ih =>
    obtain ⟨front', t, hfront, ht, hlexemes⟩ := ih hcategory (.minus isNegation he)
    refine ⟨front', t, hfront, ht, ?_⟩
    rw [hlexemes, lexemes, List.append_assoc]
    rfl

/-- A symbol after a beginning ends everything that its level of parentheses holds. -/
theorem Viable.exists_expression {category : Category} {depth : Nat} {front : List Lexeme}
    (h : Viable unaryMinus category depth front) {e : Expression (List Char)}
    (he : e.Derives unaryMinus category) :
    ∃ front' e', Viable unaryMinus .expression depth front' ∧ Derives unaryMinus .expression e' ∧
      front' ++ e'.lexemes = front ++ e.lexemes := by
  induction h generalizing e with
  | start => exact ⟨[], e, .start, he, rfl⟩
  | openParen h => exact ⟨_, e, .openParen h, he, rfl⟩
  | ofExpression h => exact ⟨_, e, h, .ofTerm he, rfl⟩
  | @sum depth front lhs op isSum h hlhs ih =>
    refine ⟨front, binary op lhs e, h, .sum isSum hlhs he, ?_⟩
    rw [lexemes, List.append_assoc, List.append_assoc]
    rfl
  | ofTerm h ih => exact ih (.ofFactor he)
  | @product depth front lhs op isProduct h hlhs ih =>
    obtain ⟨front', e', hfront, he', hlexemes⟩ := ih (.product isProduct hlhs he)
    refine ⟨front', e', hfront, he', ?_⟩
    rw [hlexemes, lexemes, List.append_assoc, List.append_assoc]
    rfl
  | @minus depth front isNegation h ih =>
    obtain ⟨front', e', hfront, he', hlexemes⟩ := ih (.minus isNegation he)
    refine ⟨front', e', hfront, he', ?_⟩
    rw [hlexemes, lexemes, List.append_assoc]
    rfl

/-! ## Reading a row -/

/-- Whether a row ends what has been begun, with an operand due in front of it or not, and so many
parentheses open. -/
inductive Completes (unaryMinus : Bool) : Bool → Nat → List Lexeme → Prop where
  | nil : Completes unaryMinus false 0 []
  | number {literal depth ls} : Completes unaryMinus false depth ls →
      Completes unaryMinus true depth (.number literal :: ls)
  | openParen {depth ls} : Completes unaryMinus true (depth + 1) ls →
      Completes unaryMinus true depth (.openParen :: ls)
  | minus {depth ls} (isNegation : unaryMinus = true) : Completes unaryMinus true depth ls →
      Completes unaryMinus true depth (.operator '-' :: ls)
  | operator {symbol depth ls} (isSymbol : Lexeme.isOperatorSymbol symbol = true) :
      Completes unaryMinus true depth ls →
      Completes unaryMinus false depth (.operator symbol :: ls)
  | closeParen {depth ls} : Completes unaryMinus false depth ls →
      Completes unaryMinus false (depth + 1) (.closeParen :: ls)

/-- Whether what has been read is the beginning of a derivation, up to a place where an operand is
due or up to the end of one. -/
def Reached (unaryMinus : Bool) : Bool → Nat → List Lexeme → Prop
  | true, depth, front => Viable unaryMinus .factor depth front
  | false, depth, front => ∃ front' p, Viable unaryMinus .factor depth front' ∧
      Derives unaryMinus .primary p ∧ front' ++ p.lexemes = front

theorem Reached.number {depth : Nat} {front : List Lexeme}
    (h : Reached unaryMinus true depth front) (literal : List Char) :
    Reached unaryMinus false depth (front ++ [.number literal]) :=
  ⟨front, .number literal, h, .literal literal, rfl⟩

theorem Reached.openParen {depth : Nat} {front : List Lexeme}
    (h : Reached unaryMinus true depth front) :
    Reached unaryMinus true (depth + 1) (front ++ [.openParen]) :=
  Viable.ofTerm (.ofExpression (.openParen h))

theorem Reached.minus {depth : Nat} {front : List Lexeme} (isNegation : unaryMinus = true)
    (h : Reached unaryMinus true depth front) :
    Reached unaryMinus true depth (front ++ [.operator '-']) :=
  Viable.minus isNegation h

theorem Reached.exists_expression {depth : Nat} {front : List Lexeme}
    (h : Reached unaryMinus false depth front) :
    ∃ front' e, Viable unaryMinus .expression depth front' ∧ Derives unaryMinus .expression e ∧
      front' ++ e.lexemes = front := by
  obtain ⟨front', p, hfront, hp, rfl⟩ := h
  exact hfront.exists_expression (.ofPrimary hp)

/-- After an operand, a sum takes what its level holds, and a product the last term. -/
theorem Reached.operator {depth : Nat} {front : List Lexeme} {symbol : Char}
    (isSymbol : Lexeme.isOperatorSymbol symbol = true)
    (h : Reached unaryMinus false depth front) :
    Reached unaryMinus true depth (front ++ [.operator symbol]) := by
  have hsum : ∀ op : Operator, op = .add ∨ op = .sub →
      Reached unaryMinus true depth (front ++ [.operator op.symbol]) := by
    intro op hop
    obtain ⟨front', e, hfront, he, rfl⟩ := h.exists_expression
    exact Viable.ofTerm (.sum hop hfront he)
  have hproduct : ∀ op : Operator, op = .mul ∨ op = .div →
      Reached unaryMinus true depth (front ++ [.operator op.symbol]) := by
    intro op hop
    obtain ⟨front', p, hviable, hp, rfl⟩ := h
    obtain ⟨front, t, hfront, ht, hlexemes⟩ :=
      hviable.exists_term Category.noConfusion (.ofPrimary hp)
    rw [← hlexemes]
    exact Viable.product hop hfront ht
  rcases Lexeme.isOperatorSymbol_iff.mp isSymbol with rfl | rfl | rfl | rfl
  · exact hsum .add (Or.inl rfl)
  · exact hsum .sub (Or.inr rfl)
  · exact hproduct .mul (Or.inl rfl)
  · exact hproduct .div (Or.inr rfl)

theorem Reached.closeParen {depth : Nat} {front : List Lexeme}
    (h : Reached unaryMinus false (depth + 1) front) :
    Reached unaryMinus false depth (front ++ [.closeParen]) := by
  obtain ⟨front', e, hfront, he, rfl⟩ := h.exists_expression
  cases hfront with
  | @openParen depth outer houter =>
    refine ⟨outer, group e, houter, .parentheses he, ?_⟩
    rw [lexemes, List.append_assoc, List.append_assoc]
    rfl

theorem Completes.derives_append {due : Bool} {depth : Nat} {ls front : List Lexeme}
    (h : Completes unaryMinus due depth ls) (hfront : Reached unaryMinus due depth front) :
    ∃ e, Derives unaryMinus .expression e ∧ e.lexemes = front ++ ls := by
  induction h generalizing front with
  | nil =>
    obtain ⟨front', e, hstart, he, rfl⟩ := hfront.exists_expression
    cases hstart
    exact ⟨e, he, (List.append_nil _).symm⟩
  | @number literal depth ls h ih =>
    have := ih (hfront.number literal)
    rwa [List.append_assoc] at this
  | openParen h ih =>
    have := ih hfront.openParen
    rwa [List.append_assoc] at this
  | minus isNegation h ih =>
    have := ih (hfront.minus isNegation)
    rwa [List.append_assoc] at this
  | operator isSymbol h ih =>
    have := ih (hfront.operator isSymbol)
    rwa [List.append_assoc] at this
  | closeParen h ih =>
    have := ih hfront.closeParen
    rwa [List.append_assoc] at this

/-- What a derivation writes can be read, whatever comes after it. -/
theorem Derives.completes {category : Category} {e : Expression (List Char)}
    (h : Derives unaryMinus category e) {depth : Nat} {rest : List Lexeme}
    (hrest : Completes unaryMinus false depth rest) :
    Completes unaryMinus true depth (e.lexemes ++ rest) := by
  induction h generalizing depth rest with
  | @sum op lhs rhs isSum hl hr ihl ihr | @product op lhs rhs isProduct hl hr ihl ihr =>
    rw [lexemes, List.append_assoc]
    exact ihl (.operator (Lexeme.isValid_operator op) (ihr hrest))
  | ofTerm h ih | ofFactor h ih | ofPrimary h ih => exact ih hrest
  | minus isNegation h ih => exact .minus isNegation (ih hrest)
  | literal leaf => exact .number hrest
  | parentheses h ih =>
    rw [lexemes, List.cons_append, List.append_assoc]
    exact .openParen (ih (.closeParen hrest))

/-- The rows that are read to their end are those of derivations. -/
theorem completes_iff {ls : List Lexeme} :
    Completes unaryMinus true 0 ls ↔ ∃ e, Derives unaryMinus .expression e ∧ e.lexemes = ls := by
  constructor
  · intro h
    exact h.derives_append (Viable.ofTerm (.ofExpression .start))
  · intro hexists
    obtain ⟨e, he, rfl⟩ := hexists
    have h := he.completes .nil
    rwa [List.append_nil] at h

end Expression

/-- A row that uses points only if decimals are on is derivable exactly if it can be read in this
way. -/
theorem isDerivable_textOf_iff {unaryMinus decimals : Bool} {ls : List Lexeme}
    (hrow : Lexeme.IsRow ls) (hpoint : decimals = false → '.' ∉ Lexeme.textOf ls) :
    IsDerivable unaryMinus decimals (Lexeme.textOf ls) ↔
      Expression.Completes unaryMinus true 0 ls := by
  rw [Expression.completes_iff]
  constructor
  · intro ⟨e, he, hleaves, htext⟩
    have hrow' := Expression.isRow_lexemes fun literal hmem => (hleaves literal hmem).1
    refine ⟨e, he, hrow'.eq_of_textOf_eq hrow ?_⟩
    rw [Expression.textOf_lexemes, htext]
  · intro hexists
    obtain ⟨e, he, rfl⟩ := hexists
    refine ⟨e, he, fun literal hmem => ?_, (Expression.textOf_lexemes e).symm⟩
    have hnumber := Expression.mem_lexemes_of_mem_leaves literal hmem
    refine ⟨hrow.isValid _ hnumber, fun hdecimals hmem => hpoint hdecimals ?_⟩
    exact List.mem_flatMap.mpr ⟨_, hnumber, hmem⟩

end InfixArithmetic
