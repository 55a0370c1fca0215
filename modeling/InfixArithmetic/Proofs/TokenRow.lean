/-
  The tokens of a row of lexemes: one for each, in order.

  What a lexeme becomes is a matter of the lexeme and of its place (`Token.IsReading`), and the place
  matters to a minus sign only. Whether an operand is due in a place follows from the lexeme in
  front, whatever that has become: a minus sign wants an operand after it as a negation and as a
  subtraction (`Token.expectsOperand_of_ofLexeme`). So the readings of a row can be stated place by
  place (`Token.exists_isReading`), and since a text has at most one row, writing a row and
  reading it are inverse to each other (`Token.ofStripped_inverts_textOf`).
-/
import InfixArithmetic.Proofs.Reading
import InfixArithmetic.Proofs.Writing
import InfixArithmetic.Real.Literal
import Mathlib.Logic.ExistsUnique

namespace InfixArithmetic

namespace Token

variable {α : Type} [Arithmetic α]

/-- Whether a token is what a lexeme means in a place; `due` says whether an operand is due there.
A minus sign is a negation if one is and the configuration wants that, and a subtraction
otherwise. -/
inductive IsReading (unaryMinus : Bool) (due : Prop) : Lexeme → Token α → Prop where
  | number {literal : List Char} {value : α} :
      Arithmetic.readLiteral? literal = some value →
      IsReading unaryMinus due (.number literal) (.number value)
  | openParen : IsReading unaryMinus due .openParen .openParen
  | closeParen : IsReading unaryMinus due .closeParen .closeParen
  | negation : unaryMinus = true ∧ due → IsReading unaryMinus due (.operator '-') (.operator .neg)
  | subtraction : ¬(unaryMinus = true ∧ due) →
      IsReading unaryMinus due (.operator '-') (.operator .sub)
  | operator {op : Operator} : op = .add ∨ op = .mul ∨ op = .div →
      IsReading unaryMinus due (.operator op.symbol) (.operator op)

/-- A minus sign is a negation or a subtraction. -/
theorem IsReading.of_minus {unaryMinus : Bool} {due : Prop} {token : Token α}
    (h : IsReading unaryMinus due (.operator '-') token) :
    (token = .operator .neg ∧ unaryMinus = true ∧ due) ∨
      (token = .operator .sub ∧ ¬(unaryMinus = true ∧ due)) := by
  generalize hl : Lexeme.operator '-' = l at h
  cases h with
  | negation hboth => exact .inl ⟨rfl, hboth⟩
  | subtraction hnot => exact .inr ⟨rfl, hnot⟩
  | operator hop =>
    -- the other three have symbols of their own
    rcases hop with rfl | rfl | rfl <;> cases hl
  | _ => cases hl

/-! ## One lexeme -/

theorem isReading_of_ofLexeme {unaryMinus due : Bool} {l : Lexeme} {token : Token α}
    (h : ofLexeme (unaryMinus && due) l = .ok token) :
    IsReading unaryMinus (due = true) l token := by
  cases l with
  | openParen =>
    cases h
    exact .openParen
  | closeParen =>
    cases h
    exact .closeParen
  | number literal =>
    rw [ofLexeme] at h
    cases hread : Arithmetic.readLiteral? (α := α) literal with
    | none =>
      rw [hread] at h
      cases h
    | some value =>
      rw [hread] at h
      cases h
      exact .number hread
  | operator symbol =>
    obtain ⟨op, rfl, rfl, hunary⟩ := exists_of_ofLexeme_operator h
    cases op with
    | add => exact .operator (.inl rfl)
    | mul => exact .operator (.inr (.inl rfl))
    | div => exact .operator (.inr (.inr rfl))
    | sub =>
      refine .subtraction fun hboth => ?_
      rw [hboth.1, hboth.2] at hunary
      cases hunary
    | neg =>
      have hboth : true = (unaryMinus && due && true) := hunary
      rw [Bool.and_true] at hboth
      exact .negation (Bool.and_eq_true_iff.mp hboth.symm)

theorem expectsOperand_of_ofLexeme {atOperand : Bool} {l : Lexeme} {token : Token α}
    (h : ofLexeme atOperand l = .ok token) : token.expectsOperand = l.expectsOperand := by
  cases l with
  | openParen =>
    cases h
    rfl
  | closeParen =>
    cases h
    rfl
  | number literal =>
    obtain ⟨value, rfl⟩ := exists_of_ofLexeme_number h
    rfl
  | operator symbol =>
    obtain ⟨op, rfl, -, -⟩ := exists_of_ofLexeme_operator h
    rfl

theorem exists_ofLexeme [ReadsLiterals α] {l : Lexeme} (h : l.IsValid) (atOperand : Bool) :
    ∃ token : Token α, ofLexeme atOperand l = .ok token := by
  cases l with
  | openParen => exact ⟨.openParen, rfl⟩
  | closeParen => exact ⟨.closeParen, rfl⟩
  | number literal =>
    obtain ⟨value, hvalue⟩ := Option.isSome_iff_exists.mp
      (ReadsLiterals.isSome_readLiteral? (α := α) h)
    refine ⟨.number value, ?_⟩
    rw [ofLexeme, hvalue]
  | operator symbol =>
    rcases Lexeme.isOperatorSymbol_iff.mp h with rfl | rfl | rfl | rfl <;> exact ⟨_, rfl⟩

/-! ## Rows -/

/-- Nothing in a row is refused. -/
theorem exists_ofLexemes [ReadsLiterals α] {ls : List Lexeme} (h : ∀ l ∈ ls, l.IsValid)
    (unaryMinus operandDue : Bool) :
    ∃ tokens : List (Token α), ofLexemes unaryMinus operandDue ls = .ok tokens := by
  induction ls generalizing operandDue with
  | nil => exact ⟨[], rfl⟩
  | cons l ls ih =>
    obtain ⟨hl, hls⟩ := List.forall_mem_cons.mp h
    obtain ⟨token, htoken⟩ := exists_ofLexeme (α := α) hl (unaryMinus && operandDue)
    obtain ⟨tokens, htokens⟩ := ih hls token.expectsOperand
    exact ⟨token :: tokens, ofLexemes_cons_eq_ok_iff.mpr ⟨token, tokens, htoken, htokens, rfl⟩⟩

theorem length_of_ofLexemes {unaryMinus operandDue : Bool} {ls : List Lexeme}
    {tokens : List (Token α)} (h : ofLexemes unaryMinus operandDue ls = .ok tokens) :
    tokens.length = ls.length := by
  induction ls generalizing operandDue tokens with
  | nil =>
    cases h
    rfl
  | cons l ls ih =>
    obtain ⟨token, rest, -, hrest, rfl⟩ := ofLexemes_cons_eq_ok_iff.mp h
    rw [List.length_cons, List.length_cons, ih hrest]

/-- Whether an operand is due at an index of a row, if `operandDue` says whether one is due before
the first lexeme. -/
def DueAt (operandDue : Bool) (ls : List Lexeme) (i : Nat) : Prop :=
  (operandDue :: ls.map Lexeme.expectsOperand)[i]? = some true

theorem dueAt_iff_operandDue {ls : List Lexeme} {i : Nat} :
    DueAt true ls i ↔ Lexeme.OperandDue ls i := by
  unfold DueAt Lexeme.OperandDue
  cases i with
  | zero => simp
  | succ i => simp

theorem exists_isReading_dueAt {unaryMinus operandDue : Bool} {ls : List Lexeme}
    {tokens : List (Token α)} (h : ofLexemes unaryMinus operandDue ls = .ok tokens) {i : Nat}
    {l : Lexeme} (hl : ls[i]? = some l) :
    ∃ token, tokens[i]? = some token ∧ IsReading unaryMinus (DueAt operandDue ls i) l token := by
  induction ls generalizing operandDue tokens i with
  | nil => cases hl
  | cons l' ls ih =>
    obtain ⟨token, rest, htoken, hrest, rfl⟩ := ofLexemes_cons_eq_ok_iff.mp h
    cases i with
    | zero =>
      cases hl
      have hdue : DueAt operandDue (l :: ls) 0 ↔ operandDue = true := by simp [DueAt]
      rw [hdue]
      exact ⟨token, rfl, isReading_of_ofLexeme htoken⟩
    | succ i =>
      rw [expectsOperand_of_ofLexeme htoken] at hrest
      exact ih hrest hl

/-- Each lexeme of a row has a token, its reading in its place. -/
theorem exists_isReading {unaryMinus : Bool} {ls : List Lexeme} {tokens : List (Token α)}
    (h : ofLexemes unaryMinus true ls = .ok tokens) {i : Nat} {l : Lexeme}
    (hl : ls[i]? = some l) :
    ∃ token, tokens[i]? = some token ∧
      IsReading unaryMinus (Lexeme.OperandDue ls i) l token := by
  rw [← dueAt_iff_operandDue]
  exact exists_isReading_dueAt h hl

/-- A row, written out, is read as one token for each lexeme, by what the lexeme means in its place;
and every text that is read is what exactly one row writes. -/
theorem ofStripped_inverts_textOf [ReadsLiterals α] (unaryMinus : Bool) :
    (∀ ls : List Lexeme, ls ≠ [] → Lexeme.IsRow ls →
      ∃ tokens : List (Token α), ofStripped unaryMinus (Lexeme.textOf ls) = .ok tokens ∧
        tokens.length = ls.length ∧
        ∀ i l, ls[i]? = some l → ∃ token, tokens[i]? = some token ∧
          IsReading unaryMinus (Lexeme.OperandDue ls i) l token) ∧
      ∀ (text : List Char) (tokens : List (Token α)), ofStripped unaryMinus text = .ok tokens →
        ∃! ls : List Lexeme, ls ≠ [] ∧ Lexeme.IsRow ls ∧ Lexeme.textOf ls = text := by
  constructor
  · intro ls hne hrow
    obtain ⟨tokens, htokens⟩ := exists_ofLexemes (α := α) hrow.isValid unaryMinus true
    refine ⟨tokens, ofStripped_eq_ok_iff.mpr ⟨ls, hrow, hne, rfl, htokens⟩,
      length_of_ofLexemes htokens, ?_⟩
    intro i l hl
    exact exists_isReading htokens hl
  · intro text tokens h
    obtain ⟨ls, hrow, hne, htext, -⟩ := ofStripped_eq_ok_iff.mp h
    refine ⟨ls, ⟨hne, hrow, htext⟩, ?_⟩
    intro ls' ⟨_, hrow', htext'⟩
    exact hrow'.eq_of_textOf_eq hrow (htext'.trans htext.symm)

/-- A minus sign behind a minus sign, and one behind a closing parenthesis. -/
theorem ofStripped_inverts_textOf_minus_signs :
    let ls : List Lexeme := [.operator '-', .operator '-', .openParen, .operator '-',
      .number ['.', '5'], .closeParen, .operator '-', .number ['3', '.']]
    ReadsLiterals Float ∧ ls ≠ [] ∧ Lexeme.IsRow ls ∧
      ∃ tokens : List (Token Float), ofStripped true "--(-.5)-3.".toList = .ok tokens ∧
        tokens.length = 8 ∧ tokens[1]? = some (.operator .neg) ∧
        tokens[6]? = some (.operator .sub) ∧
        ∃! ls' : List Lexeme, ls' ≠ [] ∧ Lexeme.IsRow ls' ∧
          Lexeme.textOf ls' = "--(-.5)-3.".toList := by
  intro ls
  have hhalf : IsLiteral ['.', '5'] :=
    ⟨[], ['5'], List.all_eq_true.mp rfl, List.cons_ne_nil _ _, .inr rfl⟩
  have hthree : IsLiteral ['3', '.'] :=
    ⟨['3'], [], List.all_eq_true.mp rfl, List.cons_ne_nil _ _, .inr rfl⟩
  have hne : ls ≠ [] := List.cons_ne_nil _ _
  have hrow : Lexeme.IsRow ls := by
    constructor
    · simp [ls, Lexeme.IsValid, Lexeme.isOperatorSymbol, hhalf, hthree]
    · simp [ls, Lexeme.Separated, Lexeme.isNumber]
  have htext : Lexeme.textOf ls = "--(-.5)-3.".toList := by decide
  obtain ⟨hwritten, hread⟩ := ofStripped_inverts_textOf (α := Float) true
  obtain ⟨tokens, htokens, hlength, hreading⟩ := hwritten ls hne hrow
  rw [htext] at htokens
  refine ⟨inferInstance, hne, hrow, tokens, htokens, hlength, ?_, ?_, hread _ tokens htokens⟩
  · obtain ⟨token, htoken, hminus⟩ := hreading 1 _ rfl
    have hdue : Lexeme.OperandDue ls 1 := .inr ⟨.operator '-', rfl, rfl⟩
    rcases hminus.of_minus with ⟨rfl, -⟩ | ⟨-, hnot⟩
    · exact htoken
    · exact absurd ⟨rfl, hdue⟩ hnot
  · obtain ⟨token, htoken, hminus⟩ := hreading 6 _ rfl
    have hdue : ¬Lexeme.OperandDue ls 6 := by
      rintro (hzero | ⟨l, hl, hexpects⟩)
      · cases hzero
      · cases hl
        cases hexpects
    rcases hminus.of_minus with ⟨-, -, hd⟩ | ⟨rfl, -⟩
    · exact absurd hd hdue
    · exact htoken

end Token

end InfixArithmetic
