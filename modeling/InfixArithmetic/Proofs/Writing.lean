/-
  What a tree writes.

  The lexemes of a tree are a row that writes its text (`isRow_lexemes`, `textOf_lexemes`), so a scan
  of the text finds them.
-/
import InfixArithmetic.Expression.Grammar
import InfixArithmetic.Proofs.LexemeRow
import InfixArithmetic.Validation

namespace InfixArithmetic

namespace Lexeme

/-- Rows can be joined at a lexeme that is no number. -/
theorem IsRow.append {ls ls' : List Lexeme} {l : Lexeme} (h : IsRow ls) (h' : IsRow (l :: ls'))
    (hl : l.isNumber = false) : IsRow (ls ++ l :: ls') := by
  induction ls with
  | nil => exact h'
  | cons first ls ih =>
    refine (ih h.tail).cons h.head_isValid fun hfirst => ?_
    cases ls with
    | nil =>
      intro l' hl'
      obtain rfl : l = l' := by simpa using hl'
      exact hl
    | cons second ls => exact (separated_cons.mp h.separated).1 hfirst

theorem isRow_singleton {l : Lexeme} (h : IsValid l) : IsRow [l] :=
  isRow_nil.cons h fun _ _ hl => (nomatch hl)

theorem isValid_operator (op : Operator) : IsValid (operator op.symbol) := by
  cases op <;> rfl

end Lexeme

namespace Expression

/-- The lexemes of a tree over literals. -/
def lexemes : Expression (List Char) → List Lexeme
  | number literal => [.number literal]
  | negation operand => .operator '-' :: operand.lexemes
  | binary op lhs rhs => lhs.lexemes ++ .operator op.symbol :: rhs.lexemes
  | group inner => .openParen :: (inner.lexemes ++ [.closeParen])

theorem textOf_lexemes (e : Expression (List Char)) : Lexeme.textOf e.lexemes = e.text := by
  induction e with
  | number literal => exact List.append_nil literal
  | negation operand ih => rw [lexemes, Lexeme.textOf_cons, ih]; rfl
  | binary op lhs rhs ihl ihr =>
    rw [lexemes, Lexeme.textOf, List.flatMap_append, ← Lexeme.textOf, ← Lexeme.textOf,
      Lexeme.textOf_cons, ihl, ihr]
    rfl
  | group inner ih =>
    rw [lexemes, Lexeme.textOf_cons, Lexeme.textOf, List.flatMap_append, ← Lexeme.textOf, ih]
    rfl

theorem lexemes_ne_nil (e : Expression (List Char)) : e.lexemes ≠ [] := by
  cases e with
  | binary op lhs rhs => exact List.append_ne_nil_of_right_ne_nil _ (List.cons_ne_nil _ _)
  | _ => exact List.cons_ne_nil _ _

theorem isRow_lexemes {e : Expression (List Char)} (h : ∀ literal ∈ e.leaves, IsLiteral literal) :
    Lexeme.IsRow e.lexemes := by
  induction e with
  | number literal => exact Lexeme.isRow_singleton (h literal List.mem_cons_self)
  | negation operand ih => exact (ih h).cons rfl fun hl => nomatch hl
  | binary op lhs rhs ihl ihr =>
    have hl := ihl fun literal hmem => h literal (List.mem_append_left _ hmem)
    have hr := ihr fun literal hmem => h literal (List.mem_append_right _ hmem)
    exact hl.append (hr.cons (Lexeme.isValid_operator op) fun hn => nomatch hn) rfl
  | group inner ih =>
    refine Lexeme.IsRow.cons ?_ trivial fun hn => nomatch hn
    exact (ih h).append (Lexeme.isRow_singleton trivial) rfl

/-- A tree over the literals of a configuration writes characters that the configuration allows. -/
theorem isAllowed_of_mem_text {decimals : Bool} {e : Expression (List Char)}
    (h : ∀ literal ∈ e.leaves, IsLiteralOf decimals literal) :
    ∀ c ∈ e.text, isAllowed decimals c = true := by
  induction e with
  | number literal =>
    obtain ⟨hliteral, hpoint⟩ := h literal List.mem_cons_self
    intro c hc
    have hnumber := Lexeme.isNumberChar_of_mem_literal hliteral c hc
    cases hdigit : c.isDigit with
    | true => simp [isAllowed, hdigit]
    | false =>
      obtain rfl : c = '.' := by simpa [Lexeme.isNumberChar, hdigit] using hnumber
      cases decimals with
      | true => rfl
      | false => exact absurd hc (hpoint rfl)
  | negation operand ih =>
    intro c hc
    rcases List.mem_cons.mp hc with rfl | hc
    · rfl
    · exact ih h c hc
  | binary op lhs rhs ihl ihr =>
    intro c hc
    rcases List.mem_append.mp hc with hc | hc
    · exact ihl (fun literal hmem => h literal (List.mem_append_left _ hmem)) c hc
    · rcases List.mem_cons.mp hc with rfl | hc
      · cases op <;> rfl
      · exact ihr (fun literal hmem => h literal (List.mem_append_right _ hmem)) c hc
  | group inner ih =>
    intro c hc
    rcases List.mem_cons.mp hc with rfl | hc
    · rfl
    · rcases List.mem_append.mp hc with hc | hc
      · exact ih h c hc
      · obtain rfl : c = ')' := by simpa using hc
        rfl

/-- The numbers of a row of a tree are its leaves. -/
theorem mem_lexemes_of_mem_leaves {e : Expression (List Char)} :
    ∀ literal ∈ e.leaves, Lexeme.number literal ∈ e.lexemes := by
  induction e with
  | number literal =>
    intro literal' hmem
    rw [List.mem_singleton.mp hmem]
    exact List.mem_cons_self
  | negation operand ih => exact fun literal hmem => List.mem_cons_of_mem _ (ih literal hmem)
  | binary op lhs rhs ihl ihr =>
    intro literal hmem
    rcases List.mem_append.mp hmem with hmem | hmem
    · exact List.mem_append_left _ (ihl literal hmem)
    · exact List.mem_append_right _ (List.mem_cons_of_mem _ (ihr literal hmem))
  | group inner ih =>
    exact fun literal hmem => List.mem_cons_of_mem _ (List.mem_append_left _ (ih literal hmem))

end Expression

end InfixArithmetic
