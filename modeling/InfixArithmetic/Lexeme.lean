/-
  Lexemes, and the scan of a stripped text into them.

  A number is the longest that can be read: digits with or without a point and more digits, or a
  point and digits; and no further point may follow it, for a text such as `1.2.3` is not two
  numbers. Every other lexeme is one character. A text is a non-empty row of lexemes; `scan` either
  finds it or says where the first token starts that cannot be read.
-/
import InfixArithmetic.Arithmetic

namespace InfixArithmetic

/-- A piece of text that becomes one token. -/
inductive Lexeme where
  /-- A number, by its characters. -/
  | number (literal : List Char)
  | operator (symbol : Char)
  | openParen
  | closeParen
  deriving DecidableEq, Repr

namespace Lexeme

/-- The characters of a lexeme. -/
def text : Lexeme → List Char
  | number literal => literal
  | operator symbol => [symbol]
  | openParen => ['(']
  | closeParen => [')']

/-! ## One lexeme -/

/-- The point and digits that continue a number, and what follows. -/
def splitFraction : List Char → List Char × List Char
  | '.' :: cs => ('.' :: cs.takeWhile Char.isDigit, cs.dropWhile Char.isDigit)
  | cs => ([], cs)

/-- The number at the head of a text, and what follows. It must hold a digit, and no point may
follow. -/
def number? (cs : List Char) : Option (Lexeme × List Char) :=
  let whole := cs.takeWhile Char.isDigit
  let (fraction, rest) := splitFraction (cs.dropWhile Char.isDigit)
  if (whole ++ fraction).any Char.isDigit ∧ rest.head? ≠ some '.' then
    some (number (whole ++ fraction), rest)
  else none

/-- The characters that are operators wherever they stand. -/
def isOperatorSymbol (c : Char) : Bool := c ∈ ['+', '-', '*', '/']

/-- The lexeme at the head of a text, and what follows. -/
def next? : List Char → Option (Lexeme × List Char)
  | [] => none
  | '(' :: cs => some (openParen, cs)
  | ')' :: cs => some (closeParen, cs)
  | c :: cs => if isOperatorSymbol c then some (operator c, cs) else number? (c :: cs)

theorem splitFraction_append (cs : List Char) :
    (splitFraction cs).1 ++ (splitFraction cs).2 = cs := by
  unfold splitFraction
  split
  · simp
  · rfl

theorem text_append_of_number? {cs rest : List Char} {l : Lexeme}
    (h : number? cs = some (l, rest)) : l.text ++ rest = cs := by
  simp only [number?, Option.ite_none_right_eq_some, Option.some.injEq, Prod.mk.injEq] at h
  obtain ⟨-, rfl, rfl⟩ := h
  rw [text, List.append_assoc, splitFraction_append, List.takeWhile_append_dropWhile]

theorem text_ne_nil_of_number? {cs rest : List Char} {l : Lexeme}
    (h : number? cs = some (l, rest)) : l.text ≠ [] := by
  simp only [number?, Option.ite_none_right_eq_some, Option.some.injEq, Prod.mk.injEq] at h
  obtain ⟨⟨hany, -⟩, rfl, -⟩ := h
  intro hnil
  rw [text] at hnil
  rw [hnil] at hany
  cases hany

/-- A scan loses nothing. -/
theorem text_append_of_next? {cs rest : List Char} {l : Lexeme}
    (h : next? cs = some (l, rest)) : l.text ++ rest = cs := by
  unfold next? at h
  split at h
  · cases h
  · cases h; rfl
  · cases h; rfl
  · split at h
    · cases h; rfl
    · exact text_append_of_number? h

theorem text_ne_nil_of_next? {cs rest : List Char} {l : Lexeme}
    (h : next? cs = some (l, rest)) : l.text ≠ [] := by
  unfold next? at h
  split at h
  · cases h
  · cases h; exact List.cons_ne_nil _ _
  · cases h; exact List.cons_ne_nil _ _
  · split at h
    · cases h; exact List.cons_ne_nil _ _
    · exact text_ne_nil_of_number? h

theorem length_lt_of_next? {cs rest : List Char} {l : Lexeme}
    (h : next? cs = some (l, rest)) : rest.length < cs.length := by
  have hlen := congrArg List.length (text_append_of_next? h)
  have hpos := List.length_pos_iff.2 (text_ne_nil_of_next? h)
  rw [List.length_append] at hlen
  omega

/-! ## All lexemes -/

/-- The lexemes of a text, or the position of the first token that cannot be read; `position` is
where the text starts. -/
def scanFrom (position : Nat) (cs : List Char) : Except Nat (List Lexeme) :=
  match cs with
  | [] => .ok []
  | c :: cs =>
    match _h : next? (c :: cs) with
    | none => .error position
    | some (l, rest) => do
      let ls ← scanFrom (position + l.text.length) rest
      .ok (l :: ls)
termination_by cs.length
decreasing_by exact length_lt_of_next? _h

/-- The lexemes of a text, of which there must be one. -/
def scan (cs : List Char) : Except Nat (List Lexeme) :=
  if cs = [] then .error 0 else scanFrom 0 cs

theorem scanFrom_nil (position : Nat) : scanFrom position [] = .ok [] := by
  rw [scanFrom]

theorem scanFrom_eq_error {position : Nat} {cs : List Char} (hne : cs ≠ [])
    (h : next? cs = none) : scanFrom position cs = .error position := by
  obtain ⟨c, cs, rfl⟩ := List.exists_cons_of_ne_nil hne
  rw [scanFrom]
  split <;> simp_all

theorem scanFrom_eq_bind {position : Nat} {cs rest : List Char} {l : Lexeme}
    (h : next? cs = some (l, rest)) :
    scanFrom position cs = (do
      let ls ← scanFrom (position + l.text.length) rest
      .ok (l :: ls)) := by
  cases cs with
  | nil => cases h
  | cons c cs =>
    rw [scanFrom]
    split <;> simp_all

end Lexeme

end InfixArithmetic
