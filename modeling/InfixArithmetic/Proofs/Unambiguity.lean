/-
  The infix grammar is unambiguous.

  A reduction can compute trees: with the operations that build a node, a derivation is reduced to
  its own tree without the parentheses. To keep these, the tokens are marked first: `(` becomes
  `(m+(` and `)` becomes `))`, where the operand `m` is a mark, and adding to the mark puts a tree
  in parentheses. The marked tokens of a derivation are those of a derivation whose value is the
  tree (`Derives.marked`, `value_marked`), so a reduction finds the tree from the tokens alone, and
  two derivations with the same tokens are one (`Derives.eq_of_tokens_eq`).
-/
import InfixArithmetic.Proofs.Derivation

namespace InfixArithmetic

namespace Expression

variable {ν : Type}

/-! ## Computing trees -/

/-- Trees as numbers, and the mark, which is none. No operation but the sum knows the mark. -/
instance : Arithmetic (Option (Expression ν)) where
  add
    | some x, some y => some (binary .add x y)
    | none, y => y.map group
    | _, none => none
  sub x y := x.bind fun x => y.map (binary .sub x)
  mul x y := x.bind fun x => y.map (binary .mul x)
  div x y := x.bind fun x => y.map (binary .div x)
  neg x := x.map negation
  readLiteral? _ := none

/-! ## Marks -/

/-- The token with a mark behind each opening parenthesis. -/
def markToken : Token ν → List (Token (Option (Expression ν)))
  | .number leaf => [.number (some (number leaf))]
  | .operator op => [.operator op]
  | .openParen => [.openParen, .number none, .operator .add, .openParen]
  | .closeParen => [.closeParen, .closeParen]

/-- The tree with its leaves as numbers, and each pair of parentheses as the sum of the mark and a
pair of parentheses. -/
def marked : Expression ν → Expression (Option (Expression ν))
  | number leaf => number (some (number leaf))
  | negation operand => negation operand.marked
  | binary op lhs rhs => binary op lhs.marked rhs.marked
  | group inner => group (binary .add (number none) (group inner.marked))

theorem tokens_marked (e : Expression ν) : e.marked.tokens = e.tokens.flatMap markToken := by
  induction e with
  | number leaf => rfl
  | negation operand ih => rw [marked, tokens, tokens, List.flatMap_cons, ih]; rfl
  | binary op lhs rhs ihl ihr =>
    rw [marked, tokens, tokens, List.flatMap_append, List.flatMap_cons, ihl, ihr]
    rfl
  | group inner ih =>
    simp only [marked, tokens, ih, List.flatMap_cons, List.flatMap_append, List.flatMap_nil,
      markToken, List.cons_append, List.nil_append, List.append_assoc]

theorem Derives.marked {unaryMinus : Bool} {category : Category} {e : Expression ν}
    (h : e.Derives unaryMinus category) : e.marked.Derives unaryMinus category := by
  induction h with
  | sum hop _ _ ihl ihr => exact .sum hop ihl ihr
  | product hop _ _ ihl ihr => exact .product hop ihl ihr
  | minus hunary _ ih => exact .minus hunary ih
  | literal leaf => exact .literal _
  | parentheses _ ih =>
    have hmark : (number (none : Option (Expression ν))).Derives unaryMinus .expression :=
      .ofTerm <| .ofFactor <| .ofPrimary <| .literal none
    exact .parentheses <| .sum (.inl rfl) hmark <|
      .ofFactor <| .ofPrimary <| .parentheses ih
  | ofTerm _ ih => exact .ofTerm ih
  | ofFactor _ ih => exact .ofFactor ih
  | ofPrimary _ ih => exact .ofPrimary ih

/-- The value of a marked derivation is the tree. -/
theorem Derives.value_marked {unaryMinus : Bool} {category : Category} {e : Expression ν}
    (h : e.Derives unaryMinus category) : e.marked.value = some e := by
  induction h with
  | sum hop _ _ ihl ihr =>
    rw [Expression.marked, value_binary, ihl, ihr]
    rcases hop with rfl | rfl <;> rfl
  | product hop _ _ ihl ihr =>
    rw [Expression.marked, value_binary, ihl, ihr]
    rcases hop with rfl | rfl <;> rfl
  | minus _ _ ih => rw [Expression.marked, value, ih]; rfl
  | literal leaf => rfl
  | parentheses _ ih => rw [Expression.marked, value, value, value, value, ih]; rfl
  | ofTerm _ ih => exact ih
  | ofFactor _ ih => exact ih
  | ofPrimary _ ih => exact ih

/-- A reduction of the marked tokens of a derivation finds the tree. -/
theorem Derives.reduce_marked {unaryMinus : Bool} {e : Expression ν}
    (h : e.Derives unaryMinus .expression) :
    (reduce (e.tokens.flatMap markToken)).result = .ok (some e) := by
  rw [← tokens_marked, h.marked.reduce_tokens, walk, h.value_marked]

/-- The grammar derives a token list from one tree at most. -/
theorem Derives.eq_of_tokens_eq {unaryMinus unaryMinus' : Bool} {e e' : Expression ν}
    (h : e.Derives unaryMinus .expression) (h' : e'.Derives unaryMinus' .expression)
    (htokens : e.tokens = e'.tokens) : e = e' := by
  have heq := h.reduce_marked
  rw [htokens, h'.reduce_marked] at heq
  exact (Option.some.inj (Except.ok.inj heq)).symm

end Expression

end InfixArithmetic
