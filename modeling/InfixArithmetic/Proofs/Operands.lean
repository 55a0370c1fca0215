/-
  Places in a text where operands meet, and places where one is missing.

  Two operands meet where something that ends an operand stands before something that starts one
  (`isJuxtaposition`), and an operand is missing where nothing that ends one stands before and
  nothing that starts one stands after (`isVacancy`); the start and the end of a text count as
  places. A text has more numbers than binary operators by one for each juxtaposition, by one for the
  whole, and less one for each vacancy (`vacancies_add_numbers`).
-/
import InfixArithmetic.Proofs.Counting
import InfixArithmetic.Proofs.Writing
import Mathlib.Data.List.Chain

namespace InfixArithmetic

/-! ## Places -/

/-- The number of places in a text where what stands on both sides is in a relation; `before` is what
stands in front of the text. -/
def places (r : Option Char → Option Char → Bool) : Option Char → List Char → Nat
  | before, [] => (r before none).toNat
  | before, c :: cs => (r before (some c)).toNat + places r (some c) cs

/-- Whether a character is the last of an operand. -/
def endsOperand : Option Char → Bool
  | none => false
  | some c => Lexeme.isNumberChar c || c == ')'

/-- Whether a character is the first of an operand. -/
def startsOperand (unaryMinus : Bool) : Option Char → Bool
  | none => false
  | some c => Lexeme.isNumberChar c || c == '(' || (unaryMinus && c == '-')

/-- Whether two operands meet; a number goes on after a character of a number. -/
def isJuxtaposition : Option Char → Option Char → Bool
  | some a, some b =>
    (endsOperand (some a) && b == '(') || (a == ')' && Lexeme.isNumberChar b)
  | _, _ => false

/-- Whether an operand is missing. -/
def isVacancy (unaryMinus : Bool) (before after : Option Char) : Bool :=
  !endsOperand before && !startsOperand unaryMinus after

/-- The number of places in a text where two operands meet. -/
def juxtapositions (text : List Char) : Nat := places isJuxtaposition none text

/-- The number of places in a text where an operand is missing. -/
def vacancies (unaryMinus : Bool) (text : List Char) : Nat := places (isVacancy unaryMinus) none text

theorem isJuxtaposition_eq_true_iff {a b : Char} :
    isJuxtaposition (some a) (some b) = true ↔
      ((a.isDigit ∨ a = '.' ∨ a = ')') ∧ b = '(') ∨ (a = ')' ∧ (b.isDigit ∨ b = '.')) := by
  simp only [isJuxtaposition, endsOperand, Lexeme.isNumberChar, Bool.or_eq_true, Bool.and_eq_true,
    beq_iff_eq, or_assoc]

theorem places_isJuxtaposition_eq_zero_iff {a : Char} {text : List Char} :
    places isJuxtaposition (some a) text = 0 ↔
      List.IsChain (fun a b => isJuxtaposition (some a) (some b) = false) (a :: text) := by
  induction text generalizing a with
  | nil => exact ⟨fun _ => List.isChain_singleton a, fun _ => rfl⟩
  | cons b text ih =>
    rw [places, List.isChain_cons_cons, ← ih, Nat.add_eq_zero_iff, Bool.toNat_eq_zero]

/-- A text is juxtaposed if two operands meet in some place. -/
theorem isJuxtaposed_iff {text : List Char} : IsJuxtaposed text ↔ 0 < juxtapositions text := by
  have hchain : juxtapositions text = 0 ↔
      List.IsChain (fun a b => isJuxtaposition (some a) (some b) = false) text := by
    cases text with
    | nil => exact ⟨fun _ => List.isChain_nil, fun _ => rfl⟩
    | cons a text =>
      have hstart : isJuxtaposition none (some a) = false := rfl
      rw [← places_isJuxtaposition_eq_zero_iff, juxtapositions, places, hstart, Bool.toNat_false,
        Nat.zero_add]
  rw [Nat.pos_iff_ne_zero, Ne, hchain, List.isChain_iff_forall_rel_of_append_cons_cons]
  constructor
  · intro ⟨before, after, a, b, htext, hmeet⟩ hnone
    have hfalse := hnone htext
    rw [isJuxtaposition_eq_true_iff.mpr hmeet] at hfalse
    cases hfalse
  · intro hsome
    by_contra hnone
    refine hsome fun a b before after htext => ?_
    refine Bool.eq_false_iff.mpr fun hmeet => hnone ?_
    exact ⟨before, after, a, b, htext, isJuxtaposition_eq_true_iff.mp hmeet⟩

/-! ## Inside a number -/

/-- A number goes on without a place, up to its last character. -/
theorem places_append_number {r : Option Char → Option Char → Bool}
    (hr : ∀ a b, Lexeme.isNumberChar a = true → Lexeme.isNumberChar b = true →
      r (some a) (some b) = false)
    {a : Char} (ha : Lexeme.isNumberChar a = true) {cs : List Char}
    (hcs : ∀ c ∈ cs, Lexeme.isNumberChar c = true) (rest : List Char) :
    places r (some a) (cs ++ rest) =
      places r (some ((a :: cs).getLast (List.cons_ne_nil a cs))) rest := by
  induction cs generalizing a with
  | nil => rfl
  | cons c cs ih =>
    obtain ⟨hc, hcs⟩ := List.forall_mem_cons.mp hcs
    rw [List.cons_append, places, hr a c ha hc, Bool.toNat_false, Nat.zero_add, ih hc hcs,
      List.getLast_cons_cons]

theorem isJuxtaposition_number {a b : Char} (ha : Lexeme.isNumberChar a = true)
    (hb : Lexeme.isNumberChar b = true) : isJuxtaposition (some a) (some b) = false := by
  rw [isJuxtaposition, (ne_paren_of_isNumberChar ha).2, (ne_paren_of_isNumberChar hb).1,
    Bool.and_false, Bool.false_and, Bool.or_false]

theorem isVacancy_of_endsOperand {unaryMinus : Bool} {before : Option Char}
    (h : endsOperand before = true) (after : Option Char) :
    isVacancy unaryMinus before after = false := by
  rw [isVacancy, h, Bool.not_true, Bool.false_and]

theorem endsOperand_number {c : Char} (h : Lexeme.isNumberChar c = true) :
    endsOperand (some c) = true := by
  rw [endsOperand, h, Bool.true_or]

/-! ## Before a lexeme -/

theorem isVacancy_openParen (unaryMinus : Bool) (before : Option Char) :
    isVacancy unaryMinus before (some '(') = false := by
  have hstarts : startsOperand unaryMinus (some '(') = true := rfl
  rw [isVacancy, hstarts, Bool.not_true, Bool.and_false]

theorem isVacancy_closeParen (unaryMinus : Bool) (before : Option Char) :
    isVacancy unaryMinus before (some ')') = !endsOperand before := by
  have hstarts : startsOperand unaryMinus (some ')') = false := by
    cases unaryMinus <;> rfl
  rw [isVacancy, hstarts, Bool.not_false, Bool.and_true]

theorem isVacancy_number {c : Char} (h : Lexeme.isNumberChar c = true) (unaryMinus : Bool)
    (before : Option Char) : isVacancy unaryMinus before (some c) = false := by
  have hstarts : startsOperand unaryMinus (some c) = true := by
    rw [startsOperand, h, Bool.true_or, Bool.true_or]
  rw [isVacancy, hstarts, Bool.not_true, Bool.and_false]

theorem isVacancy_operator {c : Char} (h : Lexeme.isOperatorSymbol c = true) (unaryMinus : Bool)
    (before : Option Char) :
    isVacancy unaryMinus before (some c) = (!endsOperand before && !(unaryMinus && c == '-')) := by
  have hnumber := Lexeme.isNumberChar_eq_false_of_isOperatorSymbol h
  rw [isVacancy, startsOperand, hnumber, (ne_paren_of_isOperatorSymbol h).1, Bool.false_or,
    Bool.false_or]

theorem isVacancy_none (unaryMinus : Bool) (before : Option Char) :
    isVacancy unaryMinus before none = !endsOperand before := by
  rw [isVacancy, startsOperand, Bool.not_false, Bool.and_true]

theorem isJuxtaposition_openParen (before : Option Char) :
    isJuxtaposition before (some '(') = endsOperand before := by
  cases before with
  | none => rfl
  | some a =>
    have hparen : Lexeme.isNumberChar '(' = false := rfl
    rw [isJuxtaposition, hparen, beq_self_eq_true, Bool.and_true, Bool.and_false, Bool.or_false]

theorem isJuxtaposition_eq_false {c : Char} (hnumber : Lexeme.isNumberChar c = false)
    (hparen : (c == '(') = false) (before : Option Char) :
    isJuxtaposition before (some c) = false := by
  cases before with
  | none => rfl
  | some a => rw [isJuxtaposition, hnumber, hparen, Bool.and_false, Bool.and_false, Bool.or_false]

theorem isJuxtaposition_none (before : Option Char) : isJuxtaposition before none = false := by
  cases before <;> rfl

/-- A number meets what ends an operand, unless it goes on there. -/
theorem isJuxtaposition_of_number {c : Char} (hc : Lexeme.isNumberChar c = true)
    {before : Option Char} (hbefore : ∀ a ∈ before, Lexeme.isNumberChar a = false) :
    isJuxtaposition before (some c) = endsOperand before := by
  cases before with
  | none => rfl
  | some a =>
    rw [isJuxtaposition, endsOperand, hbefore a rfl, hc, (ne_paren_of_isNumberChar hc).1,
      Bool.and_false, Bool.and_true, Bool.false_or]

/-! ## Rows behind a character -/

section

variable {α : Type}

/-- A row and its tokens as they stand in a text, behind the last character before them. -/
inductive Follows (unaryMinus : Bool) : Option Char → List Lexeme → List (Token α) → Prop where
  | nil {before} : Follows unaryMinus before [] []
  | openParen {before ls tokens} : Follows unaryMinus (some '(') ls tokens →
      Follows unaryMinus before (.openParen :: ls) (.openParen :: tokens)
  | closeParen {before ls tokens} : Follows unaryMinus (some ')') ls tokens →
      Follows unaryMinus before (.closeParen :: ls) (.closeParen :: tokens)
  /-- A number does not go on another one. -/
  | number {before c cs value ls tokens}
      (isNumberChar_of_mem : ∀ a ∈ c :: cs, Lexeme.isNumberChar a = true)
      (starts : ∀ a ∈ before, Lexeme.isNumberChar a = false) :
      Follows unaryMinus (some ((c :: cs).getLast (List.cons_ne_nil c cs))) ls tokens →
      Follows unaryMinus before (.number (c :: cs) :: ls) (.number value :: tokens)
  /-- A minus sign is a negation exactly if no operand ends in front of it. -/
  | operator {before ls tokens} {op : Operator}
      (isUnary_eq : op.isUnary = (unaryMinus && !endsOperand before && op.symbol == '-')) :
      Follows unaryMinus (some op.symbol) ls tokens →
      Follows unaryMinus before (.operator op.symbol :: ls) (.operator op :: tokens)

theorem endsOperand_symbol (op : Operator) : endsOperand (some op.symbol) = false := by
  cases op <;> rfl

theorem follows_of_ofLexemes [Arithmetic α] {unaryMinus : Bool} {before : Option Char}
    {ls : List Lexeme} {tokens : List (Token α)} (hrow : Lexeme.IsRow ls)
    (hseparated : ∀ l ∈ ls.head?, l.isNumber = true →
      ∀ a ∈ before, Lexeme.isNumberChar a = false)
    (h : Token.ofLexemes unaryMinus (!endsOperand before) ls = .ok tokens) :
    Follows unaryMinus before ls tokens := by
  induction ls generalizing before tokens with
  | nil =>
    cases h
    exact .nil
  | cons l ls ih =>
    obtain ⟨token, rest, htoken, hrest, rfl⟩ := Token.ofLexemes_cons_eq_ok_iff.mp h
    -- only a number asks for something behind it, and that is not another number
    have hnext : ∀ c, l.isNumber = Lexeme.isNumberChar c → ∀ l' ∈ ls.head?, l'.isNumber = true →
        ∀ a ∈ some c, Lexeme.isNumberChar a = false := by
      intro c hc l' hl' hnumber a ha
      cases ha
      by_contra hne
      rw [Bool.not_eq_false] at hne
      rw [(Lexeme.separated_cons.mp hrow.separated).1 (hc.trans hne) l' hl'] at hnumber
      cases hnumber
    cases l with
    | openParen =>
      cases htoken
      exact .openParen (ih hrow.tail (hnext '(' rfl) hrest)
    | closeParen =>
      cases htoken
      exact .closeParen (ih hrow.tail (hnext ')' rfl) hrest)
    | number literal =>
      obtain ⟨value, rfl⟩ := Token.exists_of_ofLexeme_number htoken
      have hliteral := Lexeme.isNumberChar_of_mem_literal hrow.head_isValid
      obtain ⟨c, cs, rfl⟩ :=
        List.exists_cons_of_ne_nil (Lexeme.ne_nil_of_isLiteral hrow.head_isValid)
      have hlast := hliteral _ (List.getLast_mem (List.cons_ne_nil c cs))
      refine .number hliteral (hseparated _ rfl rfl) (ih hrow.tail (hnext _ hlast.symm) ?_)
      rw [endsOperand_number hlast]
      exact hrest
    | operator symbol =>
      obtain ⟨op, rfl, rfl, hunary⟩ := Token.exists_of_ofLexeme_operator htoken
      have hnumber := Lexeme.isNumberChar_eq_false_of_isOperatorSymbol hrow.head_isValid
      refine .operator hunary (ih hrow.tail (hnext _ hnumber.symm) ?_)
      rw [endsOperand_symbol]
      exact hrest

/-! ## The law -/

/-- Whether the vacancies of a text and the numbers of its tokens make up for the juxtapositions of
the text, the binary operators of the tokens, and the operand that is due in front, if one is. -/
def CountsAgree (unaryMinus : Bool) (before : Option Char) (text : List Char)
    (tokens : List (Token α)) : Prop :=
  places (isVacancy unaryMinus) before text + tokens.countP Token.isNumber =
    places isJuxtaposition before text + tokens.countP (Token.isOperator Operator.isBinary) +
      (!endsOperand before).toNat

/-- One character and one token keep the counts if they do so by themselves. -/
theorem CountsAgree.cons {unaryMinus : Bool} {before : Option Char} {c : Char} {text : List Char}
    {token : Token α} {tokens : List (Token α)}
    (h : CountsAgree unaryMinus (some c) text tokens)
    (hplace : (isVacancy unaryMinus before (some c)).toNat + token.isNumber.toNat +
        (!endsOperand (some c)).toNat =
      (isJuxtaposition before (some c)).toNat + (token.isOperator Operator.isBinary).toNat +
        (!endsOperand before).toNat) :
    CountsAgree unaryMinus before (c :: text) (token :: tokens) := by
  unfold CountsAgree at h ⊢
  rw [places, places, countP_cons_eq, countP_cons_eq]
  omega

/-- A number goes on without a change. -/
theorem CountsAgree.append_number {unaryMinus : Bool} {c : Char} {cs : List Char}
    (hliteral : ∀ a ∈ c :: cs, Lexeme.isNumberChar a = true) {text : List Char}
    {tokens : List (Token α)}
    (h : CountsAgree unaryMinus (some ((c :: cs).getLast (List.cons_ne_nil c cs))) text tokens) :
    CountsAgree unaryMinus (some c) (cs ++ text) tokens := by
  obtain ⟨hc, hcs⟩ := List.forall_mem_cons.mp hliteral
  have hlast := hliteral _ (List.getLast_mem (List.cons_ne_nil c cs))
  unfold CountsAgree at h ⊢
  rw [places_append_number (fun a b ha _ => isVacancy_of_endsOperand (endsOperand_number ha) _) hc
      hcs,
    places_append_number (fun _ _ => isJuxtaposition_number) hc hcs]
  rw [endsOperand_number hlast] at h
  rw [endsOperand_number hc]
  exact h

/-- The counts of a row and its tokens agree. -/
theorem Follows.countsAgree {unaryMinus : Bool} {before : Option Char} {ls : List Lexeme}
    {tokens : List (Token α)} (h : Follows unaryMinus before ls tokens) :
    CountsAgree unaryMinus before (Lexeme.textOf ls) tokens := by
  induction h with
  | @nil before =>
    show (isVacancy unaryMinus before none).toNat + 0 = (isJuxtaposition before none).toNat + 0 + _
    rw [isVacancy_none, isJuxtaposition_none]
    exact Nat.add_comm _ _
  | @openParen before ls tokens h ih =>
    refine ih.cons ?_
    rw [isVacancy_openParen, isJuxtaposition_openParen]
    cases endsOperand before <;> rfl
  | @closeParen before ls tokens h ih =>
    refine ih.cons ?_
    rw [isVacancy_closeParen, isJuxtaposition_eq_false rfl rfl]
    cases endsOperand before <;> rfl
  | @number before c cs value ls tokens hliteral hbefore h ih =>
    have hc := hliteral c List.mem_cons_self
    refine CountsAgree.cons (ih.append_number hliteral) ?_
    rw [isVacancy_number hc, isJuxtaposition_of_number hc hbefore, endsOperand_number hc]
    cases endsOperand before <;> rfl
  | @operator before ls tokens op hunary h ih =>
    have hsymbol : Lexeme.isOperatorSymbol op.symbol = true := Lexeme.isValid_operator op
    refine ih.cons ?_
    rw [isVacancy_operator hsymbol, endsOperand_symbol,
      isJuxtaposition_eq_false (Lexeme.isNumberChar_eq_false_of_isOperatorSymbol hsymbol)
        (ne_paren_of_isOperatorSymbol hsymbol).1]
    show _ = 0 + (!op.isUnary).toNat + _
    rw [hunary]
    cases endsOperand before <;> cases unaryMinus <;> cases op.symbol == '-' <;> rfl

/-- The numbers of a text are one more than its binary operators, but for the places where an operand
is missing or meets another. -/
theorem vacancies_add_numbers {unaryMinus : Bool} {ls : List Lexeme} {tokens : List (Token α)}
    (h : Follows unaryMinus none ls tokens) :
    vacancies unaryMinus (Lexeme.textOf ls) + tokens.countP Token.isNumber =
      juxtapositions (Lexeme.textOf ls) + tokens.countP (Token.isOperator Operator.isBinary) + 1 :=
  h.countsAgree

end

end InfixArithmetic
