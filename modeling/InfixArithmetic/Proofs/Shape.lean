/-
  What a reduction does with its operators does not depend on the numbers.

  A token list without its numbers (`Token.shape`) is a token list over `Unit`, the numbers that are
  all alike. Reducing it makes the same applications and ends in the same way as reducing the list
  itself (`reduce_map_shape`): an application looks at how many operands there are, and everything
  else at the pending stack. A text has the same tokens over any numbers, up to their shape, as long
  as literals are read (`tokenize_shape`). So two runs over different numbers are both like the one
  over `Unit`, which is all that is said of two runs here (`evaluation_ignores_numbers`).
-/
import InfixArithmetic.Proofs.Reading
import InfixArithmetic.Real.Literal

namespace InfixArithmetic

/-- Numbers that are all alike. -/
instance : Arithmetic Unit where
  add _ _ := ()
  sub _ _ := ()
  mul _ _ := ()
  div _ _ := ()
  neg _ := ()
  readLiteral? _ := some ()

variable {α : Type}

/-- What is left of a number. -/
def forget (_ : α) : Unit := ()

/-- What is left of the stacks without the numbers: how many operands there are, and what waits. -/
def Stacks.shape (state : Stacks α) : Stacks Unit := ⟨state.operands.map forget, state.pending⟩

/-! ## Reduction -/

namespace Stacks

theorem close_shape (state : Stacks α) : state.shape.close = shape <$> state.close := by
  obtain ⟨operands, pending⟩ := state
  cases pending <;> rfl

theorem single_shape (state : Stacks α) : state.shape.single = forget <$> state.single := by
  obtain ⟨operands, pending⟩ := state
  match operands, pending with
  | [_], [] | [], _ | [_], _ :: _ => rfl
  | x :: y :: rest, pending =>
    have hlength : ((x :: y :: rest).map forget).length = (x :: y :: rest).length :=
      List.length_map forget
    exact congrArg (fun n => Traced.fail (.malformedExpression n pending.length)) hlength

end Stacks

section

variable [Arithmetic α]

theorem Operator.applyTop_map_forget (op : Operator) (operands : List α) :
    op.applyTop (operands.map forget) = List.map forget <$> op.applyTop operands := by
  rcases op.arity_cases operands with hlt | ⟨rfl, x, rest, rfl⟩ | ⟨hop, y, x, rest, rfl⟩
  · have hlt' : (operands.map forget).length < op.arity := by rwa [List.length_map]
    rw [applyTop_of_lt hlt, applyTop_of_lt hlt', List.length_map]
    rfl
  · rw [List.map_cons, applyTop_neg, applyTop_neg, List.length_map]
    rfl
  · rw [List.map_cons, List.map_cons, applyTop_binary hop, applyTop_binary hop, List.length_map]
    rfl

namespace Stacks

/-- Whether an operator leaves is no matter of the operands, so both runs resolve the same
entries. -/
theorem resolve_map_forget (leaves : Operator → Bool) (operands : List α)
    (pending : List Pending) :
    resolve leaves (operands.map forget) pending = shape <$> resolve leaves operands pending := by
  induction pending generalizing operands with
  | nil => rfl
  | cons entry pending ih =>
    cases entry with
    | openParen => rfl
    | operator op =>
      cases hleaves : leaves op with
      | false =>
        rw [resolve_of_stays leaves hleaves, resolve_of_stays leaves hleaves]
        rfl
      | true =>
        rw [resolve_of_leaves leaves hleaves, resolve_of_leaves leaves hleaves,
          Operator.applyTop_map_forget, bind_map_left, map_bind]
        simp only [ih]

/-- One token does the same to the shapes. -/
theorem step_shape (state : Stacks α) (token : Token α) :
    state.shape.step token.shape = shape <$> state.step token := by
  cases token with
  | number value => rfl
  | openParen => rfl
  | operator incoming =>
    show state.shape.step (.operator incoming) = _
    rw [step_operator, step_operator, map_bind]
    show resolve _ (state.operands.map forget) state.pending >>= _ = _
    rw [resolve_map_forget, bind_map_left]
    rfl
  | closeParen =>
    show state.shape.step .closeParen = _
    rw [step_closeParen, step_closeParen, map_bind]
    show resolve _ (state.operands.map forget) state.pending >>= _ = _
    rw [resolve_map_forget, bind_map_left]
    simp only [close_shape]

/-- A list of tokens does the same to the shapes. -/
theorem run_shape (state : Stacks α) (tokens : List (Token α)) :
    state.shape.run (tokens.map Token.shape) = shape <$> state.run tokens := by
  induction tokens generalizing state with
  | nil => rfl
  | cons token tokens ih =>
    rw [List.map_cons, run_cons, run_cons, step_shape, bind_map_left, map_bind]
    simp only [ih]

theorem finish_shape (state : Stacks α) : state.shape.finish = forget <$> state.finish := by
  rw [finish, finish, map_bind]
  show resolve _ (state.operands.map forget) state.pending >>= _ = _
  rw [resolve_map_forget, bind_map_left]
  simp only [single_shape]

end Stacks

/-- The numbers taken out of a token list, its reduction is the same but for the value. -/
theorem reduce_map_shape (tokens : List (Token α)) :
    reduce (tokens.map Token.shape) = forget <$> reduce tokens := by
  have hrun : Stacks.run .empty (tokens.map Token.shape) =
      Stacks.shape <$> Stacks.run .empty tokens := Stacks.run_shape .empty tokens
  rw [reduce, reduce, hrun, bind_map_left, map_bind]
  simp only [Stacks.finish_shape]

end

/-! ## Texts -/

theorem Token.expectsOperand_shape (token : Token α) :
    token.shape.expectsOperand = token.expectsOperand := by
  cases token <;> rfl

theorem closing_map_forget (result : Except EvalError α) :
    closing (forget <$> result) = closing result := by
  cases result <;> rfl

section

variable [Arithmetic α] [ReadsLiterals α]

namespace Token

/-- A lexeme becomes a token of the same shape over any numbers. -/
theorem ofLexeme_shape {l : Lexeme} (h : l.IsValid) (atOperand : Bool) :
    ofLexeme atOperand l = shape (α := α) <$> ofLexeme atOperand l := by
  cases l with
  | openParen => rfl
  | closeParen => rfl
  | number literal =>
    obtain ⟨value, hvalue⟩ := Option.isSome_iff_exists.mp
      (ReadsLiterals.isSome_readLiteral? (α := α) h)
    simp only [ofLexeme, hvalue]
    rfl
  | operator symbol =>
    rw [ofLexeme, ofLexeme, map_bind]
    rfl

theorem ofLexemes_shape {ls : List Lexeme} (h : ∀ l ∈ ls, l.IsValid)
    (unaryMinus operandDue : Bool) :
    ofLexemes unaryMinus operandDue ls =
      List.map (shape (α := α)) <$> ofLexemes unaryMinus operandDue ls := by
  induction ls generalizing operandDue with
  | nil => rfl
  | cons l ls ih =>
    obtain ⟨hl, hls⟩ := List.forall_mem_cons.mp h
    rw [ofLexemes, ofLexemes, ofLexeme_shape (α := α) hl, bind_map_left, map_bind]
    congr 1
    funext token
    rw [expectsOperand_shape, ih hls, bind_map_left, map_bind]
    rfl

theorem ofStripped_shape (unaryMinus : Bool) (stripped : List Char) :
    ofStripped unaryMinus stripped =
      List.map (shape (α := α)) <$> ofStripped unaryMinus stripped := by
  rw [ofStripped, ofStripped]
  cases hscan : Lexeme.scan stripped with
  | error position => rfl
  | ok ls =>
    have hvalid := (Lexeme.scan_eq_ok_iff.mp hscan).1.isValid
    dsimp only
    rw [ofLexemes_shape (α := α) hvalid, bind_map_left, map_bind]
    congr 1
    funext tokens
    cases tokens <;> rfl

end Token

/-- A text has tokens of the same shapes over any numbers, or none for the same reason. -/
theorem tokenize_shape (config : Config) (text : String) :
    tokenize config text = List.map (Token.shape (α := α)) <$> tokenize config text := by
  rw [tokenize, tokenize, map_bind]
  simp only [Token.ofStripped_shape (α := α)]

/-- The evaluation of a text over numbers that are all alike is the one over any numbers, but for the
value. -/
theorem evaluation_shape (config : Config) (text : String) :
    (evaluation config text : Evaluation Unit) =
      ⟨(evaluation config text : Evaluation α).log,
        forget <$> (evaluation config text : Evaluation α).result⟩ := by
  have hshape := tokenize_shape (α := α) config text
  cases htokens : tokenize (α := α) config text with
  | error e =>
    rw [htokens] at hshape
    rw [evaluation, evaluation, hshape, htokens]
    rfl
  | ok tokens =>
    have hunit : tokenize config text = .ok (tokens.map Token.shape) := by
      rw [hshape, htokens]
      rfl
    simp only [evaluation, htokens, hunit, reduce_map_shape, Traced.trace_map, Traced.result_map,
      List.length_map, closing_map_forget]

end

/-! ## Two runs -/

variable {β : Type}

/-- Whether two results are both values, whichever, or both the same error. -/
def SameVerdict (result : Except EvalError α) (result' : Except EvalError β) : Prop :=
  (∃ value value', result = .ok value ∧ result' = .ok value') ∨
    ∃ e, result = .error e ∧ result' = .error e

theorem sameVerdict_iff {result : Except EvalError α} {result' : Except EvalError β} :
    SameVerdict result result' ↔ forget <$> result = forget <$> result' := by
  constructor
  · rintro (⟨value, value', rfl, rfl⟩ | ⟨e, rfl, rfl⟩) <;> rfl
  · intro h
    match result, result', h with
    | .ok value, .ok value', _ => exact .inl ⟨value, value', rfl, rfl⟩
    | .error e, .error _, rfl => exact .inr ⟨e, rfl, rfl⟩

/-- Numbers decide the value and nothing else. Two token lists that differ in numbers only, be they
of one type or of two, have both a value or both the same error, after the same applications. A text
has, over any two types of numbers that have all literals, both a value or both the same error,
and the same log. -/
theorem evaluation_ignores_numbers [Arithmetic α] [Arithmetic β] :
    (∀ (tokens : List (Token α)) (tokens' : List (Token β)),
        tokens.map Token.shape = tokens'.map Token.shape →
        SameVerdict (reduce tokens).result (reduce tokens').result ∧
          (reduce tokens).trace = (reduce tokens').trace) ∧
      (ReadsLiterals α → ReadsLiterals β → ∀ (config : Config) (text : String),
        SameVerdict (evaluate config text : Except EvalError α)
            (evaluate config text : Except EvalError β) ∧
          (evaluation config text : Evaluation α).log =
            (evaluation config text : Evaluation β).log) := by
  constructor
  · intro tokens tokens' hshape
    have hsame : forget <$> reduce tokens = forget <$> reduce tokens' := by
      rw [← reduce_map_shape, ← reduce_map_shape, hshape]
    constructor
    · rw [sameVerdict_iff, ← Traced.result_map, ← Traced.result_map, hsame]
    · rw [← Traced.trace_map forget (reduce tokens), hsame, Traced.trace_map]
  · intro _ _ config text
    have hsame := (evaluation_shape (α := α) config text).symm.trans
      (evaluation_shape (α := β) config text)
    exact ⟨sameVerdict_iff.mpr (congrArg Evaluation.result hsame), congrArg Evaluation.log hsame⟩

/-- An infinity and a finite number, of different widths, in front of an operator that lacks an
operand; and a text that divides zero by zero and leaves a parenthesis open. -/
theorem evaluation_ignores_numbers_division_by_zero :
    let tokens : List (Token Float) :=
      [.number 1, .operator .div, .number 0, .operator .add]
    let tokens' : List (Token Float32) :=
      [.number 7, .operator .div, .number 2, .operator .add]
    tokens.map Token.shape = tokens'.map Token.shape ∧ ReadsLiterals Float ∧
      ReadsLiterals Float32 ∧ (reduce tokens).result = .error (.stackUnderflow .add 2 1) ∧
      (reduce tokens).trace = [⟨.div, 1⟩] ∧
      SameVerdict (evaluate {} "0/0-(1" : Except EvalError Float)
        (evaluate {} "0/0-(1" : Except EvalError Float32) ∧
      (evaluation {} "0/0-(1" : Evaluation Float).log =
        (evaluation {} "0/0-(1" : Evaluation Float32).log := by
  intro tokens tokens'
  have hshape : tokens.map Token.shape = tokens'.map Token.shape := rfl
  have hresult' : (reduce tokens').result = .error (.stackUnderflow .add 2 1) := rfl
  have htrace' : (reduce tokens').trace = [⟨.div, 1⟩] := rfl
  obtain ⟨hreduce, hevaluate⟩ := evaluation_ignores_numbers (α := Float) (β := Float32)
  obtain ⟨hverdict, htrace⟩ := hreduce tokens tokens' hshape
  have hresult : (reduce tokens).result = .error (.stackUnderflow .add 2 1) := by
    rw [hresult'] at hverdict
    rcases hverdict with ⟨_, _, -, hvalue⟩ | ⟨e, he, he'⟩
    · cases hvalue
    · cases he'
      exact he
  obtain ⟨hverdict, hlog⟩ := hevaluate inferInstance inferInstance {} "0/0-(1"
  exact ⟨hshape, inferInstance, inferInstance, hresult, htrace.trans htrace', hverdict, hlog⟩

end InfixArithmetic
