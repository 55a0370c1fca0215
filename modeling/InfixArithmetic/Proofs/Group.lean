/-
  A group in parentheses counts as the number that it reduces to.

  A run that succeeds from empty stacks takes no operand that it has not put there, and closes no
  parenthesis that it has not opened. So it succeeds above any other stacks and leaves them alone,
  as long as an open parenthesis keeps the pending entries apart (`Stacks.above`): this holds of one
  application (`Operator.result_applyTop_append`), of a resolution (`Stacks.result_resolve_above`),
  of a token (`Stacks.result_step_above`) and of a run (`Stacks.result_run_above`). The closing
  parenthesis then does what the end of the tokens does (`Stacks.result_run_group`).

  The statements are about results. A group makes applications and a number makes none, so the
  records differ.
-/
import InfixArithmetic.Real.Literal
import InfixArithmetic.Reduction.Basic

namespace InfixArithmetic

variable {α : Type}

/-! ## Above other stacks -/

namespace Stacks

/-- Stacks on top of others, with an open parenthesis between the pending entries. -/
def above (state outer : Stacks α) : Stacks α :=
  ⟨state.operands ++ outer.operands, state.pending ++ .openParen :: outer.pending⟩

/-- What is closed was opened above. -/
theorem result_close_above {state state' : Stacks α} (h : state.close.result = .ok state')
    (outer : Stacks α) : (state.above outer).close.result = .ok (state'.above outer) := by
  obtain ⟨operands, pending⟩ := state
  cases pending with
  | nil => cases h
  | cons entry pending =>
    cases h
    rfl

end Stacks

variable [Arithmetic α]

/-- Operands further down do not matter to an application that has enough. -/
theorem Operator.result_applyTop_append {op : Operator} {operands rest : List α}
    (h : (op.applyTop operands).result = .ok rest) (below : List α) :
    (op.applyTop (operands ++ below)).result = .ok (rest ++ below) := by
  rcases op.arity_cases operands with hlt | ⟨rfl, x, tail, rfl⟩ | ⟨hop, y, x, tail, rfl⟩
  · rw [applyTop_of_lt hlt] at h
    cases h
  · rw [applyTop_neg] at h
    cases h
    rw [List.cons_append, applyTop_neg]
    rfl
  · rw [applyTop_binary hop] at h
    cases h
    rw [List.cons_append, List.cons_append, applyTop_binary hop]
    rfl

namespace Stacks

/-- A resolution stops at the parenthesis, if not before. -/
theorem result_resolve_above {leaves : Operator → Bool} {state state' : Stacks α}
    (h : (resolve leaves state.operands state.pending).result = .ok state') (outer : Stacks α) :
    (resolve leaves (state.above outer).operands (state.above outer).pending).result =
      .ok (state'.above outer) := by
  obtain ⟨operands, pending⟩ := state
  unfold above
  dsimp only at h ⊢
  induction pending generalizing operands with
  | nil =>
    cases h
    rfl
  | cons entry pending ih =>
    rw [List.cons_append]
    cases entry with
    | openParen =>
      cases h
      rfl
    | operator op =>
      cases hleaves : leaves op with
      | false =>
        rw [resolve_of_stays leaves hleaves] at h ⊢
        cases h
        rfl
      | true =>
        rw [resolve_of_leaves leaves hleaves, Traced.result_bind] at h ⊢
        obtain ⟨rest, happly, hrest⟩ := bind_eq_ok_iff.mp h
        rw [Operator.result_applyTop_append happly]
        exact ih rest hrest

/-- A token that succeeds alone does the same above other stacks. -/
theorem result_step_above {state state' : Stacks α} {token : Token α}
    (h : (state.step token).result = .ok state') (outer : Stacks α) :
    ((state.above outer).step token).result = .ok (state'.above outer) := by
  cases token with
  | number value =>
    cases h
    rfl
  | openParen =>
    cases h
    rfl
  | operator incoming =>
    rw [step_operator, Traced.result_bind] at h ⊢
    obtain ⟨middle, hresolve, hpush⟩ := bind_eq_ok_iff.mp h
    cases hpush
    rw [result_resolve_above hresolve]
    rfl
  | closeParen =>
    rw [step_closeParen, Traced.result_bind] at h ⊢
    obtain ⟨middle, hresolve, hclose⟩ := bind_eq_ok_iff.mp h
    rw [result_resolve_above hresolve]
    exact result_close_above hclose outer

/-- A run that succeeds alone does the same above other stacks. -/
theorem result_run_above {state state' : Stacks α} {tokens : List (Token α)}
    (h : (state.run tokens).result = .ok state') (outer : Stacks α) :
    ((state.above outer).run tokens).result = .ok (state'.above outer) := by
  induction tokens generalizing state with
  | nil =>
    cases h
    rfl
  | cons token tokens ih =>
    rw [run_cons, Traced.result_bind] at h ⊢
    obtain ⟨middle, hstep, hrun⟩ := bind_eq_ok_iff.mp h
    rw [result_step_above hstep]
    exact ih hrun

/-! ## Groups -/

/-- Closing the parenthesis is finishing what stands above it. -/
theorem result_step_closeParen_above {state : Stacks α} {value : α}
    (h : state.finish.result = .ok value) (outer : Stacks α) :
    ((state.above outer).step .closeParen).result =
      .ok ⟨value :: outer.operands, outer.pending⟩ := by
  rw [finish, Traced.result_bind] at h
  obtain ⟨last, hresolve, hsingle⟩ := bind_eq_ok_iff.mp h
  obtain rfl := result_single_eq_ok_iff.mp hsingle
  rw [step_closeParen, Traced.result_bind, result_resolve_above hresolve]
  rfl

/-- Tokens with a value, in parentheses, leave the value on top of the operands. -/
theorem result_run_group {tokens : List (Token α)} {value : α}
    (h : (reduce tokens).result = .ok value) (outer : Stacks α) :
    (outer.run (.openParen :: (tokens ++ [.closeParen]))).result =
      .ok ⟨value :: outer.operands, outer.pending⟩ := by
  rw [reduce, Traced.result_bind] at h
  obtain ⟨state, hrun, hfinish⟩ := bind_eq_ok_iff.mp h
  have hopen : outer.step .openParen = pure (empty.above outer) := rfl
  rw [run_cons, hopen, pure_bind, run_append, Traced.result_bind, result_run_above hrun]
  show ((state.above outer).run [.closeParen]).result = _
  rw [run_singleton]
  exact result_step_closeParen_above hfinish outer

end Stacks

/-- Tokens with a value can be put in parentheses wherever the number may stand, and the other way
round: the value or the error of the whole is the same, whatever stands before and after. -/
theorem result_reduce_group {tokens : List (Token α)} {value : α}
    (h : (reduce tokens).result = .ok value) (front back : List (Token α)) :
    (reduce (front ++ [.openParen] ++ tokens ++ [.closeParen] ++ back)).result =
      (reduce (front ++ [.number value] ++ back)).result := by
  have hgroup : front ++ [.openParen] ++ tokens ++ [.closeParen] ++ back =
      front ++ .openParen :: (tokens ++ [.closeParen]) ++ back := by
    simp only [List.append_assoc, List.cons_append, List.nil_append]
  have hnumber : ∀ outer : Stacks α,
      (outer.run [.number value]).result = .ok ⟨value :: outer.operands, outer.pending⟩ :=
    fun _ => rfl
  rw [hgroup, reduce, reduce, Traced.result_bind, Traced.result_bind]
  simp only [Stacks.run_append, Traced.result_bind, Stacks.result_run_group h, hnumber]

/-- Operands that meet inside, and an operator that lacks one outside. -/
theorem result_reduce_group_in_malformed :
    (reduce [.number (1 : Float), .openParen, .number 2, .closeParen, .operator .add]).result =
        .ok (1 + 2) ∧
      (reduce ([.number (3 : Float), .operator .mul] ++ [.openParen] ++
        [.number 1, .openParen, .number 2, .closeParen, .operator .add] ++ [.closeParen] ++
        [.operator .sub])).result =
      (reduce ([.number (3 : Float), .operator .mul] ++ [.number (1 + 2)] ++
        [.operator .sub])).result := by
  have hinner : (reduce [.number (1 : Float), .openParen, .number 2, .closeParen,
      .operator .add]).result = .ok (1 + 2) := rfl
  exact ⟨hinner, result_reduce_group hinner [.number 3, .operator .mul] [.operator .sub]⟩

end InfixArithmetic
