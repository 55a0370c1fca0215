/-
  Applying operators at once is the same as writing the postfix program first and running it
  afterwards.

  `Conversion.outcome` runs what a conversion has queued so far and puts the waiting entries beside
  the operands: it is the state in which a reduction of the same tokens would be. One token keeps
  the two in step (`outcome_step`), hence so does a list of tokens (`outcome_foldl`), and the last
  release agrees with the final draining (`outcome_ofTokens`). The statement covers the value, which
  error is reported when several are possible, and the numbers in it.
-/
import InfixArithmetic.Reduction.Postfix

namespace InfixArithmetic

variable {α : Type} [Arithmetic α]

/-! ## Running a postfix program -/

theorem runPostfix_cons (item : PostfixItem α) (items : List (PostfixItem α))
    (operands : List α) :
    runPostfix (item :: items) operands = runPostfix [item] operands >>= runPostfix items := by
  cases item with
  | number value => rfl
  | operator op =>
    cases op with
    | neg => cases operands <;> rfl
    | _ => match operands with
      | [] | [_] | _ :: _ :: _ => rfl

theorem runPostfix_append (front back : List (PostfixItem α)) (operands : List α) :
    runPostfix (front ++ back) operands = runPostfix front operands >>= runPostfix back := by
  induction front generalizing operands with
  | nil => rfl
  | cons item front ih =>
    rw [List.cons_append, runPostfix_cons, runPostfix_cons item front]
    cases runPostfix [item] operands with
    | error e => rfl
    | ok operands => exact ih operands

theorem runPostfix_binary {op : Operator} (hop : op.isUnary = false) (x y : α)
    (operands : List α) :
    runPostfix [.operator op] (y :: x :: operands) = .ok (op.applyBinary x y :: operands) := by
  cases op with
  | neg => cases hop
  | _ => rfl

theorem runPostfix_of_lt {op : Operator} {operands : List α} (h : operands.length < op.arity) :
    runPostfix [.operator op] operands =
      .error (.stackUnderflow op op.arity operands.length) := by
  cases hop : op.isUnary with
  | true =>
    obtain rfl := Operator.isUnary_eq_true_iff.mp hop
    have : operands = [] := List.length_eq_zero_iff.mp (Nat.lt_one_iff.mp h)
    subst this
    rfl
  | false =>
    rw [Operator.arity_of_isUnary_eq_false hop] at h
    match operands, h with
    | [], _ | [_], _ =>
      cases op with
      | neg => cases hop
      | _ => rfl
    | _ :: _ :: rest, h => exact absurd h (Nat.not_lt.mpr (Nat.le_add_left 2 rest.length))

/-- One application is one instruction. -/
theorem result_applyTop (op : Operator) (operands : List α) :
    (op.applyTop operands).result = runPostfix [.operator op] operands := by
  rcases op.arity_cases operands with h | ⟨rfl, x, rest, rfl⟩ | ⟨hop, y, x, rest, rfl⟩
  · rw [Operator.applyTop_of_lt h, runPostfix_of_lt h]
    rfl
  · rw [Operator.applyTop_neg]
    rfl
  · rw [Operator.applyTop_binary hop, runPostfix_binary hop]
    rfl

/-- Draining is running what is released. -/
theorem result_resolve (leaves : Operator → Bool) (pending : List Pending) (operands : List α) :
    (Stacks.resolve leaves operands pending).result =
      runPostfix ((Pending.release leaves pending).1.map .operator) operands >>= fun operands =>
        .ok ⟨operands, (Pending.release leaves pending).2⟩ := by
  induction pending generalizing operands with
  | nil => rfl
  | cons entry pending ih =>
    cases entry with
    | openParen => rfl
    | operator op =>
      cases h : leaves op with
      | false =>
        rw [Stacks.resolve_of_stays leaves h]
        simp only [Pending.release, h]
        rfl
      | true =>
        rw [Stacks.resolve_of_leaves leaves h, Traced.result_bind, result_applyTop]
        simp only [Pending.release, h, if_true, List.map_cons]
        rw [runPostfix_cons (.operator op) ((Pending.release leaves pending).1.map .operator)]
        cases runPostfix [.operator op] operands with
        | error e => rfl
        | ok operands => exact ih operands

/-- What stays pending is what is not released. -/
theorem Stacks.pending_of_resolve {leaves : Operator → Bool} {operands : List α}
    {pending : List Pending} {state : Stacks α}
    (h : (Stacks.resolve leaves operands pending).result = .ok state) :
    state.pending = (Pending.release leaves pending).2 := by
  rw [result_resolve, bind_eq_ok_iff] at h
  obtain ⟨rest, -, heq⟩ := h
  cases heq
  rfl

/-! ## Reduction and conversion in step -/

namespace Conversion

/-- The stacks that a reduction has when the conversion has come this far. -/
def outcome (conversion : Conversion α) : Except EvalError (Stacks α) := do
  let operands ← runPostfix conversion.queue []
  if conversion.stray then .error .unbalancedParentheses else .ok ⟨operands, conversion.pending⟩

theorem outcome_of_stray {conversion : Conversion α} (h : conversion.stray = true) :
    conversion.outcome =
      runPostfix conversion.queue [] >>= fun _ => .error .unbalancedParentheses := by
  simp only [outcome, h, if_true]

theorem outcome_of_not_stray {conversion : Conversion α} (h : conversion.stray = false) :
    conversion.outcome =
      runPostfix conversion.queue [] >>= fun operands => .ok ⟨operands, conversion.pending⟩ := by
  simp only [outcome, h, Bool.false_eq_true, if_false]

theorem outcome_release {conversion : Conversion α} (h : conversion.stray = false)
    (leaves : Operator → Bool) :
    (conversion.release leaves).outcome = conversion.outcome >>= fun state =>
      (Stacks.resolve leaves state.operands state.pending).result := by
  rw [outcome_of_not_stray h, outcome_of_not_stray (by exact h)]
  simp only [release, runPostfix_append]
  cases runPostfix conversion.queue [] with
  | error e => rfl
  | ok operands => exact (result_resolve leaves conversion.pending operands).symm

theorem outcome_push {conversion : Conversion α} (h : conversion.stray = false) (entry : Pending) :
    ({ conversion with pending := entry :: conversion.pending } : Conversion α).outcome =
      conversion.outcome >>= fun state => .ok { state with pending := entry :: state.pending } := by
  rw [outcome_of_not_stray h, outcome_of_not_stray (by exact h)]
  cases runPostfix conversion.queue [] <;> rfl

/-- One token keeps a conversion and a reduction in step. -/
theorem outcome_step (conversion : Conversion α) (token : Token α) :
    (conversion.step token).outcome =
      conversion.outcome >>= fun state => (state.step token).result := by
  cases hs : conversion.stray with
  | true =>
    rw [step_of_stray hs, outcome_of_stray hs]
    cases runPostfix conversion.queue [] <;> rfl
  | false =>
    cases token with
    | number value =>
      rw [step_number hs, outcome_of_not_stray (by exact hs), runPostfix_append,
        outcome_of_not_stray hs]
      cases runPostfix conversion.queue [] <;> rfl
    | openParen =>
      rw [step_openParen hs]
      exact outcome_push hs .openParen
    | operator incoming =>
      rw [step_operator hs, outcome_push (by exact hs), outcome_release hs, bind_assoc]
      congr 1
      funext state
      rw [Stacks.step_operator, Traced.result_bind]
      rfl
    | closeParen =>
      have hstep : ∀ state : Stacks α, (state.step .closeParen).result =
          (Stacks.resolve (fun _ => true) state.operands state.pending).result >>= fun state =>
            state.close.result := by
        intro state
        rw [Stacks.step_closeParen, Traced.result_bind]
      simp only [hstep]
      rw [← bind_assoc, ← outcome_release hs]
      cases hpending : (conversion.release fun _ => true).pending with
      | nil =>
        rw [step_closeParen_of_nil hs hpending, outcome_of_stray (by rfl),
          outcome_of_not_stray (by exact hs), hpending]
        cases runPostfix (conversion.release fun _ => true).queue [] <;> rfl
      | cons entry rest =>
        rw [step_closeParen hs hpending, outcome_of_not_stray (by exact hs),
          outcome_of_not_stray (by exact hs), hpending]
        cases runPostfix (conversion.release fun _ => true).queue [] <;> rfl

/-- A whole list of tokens keeps them in step. -/
theorem outcome_foldl (tokens : List (Token α)) (conversion : Conversion α) :
    (tokens.foldl step conversion).outcome =
      conversion.outcome >>= fun state => (state.run tokens).result := by
  induction tokens generalizing conversion with
  | nil =>
    show conversion.outcome = _
    cases conversion.outcome <;> rfl
  | cons token tokens ih =>
    rw [List.foldl_cons, ih, outcome_step, bind_assoc]
    congr 1
    funext state
    rw [Stacks.run_cons, Traced.result_bind]

/-- The stacks of a reduction whose tokens are used up and whose waiting operators are applied. -/
theorem outcome_ofTokens (tokens : List (Token α)) :
    (ofTokens tokens).outcome = (Stacks.run .empty tokens >>= fun state =>
      Stacks.resolve (fun _ => true) state.operands state.pending).result := by
  have hfold := outcome_foldl tokens {}
  have hempty : (({} : Conversion α)).outcome = .ok .empty := rfl
  rw [hempty] at hfold
  have hrun : (tokens.foldl step {}).outcome = (Stacks.run .empty tokens).result := hfold
  rw [Traced.result_bind, ← hrun, ofTokens]
  cases hs : (tokens.foldl step {}).stray with
  | true =>
    rw [if_pos rfl, outcome_of_stray hs]
    cases runPostfix (tokens.foldl step {}).queue [] <;> rfl
  | false =>
    rw [if_neg Bool.false_ne_true, outcome_release hs]

end Conversion

/-- A reduction ends with the stacks of the conversion, and wants one operand and nothing
waiting. -/
theorem result_reduce (tokens : List (Token α)) :
    (reduce tokens).result =
      (Conversion.ofTokens tokens).outcome >>= fun state => state.single.result := by
  rw [Conversion.outcome_ofTokens, reduce, Traced.result_bind, Traced.result_bind, bind_assoc]
  congr 1
  funext state
  rw [Stacks.finish, Traced.result_bind]

/-- Applying operators as they leave the pending stack gives what the postfix program gives: its
first operator without operands; else a closing parenthesis that closes nothing; else the value, if
one operand and nothing waiting is left; else how much is left of both. -/
theorem reduce_eq_reduceByPostfix (tokens : List (Token α)) :
    (reduce tokens).result = reduceByPostfix tokens := by
  rw [result_reduce, reduceByPostfix, Conversion.outcome]
  cases runPostfix (Conversion.ofTokens tokens).queue [] with
  | error e => rfl
  | ok operands =>
    cases (Conversion.ofTokens tokens).stray with
    | true => rfl
    | false =>
      match operands, (Conversion.ofTokens tokens).pending with
      | [_], [] | [], _ | [_], _ :: _ | _ :: _ :: _, _ => rfl

end InfixArithmetic
