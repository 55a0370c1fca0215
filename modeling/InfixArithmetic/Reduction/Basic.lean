/-
  Reduction of a token list to its value, with two stacks and no syntax tree.

  Operands wait on one stack, operators and open parentheses on the other; both are lists with the
  top first. An operator is applied when it leaves the pending stack, at once, on the operands that
  are there. Operators leave for three reasons, and `Stacks.resolve` serves all three: an operator
  arrives before which they go (`Operator.resolvesBefore`), a parenthesis closes, or the tokens are
  used up. It never passes an open parenthesis.

  The result is a value or an error, with a record of each application (`Traced`). Nothing is
  checked about the order of the tokens: what is wrong with a list shows in the sizes of the stacks.
-/
import InfixArithmetic.Token
import InfixArithmetic.Traced

namespace InfixArithmetic

/-- What waits on the pending stack. -/
inductive Pending where
  | operator (op : Operator)
  | openParen
  deriving DecidableEq, Repr

/-- Both stacks, the top of each first. -/
structure Stacks (α : Type) where
  operands : List α
  pending : List Pending
  deriving DecidableEq, Repr

section Application

variable {α : Type} [Arithmetic α]

/-- Replaces the topmost operands, as many as the operator takes, by its value on them. The deeper
operand is the left one. -/
def Operator.applyTop (op : Operator) (operands : List α) : Traced (List α) :=
  let underflow := EvalError.stackUnderflow op op.arity operands.length
  if operands.length < op.arity then
    .fail underflow
  else
    match op.applyTo? (operands.take op.arity).reverse with
    | none => .fail underflow
    | some value =>
      let operands := value :: operands.drop op.arity
      .record ⟨op, operands.length⟩ operands

end Application

namespace Stacks

/-- Nothing read yet. -/
def empty {α : Type} : Stacks α := ⟨[], []⟩

variable {α : Type} [Arithmetic α]

/-- Applies waiting operators from the top for as long as they satisfy `leaves`. -/
def resolve (leaves : Operator → Bool) (operands : List α) : List Pending → Traced (Stacks α)
  | .operator op :: pending =>
    if leaves op then do
      let operands ← op.applyTop operands
      resolve leaves operands pending
    else
      pure ⟨operands, .operator op :: pending⟩
  | pending => pure ⟨operands, pending⟩

/-- Takes off the entry that stopped a release, which is an open parenthesis, if there is one. -/
def close (state : Stacks α) : Traced (Stacks α) :=
  match state.pending with
  | [] => .fail .unbalancedParentheses
  | _ :: pending => pure { state with pending }

/-- The one operand that must be left, with nothing waiting. -/
def single (state : Stacks α) : Traced α :=
  match state.operands, state.pending with
  | [value], [] => pure value
  | operands, pending => .fail (.malformedExpression operands.length pending.length)

/-- What one token does to the stacks. -/
def step (state : Stacks α) : Token α → Traced (Stacks α)
  | .number value => pure { state with operands := value :: state.operands }
  | .operator incoming => do
    let state ← resolve (·.resolvesBefore incoming) state.operands state.pending
    pure { state with pending := .operator incoming :: state.pending }
  | .openParen => pure { state with pending := .openParen :: state.pending }
  | .closeParen => do
    let state ← resolve (fun _ => true) state.operands state.pending
    state.close

/-- The stacks after a list of tokens. -/
def run (state : Stacks α) (tokens : List (Token α)) : Traced (Stacks α) :=
  tokens.foldlM step state

/-- Applies what still waits, and takes the one operand that must be left. An open parenthesis
stays, so it is found here. -/
def finish (state : Stacks α) : Traced α := do
  let state ← resolve (fun _ => true) state.operands state.pending
  state.single

end Stacks

/-- The value of a token list. -/
def reduce {α : Type} [Arithmetic α] (tokens : List (Token α)) : Traced α := do
  let state ← Stacks.run .empty tokens
  state.finish

/-! ## Laws -/

/-- The end of a reduction has a value or says what is left, which is then not just one operand. -/
theorem Stacks.single_cases {α : Type} (state : Stacks α) :
    (∃ value, state = ⟨[value], []⟩ ∧ state.single = pure value) ∨
      (state.operands.length, state.pending.length) ≠ (1, 0) ∧
        state.single =
          .fail (.malformedExpression state.operands.length state.pending.length) := by
  obtain ⟨operands, pending⟩ := state
  match operands, pending with
  | [value], [] => exact Or.inl ⟨value, rfl, rfl⟩
  | [], _ | _ :: _ :: _, _ | [_], _ :: _ => exact Or.inr ⟨by simp, rfl⟩

theorem Stacks.result_single_eq_ok_iff {α : Type} {state : Stacks α} {value : α} :
    state.single.result = .ok value ↔ state = ⟨[value], []⟩ := by
  constructor
  · intro h
    unfold single at h
    split at h
    · rename_i hoperands hpending
      cases h
      rw [← hoperands, ← hpending]
    · cases h
  · rintro rfl
    rfl

/-- The end of a reduction applies nothing. -/
theorem Stacks.trace_single {α : Type} (state : Stacks α) : state.single.trace = [] := by
  rcases state.single_cases with ⟨value, -, h⟩ | ⟨-, h⟩ <;> rw [h] <;> rfl

/-- Closing a parenthesis finds nothing pending, or takes the top of it off. -/
theorem Stacks.close_cases {α : Type} (state : Stacks α) :
    (state.pending = [] ∧ state.close = .fail .unbalancedParentheses) ∨
      ∃ entry pending, state.pending = entry :: pending ∧
        state.close = pure { state with pending } := by
  obtain ⟨operands, pending⟩ := state
  cases pending with
  | nil => exact Or.inl ⟨rfl, rfl⟩
  | cons entry pending => exact Or.inr ⟨entry, pending, rfl, rfl⟩

theorem Stacks.result_close_eq_ok_iff {α : Type} {state state' : Stacks α} :
    state.close.result = .ok state' ↔
      ∃ entry, state.pending = entry :: state'.pending ∧ state'.operands = state.operands := by
  rcases state.close_cases with ⟨hpending, hclose⟩ | ⟨entry, pending, hpending, hclose⟩
  · rw [hclose, hpending]
    constructor
    · intro h
      cases h
    · rintro ⟨entry, h, -⟩
      cases h
  · rw [hclose, hpending]
    constructor
    · intro h
      cases h
      exact ⟨entry, rfl, rfl⟩
    · rintro ⟨entry', htop, hoperands⟩
      cases htop
      rw [← hoperands]
      rfl

/-- Closing a parenthesis applies nothing. -/
theorem Stacks.trace_close {α : Type} (state : Stacks α) : state.close.trace = [] := by
  rcases state.close_cases with ⟨-, h⟩ | ⟨entry, pending, -, h⟩ <;> rw [h] <;> rfl

section Laws

variable {α : Type} [Arithmetic α]

theorem Operator.applyTop_of_lt {op : Operator} {operands : List α}
    (h : operands.length < op.arity) :
    op.applyTop operands = .fail (.stackUnderflow op op.arity operands.length) :=
  if_pos h

theorem Operator.applyTop_neg (x : α) (operands : List α) :
    neg.applyTop (x :: operands) = .record ⟨neg, operands.length + 1⟩ (-x :: operands) := by
  have h : ¬(x :: operands).length < neg.arity := by simp [arity]
  rw [applyTop, if_neg h]
  rfl

theorem Operator.applyTop_binary {op : Operator} (hop : op.isUnary = false) (x y : α)
    (operands : List α) :
    op.applyTop (y :: x :: operands) =
      .record ⟨op, operands.length + 1⟩ (op.applyBinary x y :: operands) := by
  have h : ¬(y :: x :: operands).length < op.arity := by cases op <;> simp [arity]
  rw [applyTop, if_neg h]
  cases op with
  | neg => cases hop
  | _ => rfl

/-- An operator finds too few operands, or puts one value in the place of those it takes and records
how many operands there are then. -/
theorem Operator.applyTop_cases (op : Operator) (operands : List α) :
    (operands.length < op.arity ∧
        op.applyTop operands = .fail (.stackUnderflow op op.arity operands.length)) ∨
      ∃ value below, op.applyTop operands = .record ⟨op, below.length + 1⟩ (value :: below) := by
  rcases op.arity_cases operands with hlt | ⟨rfl, x, below, rfl⟩ | ⟨hop, y, x, below, rfl⟩
  · exact .inl ⟨hlt, applyTop_of_lt hlt⟩
  · exact .inr ⟨_, _, applyTop_neg x below⟩
  · exact .inr ⟨_, _, applyTop_binary hop x y below⟩

namespace Stacks

theorem resolve_of_leaves (leaves : Operator → Bool) {op : Operator} (h : leaves op = true)
    (operands : List α) (pending : List Pending) :
    resolve leaves operands (.operator op :: pending) =
      op.applyTop operands >>= fun operands => resolve leaves operands pending :=
  if_pos h

theorem resolve_of_stays (leaves : Operator → Bool) {op : Operator} (h : leaves op = false)
    (operands : List α) (pending : List Pending) :
    resolve leaves operands (.operator op :: pending) =
      pure ⟨operands, .operator op :: pending⟩ :=
  if_neg (by rw [h]; exact Bool.false_ne_true)

theorem step_operator (state : Stacks α) (incoming : Operator) :
    state.step (.operator incoming) =
      resolve (·.resolvesBefore incoming) state.operands state.pending >>= fun state =>
        pure { state with pending := .operator incoming :: state.pending } := rfl

theorem step_closeParen (state : Stacks α) :
    state.step .closeParen =
      resolve (fun _ => true) state.operands state.pending >>= close := rfl

theorem run_cons (state : Stacks α) (token : Token α) (tokens : List (Token α)) :
    state.run (token :: tokens) = state.step token >>= fun state => state.run tokens := rfl

theorem run_singleton (state : Stacks α) (token : Token α) : state.run [token] = state.step token :=
  bind_pure _

theorem run_append (state : Stacks α) (front back : List (Token α)) :
    state.run (front ++ back) = state.run front >>= fun state => state.run back :=
  List.foldlM_append

end Stacks

end Laws

end InfixArithmetic
