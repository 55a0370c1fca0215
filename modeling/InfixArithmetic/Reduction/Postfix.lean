/-
  Reduction in two phases: a token list is first put into postfix order, and the postfix program is
  then run on a stack.

  The first phase keeps the same pending stack as `reduce`, but what leaves it is queued instead of
  applied; it stops at a closing parenthesis that closes nothing. The second phase runs what is in
  the queue. `reduceByPostfix` puts the outcome together: an operator without operands comes first,
  then a stray parenthesis, then what is left over.
-/
import InfixArithmetic.Reduction.Basic

namespace InfixArithmetic

/-- One item of a postfix program. -/
inductive PostfixItem (α : Type) where
  | number (value : α)
  | operator (op : Operator)
  deriving DecidableEq, Repr

/-! ## First phase -/

/-- A postfix program, as far as it is known, and what waits to enter it. -/
structure Conversion (α : Type) where
  /-- The items in order. -/
  queue : List (PostfixItem α) := []
  /-- The pending stack, its top first. -/
  pending : List Pending := []
  /-- Whether a closing parenthesis closed nothing; the conversion then stands still. -/
  stray : Bool := false
  deriving DecidableEq, Repr

/-- The operators at the top of the pending stack that satisfy `leaves`, and what stays. -/
def Pending.release (leaves : Operator → Bool) : List Pending → List Operator × List Pending
  | .operator op :: pending =>
    if leaves op then
      let (released, rest) := release leaves pending
      (op :: released, rest)
    else ([], .operator op :: pending)
  | pending => ([], pending)

namespace Conversion

variable {α : Type}

/-- Queues the operators at the top of the pending stack that satisfy `leaves`. -/
def release (leaves : Operator → Bool) (conversion : Conversion α) : Conversion α :=
  let (released, pending) := Pending.release leaves conversion.pending
  { conversion with queue := conversion.queue ++ released.map .operator, pending }

/-- Reads one token. -/
def step (conversion : Conversion α) (token : Token α) : Conversion α :=
  if conversion.stray then conversion
  else
    match token with
    | .number value => { conversion with queue := conversion.queue ++ [.number value] }
    | .operator incoming =>
      let conversion := conversion.release (·.resolvesBefore incoming)
      { conversion with pending := .operator incoming :: conversion.pending }
    | .openParen => { conversion with pending := .openParen :: conversion.pending }
    | .closeParen =>
      let conversion := conversion.release fun _ => true
      match conversion.pending with
      | [] => { conversion with stray := true }
      | _ :: pending => { conversion with pending }

/-- The postfix program of a token list. -/
def ofTokens (tokens : List (Token α)) : Conversion α :=
  let conversion := tokens.foldl step {}
  if conversion.stray then conversion else conversion.release fun _ => true

end Conversion

/-! ## Second phase -/

/-- Runs a postfix program on a stack of operands, the top first. -/
def runPostfix {α : Type} [Arithmetic α] :
    List (PostfixItem α) → List α → Except EvalError (List α)
  | [], operands => .ok operands
  | .number value :: items, operands => runPostfix items (value :: operands)
  | .operator .neg :: items, x :: operands => runPostfix items (-x :: operands)
  | .operator .neg :: _, [] => .error (.stackUnderflow .neg 1 0)
  | .operator .add :: items, y :: x :: operands => runPostfix items ((x + y) :: operands)
  | .operator .sub :: items, y :: x :: operands => runPostfix items ((x - y) :: operands)
  | .operator .mul :: items, y :: x :: operands => runPostfix items ((x * y) :: operands)
  | .operator .div :: items, y :: x :: operands => runPostfix items ((x / y) :: operands)
  | .operator op :: _, operands => .error (.stackUnderflow op op.arity operands.length)

/-! ## Both -/

/-- The value of a token list by way of its postfix program. -/
def reduceByPostfix {α : Type} [Arithmetic α] (tokens : List (Token α)) : Except EvalError α :=
  let conversion := Conversion.ofTokens tokens
  match runPostfix conversion.queue [] with
  | .error underflow => .error underflow
  | .ok operands =>
    if conversion.stray then .error .unbalancedParentheses
    else
      match operands, conversion.pending with
      | [value], [] => .ok value
      | operands, pending => .error (.malformedExpression operands.length pending.length)

/-! ## Laws of the first phase -/

namespace Conversion

variable {α : Type} {conversion : Conversion α}

theorem step_of_stray (h : conversion.stray = true) (token : Token α) :
    conversion.step token = conversion :=
  if_pos h

theorem step_number (h : conversion.stray = false) (value : α) :
    conversion.step (.number value) =
      { conversion with queue := conversion.queue ++ [.number value] } :=
  if_neg (by rw [h]; exact Bool.false_ne_true)

theorem step_operator (h : conversion.stray = false) (incoming : Operator) :
    conversion.step (.operator incoming) =
      { conversion.release (·.resolvesBefore incoming) with
        pending := .operator incoming ::
          (conversion.release (·.resolvesBefore incoming)).pending } :=
  if_neg (by rw [h]; exact Bool.false_ne_true)

theorem step_openParen (h : conversion.stray = false) :
    conversion.step .openParen = { conversion with pending := .openParen :: conversion.pending } :=
  if_neg (by rw [h]; exact Bool.false_ne_true)

/-- A closing parenthesis takes the entry off that stops the release. -/
theorem step_closeParen (h : conversion.stray = false) {entry : Pending} {rest : List Pending}
    (hpending : (conversion.release fun _ => true).pending = entry :: rest) :
    conversion.step .closeParen =
      { conversion.release fun _ => true with pending := rest } := by
  refine (if_neg (by rw [h]; exact Bool.false_ne_true)).trans ?_
  dsimp only
  rw [hpending]

theorem step_closeParen_of_nil (h : conversion.stray = false)
    (hpending : (conversion.release fun _ => true).pending = []) :
    conversion.step .closeParen =
      { conversion.release fun _ => true with stray := true } := by
  refine (if_neg (by rw [h]; exact Bool.false_ne_true)).trans ?_
  dsimp only
  rw [hpending]

end Conversion

end InfixArithmetic
