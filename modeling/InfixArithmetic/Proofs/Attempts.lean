/-
  The applications that a reduction comes to, and the one way in which one of them fails.

  An application is an operator and the operands that are there when it leaves the pending stack.
  `attempts` lists them in order, up to one that fails. A computation makes a list of them if its
  record is theirs and it ends in an underflow exactly if one of them does (`Traced.Makes`). This is
  kept by `bind` and passes from an application to a resolution, a token and a reduction.

  An application looks twice at what it has: first whether the operands are as many as the operator
  takes, then whether the operator has a value on those it took. The second look never finds
  anything else than the first one (`Operator.exists_applyTop`). So an underflow is always found by
  the first look, before an operand is taken, and the numbers in it are those of the stack
  (`stackUnderflow_truthful`).
-/
import InfixArithmetic.Proofs.Conservation
import InfixArithmetic.Proofs.Postfix
import InfixArithmetic.Real.Literal

namespace InfixArithmetic

/-! ## One application -/

section

variable {α : Type} [Arithmetic α]

/-- The value of an operator on the operands that it takes, the top first: the deeper one of two is
the left one. -/
inductive Operator.Yields : Operator → List α → α → Prop where
  | add (lhs rhs : α) : Yields add [rhs, lhs] (lhs + rhs)
  | sub (lhs rhs : α) : Yields sub [rhs, lhs] (lhs - rhs)
  | mul (lhs rhs : α) : Yields mul [rhs, lhs] (lhs * rhs)
  | div (lhs rhs : α) : Yields div [rhs, lhs] (lhs / rhs)
  | neg (x : α) : Yields neg [x] (-x)

theorem Operator.yields_applyBinary {op : Operator} (hop : op.isUnary = false) (lhs rhs : α) :
    op.Yields [rhs, lhs] (op.applyBinary lhs rhs) := by
  cases op with
  | neg => cases hop
  | add => exact .add lhs rhs
  | sub => exact .sub lhs rhs
  | mul => exact .mul lhs rhs
  | div => exact .div lhs rhs

theorem Operator.applyTo?_of_yields {op : Operator} {taken : List α} {value : α}
    (h : op.Yields taken value) :
    taken.length = op.arity ∧ op.applyTo? taken.reverse = some value := by
  cases h <;> exact ⟨rfl, rfl⟩

/-- With enough operands an operator takes as many as it needs from the top, and puts its value on
those below. -/
theorem Operator.exists_applyTop {op : Operator} {operands : List α}
    (h : op.arity ≤ operands.length) :
    ∃ taken value below, operands = taken ++ below ∧ op.Yields taken value ∧
      op.applyTop operands = .record ⟨op, below.length + 1⟩ (value :: below) := by
  rcases op.arity_cases operands with hlt | ⟨rfl, x, below, rfl⟩ | ⟨hop, rhs, lhs, below, rfl⟩
  · exact absurd hlt (Nat.not_lt.mpr h)
  · exact ⟨[x], -x, below, rfl, .neg x, applyTop_neg x below⟩
  · exact ⟨[rhs, lhs], op.applyBinary lhs rhs, below, rfl, yields_applyBinary hop lhs rhs,
      applyTop_binary hop lhs rhs below⟩

/-- The operands that are taken have a value. -/
theorem Operator.exists_applyTo?_take {op : Operator} {operands : List α}
    (h : op.arity ≤ operands.length) :
    ∃ value, op.applyTo? (operands.take op.arity).reverse = some value := by
  obtain ⟨taken, value, below, rfl, hyields, -⟩ := exists_applyTop h
  obtain ⟨hlength, hvalue⟩ := applyTo?_of_yields hyields
  refine ⟨value, ?_⟩
  rw [← hlength, List.take_left]
  exact hvalue

theorem Operator.result_applyTop_eq_error_iff {op : Operator} {operands : List α} {e : EvalError} :
    (op.applyTop operands).result = .error e ↔
      operands.length < op.arity ∧ e = .stackUnderflow op op.arity operands.length := by
  rcases Nat.lt_or_ge operands.length op.arity with hlt | hle
  · rw [applyTop_of_lt hlt]
    exact ⟨fun h => ⟨hlt, (Except.error.inj h).symm⟩, fun h => congrArg Except.error h.2.symm⟩
  · obtain ⟨taken, value, below, -, -, happly⟩ := exists_applyTop hle
    rw [happly]
    exact ⟨fun h => (nomatch h), fun h => absurd h.1 (Nat.not_lt.mpr hle)⟩

end

/-- An application that a computation comes to: an operator, and the operands that are there, the
top first. -/
structure Attempt (α : Type) where
  operator : Operator
  operands : List α

/-- What becomes of an application. -/
def Attempt.outcome {α : Type} [Arithmetic α] (attempt : Attempt α) : Traced (List α) :=
  attempt.operator.applyTop attempt.operands

/-! ## Lists of applications -/

namespace Traced

/-- What a value gives rise to, and nothing behind a failure. -/
def andThen {β γ : Type} (x : Traced β) (f : β → List γ) : List γ :=
  match x.result with
  | .ok b => f b
  | .error _ => []

theorem andThen_of_ok {β γ : Type} {x : Traced β} {b : β} (h : x.result = .ok b)
    (f : β → List γ) : x.andThen f = f b := by
  rw [andThen, h]

theorem andThen_of_error {β γ : Type} {x : Traced β} {e : EvalError} (h : x.result = .error e)
    (f : β → List γ) : x.andThen f = [] := by
  rw [andThen, h]

theorem mem_andThen_iff {β γ : Type} {x : Traced β} {f : β → List γ} {c : γ} :
    c ∈ x.andThen f ↔ ∃ b, x.result = .ok b ∧ c ∈ f b := by
  cases h : x.result with
  | ok b =>
    rw [andThen_of_ok h]
    constructor
    · intro hmem
      exact ⟨b, rfl, hmem⟩
    · rintro ⟨b', heq, hmem⟩
      cases heq
      exact hmem
  | error e =>
    rw [andThen_of_error h]
    constructor
    · intro hmem
      cases hmem
    · rintro ⟨b, heq, -⟩
      cases heq

variable {α β γ : Type} [Arithmetic α]

/-- Whether a computation consists of these applications: its record is theirs, and it ends in an
underflow exactly if one of them does. -/
structure Makes (x : Traced β) (attempts : List (Attempt α)) : Prop where
  trace : x.trace = attempts.flatMap fun attempt => attempt.outcome.trace
  underflow (op : Operator) (needed available : Nat) :
    x.result = .error (.stackUnderflow op needed available) ↔
      ∃ attempt ∈ attempts, attempt.outcome.result = .error (.stackUnderflow op needed available)

/-- A computation that records nothing and does not underflow makes no application. -/
theorem makes_nil {x : Traced β} (htrace : x.trace = [])
    (hresult : ∀ op needed available, x.result ≠ .error (.stackUnderflow op needed available)) :
    x.Makes ([] : List (Attempt α)) := by
  refine ⟨htrace, fun op needed available => ⟨fun h => absurd h (hresult op needed available), ?_⟩⟩
  rintro ⟨attempt, hmem, -⟩
  cases hmem

theorem makes_pure (b : β) : (pure b : Traced β).Makes ([] : List (Attempt α)) :=
  makes_nil rfl fun _ _ _ h => (nomatch h)

theorem makes_outcome (attempt : Attempt α) : attempt.outcome.Makes [attempt] := by
  refine ⟨(List.flatMap_singleton _ _).symm, fun op needed available => ?_⟩
  constructor
  · intro h
    exact ⟨attempt, List.mem_singleton_self attempt, h⟩
  · rintro ⟨attempt', hmem, h⟩
    rwa [List.mem_singleton.mp hmem] at h

/-- The applications of the second computation stand behind those of the first one. -/
theorem Makes.bind {x : Traced β} {f : β → Traced γ} {attempts : List (Attempt α)}
    {rest : β → List (Attempt α)} (hx : x.Makes attempts) (hf : ∀ b, (f b).Makes (rest b)) :
    (x >>= f).Makes (attempts ++ x.andThen rest) := by
  cases hresult : x.result with
  | error e =>
    rw [bind_of_error hresult, andThen_of_error hresult, List.append_nil]
    refine ⟨hx.trace, fun op needed available => ?_⟩
    have hiff := hx.underflow op needed available
    rw [hresult, Except.error.injEq] at hiff
    rwa [Except.error.injEq]
  | ok b =>
    rw [bind_of_ok hresult, andThen_of_ok hresult]
    refine ⟨?_, fun op needed available => ?_⟩
    · rw [List.flatMap_append, hx.trace, (hf b).trace]
    · refine ((hf b).underflow op needed available).trans ?_
      constructor
      · rintro ⟨attempt, hmem, h⟩
        exact ⟨attempt, List.mem_append_right attempts hmem, h⟩
      · rintro ⟨attempt, hmem, h⟩
        rcases List.mem_append.mp hmem with hfirst | hrest
        -- the first computation would have failed
        · have herror := (hx.underflow op needed available).mpr ⟨attempt, hfirst, h⟩
          rw [hresult] at herror
          cases herror
        · exact ⟨attempt, hrest, h⟩

/-- What makes no application adds none. -/
theorem Makes.bind_of_nil {x : Traced β} {f : β → Traced γ} {attempts : List (Attempt α)}
    (hx : x.Makes attempts) (hf : ∀ b, (f b).Makes ([] : List (Attempt α))) :
    (x >>= f).Makes attempts := by
  have hbind := hx.bind hf
  have hnil : x.andThen (fun _ => ([] : List (Attempt α))) = [] := by
    cases hresult : x.result with
    | error e => exact andThen_of_error hresult _
    | ok b => exact andThen_of_ok hresult _
  rwa [hnil, List.append_nil] at hbind

end Traced

/-! ## The applications of a reduction -/

variable {α : Type} [Arithmetic α]

namespace Stacks

/-- The applications of a resolution. -/
def resolveAttempts (leaves : Operator → Bool) (operands : List α) :
    List Pending → List (Attempt α)
  | .operator op :: pending =>
    if leaves op then
      ⟨op, operands⟩ :: (op.applyTop operands).andThen fun operands =>
        resolveAttempts leaves operands pending
    else []
  | _ => []

/-- The applications that a token causes. -/
def stepAttempts (state : Stacks α) : Token α → List (Attempt α)
  | .operator incoming =>
    resolveAttempts (·.resolvesBefore incoming) state.operands state.pending
  | .closeParen => resolveAttempts (fun _ => true) state.operands state.pending
  | _ => []

/-- The applications of a list of tokens and of its end. -/
def attempts (state : Stacks α) : List (Token α) → List (Attempt α)
  | [] => resolveAttempts (fun _ => true) state.operands state.pending
  | token :: tokens =>
    state.stepAttempts token ++ (state.step token).andThen fun state => state.attempts tokens

theorem makes_resolve (leaves : Operator → Bool) (operands : List α) (pending : List Pending) :
    (resolve leaves operands pending).Makes (resolveAttempts leaves operands pending) := by
  induction pending generalizing operands with
  | nil => exact Traced.makes_pure _
  | cons entry pending ih =>
    cases entry with
    | openParen => exact Traced.makes_pure _
    | operator op =>
      rw [resolveAttempts]
      cases hleaves : leaves op with
      | false =>
        rw [resolve_of_stays leaves hleaves]
        exact Traced.makes_pure _
      | true =>
        rw [resolve_of_leaves leaves hleaves]
        exact (Traced.makes_outcome ⟨op, operands⟩).bind ih

theorem makes_close (state : Stacks α) : state.close.Makes ([] : List (Attempt α)) := by
  refine Traced.makes_nil state.trace_close fun op needed available h => ?_
  rcases state.close_cases with ⟨-, hclose⟩ | ⟨entry, pending, -, hclose⟩ <;>
    rw [hclose] at h <;> cases h

theorem makes_single (state : Stacks α) : state.single.Makes ([] : List (Attempt α)) := by
  refine Traced.makes_nil state.trace_single fun op needed available h => ?_
  rcases state.single_cases with ⟨value, -, hsingle⟩ | ⟨-, hsingle⟩ <;>
    rw [hsingle] at h <;> cases h

theorem makes_step (state : Stacks α) (token : Token α) :
    (state.step token).Makes (state.stepAttempts token) := by
  cases token with
  | number value => exact Traced.makes_pure _
  | openParen => exact Traced.makes_pure _
  | operator incoming =>
    exact (makes_resolve _ _ _).bind_of_nil fun _ => Traced.makes_pure _
  | closeParen => exact (makes_resolve _ _ _).bind_of_nil makes_close

/-- The end of the tokens belongs to the run here: what is drained there is applied as well. -/
theorem makes_run_finish (state : Stacks α) (tokens : List (Token α)) :
    (state.run tokens >>= finish).Makes (state.attempts tokens) := by
  induction tokens generalizing state with
  | nil => exact (makes_resolve _ _ _).bind_of_nil makes_single
  | cons token tokens ih =>
    rw [run_cons, bind_assoc]
    exact (state.makes_step token).bind ih

/-! ## Operators of applications -/

theorem mem_pending_of_resolveAttempts {leaves : Operator → Bool} {operands : List α}
    {pending : List Pending} {attempt : Attempt α}
    (h : attempt ∈ resolveAttempts leaves operands pending) :
    .operator attempt.operator ∈ pending := by
  induction pending generalizing operands with
  | nil => cases h
  | cons entry pending ih =>
    cases entry with
    | openParen => cases h
    | operator op =>
      rw [resolveAttempts] at h
      split at h
      · rcases List.mem_cons.mp h with rfl | hrest
        · exact List.mem_cons_self
        · obtain ⟨rest, -, hmem⟩ := Traced.mem_andThen_iff.mp hrest
          exact List.mem_cons_of_mem _ (ih hmem)
      · cases h

theorem mem_pending_of_stepAttempts {state : Stacks α} {token : Token α} {attempt : Attempt α}
    (h : attempt ∈ state.stepAttempts token) : .operator attempt.operator ∈ state.pending := by
  cases token with
  | number value => cases h
  | openParen => cases h
  | operator incoming => exact mem_pending_of_resolveAttempts h
  | closeParen => exact mem_pending_of_resolveAttempts h

theorem pending_subset_of_resolve {leaves : Operator → Bool} {operands : List α}
    {pending : List Pending} {state : Stacks α}
    (h : (resolve leaves operands pending).result = .ok state) : state.pending ⊆ pending := by
  rw [pending_of_resolve h]
  exact (Pending.suffix_release leaves pending).subset

/-- An operator that waits behind a token has waited before it, or is the token. -/
theorem operator_mem_pending_of_step {state state' : Stacks α} {token : Token α} {op : Operator}
    (h : (state.step token).result = .ok state') (hop : .operator op ∈ state'.pending) :
    .operator op ∈ state.pending ∨ token = .operator op := by
  cases token with
  | number value =>
    cases h
    exact .inl hop
  | openParen =>
    cases h
    rcases List.mem_cons.mp hop with heq | hop
    · cases heq
    · exact .inl hop
  | operator incoming =>
    rw [step_operator, Traced.result_bind_eq_ok_iff] at h
    obtain ⟨middle, hresolve, hpush⟩ := h
    cases hpush
    rcases List.mem_cons.mp hop with heq | hop
    · cases heq
      exact .inr rfl
    · exact .inl (pending_subset_of_resolve hresolve hop)
  | closeParen =>
    rw [step_closeParen, Traced.result_bind_eq_ok_iff] at h
    obtain ⟨middle, hresolve, hclose⟩ := h
    obtain ⟨entry, hpending, -⟩ := result_close_eq_ok_iff.mp hclose
    refine .inl (pending_subset_of_resolve hresolve ?_)
    rw [hpending]
    exact List.mem_cons_of_mem entry hop

/-- Only operators that wait or are read are applied. -/
theorem operator_mem_of_attempts {state : Stacks α} {tokens : List (Token α)}
    {attempt : Attempt α} (h : attempt ∈ state.attempts tokens) :
    .operator attempt.operator ∈ state.pending ∨ .operator attempt.operator ∈ tokens := by
  induction tokens generalizing state with
  | nil => exact .inl (mem_pending_of_resolveAttempts h)
  | cons token tokens ih =>
    rcases List.mem_append.mp h with hstep | hrest
    · exact .inl (mem_pending_of_stepAttempts hstep)
    · obtain ⟨middle, hmiddle, hmem⟩ := Traced.mem_andThen_iff.mp hrest
      rcases ih hmem with hpending | htokens
      · rcases operator_mem_pending_of_step hmiddle hpending with hbefore | rfl
        · exact .inl hbefore
        · exact .inr List.mem_cons_self
      · exact .inr (List.mem_cons_of_mem token htokens)

end Stacks

/-- The applications of a reduction, first one first. -/
def attempts (tokens : List (Token α)) : List (Attempt α) := Stacks.attempts .empty tokens

theorem makes_reduce (tokens : List (Token α)) : (reduce tokens).Makes (attempts tokens) :=
  Stacks.makes_run_finish .empty tokens

theorem operator_mem_of_mem_attempts {tokens : List (Token α)} {attempt : Attempt α}
    (h : attempt ∈ attempts tokens) : .operator attempt.operator ∈ tokens := by
  rcases Stacks.operator_mem_of_attempts h with hpending | htokens
  · cases hpending
  · exact htokens

/-! ## Underflow -/

/-- A reduction that reports an underflow has come to an operator of its tokens with too few
operands, and says which one, how many it takes and how many there were. Coming to such an operator
is the only way to an underflow: with enough operands there is always a value. The operator then has
taken as many operands as it needs from the top, the deeper one of two as its left one, and put the
value on those below, which stay as they were. -/
theorem stackUnderflow_truthful (tokens : List (Token α)) :
    (reduce tokens).trace = (attempts tokens).flatMap (fun attempt => attempt.outcome.trace) ∧
      (∀ op needed available,
        (reduce tokens).result = .error (.stackUnderflow op needed available) →
        .operator op ∈ tokens ∧ needed = op.arity ∧ available < needed ∧
          ∃ operands, ⟨op, operands⟩ ∈ attempts tokens ∧ operands.length = available) ∧
      (∀ op operands, ⟨op, operands⟩ ∈ attempts tokens →
        (operands.length < op.arity →
          (reduce tokens).result = .error (.stackUnderflow op op.arity operands.length)) ∧
        (op.arity ≤ operands.length →
          ∃ value, op.applyTo? (operands.take op.arity).reverse = some value)) ∧
      ∀ (op : Operator) (operands : List α), op.arity ≤ operands.length →
        ∃ taken value below, operands = taken ++ below ∧ taken.length = op.arity ∧
          op.Yields taken value ∧
          op.applyTop operands = .record ⟨op, below.length + 1⟩ (value :: below) := by
  have hmakes := makes_reduce tokens
  refine ⟨hmakes.trace, fun op needed available h => ?_, fun op operands hmem => ?_,
    fun op operands hle => ?_⟩
  · obtain ⟨⟨op', operands⟩, hmem, herror⟩ := (hmakes.underflow op needed available).mp h
    obtain ⟨hlt, heq⟩ := Operator.result_applyTop_eq_error_iff.mp herror
    cases heq
    exact ⟨operator_mem_of_mem_attempts hmem, rfl, hlt, operands, hmem, rfl⟩
  · refine ⟨fun hlt => ?_, Operator.exists_applyTo?_take⟩
    have herror := Operator.result_applyTop_eq_error_iff.mpr ⟨hlt, rfl⟩
    exact (hmakes.underflow _ _ _).mpr ⟨⟨op, operands⟩, hmem, herror⟩
  · obtain ⟨taken, value, below, heq, hyields, happly⟩ := Operator.exists_applyTop hle
    exact ⟨taken, value, below, heq, (Operator.applyTo?_of_yields hyields).1, hyields, happly⟩

/-- A difference without a right operand takes the operand of the product in front of its
parenthesis, and it is the product that lacks one. -/
theorem stackUnderflow_truthful_displaced :
    let tokens : List (Token Float) :=
      [.number 7, .operator .mul, .openParen, .operator .neg, .number 2, .operator .sub,
        .closeParen]
    attempts tokens = [⟨.neg, [2, 7]⟩, ⟨.sub, [-2, 7]⟩, ⟨.mul, [7 - -2]⟩] ∧
      (reduce tokens).trace = [⟨.neg, 2⟩, ⟨.sub, 1⟩] ∧
      (reduce tokens).result = .error (.stackUnderflow .mul 2 1) ∧
      (.operator .mul ∈ tokens ∧ 2 = Operator.mul.arity ∧ 1 < 2 ∧
        ∃ operands, ⟨.mul, operands⟩ ∈ attempts tokens ∧ operands.length = 1) ∧
      (∃ value : Float, Operator.sub.applyTo? ([-2, 7].take 2).reverse = some value) ∧
      ∃ (taken : List Float) (value : Float) (below : List Float),
        [2, 7] = taken ++ below ∧ taken.length = 1 ∧ Operator.neg.Yields taken value ∧
          Operator.neg.applyTop [2, 7] = .record ⟨.neg, below.length + 1⟩ (value :: below) := by
  intro tokens
  have hattempts : attempts tokens = [⟨.neg, [2, 7]⟩, ⟨.sub, [-2, 7]⟩, ⟨.mul, [7 - -2]⟩] := rfl
  obtain ⟨htrace, hunderflow, hreached, happly⟩ := stackUnderflow_truthful tokens
  have hmul : ⟨.mul, [7 - -2]⟩ ∈ attempts tokens := by
    rw [hattempts]
    exact List.mem_cons_of_mem _ (List.mem_cons_of_mem _ List.mem_cons_self)
  have hsub : ⟨.sub, [-2, 7]⟩ ∈ attempts tokens := by
    rw [hattempts]
    exact List.mem_cons_of_mem _ List.mem_cons_self
  have hresult := (hreached _ _ hmul).1 Nat.one_lt_two
  exact ⟨hattempts, htrace.trans (by rw [hattempts]; rfl), hresult, hunderflow .mul 2 1 hresult,
    (hreached _ _ hsub).2 (Nat.le_refl 2), happly .neg [2, 7] (Nat.le_succ 1)⟩

end InfixArithmetic
